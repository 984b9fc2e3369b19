import ModuleInspector.Metadata.TypeRef
import ModuleInspector.Proofs.Text.Brackets

/-!
# Reading a type back from its text

The text of a type determines the type when the names in it have none of the marks that a text
puts around names, and the few things that the text leaves out are settled otherwise: what a
definition has behind its backtick, and whether a name is that of a generic parameter. The last
character of a text tells the form of the type, and the arguments of a generic type are told apart
by their commas.
-/

namespace ModuleInspector.TypeRef

/-- What references are built from: the names of generic parameters and of types, the generic
definitions for a number of arguments, and the ranks of arrays. -/
structure Grammar where
  parameter : String → Prop
  type : String → Prop
  definition : String → Nat → Prop
  rank : UInt32 → Prop

/-- The references that a grammar builds, at every depth. -/
inductive Grammar.Builds (g : Grammar) : TypeRef → Prop
  | parameter {name : String} (hname : g.parameter name) : Builds g (.named name none)
  | type {name fullName : String} (hname : g.type fullName) :
    Builds g (.named name (some fullName))
  | generic {definition : String} {arguments : List TypeRef}
    (hdefinition : g.definition definition arguments.length)
    (harguments : ∀ argument ∈ arguments, Builds g argument) :
    Builds g (.generic definition arguments)
  | array {element : TypeRef} {rank : UInt32} (helement : Builds g element)
    (hrank : g.rank rank) : Builds g (.array element rank)
  | byRef {element : TypeRef} (helement : Builds g element) : Builds g (.byRef element)

/-- Two references that are equal but for the simple names that qualified names come with. -/
inductive Same : TypeRef → TypeRef → Prop
  | parameter (name : String) : Same (.named name none) (.named name none)
  | type (left right fullName : String) :
    Same (.named left (some fullName)) (.named right (some fullName))
  | generic (definition : String) {left right : List TypeRef}
    (harguments : List.Forall₂ Same left right) :
    Same (.generic definition left) (.generic definition right)
  | array {left right : TypeRef} (helement : Same left right) (rank : UInt32) :
    Same (.array left rank) (.array right rank)
  | byRef {left right : TypeRef} (helement : Same left right) : Same (.byRef left) (.byRef right)

/-- The text of an instance of a generic definition. -/
theorem toList_text_generic (definition : String) (arguments : List TypeRef) :
    (generic definition arguments).text.toList =
      (definitionStem definition).toList ++
        '<' :: ((Text.join ", " (texts arguments)).toList ++ ['>']) := by
  simp [text]

/-- The text of an array type. -/
theorem toList_text_array (element : TypeRef) (rank : UInt32) :
    (array element rank).text.toList =
      element.text.toList ++ '[' :: (List.replicate (rank.toNat - 1) ',' ++ [']']) := by
  simp [text, brackets]

/-- The text of a type that is passed by reference. -/
theorem toList_text_byRef (element : TypeRef) :
    (byRef element).text.toList = element.text.toList ++ ['&'] := by
  simp [text]

/-- Two array types with the same text have elements with the same text, and as many commas. -/
theorem array_text_inj {left right : TypeRef} {leftRank rightRank : UInt32}
    (htext : (array left leftRank).text = (array right rightRank).text) :
    left.text = right.text ∧ leftRank.toNat - 1 = rightRank.toNat - 1 := by
  have hlist := congrArg (fun text => text.toList.reverse) htext
  simp only [toList_text_array, List.reverse_append, List.reverse_cons, List.reverse_nil,
    List.nil_append, List.reverse_replicate, List.cons_append,
    List.cons.injEq, true_and, List.append_assoc] at hlist
  have hbracket (count : Nat) : '[' ∉ List.replicate count ',' := by simp
  obtain ⟨hcommas, helement⟩ := Text.append_cons_inj (hbracket _) (hbracket _) hlist
  exact ⟨String.toList_inj.mp (List.reverse_inj.mp helement), by simpa using hcommas⟩

/-- Two types that are passed by reference and have the same text have elements with the same
text. -/
theorem byRef_text_inj {left right : TypeRef} (htext : (byRef left).text = (byRef right).text) :
    left.text = right.text := by
  have hlist := congrArg String.toList htext
  rw [toList_text_byRef, toList_text_byRef] at hlist
  exact String.toList_inj.mp (List.append_cancel_right hlist)

/-- Two instances of generic definitions with the same text have the same stem and the same
joined arguments, provided that the stems have no marks. -/
theorem generic_text_inj {leftName rightName : String} {left right : List TypeRef}
    (hleft : Text.Unmarked (definitionStem leftName))
    (hright : Text.Unmarked (definitionStem rightName))
    (htext : (generic leftName left).text = (generic rightName right).text) :
    definitionStem leftName = definitionStem rightName ∧
      Text.join ", " (texts left) = Text.join ", " (texts right) := by
  have hlist := congrArg String.toList htext
  rw [toList_text_generic, toList_text_generic] at hlist
  obtain ⟨hstem, hinner⟩ := Text.append_cons_inj (Text.notMem_of_unmarked hleft rfl)
    (Text.notMem_of_unmarked hright rfl) hlist
  exact ⟨String.toList_inj.mp hstem, String.toList_inj.mp (List.append_cancel_right hinner)⟩

/-- The mark that a text ends with: none behind a name. -/
def ending? : TypeRef → Option Char
  | named _ _ => none
  | generic _ _ => some '>'
  | array _ _ => some ']'
  | byRef _ => some '&'

mutual

/-- The same references have the same text. -/
theorem Same.text_eq {left right : TypeRef} : Same left right → left.text = right.text
  | .parameter _ => rfl
  | .type _ _ _ => rfl
  | .generic definition harguments => by rw [text, text, texts_eq_of_same harguments]
  | .array helement rank => by rw [text, text, helement.text_eq]
  | .byRef helement => by rw [text, text, helement.text_eq]

/-- The same references, element by element, have the same texts. -/
theorem texts_eq_of_same {left right : List TypeRef} :
    List.Forall₂ Same left right → texts left = texts right
  | .nil => rfl
  | .cons hfirst hrest => by rw [texts, texts, hfirst.text_eq, texts_eq_of_same hrest]

end

/-- A grammar whose texts can be read back: its names have no marks and none that a text shows
alone is empty, no generic parameter is called like a type, no two definitions for the same number
of arguments differ only behind the backtick, and arrays have a dimension. -/
structure Grammar.Readable (g : Grammar) : Prop where
  unmarked : ∀ {name}, g.parameter name ∨ g.type name → Text.Unmarked name
  nonempty : ∀ {name}, g.parameter name ∨ g.type name → name ≠ ""
  apart : ∀ {name}, g.parameter name → ¬g.type name
  stem : ∀ {definition count}, g.definition definition count →
    Text.Unmarked (definitionStem definition)
  stems : ∀ {left right count}, g.definition left count → g.definition right count →
    definitionStem left = definitionStem right → left = right
  rank : ∀ {rank}, g.rank rank → 1 ≤ rank.toNat

section Readable

variable {g : Grammar} (hreadable : g.Readable)

include hreadable

/-- The text of a reference is sealed. -/
theorem sealed_text {reference : TypeRef} (hbuilt : g.Builds reference) :
    Text.Sealed reference.text.toList := by
  induction hbuilt with
  | parameter hname => exact Text.sealed_of_unmarked (hreadable.unmarked (.inl hname))
  | type hname => exact Text.sealed_of_unmarked (hreadable.unmarked (.inr hname))
  | @generic definition arguments hdefinition harguments ih =>
    have htexts : ∀ text ∈ texts arguments, Text.Sealed text.toList := by
      rw [texts_eq_map]
      simpa using ih
    rw [toList_text_generic]
    exact Text.sealed_append (Text.sealed_of_unmarked (hreadable.stem hdefinition))
      (Text.sealed_enclose (fun depth => by simp [Text.depthAfter])
        (fun depth => by simp [Text.depthAfter]) (Text.foldlM_depthAfter_join htexts))
  | array helement hrank ih =>
    rw [toList_text_array]
    exact Text.sealed_append ih
      (Text.sealed_enclose (fun depth => by simp [Text.depthAfter])
        (fun depth => by simp [Text.depthAfter]) (Text.foldlM_depthAfter_commas _))
  | byRef helement ih =>
    rw [toList_text_byRef]
    exact Text.sealed_append ih fun depth => by simp [Text.depthAfter]

/-- A text is not empty. -/
theorem text_ne_empty {reference : TypeRef} (hbuilt : g.Builds reference) :
    reference.text ≠ "" := by
  cases hbuilt with
  | parameter hname => exact hreadable.nonempty (.inl hname)
  | type hname => exact hreadable.nonempty (.inr hname)
  | generic hdefinition harguments =>
    intro hempty
    simpa [toList_text_generic] using congrArg String.toList hempty
  | array helement hrank =>
    intro hempty
    simpa [toList_text_array] using congrArg String.toList hempty
  | byRef helement =>
    intro hempty
    simpa [toList_text_byRef] using congrArg String.toList hempty

/-- The mark at the end of a text tells the form of the type. -/
theorem ending_text {reference : TypeRef} (hbuilt : g.Builds reference) :
    reference.text.toList.getLast?.filter Text.isMark = reference.ending? := by
  have hname {name : String} (hunmarked : Text.Unmarked name) :
      name.toList.getLast?.filter Text.isMark = none := by
    refine Option.filter_eq_none_iff.mpr fun c hc => ?_
    simp [hunmarked c (List.mem_of_getLast? hc)]
  cases hbuilt with
  | parameter hparameter => exact hname (hreadable.unmarked (.inl hparameter))
  | type htype => exact hname (hreadable.unmarked (.inr htype))
  | generic hdefinition harguments =>
    rw [toList_text_generic, ← List.cons_append, ← List.append_assoc, List.getLast?_concat]
    rfl
  | array helement hrank =>
    rw [toList_text_array, ← List.cons_append, ← List.append_assoc, List.getLast?_concat]
    rfl
  | byRef helement =>
    rw [toList_text_byRef, List.getLast?_concat]
    rfl

/-- References with the same text have the same form. -/
theorem ending_eq_of_text_eq {left right : TypeRef} (hleft : g.Builds left)
    (hright : g.Builds right) (htext : left.text = right.text) :
    left.ending? = right.ending? := by
  rw [← ending_text hreadable hleft, ← ending_text hreadable hright, htext]

/-- The joined texts of references determine the texts. -/
theorem texts_eq_of_join_eq {separator : String} {tail : List Char}
    (hseparator : separator.toList = ',' :: tail) {left right : List TypeRef}
    (hleft : ∀ reference ∈ left, g.Builds reference)
    (hright : ∀ reference ∈ right, g.Builds reference)
    (hjoin : Text.join separator (texts left) = Text.join separator (texts right)) :
    texts left = texts right := by
  have htexts {references : List TypeRef} (hbuilt : ∀ r ∈ references, g.Builds r) :
      ∀ text ∈ texts references, text ≠ "" ∧ Text.Sealed text.toList := by
    rw [texts_eq_map]
    intro text htext
    obtain ⟨r, hr, rfl⟩ := List.mem_map.mp htext
    exact ⟨text_ne_empty hreadable (hbuilt r hr), sealed_text hreadable (hbuilt r hr)⟩
  exact Text.join_inj hseparator (htexts hleft) (htexts hright) hjoin

omit hreadable in
/-- References with the same texts are the same element by element when each of them is the same
as any reference with its text. -/
theorem forall₂_same_of_texts_eq {left right : List TypeRef}
    (hleft : ∀ reference ∈ left, ∀ {other : TypeRef}, g.Builds other →
      reference.text = other.text → reference.Same other)
    (hright : ∀ reference ∈ right, g.Builds reference) (htexts : texts left = texts right) :
    List.Forall₂ Same left right := by
  induction left generalizing right with
  | nil =>
    cases right with
    | nil => exact .nil
    | cons other right => simp [texts] at htexts
  | cons reference left ih =>
    cases right with
    | nil => simp [texts] at htexts
    | cons other right =>
      obtain ⟨hfirst, hrest⟩ := List.cons.inj htexts
      exact .cons (hleft reference List.mem_cons_self (hright other List.mem_cons_self) hfirst)
        (ih (fun r hr => hleft r (List.mem_cons_of_mem _ hr))
          (fun r hr => hright r (List.mem_cons_of_mem _ hr)) hrest)

/-- A readable text determines the reference, up to the simple names that qualified names come
with. By induction on the reference: the last character of the text tells its form, and the form
tells where its parts begin and end. -/
theorem same_of_text_eq {left right : TypeRef} (hleft : g.Builds left) (hright : g.Builds right)
    (htext : left.text = right.text) : left.Same right := by
  induction hleft generalizing right with
  | parameter hname =>
    have hending := ending_eq_of_text_eq hreadable (.parameter hname) hright htext
    cases hright with
    | parameter hother =>
      obtain rfl := htext
      exact .parameter _
    | type hother =>
      obtain rfl := htext
      exact absurd hother (hreadable.apart hname)
    | generic | array | byRef => simp [ending?] at hending
  | type hname =>
    have hending := ending_eq_of_text_eq hreadable (.type hname) hright htext
    cases hright with
    | parameter hother =>
      obtain rfl := htext
      exact absurd hname (hreadable.apart hother)
    | type hother =>
      obtain rfl := htext
      exact .type _ _ _
    | generic | array | byRef => simp [ending?] at hending
  | @generic definition arguments hdefinition harguments ih =>
    have hending := ending_eq_of_text_eq hreadable (.generic hdefinition harguments) hright htext
    cases hright with
    | @generic other others hother hothers =>
      obtain ⟨hstem, hjoin⟩ := generic_text_inj (hreadable.stem hdefinition)
        (hreadable.stem hother) htext
      have htexts := texts_eq_of_join_eq hreadable rfl harguments hothers hjoin
      -- As many texts are as many arguments, so both definitions are for the same number.
      have hcount : arguments.length = others.length := by
        simpa [texts_eq_map] using congrArg List.length htexts
      obtain rfl := hreadable.stems hdefinition (hcount ▸ hother) hstem
      exact .generic _ (forall₂_same_of_texts_eq ih hothers htexts)
    | parameter | type | array | byRef => simp [ending?] at hending
  | array helement hrank ih =>
    have hending := ending_eq_of_text_eq hreadable (.array helement hrank) hright htext
    cases hright with
    | array hother hotherRank =>
      obtain ⟨hsame, hcommas⟩ := array_text_inj htext
      obtain rfl := UInt32.toNat_inj.mp
        (Nat.pred_inj (hreadable.rank hrank) (hreadable.rank hotherRank) hcommas)
      exact .array (ih hother hsame) _
    | parameter | type | generic | byRef => simp [ending?] at hending
  | byRef helement ih =>
    have hending := ending_eq_of_text_eq hreadable (.byRef helement) hright htext
    cases hright with
    | byRef hother => exact .byRef (ih hother (byRef_text_inj htext))
    | parameter | type | generic | array => simp [ending?] at hending

/-- Readable texts with separators between them determine the references in the same way. -/
theorem forall₂_same_of_join_eq {separator : String} {tail : List Char}
    (hseparator : separator.toList = ',' :: tail) {left right : List TypeRef}
    (hleft : ∀ reference ∈ left, g.Builds reference)
    (hright : ∀ reference ∈ right, g.Builds reference)
    (hjoin : Text.join separator (texts left) = Text.join separator (texts right)) :
    List.Forall₂ Same left right := by
  have htexts := texts_eq_of_join_eq hreadable hseparator hleft hright hjoin
  refine forall₂_same_of_texts_eq (fun reference hreference => ?_) hright htexts
  exact same_of_text_eq hreadable (hleft reference hreference)

end Readable

/-- The stem of a definition is a part of it. -/
theorem mem_of_mem_definitionStem {definition : String} {c : Char}
    (hc : c ∈ (definitionStem definition).toList) : c ∈ definition.toList := by
  rw [definitionStem, String.toList_ofList] at hc
  exact (List.takeWhile_sublist _).mem hc

end ModuleInspector.TypeRef
