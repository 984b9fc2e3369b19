import ModuleInspector.Text.Pieces
import Mathlib.Data.List.Basic

/-!
# Brackets and separators

Names without marks, and texts that close the brackets they open and have no comma outside
them. Where such texts are joined by commas, a comma separates two of them exactly when it is
outside all brackets, so the joined text determines its parts.
-/

namespace ModuleInspector.Text

/-- The characters that the text of a type puts around and between names. -/
def isMark (c : Char) : Bool := [',', '<', '>', '[', ']', '&'].contains c

/-- Whether a text has no mark in it. -/
def Unmarked (text : String) : Prop := ∀ c ∈ text.toList, isMark c = false

instance (text : String) : Decidable (Unmarked text) :=
  decidable_of_iff (text.toList.all fun c => !isMark c) (by simp [Unmarked])

theorem notMem_of_unmarked {text : String} {c : Char} (hunmarked : Unmarked text)
    (hc : isMark c = true) : c ∉ text.toList :=
  fun hmem => Bool.false_ne_true ((hunmarked c hmem).symm.trans hc)

/-- What stands before the first occurrence of a character can be told from what follows it. -/
theorem append_cons_inj {c : Char} {left right leftRest rightRest : List Char} (hleft : c ∉ left)
    (hright : c ∉ right) (heq : left ++ c :: leftRest = right ++ c :: rightRest) :
    left = right ∧ leftRest = rightRest := by
  rcases List.append_eq_append_iff.mp heq with ⟨more, rfl, hrest⟩ | ⟨more, rfl, hrest⟩
  · cases more with
    | nil => simpa using hrest
    | cons d more =>
      obtain ⟨rfl, -⟩ := List.cons.inj hrest
      simp at hright
  · cases more with
    | nil => simpa [eq_comm] using hrest
    | cons d more =>
      obtain ⟨rfl, -⟩ := List.cons.inj hrest
      simp at hleft

/-- The number of open brackets behind a character. There is none behind a bracket that closes
nothing, nor behind a comma outside all brackets. -/
def depthAfter (depth : Nat) (c : Char) : Option Nat :=
  if c = '<' ∨ c = '[' then some (depth + 1)
  else if c = '>' ∨ c = ']' then if depth = 0 then none else some (depth - 1)
  else if c = ',' ∧ depth = 0 then none
  else some depth

/-- Whether a text closes the brackets that it opens and has no comma outside them. -/
def Sealed (text : List Char) : Prop := ∀ depth, text.foldlM depthAfter depth = some depth

theorem sealed_append {front back : List Char} (hfront : Sealed front) (hback : Sealed back) :
    Sealed (front ++ back) := by
  intro depth
  rw [List.foldlM_append, hfront depth]
  exact hback depth

/-- Characters other than commas and brackets change no depth. -/
theorem sealed_of_unmarked {text : List Char} (hunmarked : ∀ c ∈ text, isMark c = false) :
    Sealed text := by
  intro depth
  induction text with
  | nil => rfl
  | cons c text ih =>
    have hc : depthAfter depth c = some depth := by
      have hnone := hunmarked c List.mem_cons_self
      simp only [isMark, List.contains_cons, Bool.or_eq_false_iff, beq_eq_false_iff_ne] at hnone
      simp [depthAfter, hnone]
    rw [List.foldlM_cons, hc]
    exact ih fun c hc => hunmarked c (List.mem_cons_of_mem _ hc)

/-- No sealed text goes on with a comma and stays sealed. -/
theorem not_sealed_append_comma {text : List Char} (htext : Sealed text) (rest : List Char) :
    ¬Sealed (text ++ ',' :: rest) := by
  intro hsealed
  have hdepth := hsealed 0
  rw [List.foldlM_append, htext 0] at hdepth
  simp [depthAfter] at hdepth

/-- Where a sealed text is followed by nothing or by a comma, its end can be told. -/
theorem sealed_append_inj {left right leftRest rightRest : List Char} (hleft : Sealed left)
    (hright : Sealed right) (hleftRest : ∀ c ∈ leftRest.head?, c = ',')
    (hrightRest : ∀ c ∈ rightRest.head?, c = ',') (heq : left ++ leftRest = right ++ rightRest) :
    left = right ∧ leftRest = rightRest := by
  rcases List.append_eq_append_iff.mp heq with ⟨more, rfl, rfl⟩ | ⟨more, rfl, rfl⟩
  · cases more with
    | nil => simp
    | cons c more =>
      obtain rfl := hleftRest c (by simp)
      exact absurd hright (not_sealed_append_comma hleft more)
  · cases more with
    | nil => simp
    | cons c more =>
      obtain rfl := hrightRest c (by simp)
      exact absurd hleft (not_sealed_append_comma hright more)

/-- The characters of texts that follow others behind a separator. -/
def laterTexts (separator : String) (texts : List String) : List Char :=
  texts.flatMap fun text => separator.toList ++ text.toList

/-- Every text after the first one is preceded by the separator. -/
theorem toList_join (separator text : String) (texts : List String) :
    (join separator (text :: texts)).toList = text.toList ++ laterTexts separator texts := by
  unfold join
  induction texts generalizing text with
  | nil => simp [laterTexts]
  | cons other texts ih =>
    rw [String.intercalate_cons_cons, String.toList_append, String.toList_append, ih]
    simp [laterTexts]

section Separator

variable {separator : String} {tail : List Char} (hseparator : separator.toList = ',' :: tail)

include hseparator

/-- What follows a text is nothing or starts with a comma. -/
theorem head_laterTexts (texts : List String) :
    ∀ c ∈ (laterTexts separator texts).head?, c = ',' := by
  cases texts with
  | nil => simp [laterTexts]
  | cons text texts => simp [laterTexts, hseparator]

/-- Sealed texts that follow others can be told apart. -/
theorem laterTexts_inj {left right : List String} (hleft : ∀ text ∈ left, Sealed text.toList)
    (hright : ∀ text ∈ right, Sealed text.toList)
    (heq : laterTexts separator left = laterTexts separator right) : left = right := by
  induction left generalizing right with
  | nil =>
    cases right with
    | nil => rfl
    | cons other right => simp [laterTexts, hseparator] at heq
  | cons text left ih =>
    cases right with
    | nil => simp [laterTexts, hseparator] at heq
    | cons other right =>
      simp only [laterTexts, List.flatMap_cons, List.append_assoc,
        List.append_cancel_left_eq] at heq
      obtain ⟨hfirst, hlater⟩ := sealed_append_inj (hleft text List.mem_cons_self)
        (hright other List.mem_cons_self) (head_laterTexts hseparator left)
        (head_laterTexts hseparator right) heq
      rw [String.toList_inj.mp hfirst,
        ih (fun t ht => hleft t (List.mem_cons_of_mem _ ht))
          (fun t ht => hright t (List.mem_cons_of_mem _ ht)) hlater]

/-- Joined sealed texts can be told apart, provided that none of them is empty: one empty text
and no text at all look the same. -/
theorem join_inj {left right : List String}
    (hleft : ∀ text ∈ left, text ≠ "" ∧ Sealed text.toList)
    (hright : ∀ text ∈ right, text ≠ "" ∧ Sealed text.toList)
    (heq : join separator left = join separator right) : left = right := by
  have hempty {text : String} {texts : List String} (htext : text ≠ "") :
      join separator (text :: texts) ≠ "" := by
    intro hjoined
    have hlist := congrArg String.toList hjoined
    rw [toList_join] at hlist
    exact htext (String.toList_eq_nil_iff.mp (List.append_eq_nil_iff.mp hlist).1)
  match left, right with
  | [], [] => rfl
  | [], other :: right => exact absurd heq.symm (hempty (hright other List.mem_cons_self).1)
  | text :: left, [] => exact absurd heq (hempty (hleft text List.mem_cons_self).1)
  | text :: left, other :: right =>
    have hlist : text.toList ++ laterTexts separator left =
        other.toList ++ laterTexts separator right := by
      rw [← toList_join, ← toList_join, heq]
    refine laterTexts_inj hseparator (fun t ht => (hleft t ht).2) (fun t ht => (hright t ht).2) ?_
    simpa [laterTexts] using hlist

end Separator

/-- Inside brackets, sealed texts behind commas change no depth. -/
theorem foldlM_depthAfter_laterTexts {texts : List String}
    (htexts : ∀ text ∈ texts, Sealed text.toList) (depth : Nat) :
    (laterTexts ", " texts).foldlM depthAfter (depth + 1) = some (depth + 1) := by
  induction texts with
  | nil => rfl
  | cons text texts ih =>
    have hseparator : (", ".toList).foldlM depthAfter (depth + 1) = some (depth + 1) := by
      simp [depthAfter]
    have hfirst : (", ".toList ++ text.toList).foldlM depthAfter (depth + 1) =
        some (depth + 1) := by
      rw [List.foldlM_append, hseparator]
      exact htexts text List.mem_cons_self (depth + 1)
    rw [laterTexts, List.flatMap_cons, List.foldlM_append, hfirst]
    exact ih fun t ht => htexts t (List.mem_cons_of_mem _ ht)

/-- Inside brackets, sealed texts with commas between them change no depth. -/
theorem foldlM_depthAfter_join {texts : List String} (htexts : ∀ text ∈ texts, Sealed text.toList)
    (depth : Nat) : (join ", " texts).toList.foldlM depthAfter (depth + 1) = some (depth + 1) := by
  cases texts with
  | nil => rfl
  | cons text texts =>
    rw [toList_join, List.foldlM_append, htexts text List.mem_cons_self]
    exact foldlM_depthAfter_laterTexts (fun t ht => htexts t (List.mem_cons_of_mem _ ht)) depth

/-- Brackets around characters that change no depth inside them make a sealed text. -/
theorem sealed_enclose {opening closing : Char} {inner : List Char}
    (hopening : ∀ depth, depthAfter depth opening = some (depth + 1))
    (hclosing : ∀ depth, depthAfter (depth + 1) closing = some depth)
    (hinner : ∀ depth, inner.foldlM depthAfter (depth + 1) = some (depth + 1)) :
    Sealed (opening :: (inner ++ [closing])) := by
  intro depth
  rw [List.foldlM_cons, hopening]
  change (inner ++ [closing]).foldlM depthAfter (depth + 1) = some depth
  rw [List.foldlM_append, hinner]
  change [closing].foldlM depthAfter (depth + 1) = some depth
  rw [List.foldlM_cons, hclosing]
  rfl

/-- Inside brackets, commas change no depth. -/
theorem foldlM_depthAfter_commas (count depth : Nat) :
    (List.replicate count ',').foldlM depthAfter (depth + 1) = some (depth + 1) := by
  induction count with
  | zero => rfl
  | succ count ih =>
    rw [List.replicate_succ, List.foldlM_cons]
    exact ih

end ModuleInspector.Text
