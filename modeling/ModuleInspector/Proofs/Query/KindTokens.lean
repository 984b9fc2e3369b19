import ModuleInspector.Proofs.Query.MemberViews
import ModuleInspector.Proofs.Text.Separated
import ModuleInspector.Session.Execution
import Mathlib.Data.List.Induction

/-!
# Kinds of the member listing

The member listing takes the type and the kinds from options or from positional tokens. The kinds
are printed in an order of their own, so all that counts of the tokens is whether there are any and
which kinds they name, in whichever way they spell them.
-/

namespace ModuleInspector

/-- Whether a token is the name of a kind for one or several members, with the letters A to Z in
either case and with blanks around it. -/
def NamesKind (token : String) (kind : MemberKind) : Prop :=
  ∃ before word after : List Char, token.toList = before ++ word ++ after ∧
    (∀ c ∈ before ++ after, Text.isBlankChar c = true) ∧
    (word.map Char.toLower = kind.name.toList ∨ word.map Char.toLower = kind.plural.toList)

namespace Text

/-- The lower case of the letters A to Z is that of the core library. -/
theorem toList_lowerAscii (text : String) :
    (lowerAscii text).toList = text.toList.map Char.toLower := by
  rw [lowerAscii, String.toList_ofList]
  refine List.map_congr_left fun c _ => ?_
  unfold Char.toLower
  split
  next hupper =>
    have hhigh : c.toNat ≤ 90 := UInt32.le_iff_toNat_le.mp hupper.2
    have hvalid : (c.toNat + 32).isValidChar := .inl (by omega)
    rw [dif_pos (by simpa [Char.le_def, and_comm] using hupper), Char.ofNat, dif_pos hvalid]
    refine Char.ext (UInt32.toNat.inj ?_)
    change c.toNat + 32 = (c.toNat + 32) % UInt32.size
    exact (Nat.mod_eq_of_lt (by simp only [UInt32.size]; omega)).symm
  next hother => rw [dif_neg (by simpa [Char.le_def, and_comm] using hother)]

/-- A blank is in lower case. -/
theorem toLower_of_isBlankChar {c : Char} (hblank : isBlankChar c = true) : c.toLower = c := by
  unfold Char.toLower
  rw [dif_neg]
  rintro ⟨hlow, hhigh⟩
  have hlow : 65 ≤ c.toNat := UInt32.le_iff_toNat_le.mp hlow
  have hhigh : c.toNat ≤ 90 := UInt32.le_iff_toNat_le.mp hhigh
  simp only [isBlankChar, Bool.or_eq_true, Bool.and_eq_true, decide_eq_true_eq] at hblank
  omega

end Text

namespace MemberKind

/-- No name is that of two kinds, be it for one or for several members. -/
theorem eq_of_names {kind other : MemberKind} {text : String}
    (hkind : kind.name = text ∨ kind.plural = text)
    (hother : other.name = text ∨ other.plural = text) : kind = other := by
  rcases hkind with rfl | rfl <;> revert hother <;> cases kind <;> cases other <;> decide

/-- A text is looked up among the names of the kinds. -/
theorem ofName?_eq_some_iff {text : String} {kind : MemberKind} :
    ofName? text = some kind ↔
      kind.name = Text.lowerAscii text ∨ kind.plural = Text.lowerAscii text := by
  constructor
  · intro hfound
    simpa using List.find?_some hfound
  · intro hname
    have hall : kind ∈ all := by cases kind <;> decide
    cases hfound : ofName? text with
    | none => exact absurd hname (by simpa using List.find?_eq_none.mp hfound kind hall)
    | some other =>
      have hother : other.name = Text.lowerAscii text ∨ other.plural = Text.lowerAscii text := by
        simpa using List.find?_some hfound
      rw [eq_of_names hother hname]

/-- The names of the kinds hold no blanks. -/
theorem isBlankChar_name (kind : MemberKind) :
    (∀ c ∈ kind.name.toList, Text.isBlankChar c = false) ∧
      ∀ c ∈ kind.plural.toList, Text.isBlankChar c = false := by
  have hall : (kind.name.toList.all (!Text.isBlankChar ·) &&
      kind.plural.toList.all (!Text.isBlankChar ·)) = true := by
    cases kind <;> decide
  simpa using hall

/-- A trimmed token is the text of the kind that the token names. -/
theorem ofName?_trim_eq_some_iff {token : String} {kind : MemberKind} :
    ofName? (Text.trim token) = some kind ↔ NamesKind token kind := by
  have hspelled (word : String) : (kind.name = Text.lowerAscii word ∨
      kind.plural = Text.lowerAscii word) ↔ (word.toList.map Char.toLower = kind.name.toList ∨
      word.toList.map Char.toLower = kind.plural.toList) := by
    rw [← Text.toList_lowerAscii, String.toList_inj, String.toList_inj, eq_comm,
      @eq_comm _ kind.plural]
  rw [ofName?_eq_some_iff, hspelled, Text.trim, String.toList_ofList]
  constructor
  · intro hname
    obtain ⟨before, after, htoken, hblank⟩ := Text.exists_trimChars token.toList
    exact ⟨before, _, after, htoken, hblank, hname⟩
  · rintro ⟨before, word, after, htoken, hblank, hname⟩
    obtain ⟨hone, hseveral⟩ := isBlankChar_name kind
    have hlower : ∀ c ∈ word.map Char.toLower, Text.isBlankChar c = false := by
      rcases hname with hname | hname <;> rwa [hname]
    have hword : ∀ c ∈ word, Text.isBlankChar c = false := by
      intro c hc
      by_contra hblank
      have hsame := Text.toLower_of_isBlankChar (by simpa using hblank)
      exact hblank (hlower c (List.mem_map.mpr ⟨c, hc, hsame⟩))
    have hne : word ≠ [] := by
      rintro rfl
      cases kind <;> simp [name, plural] at hname
    rwa [htoken, Text.trimChars_append hne hblank hword]

end MemberKind

namespace Options

/-- The tokens that give kinds as options. -/
def kindTokens (kinds : List String) : List String := kinds.flatMap fun kind => ["--kind", kind]

/-- The options of a type identifier and any kinds. The induction is on the last kind. -/
theorem parse_type_kinds {identifier : String} (hidentifier : IsArgument identifier)
    {kinds : List String} (hkinds : ∀ kind ∈ kinds, IsArgument kind) :
    parse (["--type", identifier] ++ kindTokens kinds) =
      ⟨("type", [identifier]) :: if kinds = [] then [] else [("kind", kinds)], []⟩ := by
  induction kinds using List.reverseRecOn with
  | nil => exact parse_type hidentifier
  | append_singleton kinds kind ih =>
    obtain ⟨hkinds, hkind⟩ := List.forall_mem_append.mp hkinds
    have hkey : keyOfToken? "--kind" = some "kind" := by decide
    have hlower : Text.lowerCase "kind" = "kind" := lowerCase_key (by simp)
    have hparsed := parse_append_argument (["--type", identifier] ++ kindTokens kinds)
      (by decide) hkey (hkind kind List.mem_cons_self)
    rw [kindTokens, List.flatMap_append, ← List.append_assoc]
    refine hparsed.trans ?_
    rw [ih hkinds, hlower]
    by_cases hempty : kinds = [] <;> simp [addValue, hempty]

end Options

namespace Query

variable {m : Module}

/-- The kinds that are asked for: all of them without a token, and otherwise the named ones. -/
theorem mem_selectedKinds_iff {o : Options} {remainder : List String} {kind : MemberKind} :
    kind ∈ selectedKinds o remainder ↔
      o.getAll "kind" ++ remainder = [] ∨
        ∃ token ∈ o.getAll "kind" ++ remainder, NamesKind token kind := by
  rw [selectedKinds]
  have hall : kind ∈ MemberKind.all := by cases kind <;> decide
  cases htokens : o.getAll "kind" ++ remainder with
  | nil => simp [hall]
  | cons token tokens => simp [List.mem_filterMap, MemberKind.ofName?_trim_eq_some_iff]

/-- The listing looks at the type, at the visibility switch and at the kinds that are asked for. -/
theorem members_congr (c : Catalog m) {o o' : Options} {X : String}
    {remainder remainder' : List String} (htype : typeIdentifier o = (some X, remainder))
    (htype' : typeIdentifier o' = (some X, remainder'))
    (hvisible : includeNonPublic o = includeNonPublic o')
    (hempty : o.getAll "kind" ++ remainder = [] ↔ o'.getAll "kind" ++ remainder' = [])
    (hnamed : ∀ kind, (∃ token ∈ o.getAll "kind" ++ remainder, NamesKind token kind) ↔
      ∃ token ∈ o'.getAll "kind" ++ remainder', NamesKind token kind) :
    members c o = members c o' := by
  have hselected :
      (selectedKinds o remainder).contains = (selectedKinds o' remainder').contains := by
    funext kind
    rw [Bool.eq_iff_iff, List.contains_iff_mem, List.contains_iff_mem, mem_selectedKinds_iff,
      mem_selectedKinds_iff, hempty, hnamed]
  have hlisted : listedMembers c o = listedMembers c o' := by
    funext e kind
    rw [listedMembers, listedMembers, selection, selection, hvisible]
  rw [members, members, typeWithRemainder, typeWithRemainder, htype, htype']
  simp only [Option.bind_some]
  cases c.findType? X with
  | none => rfl
  | some e => simp only [hselected, hlisted, hvisible]

section Tokens

variable {X : String} (hX : Options.IsArgument X) {kinds : List String}
  (hkinds : ∀ K ∈ kinds, Options.IsArgument K) (nonPublic : Bool)

include hX hkinds

/-- What the listing reads from positional tokens. -/
theorem reads_positional_kinds :
    let o := Options.parse (X :: kinds ++ Options.visibilityTokens nonPublic)
    typeIdentifier o = (some X, kinds) ∧ o.getAll "kind" = [] ∧ includeNonPublic o = nonPublic := by
  have hparse : Options.parse (X :: kinds) = ⟨[], X :: kinds⟩ :=
    Options.parse_arguments (List.forall_mem_cons.mpr ⟨hX, hkinds⟩)
  obtain ⟨hpositional, hvisible, hread⟩ := reads_append_visibility nonPublic hparse rfl rfl
  obtain ⟨htype, -⟩ := hread "type" (by simp)
  obtain ⟨hkind, -⟩ := hread "kind" (by simp)
  refine ⟨?_, hkind, hvisible⟩
  rw [typeIdentifier, Options.filled?, Options.get?, htype, hpositional]
  rfl

/-- What the listing reads from options. -/
theorem reads_keyed_kinds :
    let o := Options.parse
      (["--type", X] ++ Options.kindTokens kinds ++ Options.visibilityTokens nonPublic)
    typeIdentifier o = (some X, []) ∧ o.getAll "kind" = kinds ∧ includeNonPublic o = nonPublic := by
  have hparse := Options.parse_type_kinds hX hkinds
  have hswitch {key : String} (htype : key ≠ "type") (hkind : key ≠ "kind") :
      List.lookup key (("type", [X]) :: if kinds = [] then [] else [("kind", kinds)]) = none := by
    split <;> simp [Options.lookup_cons_eq_ite, htype, hkind]
  obtain ⟨hpositional, hvisible, hread⟩ := reads_append_visibility nonPublic hparse
    (hswitch (by decide) (by decide)) (hswitch (by decide) (by decide))
  obtain ⟨htype, -⟩ := hread "type" (by simp)
  obtain ⟨hkind, -⟩ := hread "kind" (by simp)
  refine ⟨?_, ?_, hvisible⟩
  · have hfilled : (some X).filter (fun value => !Text.isBlank value) = some X := by simp [hX.1]
    rw [typeIdentifier, Options.filled?, Options.get?, htype, hpositional]
    simp only [List.lookup_cons_self, Option.getD_some, List.getLast?_singleton, hfilled]
  · rw [hkind]
    split <;> simp_all [Options.lookup_cons_eq_ite]

end Tokens

/-- The text `members` asks for the member listing. -/
theorem answer_members (c : Catalog m) (o : Options) : answer c "members" o = members c o := by
  have hcommand : Command.ofName? "members" = some .members := by decide
  rw [answer, hcommand]
  rfl

/-- Listings with equal outcomes are executed alike. -/
theorem execute_members_congr {o o' : Options}
    (hmembers : members (Catalog.of m) o = members (Catalog.of m) o') (out err : Sink) :
    execute m "members" o out err = execute m "members" o' out err := by
  rw [execute, execute, answer_members, answer_members, hmembers]

/-- The listing prints nothing when it is asked for no kind. -/
theorem members_eq_nil (c : Catalog m) {o : Options} {e : Entry m} {remainder : List String}
    (hfound : typeWithRemainder c o = (some e, remainder))
    (hnone : ∀ kind, kind ∉ selectedKinds o remainder) : members c o = .ok [] := by
  have hselected : (MemberKind.all.filter fun kind =>
      (selectedKinds o remainder).contains kind) = [] := by
    rw [List.filter_eq_nil_iff]
    intro kind _ hkind
    exact hnone kind (List.contains_iff_mem.mp hkind)
  rw [members, hfound]
  simp only [hselected, List.flatMap_nil]

/-- The member listing of a type with any kinds is the same from positional tokens and from
options, with or without the visibility switch. Two lists of kind tokens that name the same kinds
give the same listing, unless one of them is empty and the other one is not. A list that is not
empty and names no kind gives a listing of nothing. -/
theorem members_kindTokens (m : Module) {X : String} (hX : Options.IsArgument X)
    {kinds : List String} (hkinds : ∀ K ∈ kinds, Options.IsArgument K) (nonPublic : Bool) :
    let switch := Options.visibilityTokens nonPublic
    let o := Options.parse (X :: kinds ++ switch)
    (∀ out err, execute m "members" o out err = execute m "members"
      (Options.parse (["--type", X] ++ Options.kindTokens kinds ++ switch)) out err) ∧
    (∀ others : List String, (∀ K ∈ others, Options.IsArgument K) → (others = [] ↔ kinds = []) →
      (∀ kind, (∃ K ∈ others, NamesKind K kind) ↔ ∃ K ∈ kinds, NamesKind K kind) →
      ∀ out err, execute m "members" (Options.parse (X :: others ++ switch)) out err =
        execute m "members" o out err) ∧
    (kinds ≠ [] → (∀ K ∈ kinds, ∀ kind, ¬NamesKind K kind) →
      ((Catalog.of m).findType? X).isSome = true →
      run (Catalog.of m) .members o = .ok [] ∧
      ∀ out err, out.flushFails = false → (execute m "members" o out err).status = 0 ∧
        (execute m "members" o out err).out.received = out.received ∧
        (execute m "members" o out err).err = err) := by
  intro switch o
  obtain ⟨htype, hkind, hvisible⟩ := reads_positional_kinds hX hkinds nonPublic
  refine ⟨?_, fun others hothers hempty hnamed => ?_, fun hne hnone hfound => ?_⟩
  · obtain ⟨htype', hkind', hvisible'⟩ := reads_keyed_kinds hX hkinds nonPublic
    refine execute_members_congr
      (members_congr _ htype htype' (hvisible.trans hvisible'.symm) ?_ fun kind => ?_)
    · rw [hkind, hkind', List.nil_append, List.append_nil]
    · rw [hkind, hkind', List.nil_append, List.append_nil]
  · obtain ⟨htype', hkind', hvisible'⟩ := reads_positional_kinds hX hothers nonPublic
    refine execute_members_congr
      (members_congr _ htype' htype (hvisible'.trans hvisible.symm) ?_ fun kind => ?_)
    · rw [hkind, hkind', List.nil_append, List.nil_append, hempty]
    · rw [hkind, hkind', List.nil_append, List.nil_append, hnamed]
  · obtain ⟨e, hfound⟩ := Option.isSome_iff_exists.mp hfound
    have htypeFound : typeWithRemainder (Catalog.of m) o = (some e, kinds) := by
      rw [typeWithRemainder, htype, Option.bind_some, hfound]
    have hmembers : members (Catalog.of m) o = .ok [] := by
      refine members_eq_nil _ htypeFound fun kind hselected => ?_
      rw [mem_selectedKinds_iff, hkind, List.nil_append] at hselected
      obtain ⟨K, hK, hnames⟩ := hselected.resolve_left hne
      exact hnone K hK kind hnames
    refine ⟨hmembers, fun out err hflush => ?_⟩
    rw [execute, answer_members, hmembers]
    simp [Execution.ofAnswer, Sink.print, Sink.writeLines, Sink.flush, hflush]

/-- Of `wormGear`, two lists of tokens for methods and fields give one listing, and a list with
one token for neither an empty one. -/
theorem members_kindTokens_wormGear :
    let found := (Catalog.of wormGear).findType? "Worm"
    (Options.IsArgument "Worm" ∧ found.isSome = true ∧
      (∀ K ∈ ["Fields", " methods "], Options.IsArgument K) ∧
      (∀ K ∈ ["METHOD", "gadgets", "field", "field"], Options.IsArgument K) ∧
      Options.IsArgument "gadgets") ∧
    (∀ out err, execute wormGear "members" (Options.parse ["Worm", "Fields", " methods "]) out err =
      execute wormGear "members"
        (Options.parse ["--type", "Worm", "--kind", "Fields", "--kind", " methods "]) out err) ∧
    (∀ out err, execute wormGear "members"
        (Options.parse ["Worm", "METHOD", "gadgets", "field", "field"]) out err =
      execute wormGear "members" (Options.parse ["Worm", "Fields", " methods "]) out err) ∧
    run (Catalog.of wormGear) .members (Options.parse ["Worm", "gadgets"]) = .ok [] := by
  intro found
  have hX : Options.IsArgument "Worm" := by decide
  have hfound : found.isSome = true := by
    obtain ⟨j, hj, -⟩ := Catalog.findType?_fullName (m := wormGear) (i := ⟨0, by decide⟩) hX.1
    exact Option.isSome_of_eq_some hj
  have hkinds : ∀ K ∈ ["Fields", " methods "], Options.IsArgument K := by decide
  have hothers : ∀ K ∈ ["METHOD", "gadgets", "field", "field"], Options.IsArgument K := by decide
  have hgadgets : ∀ K ∈ ["gadgets"], Options.IsArgument K := by decide
  have hnamed : ∀ kind, (∃ K ∈ ["METHOD", "gadgets", "field", "field"], NamesKind K kind) ↔
      ∃ K ∈ ["Fields", " methods "], NamesKind K kind := by
    simp only [← MemberKind.ofName?_trim_eq_some_iff]
    intro kind
    cases kind <;> decide +kernel
  have hnone : ∀ K ∈ ["gadgets"], ∀ kind, ¬NamesKind K kind := by
    simp only [← MemberKind.ofName?_trim_eq_some_iff]
    intro K hK kind
    obtain rfl := List.mem_singleton.mp hK
    cases kind <;> decide +kernel
  have hswitch : Options.visibilityTokens false = [] := rfl
  obtain ⟨hkeyed, hnames, -⟩ := members_kindTokens wormGear hX hkinds false
  obtain ⟨-, -, hempty⟩ := members_kindTokens wormGear hX hgadgets false
  simp only [hswitch, List.append_nil] at hkeyed hnames hempty
  exact ⟨⟨hX, hfound, hkinds, hothers, hgadgets _ List.mem_cons_self⟩, hkeyed,
    hnames _ hothers (by simp) hnamed, (hempty (by simp) hnone hfound).1⟩

end Query

end ModuleInspector
