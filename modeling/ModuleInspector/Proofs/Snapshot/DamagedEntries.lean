import Mathlib.Data.List.Basic
import ModuleInspector.Snapshot.Document

/-!
# Damaged entries

An entry of a list of types that does not decode is lost, and nothing else is: the other entries
keep their types and their order, the rest of the module is the same, and every loss is reported
under the position of the entry in its own list.
-/

namespace ModuleInspector

namespace Snapshot

/-- Whether an entry of a list of types decodes on its own. -/
def Decodes (entry : Json) : Prop := ∃ type, typeDef entry = .ok type

/-- An entry is kept when it decodes. -/
theorem isSome_decoded?_iff {entry : Json} : (decoded? entry).isSome ↔ Decodes entry := by
  unfold decoded? Decodes
  cases typeDef entry <;> simp [Except.toOption]

instance : DecidablePred Decodes := fun _ => decidable_of_iff _ isSome_decoded?_iff

section Entries

variable {items items' : List Json}

/-- The types that are kept are the decodings of the entries that decode, in order. -/
theorem map_ok_keptTypes (items : List Json) :
    (keptTypes items).map .ok = (items.filter (Decodes ·)).map typeDef := by
  induction items with
  | nil => rfl
  | cons entry items ih =>
    cases hentry : typeDef entry with
    | error e =>
      have hlost : ¬Decodes entry := by simp [Decodes, hentry]
      have hdecoded : decoded? entry = none := by rw [decoded?, hentry]; rfl
      rw [List.filter_cons_of_neg (by simpa using hlost), keptTypes,
        List.filterMap_cons_none hdecoded]
      exact ih
    | ok type =>
      have hkept : Decodes entry := ⟨type, hentry⟩
      have hdecoded : decoded? entry = some type := by rw [decoded?, hentry]; rfl
      rw [List.filter_cons_of_pos (by simpa using hkept), keptTypes,
        List.filterMap_cons_some hdecoded, List.map_cons, List.map_cons, hentry]
      exact congrArg (_ :: ·) ih

/-- Why an entry does not decode, if it does not. -/
def refusal? (entry : Json) : Option DecodeError :=
  match typeDef entry with
  | .ok _ => none
  | .error e => some e

/-- An entry is refused when it does not decode. -/
theorem isSome_refusal?_iff {entry : Json} : (refusal? entry).isSome ↔ ¬Decodes entry := by
  unfold refusal? Decodes
  cases typeDef entry <;> simp

/-- The entries that are lost are the refused ones, with their positions. -/
theorem lostEntries_eq (items : List Json) (start : Nat) :
    lostEntries start items =
      (items.zipIdx start).filterMap fun entry =>
        (refusal? entry.1).map fun e => (entry.2, entry.1, e) := by
  induction items generalizing start with
  | nil => rfl
  | cons entry items ih =>
    rw [lostEntries, List.zipIdx_cons, List.filterMap_cons, refusal?]
    cases typeDef entry with
    | ok type => exact ih (start + 1)
    | error e => exact congrArg ((start, entry, e) :: ·) (ih (start + 1))

/-- As many entries are lost as there are entries that do not decode. -/
theorem length_lostEntries (items : List Json) (start : Nat) :
    (lostEntries start items).length = items.countP (¬Decodes ·) := by
  induction items generalizing start with
  | nil => rfl
  | cons entry items ih =>
    rw [lostEntries, List.countP_cons]
    cases hentry : typeDef entry with
    | ok type => simp [Decodes, hentry, ih]
    | error e => simp [Decodes, hentry, ih]

/-- What a list reports: every entry that does not decode, with its position and the reason, and if
there is one the number of those that do. -/
def lossReport (list : TypeList) (items : List Json) : List Warning :=
  (items.zipIdx.filterMap fun entry =>
    (refusal? entry.1).map (.skipped list entry.2 entry.1)) ++
    if ∀ entry ∈ items, Decodes entry then []
    else [.incomplete list (items.countP (Decodes ·)) items.length]

/-- The warnings of a list are its report. -/
theorem warnings_eq_lossReport (list : TypeList) (items : List Json) :
    warnings list items = lossReport list items := by
  have hnone : (lostEntries 0 items).isEmpty ↔ ∀ entry ∈ items, Decodes entry := by
    rw [List.isEmpty_iff_length_eq_zero, length_lostEntries, List.countP_eq_zero]
    simp
  have hkept : items.length - (lostEntries 0 items).length = items.countP (Decodes ·) := by
    have htotal := List.length_eq_countP_add_countP (Decodes ·) (l := items)
    rw [length_lostEntries]
    simp only [Bool.decide_eq_true, decide_not] at htotal ⊢
    omega
  have hskipped : (lostEntries 0 items).map (fun entry =>
      Warning.skipped list entry.1 entry.2.1 entry.2.2) =
        items.zipIdx.filterMap fun entry =>
          (refusal? entry.1).map (.skipped list entry.2 entry.1) := by
    rw [lostEntries_eq, List.map_filterMap]
    simp only [Option.map_map]
    rfl
  rw [warnings, lossReport, hkept, hskipped]
  simp only [hnone]

/-- The lists that differ in entries that do not decode: any number of them may be put in and left
out anywhere. -/
inductive EqualUpToLosses : List Json → List Json → Prop
  | nil : EqualUpToLosses [] []
  | same {items items' : List Json} (entry : Json) (hitems : EqualUpToLosses items items') :
    EqualUpToLosses (entry :: items) (entry :: items')
  | insert {entry : Json} {items items' : List Json} (hentry : ¬Decodes entry)
    (hitems : EqualUpToLosses items items') : EqualUpToLosses items (entry :: items')
  | remove {entry : Json} {items items' : List Json} (hentry : ¬Decodes entry)
    (hitems : EqualUpToLosses items items') : EqualUpToLosses (entry :: items) items'

/-- An entry that does not decode leaves no type. -/
theorem keptTypes_cons_of_not_decodes {entry : Json} (hentry : ¬Decodes entry) :
    keptTypes (entry :: items) = keptTypes items := by
  have hlost : decoded? entry = none := by simpa using mt isSome_decoded?_iff.mp hentry
  exact List.filterMap_cons_none hlost

/-- Entries that do not decode have no effect on the types that are kept. -/
theorem keptTypes_of_equalUpToLosses (hitems : EqualUpToLosses items items') :
    keptTypes items = keptTypes items' := by
  induction hitems with
  | nil => rfl
  | same entry _ ih =>
    unfold keptTypes at ih ⊢
    rw [List.filterMap_cons, List.filterMap_cons, ih]
  | insert hentry _ ih => rw [keptTypes_cons_of_not_decodes hentry, ih]
  | remove hentry _ ih => rw [keptTypes_cons_of_not_decodes hentry, ih]

end Entries

section Documents

/-- Whether a document is an object with these members, and these are the entries of its lists. -/
structure HasEntries (document : List UInt8) (members : List (String × Json))
    (items : TypeList → List Json) : Prop where
  read : Json.read maxDepth document = .ok (.object members)
  entries : ∀ list, entries list members = .ok (items list)

/-- Whether objects have the same members besides the lists of types. -/
def SameOutside (members members' : List (String × Json)) : Prop :=
  besidesLists members = besidesLists members'

/-- A module with other types. -/
def withTypes (types referencedTypes : List TypeDef) (m : Module) : Module :=
  { m with types := types, referencedTypes := referencedTypes }

/-- The types of a module have no effect on how the rest of it is decoded. -/
theorem moduleMembers_eq_map (types referencedTypes : List TypeDef)
    (members : List (String × Json)) :
    moduleMembers types referencedTypes members =
      (moduleMembers [] [] members).map (withTypes types referencedTypes) := by
  have hbind {α : Type} (x : Except DecodeError α) (next : α → Except DecodeError Module) :
      (x >>= next).map (withTypes types referencedTypes) =
        x >>= fun a => (next a).map (withTypes types referencedTypes) := by
    cases x <;> rfl
  simp only [moduleMembers, hbind]
  rfl

/-- What is loaded from a document: its types are those that are kept of the entries, and every
entry that is lost is reported. -/
theorem parse_of_hasEntries {document : List UInt8} {members : List (String × Json)}
    {items : TypeList → List Json} (hdocument : HasEntries document members items) :
    parse document =
      match moduleMembers [] [] (besidesLists members) with
      | .error e => .error (.undecodable (besidesLists members) e)
      | .ok m =>
        .ok (withTypes (keptTypes (items .types)) (keptTypes (items .referencedTypes)) m,
          lossReport .types (items .types) ++
            lossReport .referencedTypes (items .referencedTypes)) := by
  rw [parse, hdocument.read]
  dsimp only
  rw [ofJson, hdocument.entries, hdocument.entries]
  dsimp only
  rw [moduleMembers_eq_map, warnings_eq_lossReport, warnings_eq_lossReport]
  cases moduleMembers [] [] (besidesLists members) <;> rfl

/-- A document that is loaded is an object with entries. -/
theorem hasEntries_of_parse {document : List UInt8} {m : Module} {losses : List Warning}
    (hparse : parse document = .ok (m, losses)) :
    ∃ members items, HasEntries document members items := by
  unfold parse at hparse
  split at hparse
  · cases hparse
  next value hread =>
  unfold ofJson at hparse
  split at hparse
  · next members =>
    split at hparse
    · cases hparse
    · cases hparse
    next types referencedTypes htypes hreferenced =>
    refine ⟨members, fun list => if list = .types then types else referencedTypes, hread, ?_⟩
    rintro (_ | _)
    · exact htypes
    · exact hreferenced
  · cases hparse

/-- Whether documents differ in entries only, and only in those that do not decode. -/
def EqualUpToDamage (document document' : List UInt8) : Prop :=
  ∃ members members' items items', HasEntries document members items ∧
    HasEntries document' members' items' ∧ SameOutside members members' ∧
      ∀ list, EqualUpToLosses (items list) (items' list)

/-- The entries of a document have no effect on whether it is loaded, on why it is not, and on the
rest of the module. -/
theorem parse_of_sameOutside {document document' : List UInt8}
    {members members' : List (String × Json)} {items items' : TypeList → List Json}
    (hdocument : HasEntries document members items)
    (hdocument' : HasEntries document' members' items')
    (hmembers : SameOutside members members') :
    (parse document).map (withTypes [] [] ·.1) = (parse document').map (withTypes [] [] ·.1) := by
  rw [parse_of_hasEntries hdocument, parse_of_hasEntries hdocument', hmembers]
  cases moduleMembers [] [] (besidesLists members') <;> rfl

/-- Documents that differ in damaged entries only yield the same module, or fail alike. -/
theorem parse_of_equalUpToDamage {document document' : List UInt8}
    (hdocuments : EqualUpToDamage document document') :
    (parse document).map Prod.fst = (parse document').map Prod.fst := by
  obtain ⟨members, members', items, items', hdocument, hdocument', hmembers, hitems⟩ := hdocuments
  rw [parse_of_hasEntries hdocument, parse_of_hasEntries hdocument', hmembers,
    keptTypes_of_equalUpToLosses (hitems .types),
    keptTypes_of_equalUpToLosses (hitems .referencedTypes)]
  cases moduleMembers [] [] (besidesLists members') <;> rfl

end Documents

end Snapshot

end ModuleInspector
