import ModuleInspector.Proofs.Json.DepthLimit
import ModuleInspector.Proofs.Snapshot.DamagedEntries
import ModuleInspector.Session.Application
import ModuleInspector.Session.SnapshotFile

/-!
# Damaged snapshots

A run on a snapshot with damaged entries shows what it shows on the snapshot without them. This
holds as long as the reader accepts the documents: it reads them before their entries are told
apart, and refuses one that nests too deep as a whole.
-/

namespace ModuleInspector

/-- The things found at a path that differ in damaged entries of a snapshot only. -/
inductive Found.EqualUpToDamage : Found → Found → Prop
  | same (found : Found) : EqualUpToDamage found found
  | file {location : String} {content content' : List UInt8}
    (hcontent : Snapshot.EqualUpToDamage content content') :
    EqualUpToDamage (.file location content) (.file location content')

/-- What an execution shows: its status and its sinks. -/
def Execution.shown (e : Execution) : Nat × Sink × Sink := (e.status, e.out, e.err)

namespace SnapshotFile

section Words

variable {words : Snapshot.Words}

/-- What is loaded from a file is the module of its document, with the place of the file. -/
theorem map_fst_load_file (path location : String) (content : List UInt8) :
    (load words path (.file location content)).map Prod.fst =
      match (Snapshot.parse content).map Prod.fst with
      | .error e => .error (.document e (e.text words))
      | .ok m => .ok { m with location := location } := by
  unfold load
  dsimp only
  cases Snapshot.parse content <;> rfl

/-- Damaged entries have no effect on the module that is loaded, nor on why none is. -/
theorem load_of_equalUpToDamage {path : String} {found found' : Found}
    (hfound : found.EqualUpToDamage found') :
    (load words path found).map Prod.fst = (load words path found').map Prod.fst := by
  cases hfound with
  | same => rfl
  | file hcontent =>
    rw [map_fst_load_file, map_fst_load_file, Snapshot.parse_of_equalUpToDamage hcontent]

/-- A run shows the failed load, or the command on the module that was loaded. -/
theorem shown_run (locate : String → Found) (path command : String) (options : List String)
    (out err : Sink) :
    (Application.run (provider words locate) (path :: command :: options) out err ()).1.shown =
      match (load words path (locate path)).map Prod.fst with
      | .error e => (Application.reportLoadError path e out err).shown
      | .ok m =>
        (execute m (Application.commandText command) (Options.parse options) out err).shown := by
  cases hload : load words path (locate path) with
  | error e => simp [Application.run, Provider.openModule, provider, hload, Except.map,
      Execution.shown]
  | ok loaded => simp [Application.run, Provider.openModule, provider, hload, Except.map,
      Execution.shown]

/-- Damaged entries have no effect on what a run shows. -/
theorem shown_run_of_equalUpToDamage {locate locate' : String → Found}
    (hfound : ∀ path, (locate path).EqualUpToDamage (locate' path)) (arguments : List String)
    (out err : Sink) :
    (Application.run (provider words locate) arguments out err ()).1.shown =
      (Application.run (provider words locate') arguments out err ()).1.shown := by
  match arguments with
  | [] => rfl
  | [_] => rfl
  | path :: command :: options =>
    rw [shown_run, shown_run, load_of_equalUpToDamage (hfound path)]

end Words

/-- Damaged entries are isolated, in documents that the reader accepts. The types of a module that
is loaded are the decodings of exactly those entries that decode, in order, and its losses are
reported list by list. Putting in and leaving out entries that do not decode changes neither the
module nor what a run shows, and whatever the entries are, the rest of the module is loaded alike,
or fails to load with the same error. -/
theorem damagedEntries_isolated (document document' : List UInt8) :
    (∀ (m : Module) (losses : List Snapshot.Warning),
      Snapshot.parse document = .ok (m, losses) →
        ∃ members items, Snapshot.HasEntries document members items ∧
          m.types.map .ok = ((items .types).filter (Snapshot.Decodes ·)).map Snapshot.typeDef ∧
          m.referencedTypes.map .ok =
            ((items .referencedTypes).filter (Snapshot.Decodes ·)).map Snapshot.typeDef ∧
          losses = Snapshot.lossReport .types (items .types) ++
            Snapshot.lossReport .referencedTypes (items .referencedTypes)) ∧
    (Snapshot.EqualUpToDamage document document' →
      (Snapshot.parse document).map Prod.fst = (Snapshot.parse document').map Prod.fst) ∧
    (∀ (words : Snapshot.Words) (locate locate' : String → Found),
      (∀ path, (locate path).EqualUpToDamage (locate' path)) →
        ∀ (arguments : List String) (out err : Sink),
          (Application.run (provider words locate) arguments out err ()).1.shown =
            (Application.run (provider words locate') arguments out err ()).1.shown) ∧
    ∀ (members members' : List (String × Json)) (items items' : TypeList → List Json),
      Snapshot.HasEntries document members items → Snapshot.HasEntries document' members' items' →
        Snapshot.SameOutside members members' →
          (Snapshot.parse document).map (Snapshot.withTypes [] [] ·.1) =
            (Snapshot.parse document').map (Snapshot.withTypes [] [] ·.1) := by
  refine ⟨?_, ?_, ?_, ?_⟩
  · intro m losses hparse
    obtain ⟨members, items, hdocument⟩ := Snapshot.hasEntries_of_parse hparse
    refine ⟨members, items, hdocument, ?_⟩
    rw [Snapshot.parse_of_hasEntries hdocument] at hparse
    split at hparse
    · cases hparse
    · obtain ⟨rfl, rfl⟩ := Prod.mk.inj (Except.ok.inj hparse)
      exact ⟨Snapshot.map_ok_keptTypes _, Snapshot.map_ok_keptTypes _, rfl⟩
  · intro hdocuments
    exact Snapshot.parse_of_equalUpToDamage hdocuments
  · intro words locate locate' hfound arguments out err
    exact shown_run_of_equalUpToDamage hfound arguments out err
  · intro members members' items items' hdocument hdocument' hmembers
    exact Snapshot.parse_of_sameOutside hdocument hdocument' hmembers

/-- The members of a snapshot with these entries. -/
def acmeMembers (entries : List Json) : List (String × Json) :=
  [("identity", .object [("name", .string "Acme")]), ("types", .array entries)]

/-- The text of that snapshot. -/
def acmeDocument (entries : List Json) : List UInt8 :=
  Text.bytes (Json.compact (.object (acmeMembers entries)))

/-- A snapshot is read when it nests few enough containers. -/
theorem read_acmeDocument {entries : List Json} (htidy : ∀ entry ∈ entries, entry.Tidy)
    (hdoubles : Json.doublesItems entries = []) (depth : Nat) :
    Json.read depth (acmeDocument entries) =
      if Json.nestingItems entries + 2 ≤ depth then .ok (.object (acmeMembers entries))
      else .error .malformed := by
  have hidentity : (Json.object [("name", .string "Acme")]).Tidy :=
    .object (by simp) (List.forall_mem_singleton.mpr .string)
  have hroot : (Json.object (acmeMembers entries)).Tidy := by
    refine .object ?_ (List.forall_mem_cons.mpr ⟨hidentity, ?_⟩)
    · simp only [acmeMembers, List.map_cons, List.map_nil, List.pairwise_pair]
      decide
    · exact List.forall_mem_singleton.mpr (.array htidy)
  have hnone : (Json.object (acmeMembers entries)).doubles = [] := by
    simp [acmeMembers, Json.doubles, Json.doublesMembers, hdoubles]
  have hnesting : (Json.object (acmeMembers entries)).nesting = Json.nestingItems entries + 2 := by
    simp only [acmeMembers, Json.nesting, Json.nestingMembers]
    omega
  rw [acmeDocument, Json.read_compact_eq_ite hroot depth (by simp [hnone]), hnesting]

/-- A snapshot that is read has its entries. -/
theorem hasEntries_acmeDocument {entries : List Json} (htidy : ∀ entry ∈ entries, entry.Tidy)
    (hdoubles : Json.doublesItems entries = []) (hnesting : Json.nestingItems entries ≤ 125) :
    Snapshot.HasEntries (acmeDocument entries) (acmeMembers entries)
      fun | .types => entries | .referencedTypes => [] where
  read := by
    have hdepth : Json.nestingItems entries + 2 ≤ Snapshot.maxDepth :=
      Nat.add_le_add_right hnesting 2
    rw [read_acmeDocument htidy hdoubles, if_pos hdepth]
  entries := by rintro (_ | _) <;> rfl

/-- Such snapshots differ in their entries only. -/
theorem sameOutside_acmeMembers (entries entries' : List Json) :
    Snapshot.SameOutside (acmeMembers entries) (acmeMembers entries') := rfl

/-- The entry of a type that has a name only. -/
def namedEntry (name : String) : Json := .object [("name", .string name)]

/-- The module of the snapshot with the entries of two types. -/
def acme : Module where
  identity := ⟨"Acme", none, none, none, none⟩
  location := ""
  files := []
  types := [.ofName "" "Cog" 0, .ofName "" "Spur" 0]
  referencedTypes := []
  resources := []
  entryPoint := none

/-- The snapshot with these entries, and another one between them. -/
def damagedAcme : List UInt8 := acmeDocument [namedEntry "Cog", .null, namedEntry "Spur"]

/-- The snapshot with these entries. -/
def repairedAcme : List UInt8 := acmeDocument [namedEntry "Cog", namedEntry "Spur"]

/-- An entry that is no type is lost under its own position, and has no other effect. -/
theorem damagedEntries_isolated_acme :
    Snapshot.parse damagedAcme =
        .ok (acme, [.skipped .types 1 .null .shape, .incomplete .types 2 3]) ∧
      (∃ members items, Snapshot.HasEntries damagedAcme members items ∧
        acme.types.map .ok = ((items .types).filter (Snapshot.Decodes ·)).map Snapshot.typeDef) ∧
      (Snapshot.parse damagedAcme).map Prod.fst = (Snapshot.parse repairedAcme).map Prod.fst ∧
      (∀ (words : Snapshot.Words) (arguments : List String) (out err : Sink),
        (Application.run (provider words fun _ => .file "acme.json" damagedAcme) arguments out err
          ()).1.shown =
        (Application.run (provider words fun _ => .file "acme.json" repairedAcme) arguments out err
          ()).1.shown) ∧
      (Snapshot.parse damagedAcme).map (Snapshot.withTypes [] [] ·.1) =
        (Snapshot.parse (acmeDocument [])).map (Snapshot.withTypes [] [] ·.1) := by
  obtain ⟨hparsed, hmodule, hrun, -⟩ := damagedEntries_isolated damagedAcme repairedAcme
  obtain ⟨-, -, -, hrest⟩ := damagedEntries_isolated damagedAcme (acmeDocument [])
  have hnamed (name : String) : (namedEntry name).Tidy :=
    .object (by simp) (List.forall_mem_singleton.mpr .string)
  have hdamaged := @hasEntries_acmeDocument [namedEntry "Cog", .null, namedEntry "Spur"]
    (by simp [hnamed, Json.Tidy.null]) rfl (by decide)
  have hrepaired := @hasEntries_acmeDocument [namedEntry "Cog", namedEntry "Spur"]
    (by simp [hnamed]) rfl (by decide)
  have hempty := @hasEntries_acmeDocument [] (List.forall_mem_nil _) rfl (by decide)
  have halike : Snapshot.EqualUpToDamage damagedAcme repairedAcme := by
    refine ⟨_, _, _, _, hdamaged, hrepaired, sameOutside_acmeMembers _ _, ?_⟩
    rintro (_ | _)
    · exact .same _ (.remove (by decide) (.same _ .nil))
    · exact .nil
  have hparse : Snapshot.parse damagedAcme =
      .ok (acme, [.skipped .types 1 .null .shape, .incomplete .types 2 3]) := by
    rw [damagedAcme, Snapshot.parse_of_hasEntries hdamaged]
    rfl
  obtain ⟨members, items, hentries, htypes, -, -⟩ := hparsed _ _ hparse
  refine ⟨hparse, ⟨members, items, hentries, htypes⟩, hmodule halike, ?_, ?_⟩
  · exact fun words => hrun words _ _ fun _ => .file halike
  · exact hrest _ _ _ _ hdamaged hempty (sameOutside_acmeMembers _ _)

/-- An empty array in so many others. -/
def nestedEntry : Nat → Json
  | 0 => .array []
  | depth + 1 => .array [nestedEntry depth]

/-- A nested entry is tidy. -/
theorem tidy_nestedEntry (depth : Nat) : (nestedEntry depth).Tidy := by
  induction depth with
  | zero => exact .array nofun
  | succ depth ih => exact .array (List.forall_mem_singleton.mpr ih)

/-- A nested entry holds no doubles. -/
theorem doubles_nestedEntry (depth : Nat) : (nestedEntry depth).doubles = [] := by
  induction depth with
  | zero => rfl
  | succ depth ih => simp [nestedEntry, Json.doubles, Json.doublesItems, ih]

/-- A nested entry has one container more than it has others around the empty one. -/
theorem nesting_nestedEntry (depth : Nat) : (nestedEntry depth).nesting = depth + 1 := by
  induction depth with
  | zero => rfl
  | succ depth ih => simp [nestedEntry, Json.nesting, Json.nestingItems, ih]

/-- An entry that does not decode can keep the module from being loaded: one that nests so deep
that the snapshot, which is read where one container more may nest, is refused as a whole. -/
theorem parse_deepEntry :
    ¬Snapshot.Decodes (nestedEntry 125) ∧
      Json.read 128 (acmeDocument []) = .ok (.object (acmeMembers [])) ∧
      Json.read 128 (acmeDocument [nestedEntry 125]) =
        .ok (.object (acmeMembers [nestedEntry 125])) ∧
      (∃ m, Snapshot.parse (acmeDocument []) = .ok (m, [])) ∧
      Snapshot.parse (acmeDocument [nestedEntry 125]) =
        .error (.unreadable (acmeDocument [nestedEntry 125]) .malformed) := by
  have hread (depth : Nat) := @read_acmeDocument [nestedEntry 125]
    (List.forall_mem_singleton.mpr (tidy_nestedEntry 125))
    (by simp [Json.doublesItems, doubles_nestedEntry]) depth
  have hnesting : Json.nestingItems [nestedEntry 125] = 126 := by
    simp [Json.nestingItems, nesting_nestedEntry]
  have hempty := @hasEntries_acmeDocument [] (List.forall_mem_nil _) rfl (by decide)
  have hlost : ¬Snapshot.Decodes (nestedEntry 125) := by
    rintro ⟨type, htype⟩
    cases htype
  refine ⟨hlost, ?_, ?_, ?_, ?_⟩
  · exact @read_acmeDocument [] (List.forall_mem_nil _) rfl 128
  · rw [hread, hnesting]
    rfl
  · rw [Snapshot.parse_of_hasEntries hempty]
    exact ⟨_, rfl⟩
  · rw [Snapshot.parse, hread, hnesting]
    rfl

end SnapshotFile

end ModuleInspector
