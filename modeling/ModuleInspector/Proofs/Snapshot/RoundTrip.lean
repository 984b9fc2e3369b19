import ModuleInspector.Proofs.Snapshot.DecodedTypes
import ModuleInspector.Proofs.Snapshot.Printing
import ModuleInspector.Proofs.Snapshot.ReadBack

/-!
# Modules and their documents

A document yields canonical modules only, and every canonical module is yielded by the documents
of its form. One such document is the text of the form, provided that the doubles of the module
read back.
-/

namespace ModuleInspector.Snapshot

/-- A document that is read as the form of a canonical module yields the module without losses. -/
theorem parse_of_read {m : Module} (hm : m.Canonical) {document : List UInt8}
    (hread : Json.read maxDepth document = .ok (encodeModule m)) :
    parse document = .ok (m, []) := by
  rw [parse, hread]
  exact ofJson_encodeModule hm

/-- The text of the form of a canonical module is read as the form, if its doubles read back. -/
theorem read_compact_encodeModule {m : Module} (hm : m.Canonical)
    (hdoubles : ∀ x ∈ (encodeModule m).doubles, Json.ReadsDouble x) :
    Json.read maxDepth (Text.bytes (Json.compact (encodeModule m))) = .ok (encodeModule m) :=
  Json.read_compact (tidy_encodeModule m) (Nat.le_of_lt_succ hm.nesting) hdoubles

/-- Every module that a document yields is canonical. In turn, every document that is read as the
form of a canonical module yields the module itself, and no entry of it is lost. The text of the
module is such a document if the text layer reads back the doubles that it printed. -/
theorem parse_canonical_roundTrip :
    (∀ (document : List UInt8) (m : Module) (losses : List Warning),
      parse document = .ok (m, losses) → m.Canonical) ∧
    (∀ m : Module, m.Canonical → ∀ document : List UInt8,
      Json.read maxDepth document = .ok (encodeModule m) → parse document = .ok (m, [])) ∧
    ∀ m : Module, m.Canonical → (∀ x ∈ (encodeModule m).doubles, Json.ReadsDouble x) →
      parse (Text.bytes (Json.compact (encodeModule m))) = .ok (m, []) := by
  refine ⟨?_, ?_, ?_⟩
  · intro document m losses hparse
    exact canonical_of_parse hparse
  · intro m hm document hread
    exact parse_of_read hm hread
  · intro m hm hdoubles
    exact parse_of_read hm (read_compact_encodeModule hm hdoubles)

/-- One half as a double. -/
def half : Binary64 := ⟨0x3fe0000000000000⟩

/-- A type whose base, attribute and method use every sort of nesting. -/
def gear : TypeDef where
  name := "Gear"
  nameSpace := some "Acme"
  declaringType := none
  flags := 1
  kind := .classType
  base := some (.generic "Acme.Part\x601" [.array (.ofFullName "System.Int32") 2])
  interfaces := [.ofFullName "Acme.ITurning"]
  genericArguments := [.parameter "T"]
  attributes := [⟨.ofFullName "Acme.RatioAttribute",
    [.float half, .uint 0xffffffffffffffff, .array [.null, .typeOf (.byRef (.parameter "T"))]],
    [⟨"Limit", .int (-1)⟩]⟩]
  members := [.method ⟨"Turn", 6, .void, [], [⟨"steps", .ofFullName "System.Int64", 16,
    some (.int 1)⟩], [], some ⟨8, 0⟩⟩]

/-- A module with that type. -/
def gears : Module where
  identity := ⟨"Acme.Gears", some "1.0.0.0", none, none, none⟩
  location := ""
  files := ["Acme.Gears.dll"]
  types := [gear]
  referencedTypes := []
  resources := [⟨"Acme.icons", 2048⟩]
  entryPoint := none

/-- The type is canonical. -/
theorem canonical_gear : gear.Canonical where
  base := by
    rintro _ ⟨⟩
    have hargument : (TypeRef.array (.ofFullName "System.Int32") 2).Canonical :=
      .array .named (by decide) (by decide)
    exact .generic (List.forall_mem_singleton.mpr hargument)
  interfaces := List.forall_mem_singleton.mpr .named
  genericArguments := List.forall_mem_singleton.mpr .named
  attributes := by
    refine List.forall_mem_singleton.mpr ⟨.named, ?_, List.forall_mem_singleton.mpr .int⟩
    have hitems : ∀ item ∈ [Literal.null, .typeOf (.byRef (.parameter "T"))], item.Canonical :=
      List.forall_mem_cons.mpr ⟨.null, List.forall_mem_singleton.mpr (.typeOf (.byRef .named))⟩
    exact List.forall_mem_cons.mpr ⟨.float (by decide), List.forall_mem_cons.mpr
      ⟨.uint (by decide), List.forall_mem_singleton.mpr (.array hitems)⟩⟩
  members := by
    have hparameter : (Parameter.mk "steps" (.ofFullName "System.Int64") 16
        (some (.int 1))).Canonical := ⟨.named, by rintro _ ⟨⟩; exact ⟨.int, nofun⟩⟩
    exact List.forall_mem_singleton.mpr
      ⟨.named, nofun, List.forall_mem_singleton.mpr hparameter, nofun⟩

/-- The module is canonical. -/
theorem canonical_gears : gears.Canonical where
  types := List.forall_mem_singleton.mpr canonical_gear
  referencedTypes := nofun
  nesting := by decide +kernel

/-- The only double of the module reads back. -/
theorem readsDouble_gears : ∀ x ∈ (encodeModule gears).doubles, Json.ReadsDouble x := by
  have hdoubles : (encodeModule gears).doubles = [half] := by decide +kernel
  have htext : Text.bytes (Json.floatText half) = ['0'.toUInt8, '.'.toUInt8, '5'.toUInt8] := by
    decide +kernel
  rw [hdoubles]
  intro x hx
  obtain rfl := List.mem_singleton.mp hx
  rw [Json.ReadsDouble, htext]
  exact Json.reads_of_digits (by decide) (by decide +kernel)

/-- A canonical module is yielded by the document that its text is. -/
theorem parse_gears :
    parse (Text.bytes (Json.compact (encodeModule gears))) = .ok (gears, []) ∧ gears.Canonical := by
  obtain ⟨hcanonical, -, hyields⟩ := parse_canonical_roundTrip
  have hparse := hyields gears canonical_gears readsDouble_gears
  exact ⟨hparse, hcanonical _ gears [] hparse⟩

end ModuleInspector.Snapshot
