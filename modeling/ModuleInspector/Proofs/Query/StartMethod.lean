import ModuleInspector.Proofs.Catalog.Identifier
import ModuleInspector.Query.Run

/-!
# The method of the entry point

The entry point records the qualified name of a type, and the type is looked up like a typed
identifier. The second line of the command is therefore the signature of a method of the recorded
type exactly when a type with that name exists; otherwise it comes from a type of another name.
-/

namespace ModuleInspector

namespace TypeDef

/-- The signature of the first method of a type with a name. -/
def signatureOf? (t : TypeDef) (name : String) : Option String :=
  (((t.declared .method).filterMap Member.method?).find? fun method =>
    method.name = name).map fun method => method.signature t

/-- The constructors, which also have a method behind them, are not among the methods. -/
theorem mem_declaredMethods_iff {t : TypeDef} {method : Method} :
    method ∈ (t.declared .method).filterMap Member.method? ↔ .method method ∈ t.members := by
  simp only [declared, List.mem_filterMap, List.mem_filter, decide_eq_true_eq]
  constructor
  · rintro ⟨member, ⟨hmember, hkind⟩, hmethod⟩
    cases member with
    | method other =>
      obtain rfl : other = method := Option.some.inj hmethod
      exact hmember
    | _ => cases hkind
  · intro hmember
    exact ⟨.method method, ⟨hmember, rfl⟩, rfl⟩

/-- The signature belongs to a method of the type that has the name. -/
theorem exists_method_of_signatureOf? {t : TypeDef} {name line : String}
    (hline : t.signatureOf? name = some line) :
    ∃ method, .method method ∈ t.members ∧ method.name = name ∧ line = method.signature t := by
  obtain ⟨method, hfound, rfl⟩ := Option.map_eq_some_iff.mp hline
  have hname := List.find?_some hfound
  exact ⟨method, mem_declaredMethods_iff.mp (List.mem_of_find?_eq_some hfound),
    of_decide_eq_true hname, rfl⟩

/-- There is a signature exactly when the type has a method of the name. -/
theorem isSome_signatureOf?_iff {t : TypeDef} {name : String} :
    (t.signatureOf? name).isSome = true ↔
      ∃ method, .method method ∈ t.members ∧ method.name = name := by
  rw [signatureOf?, Option.isSome_map, List.find?_isSome]
  simp only [mem_declaredMethods_iff, decide_eq_true_eq]

end TypeDef

namespace Module

variable {m : Module}

/-- The type that an identifier finds has the identifier as its qualified name exactly when some
type has. -/
theorem fullName_eq_iff_of_isLeast {identifier : String} {way : NameMatch}
    {i : Fin m.types.length}
    (hleast : IsLeast (m.nameMatches identifier) (toLex (way.stage, i.val))) :
    (m.types.get i).fullName = identifier ↔ ∃ t ∈ m.types, t.fullName = identifier := by
  refine ⟨fun hname => ⟨_, List.get_mem _ i, hname⟩, ?_⟩
  rintro ⟨t, ht, hname⟩
  obtain ⟨j, rfl⟩ := List.get_of_mem ht
  obtain ⟨haccepts, -, hearlier⟩ := isLeast_nameMatches_iff.mp hleast
  cases way with
  | qualified => exact of_decide_eq_true haccepts
  | _ =>
    -- A later way is not tried, because the first one accepts the type of that name.
    exact absurd hname (of_decide_eq_false (hearlier .qualified (by decide) j))

end Module

namespace Query

variable {m : Module}

/-- The signature is that of the first such method of the type that the recorded name finds. -/
theorem entryPointSignature?_eq_some_iff {start : EntryPoint}
    (hblank : Text.isBlank start.declaringType = false) {line : String} :
    entryPointSignature? (Catalog.of m) start = some line ↔
      ∃ (way : NameMatch) (i : Fin m.types.length),
        IsLeast (m.nameMatches start.declaringType) (toLex (way.stage, i.val)) ∧
          (m.types.get i).signatureOf? start.method = some line := by
  rw [entryPointSignature?, Option.bind_eq_some_iff]
  simp only [Catalog.findType?_eq_some_iff_isLeast hblank]
  constructor
  · rintro ⟨e, ⟨way, i, rfl, hleast⟩, hline⟩
    exact ⟨way, i, hleast, hline⟩
  · rintro ⟨way, i, hleast, hline⟩
    exact ⟨.defined i, ⟨way, i, rfl, hleast⟩, hline⟩

/-- A blank recorded name finds no type. -/
theorem entryPointSignature?_eq_none_of_blank {start : EntryPoint}
    (hblank : Text.isBlank start.declaringType = true) :
    entryPointSignature? (Catalog.of m) start = none := by
  rw [entryPointSignature?, Catalog.findType?, if_pos hblank, Option.bind_none]

/-- The first type with the recorded name decides the signature. -/
theorem entryPointSignature?_eq_signatureOf? {start : EntryPoint}
    (hblank : Text.isBlank start.declaringType = false) {i : Fin m.types.length}
    (hname : (m.types.get i).fullName = start.declaringType)
    (hfirst : ∀ j < i, (m.types.get j).fullName ≠ start.declaringType) :
    entryPointSignature? (Catalog.of m) start =
      (m.types.get i).signatureOf? start.method := by
  have hfound : (Catalog.of m).findType? start.declaringType = some (.defined i) := by
    refine (Catalog.findType?_eq_some_iff_isLeast hblank).mpr ⟨.qualified, i, rfl, ?_⟩
    refine Module.isLeast_nameMatches_iff.mpr ⟨decide_eq_true hname, fun j hj => ?_, ?_⟩
    · exact decide_eq_false (hfirst j hj)
    · intro earlier hearlier
      cases earlier <;> simp [NameMatch.stage] at hearlier
  rw [entryPointSignature?, hfound, Option.bind_some]
  rfl

/-- The command lists the recorded entry point and at most one other line. That line is the
signature of a method with the recorded name, declared by the type that the recorded type name
finds, and this type has that qualified name exactly when some defined type has; otherwise the
method is one of a type with another name. There is no such line for a blank type name. Where a type
has the recorded name and it is not blank, the first such type decides: the line is the signature of
its first method with the recorded name, and is left out exactly when it declares none. -/
theorem entryPoint_signs_recorded_iff (m : Module) (o : Options) {start : EntryPoint}
    (hstart : m.entryPoint = some start) :
    ∃ second : Option String,
      run (Catalog.of m) .entryPoint o =
        .ok (("EntryPoint: " ++ start.declaringType ++ "." ++ start.method) :: second.toList) ∧
      (∀ line, second = some line →
        ∃ (way : NameMatch) (i : Fin m.types.length) (method : Method),
          IsLeast (m.nameMatches start.declaringType) (toLex (way.stage, i.val)) ∧
          .method method ∈ (m.types.get i).members ∧ method.name = start.method ∧
          line = method.signature (m.types.get i) ∧
          ((m.types.get i).fullName = start.declaringType ↔
            ∃ t ∈ m.types, t.fullName = start.declaringType)) ∧
      (Text.isBlank start.declaringType = true → second = none) ∧
      (Text.isBlank start.declaringType = false → ∀ i : Fin m.types.length,
        (m.types.get i).fullName = start.declaringType →
        (∀ j < i, (m.types.get j).fullName ≠ start.declaringType) →
        second = (m.types.get i).signatureOf? start.method ∧
          (second = none ↔ ∀ method, .method method ∈ (m.types.get i).members →
            method.name ≠ start.method)) := by
  refine ⟨entryPointSignature? (Catalog.of m) start, ?_, fun line hline => ?_,
    entryPointSignature?_eq_none_of_blank, fun hblank i hname hfirst => ?_⟩
  · rw [run, entryPoint, hstart]
  · cases hblank : Text.isBlank start.declaringType with
    | true =>
      rw [entryPointSignature?_eq_none_of_blank hblank] at hline
      cases hline
    | false =>
      obtain ⟨way, i, hleast, hsignature⟩ :=
        (entryPointSignature?_eq_some_iff hblank).mp hline
      obtain ⟨method, hmember, hname, hline⟩ :=
        TypeDef.exists_method_of_signatureOf? hsignature
      exact ⟨way, i, method, hleast, hmember, hname, hline,
        Module.fullName_eq_iff_of_isLeast hleast⟩
  · have hsecond := entryPointSignature?_eq_signatureOf? hblank hname hfirst
    refine ⟨hsecond, ?_⟩
    rw [hsecond, ← Option.not_isSome_iff_eq_none, TypeDef.isSome_signatureOf?_iff]
    push Not
    rfl

/-- A module that starts at `Main` of the type `Program`, and declares such types in namespaces, of
which the empty one is none. -/
def startingAtProgram (nameSpaces : List String) : Module where
  identity := ⟨"Tool", none, none, none, none⟩
  location := ""
  files := []
  types := nameSpaces.map fun nameSpace =>
    { TypeDef.ofName nameSpace "Program" 1 with members := [.method (.ofName "Main" 22)] }
  referencedTypes := []
  resources := []
  entryPoint := some ⟨"Program", "Main"⟩

/-- The recorded type is found behind another one of the same simple name. -/
theorem entryPoint_signs_secondProgram :
    let m := startingAtProgram ["Acme", ""]
    m.entryPoint = some ⟨"Program", "Main"⟩ ∧
      ∃ (i : Fin m.types.length) (method : Method) (line : String),
        run (Catalog.of m) .entryPoint ⟨[], []⟩ = .ok ["EntryPoint: Program.Main", line] ∧
        line = "Program.Main()" ∧ i.val = 1 ∧ (m.types.get i).fullName = "Program" ∧
        .method method ∈ (m.types.get i).members ∧ method.name = "Main" ∧
        line = method.signature (m.types.get i) := by
  intro m
  have hblank : Text.isBlank "Program" = false := by decide
  have hstart : m.entryPoint = some ⟨"Program", "Main"⟩ := rfl
  obtain ⟨second, hrun, hline, -, hfirst⟩ := entryPoint_signs_recorded_iff m ⟨[], []⟩ hstart
  have hname : (m.types.get ⟨1, by decide⟩).fullName = "Program" := by decide
  obtain ⟨hsecond, -⟩ := hfirst hblank ⟨1, by decide⟩ hname (by decide)
  have hsignature : (m.types.get ⟨1, by decide⟩).signatureOf? "Main" = some "Program.Main()" := by
    rfl
  rw [hsignature] at hsecond
  obtain ⟨way, i, method, -, hmember, hmethod, hsigned, hrecorded⟩ := hline _ hsecond
  have hfull : (m.types.get i).fullName = "Program" :=
    hrecorded.mpr ⟨_, List.get_mem _ _, hname⟩
  have hposition : ∀ j : Fin m.types.length, (m.types.get j).fullName = "Program" → j.val = 1 := by
    decide
  rw [hsecond] at hrun
  exact ⟨hstart, i, method, _, hrun, rfl, hposition i hfull, hfull, hmember, hmethod, hsigned⟩

/-- Where only a type of another namespace has the simple name, its method is signed, although no
type has the recorded qualified name. -/
theorem entryPoint_signs_otherProgram :
    let m := startingAtProgram ["Acme"]
    m.entryPoint = some ⟨"Program", "Main"⟩ ∧
      run (Catalog.of m) .entryPoint ⟨[], []⟩ =
        .ok ["EntryPoint: Program.Main", "Acme.Program.Main()"] ∧
      ∀ t ∈ m.types, t.fullName ≠ "Program" := by
  intro m
  have hblank : Text.isBlank "Program" = false := by decide
  have hleast : IsLeast (m.nameMatches "Program") (toLex (NameMatch.simple.stage, 0)) := by
    refine (Module.isLeast_nameMatches_iff (i := ⟨0, by decide⟩)).mpr
      ⟨by decide, by decide, fun earlier hearlier => ?_⟩
    cases earlier with
    | qualified => decide
    | qualifiedFolded => decide
    | _ => simp [NameMatch.stage] at hearlier
  have hsignature : (m.types.get ⟨0, by decide⟩).signatureOf? "Main" =
      some "Acme.Program.Main()" := by rfl
  have hsecond : entryPointSignature? (Catalog.of m) ⟨"Program", "Main"⟩ =
      some "Acme.Program.Main()" :=
    (entryPointSignature?_eq_some_iff hblank).mpr ⟨.simple, _, hleast, hsignature⟩
  have hstart : m.entryPoint = some ⟨"Program", "Main"⟩ := rfl
  refine ⟨hstart, ?_, by decide⟩
  rw [run, entryPoint, hstart]
  simp only [hsecond]
  rfl

end Query

end ModuleInspector
