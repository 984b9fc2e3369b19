import ModuleInspector.Export
import ModuleInspector.Json.Printer
import ModuleInspector.Proofs.Json.ReadPretty
import ModuleInspector.Snapshot.Document

/-!
# The exported document read back

A reader of JSON finds in the printed document the types that were exported, each with its name and
its members, in the order in which they were exported.
-/

namespace ModuleInspector.Export

/-- The text under a key of an object. -/
def text? (key : String) (members : List (String × Json)) : Option String :=
  match Json.member? key members with
  | some (.string text) => some text
  | _ => none

/-- The items of the array under a key of an object. -/
def items? (key : String) (members : List (String × Json)) : Option (List Json) :=
  match Json.member? key members with
  | some (.array items) => some items
  | _ => none

/-- The kind, the name and the signature of a member in a document. -/
def readMember? : Json → Option MemberModel
  | .object members => do
    let kind ← text? "Kind" members
    let name ← text? "Name" members
    let signature ← text? "Signature" members
    return ⟨kind, name, signature⟩
  | _ => none

/-- The name of a type in a document, and its members. -/
def readType? : Json → Option (String × List MemberModel)
  | .object members => do
    let name ← text? "FullName" members
    let items ← items? "Members" members
    let shown ← items.mapM readMember?
    return (name, shown)
  | _ => none

/-- The names of the types in the text of a document, and their members. -/
def readTypes? (document : String) : Option (List (String × List MemberModel)) :=
  match Json.read Snapshot.maxDepth (Text.bytes document) with
  | .ok (.object members) => (items? "Types" members).bind fun types => types.mapM readType?
  | _ => none

/-- The document of a member is legible. -/
theorem legible_memberModel (depth : Nat) (model : MemberModel) :
    Json.Legible (depth + 1) model.toJson :=
  .object (by simp [Json.Legible.string])

/-- A text or null is legible. -/
theorem legible_optionalText (depth : Nat) (text : Option String) :
    Json.Legible depth (optionalText text) := by
  cases text with
  | none => exact .null
  | some text => exact .string

/-- A list of texts is legible. -/
theorem legible_texts (depth : Nat) (texts : List String) :
    Json.Legible (depth + 1) (.array (texts.map .string)) :=
  .array (List.forall_mem_map.mpr fun _ _ => .string)

/-- The document of a type is legible. -/
theorem legible_typeModel (depth : Nat) (model : TypeModel) :
    Json.Legible (depth + 3) model.toJson := by
  have hmembers : Json.Legible (depth + 2) (.array (model.members.map MemberModel.toJson)) :=
    .array (List.forall_mem_map.mpr fun member _ => legible_memberModel depth member)
  refine .object ?_
  simp [Json.Legible.string, legible_optionalText, legible_texts, hmembers]

/-- The document of a module is legible. -/
theorem legible_moduleModel (depth : Nat) (model : ModuleModel) :
    Json.Legible (depth + 5) model.toJson := by
  have htypes : Json.Legible (depth + 4) (.array (model.types.map TypeModel.toJson)) :=
    .array (List.forall_mem_map.mpr fun type _ => legible_typeModel depth type)
  refine .object ?_
  simp [Json.Legible.string, legible_optionalText, htypes]

section Kept

variable {key : String} {members : List (String × Json)}

/-- A reader keeps the text under a key. -/
theorem text?_keptMembers (hkeys : (members.map Prod.fst).Nodup) :
    text? key (Json.keptMembers [] members) = text? key members := by
  rw [text?, text?, Json.member?_keptMembers hkeys, Json.member?_nil, Option.or_none]
  cases Json.member? key members with
  | none => rfl
  | some value => cases value <;> rfl

/-- A reader keeps the items under a key one by one. -/
theorem items?_keptMembers (hkeys : (members.map Prod.fst).Nodup) :
    items? key (Json.keptMembers [] members) = (items? key members).map (List.map Json.kept) := by
  rw [items?, items?, Json.member?_keptMembers hkeys, Json.member?_nil, Option.or_none]
  cases Json.member? key members with
  | none => rfl
  | some value =>
    cases value with
    | array items => exact congrArg some (Json.keptItems_eq_map items)
    | _ => rfl

/-- Values that are read one by one are read as a list. -/
theorem mapM_kept {α β : Type} {read? : Json → Option β} {write : α → Json} {shown : α → β}
    (hread : ∀ x, read? (write x).kept = some (shown x)) (xs : List α) :
    ((xs.map write).map Json.kept).mapM read? = some (xs.map shown) := by
  have hpure : (read? ∘ Json.kept) ∘ write = fun x => pure (shown x) := funext hread
  rw [List.mapM_map, List.mapM_map, hpure, List.mapM_pure]
  rfl

end Kept

/-- A member is read as it was exported. -/
theorem readMember?_kept (model : MemberModel) : readMember? model.toJson.kept = some model := by
  simp only [MemberModel.toJson, Json.kept, readMember?]
  rw [text?_keptMembers (by simp), text?_keptMembers (by simp), text?_keptMembers (by simp)]
  simp [text?]

/-- The name and the members of a type are read as they were exported. -/
theorem readType?_kept (model : TypeModel) :
    readType? model.toJson.kept = some (model.fullName, model.members) := by
  have hmembers := mapM_kept readMember?_kept model.members
  simp only [TypeModel.toJson, Json.kept, readType?]
  rw [text?_keptMembers (by simp), items?_keptMembers (by simp)]
  simp [text?, items?, hmembers, -List.map_map, -List.mapM_map]

/-- The types of a printed document are read with the names and members that were exported. -/
theorem readTypes?_pretty (model : ModuleModel) :
    readTypes? model.toJson.pretty =
      some (model.types.map fun type => (type.fullName, type.members)) := by
  have hread : Json.read Snapshot.maxDepth (Text.bytes model.toJson.pretty) =
      .ok model.toJson.kept := Json.read_pretty (legible_moduleModel 122 model)
  have htypes := mapM_kept readType?_kept model.types
  rw [readTypes?, hread]
  simp only [ModuleModel.toJson, Json.kept]
  rw [items?_keptMembers (by simp)]
  simpa [items?] using htypes

end ModuleInspector.Export
