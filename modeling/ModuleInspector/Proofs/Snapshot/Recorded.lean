import ModuleInspector.Proofs.Json.Members
import ModuleInspector.Proofs.Snapshot.Canonical

/-!
# Recorded fields

How the fields of a record are found again in the members that encoding writes: a field that is
always written, one that may have no value, and a list that is left out when it is empty.
-/

namespace ModuleInspector

namespace Snapshot

/-- A list, if it is not empty. -/
def unlessEmpty {α : Type} : List α → Option (List α)
  | [] => none
  | xs => some xs

section Fields

variable {α : Type} {decode : Decoder α} {encode : α → Json} {key : String}
  {fields : List (String × Json)}

/-- A list that is left out is the empty one. -/
@[simp] theorem getD_unlessEmpty {xs : List α} : (unlessEmpty xs).getD [] = xs := by
  cases xs <;> rfl

/-- A field that is written when there is a value is found under its key. -/
@[simp] theorem member?_optional {name : String} {field : Option α} :
    Json.member? key (optional name encode field) =
      if key = name then field.map encode else none := by
  cases field <;> simp [optional]

/-- A list that is written when it is not empty is found under its key. -/
@[simp] theorem member?_nonempty {name : String} {items : List Json} :
    Json.member? key (nonempty name items) =
      if key = name then (unlessEmpty items).map .array else none := by
  cases items <;> simp [nonempty, unlessEmpty]

/-- A field that may be null is the value that was found. -/
@[simp] theorem join_map_some {field : Option α} : (field.map some).join = field := by
  cases field <;> rfl

/-- The values of a list are decoded from their forms. -/
theorem decodeAll_map {xs : List α} (hxs : ∀ x ∈ xs, decode (encode x) = .ok x) :
    decodeAll decode (xs.map encode) = .ok xs := by
  induction xs with
  | nil => rfl
  | cons x xs ih =>
    obtain ⟨hx, hrest⟩ := List.forall_mem_cons.mp hxs
    rw [List.map_cons, decodeAll, hx, ih hrest]
    rfl

/-- A field that is always written is decoded from its form. -/
theorem member?_eq_some {x : α} {value : Json} (hx : decode value = .ok x)
    (hfound : Json.member? key fields = some value) :
    member? key decode fields = .ok (some x) := by
  rw [member?, hfound]
  dsimp only
  rw [hx]
  rfl

/-- A field that is written when there is a value is decoded from its form. -/
theorem member?_eq_self {field : Option α} (hfield : ∀ x ∈ field, decode (encode x) = .ok x)
    (hfound : Json.member? key fields = field.map encode) :
    member? key decode fields = .ok field := by
  cases field with
  | none => rw [member?, hfound]; rfl
  | some x => exact member?_eq_some (hfield x rfl) hfound

/-- A field that may have no value is decoded from its form, which is not null. -/
theorem member?_eq_map_some {field : Option α}
    (hfield : ∀ x ∈ field, decode (encode x) = .ok x ∧ encode x ≠ .null)
    (hfound : Json.member? key fields = field.map encode) :
    member? key (nullable decode) fields = .ok (field.map some) := by
  rw [member?, hfound]
  cases field with
  | none => rfl
  | some x =>
    obtain ⟨hx, hnull⟩ := hfield x rfl
    have hdecoded : nullable decode (encode x) = .ok (some x) := by
      unfold nullable
      split
      · next heq => exact absurd heq hnull
      · rw [hx]
        rfl
    dsimp only [Option.map_some]
    rw [hdecoded]
    rfl

/-- A list that is left out when it is empty is decoded from the forms of its values. -/
theorem member?_eq_unlessEmpty {xs : List α} (hxs : ∀ x ∈ xs, decode (encode x) = .ok x)
    (hfound : Json.member? key fields = (unlessEmpty (xs.map encode)).map .array) :
    member? key (listOf decode) fields = .ok (unlessEmpty xs) := by
  rw [member?, hfound]
  cases xs with
  | nil => rfl
  | cons x xs =>
    have hdecoded : listOf decode (.array ((x :: xs).map encode)) = .ok (x :: xs) :=
      decodeAll_map hxs
    change (listOf decode (.array ((x :: xs).map encode))).map some = .ok (some (x :: xs))
    rw [hdecoded]
    rfl

/-- A computation goes on with the result before it. -/
@[simp] theorem ok_bind {β : Type} {x : α} {next : α → Except DecodeError β} :
    (Except.ok x >>= next) = next x := rfl

/-- A result may be mapped. -/
@[simp] theorem map_ok {β : Type} {x : α} {f : α → β} :
    f <$> (Except.ok x : Except DecodeError α) = .ok (f x) := rfl

/-- A required field that is there is the result. -/
@[simp] theorem required_some {x : α} : required (some x) = .ok x := rfl

end Fields

end Snapshot

end ModuleInspector
