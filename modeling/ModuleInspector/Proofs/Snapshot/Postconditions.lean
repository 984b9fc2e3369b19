import ModuleInspector.Proofs.Json.Nesting
import ModuleInspector.Snapshot.Encoding
import ModuleInspector.Snapshot.Record

/-!
# Postconditions of decoders

What holds of everything that a decoder accepts, given a bound on the nesting of its input. The
rules follow the ways in which decoders are put together: members of an object, items of an array,
lists and values that may be null.

The property that is carried through a record is that a decoded value is canonical, and that its
form nests no deeper than the value it was decoded from.
-/

namespace ModuleInspector.Snapshot

/-- Whether the result of a computation, if there is one, has a property. -/
def Gives {α : Type} (result : Except DecodeError α) (P : α → Prop) : Prop :=
  ∀ x, result = .ok x → P x

namespace Gives

variable {α β : Type} {P : α → Prop} {Q : β → Prop}

/-- A failure has no result. -/
theorem error {e : DecodeError} : Gives (.error e) P := nofun

/-- A value is its own result. -/
theorem pure {x : α} (hx : P x) : Gives (.ok x) P := by
  rintro _ ⟨⟩
  exact hx

/-- The property of a first result may be used for the second one. -/
theorem bind {first : Except DecodeError α} {next : α → Except DecodeError β}
    (hfirst : Gives first P) (hnext : ∀ x, P x → Gives (next x) Q) : Gives (first >>= next) Q := by
  intro y hy
  cases first with
  | error e => cases hy
  | ok x => exact hnext x (hfirst x rfl) y hy

/-- A result may be mapped. -/
theorem map {result : Except DecodeError α} {f : α → β} (hresult : Gives result P)
    (hf : ∀ x, P x → Q (f x)) : Gives (result.map f) Q := by
  intro y hy
  cases result with
  | error e => cases hy
  | ok x =>
    obtain rfl := Except.ok.inj hy
    exact hf x (hresult x rfl)

/-- The result of every computation has the property that nothing is asked of. -/
theorem trivial {result : Except DecodeError α} : Gives result fun _ => True :=
  fun _ _ => True.intro

/-- A required field is the one that was found. -/
theorem required {field : Option α} (hfield : ∀ x ∈ field, P x) :
    Gives (Snapshot.required field) P := by
  cases field with
  | none => exact error
  | some x => exact pure (hfield x rfl)

end Gives

/-- Whether everything a decoder accepts has a property, given a bound on the nesting. -/
def Ensures {α : Type} (depth : Nat) (decode : Decoder α) (P : α → Prop) : Prop :=
  ∀ value, Json.Within depth value → Gives (decode value) P

/-- Whether the items that a computation takes ensure a property, and it leaves items of the
same bound. -/
def Items.Yields {α : Type} (depth : Nat) (fields : Items α) (P : α → Prop) : Prop :=
  ∀ items, (∀ item ∈ items, Json.Within depth item) →
    Gives (fields items) fun taken => P taken.1 ∧ ∀ item ∈ taken.2, Json.Within depth item

namespace Items.Yields

variable {α β : Type} {depth : Nat} {P : α → Prop} {Q : β → Prop}

/-- A record takes no further items. -/
theorem pure {x : α} (hx : P x) : Yields depth (Pure.pure x) P :=
  fun _ hitems => Gives.pure ⟨hx, hitems⟩

/-- The property of a field may be used for the fields after it. -/
theorem bind {first : Items α} {next : α → Items β} (hfirst : Yields depth first P)
    (hnext : ∀ x, P x → Yields depth (next x) Q) : Yields depth (first >>= next) Q :=
  fun items hitems => (hfirst items hitems).bind fun taken htaken =>
    hnext taken.1 htaken.1 taken.2 htaken.2

/-- The next field is decoded from the next item. -/
theorem next {decode : Decoder α} (hdecode : Ensures depth decode P) :
    Yields depth (Items.next decode) P := by
  intro items hitems
  cases items with
  | nil => exact Gives.error
  | cons item items =>
    obtain ⟨hitem, hrest⟩ := List.forall_mem_cons.mp hitems
    exact (hdecode item hitem).map fun x hx => ⟨hx, hrest⟩

/-- A field that is left out has its default. -/
theorem nextD {decode : Decoder α} {default : α} (hdecode : Ensures depth decode P)
    (hdefault : P default) : Yields depth (Items.nextD default decode) P := by
  intro items hitems
  cases items with
  | nil => exact Gives.pure ⟨hdefault, hitems⟩
  | cons item items =>
    obtain ⟨hitem, hrest⟩ := List.forall_mem_cons.mp hitems
    exact (hdecode item hitem).map fun x hx => ⟨hx, hrest⟩

/-- The record of exactly the given items. -/
theorem all {fields : Items α} {items : List Json} (hfields : Yields depth fields P)
    (hitems : ∀ item ∈ items, Json.Within depth item) : Gives (fields.all items) P := by
  intro x hx
  unfold Items.all at hx
  split at hx
  · cases hx
  · next value hvalue =>
    obtain rfl := Except.ok.inj hx
    exact (hfields items hitems _ hvalue).1
  · cases hx

end Items.Yields

/-- Whether a value is canonical and its form nests at most so deep. -/
def Fits {α : Type} (encode : α → Json) (Canonical : α → Prop) (depth : Nat) (x : α) : Prop :=
  Canonical x ∧ Json.Within depth (encode x)

/-- Whether the values of a list are canonical and their forms make an array that nests at most
so deep. -/
def FitsAll {α : Type} (encode : α → Json) (Canonical : α → Prop) (depth : Nat) (xs : List α) :
    Prop :=
  (∀ x ∈ xs, Canonical x) ∧ Json.Within depth (.array (xs.map encode))

/-- Whether the values of a list that is left out when it is empty fit. -/
def FitsUnlessEmpty {α : Type} (encode : α → Json) (Canonical : α → Prop) (depth : Nat)
    (xs : List α) : Prop :=
  xs = [] ∨ FitsAll encode Canonical depth xs

section Rules

variable {α : Type} {depth : Nat} {P : α → Prop} {encode : α → Json} {Canonical : α → Prop}

/-- Every decoder ensures what nothing is asked of. -/
theorem Ensures.trivial {decode : Decoder α} : Ensures depth decode fun _ => True :=
  fun _ _ => Gives.trivial

/-- A null is no value. -/
theorem Ensures.nullable {decode : Decoder α} (hdecode : Ensures depth decode P) :
    Ensures depth (Snapshot.nullable decode) fun field => ∀ x ∈ field, P x := by
  intro value hvalue
  unfold Snapshot.nullable
  split
  · exact Gives.pure nofun
  · refine (hdecode value hvalue).map fun x hx => ?_
    rintro _ ⟨⟩
    exact hx

/-- The property of every item holds of all of them. -/
theorem Ensures.decodeAll {decode : Decoder α} (hdecode : Ensures depth decode P)
    {items : List Json} (hitems : ∀ item ∈ items, Json.Within depth item) :
    Gives (Snapshot.decodeAll decode items) fun xs => ∀ x ∈ xs, P x := by
  induction items with
  | nil => exact Gives.pure nofun
  | cons item items ih =>
    obtain ⟨hitem, hrest⟩ := List.forall_mem_cons.mp hitems
    refine (hdecode item hitem).bind fun first hfirst => ?_
    refine (ih hrest).bind fun rest hrest => ?_
    exact Gives.pure (List.forall_mem_cons.mpr ⟨hfirst, hrest⟩)

/-- A weaker property is ensured as well. -/
theorem Ensures.mono {Q : α → Prop} {decode : Decoder α} (hdecode : Ensures depth decode P)
    (hweaker : ∀ x, P x → Q x) : Ensures depth decode Q :=
  fun value hvalue x hx => hweaker x (hdecode value hvalue x hx)

/-- Values that fit below an array fit as its items. -/
theorem fitsAll_of_forall {xs : List α} (hxs : ∀ x ∈ xs, Fits encode Canonical depth x) :
    FitsAll encode Canonical (depth + 1) xs := by
  refine ⟨fun x hx => (hxs x hx).1, .array ?_⟩
  simpa using fun x hx => (hxs x hx).2

/-- A list of values fits when each of them does one level below. -/
theorem Ensures.listOf {decode : Decoder α}
    (hdecode : ∀ inner, depth = inner + 1 → Ensures inner decode (Fits encode Canonical inner)) :
    Ensures depth (Snapshot.listOf decode) (FitsAll encode Canonical depth) := by
  intro value hvalue
  unfold Snapshot.listOf
  split
  · obtain ⟨inner, rfl, hitems⟩ := hvalue.of_array
    exact fun xs hxs => fitsAll_of_forall ((hdecode inner rfl).decodeAll hitems xs hxs)
  · exact Gives.error

/-- No values fit everywhere. -/
theorem fitsUnlessEmpty_nil : FitsUnlessEmpty encode Canonical depth [] := .inl rfl

/-- A list that may be left out fits when each of its values does one level below. -/
theorem Ensures.optionalList {decode : Decoder α}
    (hdecode : ∀ inner, depth = inner + 1 → Ensures inner decode (Fits encode Canonical inner)) :
    Ensures depth (Snapshot.listOf decode) (FitsUnlessEmpty encode Canonical depth) :=
  (Ensures.listOf hdecode).mono fun _ => .inr

/-- A record fits when both of its forms do one level below. -/
theorem Ensures.record {members : List (String × Json) → Except DecodeError α} {items : Items α}
    (hmembers : ∀ inner, depth = inner + 1 → ∀ fields,
      (∀ field ∈ fields, Json.Within inner field.2) → Gives (members fields) P)
    (hitems : ∀ inner, depth = inner + 1 → items.Yields inner P) :
    Ensures depth (Snapshot.record members items) P := by
  intro value hvalue
  unfold Snapshot.record
  split
  · obtain ⟨inner, hdepth, hfields⟩ := hvalue.of_object
    exact hmembers inner hdepth _ hfields
  · obtain ⟨inner, hdepth, hvalues⟩ := hvalue.of_array
    exact (hitems inner hdepth).all hvalues
  · exact Gives.error

/-- A record of scalars fits wherever its container does. -/
theorem Ensures.plainRecord {members : List (String × Json) → Except DecodeError α}
    {items : Items α} (hencode : ∀ inner x, Json.Within (inner + 1) (encode x)) :
    Ensures depth (Snapshot.record members items) (Fits encode (fun _ => True) depth) := by
  intro value hvalue
  unfold Snapshot.record
  split
  · obtain ⟨inner, rfl, -⟩ := hvalue.of_object
    exact fun x _ => ⟨True.intro, hencode inner x⟩
  · obtain ⟨inner, rfl, -⟩ := hvalue.of_array
    exact fun x _ => ⟨True.intro, hencode inner x⟩
  · exact Gives.error

/-- The value under a key of an object nests no deeper than the others. -/
theorem within_of_member? {key : String} {fields : List (String × Json)} {value : Json}
    (hfields : ∀ field ∈ fields, Json.Within depth field.2)
    (hvalue : Json.member? key fields = some value) : Json.Within depth value := by
  obtain ⟨before, after, rfl, -⟩ := List.lookup_eq_some_iff.mp hvalue
  exact hfields (key, value) (by simp)

/-- A member that is there has the property that its decoder ensures. -/
theorem Ensures.member? {decode : Decoder α} {key : String} {fields : List (String × Json)}
    (hdecode : Ensures depth decode P) (hfields : ∀ field ∈ fields, Json.Within depth field.2) :
    Gives (Snapshot.member? key decode fields) fun field => ∀ x ∈ field, P x := by
  unfold Snapshot.member?
  split
  · exact Gives.pure nofun
  · next value hvalue =>
    refine (hdecode value (within_of_member? hfields hvalue)).map fun x hx => ?_
    rintro _ ⟨⟩
    exact hx

/-- A field has its default when it is left out. -/
theorem forall_getD {field : Option α} {default : α} (hfield : ∀ x ∈ field, P x)
    (hdefault : P default) : P (field.getD default) := by
  cases field with
  | none => exact hdefault
  | some x => exact hfield x rfl

/-- A field that may be null has no value when it is left out. -/
theorem forall_join {field : Option (Option α)} (hfield : ∀ value ∈ field, ∀ x ∈ value, P x) :
    ∀ x ∈ field.join, P x := by
  cases field with
  | none => exact nofun
  | some value => exact hfield value rfl

/-- A member that is left out when there is no value nests as deep as its value. -/
theorem within_optional {key : String} {field : Option α}
    (hfield : ∀ x ∈ field, Fits encode Canonical depth x) :
    ∀ member ∈ optional key encode field, Json.Within depth member.2 := by
  cases field with
  | none => exact nofun
  | some x => simpa [optional] using (hfield x rfl).2

/-- The values of a list that may be left out are canonical. -/
theorem FitsUnlessEmpty.canonical {xs : List α} (hxs : FitsUnlessEmpty encode Canonical depth xs) :
    ∀ x ∈ xs, Canonical x := by
  rcases hxs with rfl | hxs
  · exact nofun
  · exact hxs.1

/-- A member that is left out when it is empty nests as deep as its array. -/
theorem FitsUnlessEmpty.within_nonempty {key : String} {xs : List α}
    (hxs : FitsUnlessEmpty encode Canonical depth xs) :
    ∀ member ∈ nonempty key (xs.map encode), Json.Within depth member.2 := by
  rcases hxs with rfl | hxs
  · exact nofun
  · unfold nonempty
    split
    · exact nofun
    · simpa using hxs.2

end Rules

end ModuleInspector.Snapshot
