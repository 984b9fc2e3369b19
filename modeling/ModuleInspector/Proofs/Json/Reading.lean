import ModuleInspector.Json.Reader
import ModuleInspector.Proofs.Json.Nesting

/-!
# Values that are read

A value that is read nests at most as deep as the reader was allowed to go, and its doubles are
finite.
-/

namespace ModuleInspector.Json

/-- Setting a member keeps a bound on the nesting of the members. -/
theorem within_of_mem_setMember {depth : Nat} {key : String} {value : Json}
    {members : List (String × Json)} (hvalue : value.Within depth)
    (hmembers : ∀ member ∈ members, member.2.Within depth) :
    ∀ member ∈ setMember key value members, member.2.Within depth := by
  fun_induction setMember key value members with
  | case1 => exact List.forall_mem_cons.mpr ⟨hvalue, hmembers⟩
  | case2 => exact List.forall_mem_cons.mpr ⟨hvalue, hmembers⟩
  | case3 =>
    have hrest := (List.forall_mem_cons.mp hmembers).2
    exact List.forall_mem_cons.mpr ⟨hvalue, hrest⟩
  | case4 name old members horder ih =>
    obtain ⟨hold, hrest⟩ := List.forall_mem_cons.mp hmembers
    exact List.forall_mem_cons.mpr ⟨hold, ih hrest⟩

/-- A fixed word stands for its value. -/
theorem within_of_readWord {depth bound : Nat} {word : List Char} {value : Json} {input : Bytes}
    {short : input.length < bound} {parsed : Parsed Json bound} (hvalue : value.Within depth)
    (hparsed : readWord bound word value input short = .ok parsed) :
    parsed.value.Within depth := by
  unfold readWord at hparsed
  split at hparsed
  · cases hparsed
  · obtain rfl := Except.ok.inj hparsed
    exact hvalue

/-- A number that is read is a finite one. -/
theorem within_of_numberValue {depth bound : Nat} {negative : Bool} {input : Bytes}
    {fits : input.length ≤ bound} {parsed : Parsed Json bound}
    (hparsed : numberValue (readDigits bound negative input fits) = .ok parsed) :
    parsed.value.Within depth := by
  unfold numberValue at hparsed
  cases hdigits : readDigits bound negative input fits with
  | error e => rw [hdigits] at hparsed; cases hparsed
  | ok number =>
    rw [hdigits] at hparsed
    obtain rfl := Except.ok.inj hparsed
    exact .number (isFinite_of_readDigits hdigits)

mutual

/-- A value nests at most as deep as its reader may go. -/
theorem within_of_readValue {depth : Nat} {input : Bytes} {parsed : Parsed Json input.length}
    (hparsed : readValue depth input = .ok parsed) : parsed.value.Within depth := by
  unfold readValue at hparsed
  split at hparsed
  · cases hparsed
  next byte rest hspace =>
  have hshort := length_lt_of_skipSpace hspace
  dsimp only at hparsed
  split_ifs at hparsed
  · exact within_of_readWord .null hparsed
  · exact within_of_readWord .bool hparsed
  · exact within_of_readWord .bool hparsed
  · split at hparsed
    · cases hparsed
    · obtain rfl := Except.ok.inj hparsed
      exact .string
  · exact within_of_numberValue hparsed
  · exact within_of_numberValue hparsed
  · cases depth with
    | zero => cases hparsed
    | succ depth => exact within_of_readArray hparsed
  · cases depth with
    | zero => cases hparsed
    | succ depth => exact within_of_readObject hparsed
termination_by (input.length, 0)

/-- An array nests one deeper than its items may. -/
theorem within_of_readArray {depth bound : Nat} {input : Bytes} {short : input.length < bound}
    {parsed : Parsed Json bound} (hparsed : readArray depth bound input short = .ok parsed) :
    parsed.value.Within (depth + 1) := by
  unfold readArray at hparsed
  split at hparsed
  · cases hparsed
  next byte rest hspace =>
  split_ifs at hparsed
  · obtain rfl := Except.ok.inj hparsed
    exact .array (by simp)
  · split at hparsed
    · cases hparsed
    next item hitem =>
    have hshort := item.short
    have hfirst := within_of_readValue hitem
    exact within_of_readItems (by simpa using hfirst) hparsed
termination_by (input.length, 1)

/-- The items of an array keep the bound that the ones before them obey. -/
theorem within_of_readItems {depth bound : Nat} {items : List Json} {input : Bytes}
    {short : input.length < bound} {parsed : Parsed Json bound}
    (hitems : ∀ item ∈ items, item.Within depth)
    (hparsed : readItems depth bound items input short = .ok parsed) :
    parsed.value.Within (depth + 1) := by
  unfold readItems at hparsed
  split at hparsed
  · cases hparsed
  next byte rest hspace =>
  have hfewer := length_lt_of_skipSpace hspace
  dsimp only at hparsed
  split_ifs at hparsed
  · obtain rfl := Except.ok.inj hparsed
    exact .array (by simpa using hitems)
  · split at hparsed
    · cases hparsed
    next item hitem =>
    have hshort := item.short
    have hnext := within_of_readValue hitem
    exact within_of_readItems (List.forall_mem_cons.mpr ⟨hnext, hitems⟩) hparsed
termination_by (input.length, 0)

/-- An object nests one deeper than its members may. -/
theorem within_of_readObject {depth bound : Nat} {input : Bytes} {short : input.length < bound}
    {parsed : Parsed Json bound} (hparsed : readObject depth bound input short = .ok parsed) :
    parsed.value.Within (depth + 1) := by
  unfold readObject at hparsed
  split at hparsed
  · cases hparsed
  · split_ifs at hparsed
    · obtain rfl := Except.ok.inj hparsed
      exact .object (by simp)
    · exact within_of_readMember (by simp) hparsed
termination_by (input.length, 1)

/-- A member keeps the bound that the ones before it obey. -/
theorem within_of_readMember {depth bound : Nat} {members : List (String × Json)} {input : Bytes}
    {short : input.length < bound} {parsed : Parsed Json bound}
    (hmembers : ∀ member ∈ members, member.2.Within depth)
    (hparsed : readMember depth bound members input short = .ok parsed) :
    parsed.value.Within (depth + 1) := by
  unfold readMember at hparsed
  split at hparsed
  · cases hparsed
  next byte rest hspace =>
  have hfewer := length_lt_of_skipSpace hspace
  dsimp only at hparsed
  split_ifs at hparsed
  split at hparsed
  · cases hparsed
  next key hkey =>
  have hafterKey := key.short
  split at hparsed
  · cases hparsed
  next colon afterColon hcolon =>
  have hafterColon := length_lt_of_skipSpace hcolon
  split_ifs at hparsed
  split at hparsed
  · cases hparsed
  next item hitem =>
  have hafterItem := item.short
  have hvalue := within_of_readValue hitem
  exact within_of_readMembers (within_of_mem_setMember hvalue hmembers) hparsed
termination_by (input.length, 0)

/-- What follows a member keeps the bound that the members obey. -/
theorem within_of_readMembers {depth bound : Nat} {members : List (String × Json)} {input : Bytes}
    {short : input.length < bound} {parsed : Parsed Json bound}
    (hmembers : ∀ member ∈ members, member.2.Within depth)
    (hparsed : readMembers depth bound members input short = .ok parsed) :
    parsed.value.Within (depth + 1) := by
  unfold readMembers at hparsed
  split at hparsed
  · cases hparsed
  next byte rest hspace =>
  have hfewer := length_lt_of_skipSpace hspace
  dsimp only at hparsed
  split_ifs at hparsed
  · obtain rfl := Except.ok.inj hparsed
    exact .object hmembers
  · exact within_of_readMember hmembers hparsed
termination_by (input.length, 0)

end

/-- The value of a text nests at most as deep as is allowed, and its doubles are finite. -/
theorem within_of_read {depth : Nat} {input : Bytes} {value : Json}
    (hvalue : read depth input = .ok value) : value.Within depth := by
  unfold read at hvalue
  split at hvalue
  · cases hvalue
  next parsed hparsed =>
  split_ifs at hvalue
  obtain rfl := Except.ok.inj hvalue
  exact within_of_readValue hparsed

end ModuleInspector.Json
