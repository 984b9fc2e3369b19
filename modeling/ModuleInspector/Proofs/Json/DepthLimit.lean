import ModuleInspector.Proofs.Json.ReadCompact

/-!
# The depth limit

The text of a value is read back where its nesting is allowed, and refused as a whole where it is
not, however much of it is read before the container that is one too many.
-/

namespace ModuleInspector.Json

variable {depth bound : Nat} {rest : Bytes}

/-- Whether the text of a value is refused, in any place where it can stand. -/
def Refused (depth : Nat) (value : Json) : Prop :=
  ∀ rest, readValue depth (Text.bytes (compact value) ++ rest) = .error .malformed

/-- Whether the nesting of a value decides how its text is read. -/
structure Limited (depth : Nat) (value : Json) : Prop where
  readsBack : value.nesting ≤ depth → ReadsBack depth value
  refused : depth < value.nesting → Refused depth value

/-- The text of a container starts with a bracket or a brace. -/
theorem exists_first_of_nesting {value : Json} (hvalue : 0 < value.nesting) (rest : Bytes) :
    ∃ byte others, Text.bytes (compact value) ++ rest = byte :: others ∧
      (byte = '['.toUInt8 ∨ byte = '\x7b'.toUInt8) := by
  cases value with
  | null | bool | number | string => cases hvalue
  | array items => exact ⟨_, _, bytes_array items rest, .inl rfl⟩
  | object members => exact ⟨_, _, bytes_object members rest, .inr rfl⟩

/-- No container is read where none is allowed. -/
theorem refused_zero {value : Json} (hvalue : 0 < value.nesting) : Refused 0 value := by
  intro rest
  obtain ⟨byte, others, hbytes, rfl | rfl⟩ := exists_first_of_nesting hvalue rest
  all_goals
    rw [hbytes, readValue_of_skipSpace (skipSpace_cons (by decide))]
    rfl

section Arrays

variable {items done : List Json}

/-- Items that follow others are refused with the first one that nests too deep. -/
theorem readItems_of_lt_nesting (hitems : ∀ item ∈ items, Limited depth item)
    (hdeep : depth < nestingItems items)
    (short : (laterItems items ++ ']'.toUInt8 :: rest).length < bound) :
    readItems depth bound done (laterItems items ++ ']'.toUInt8 :: rest) short =
      .error .malformed := by
  induction items generalizing done with
  | nil => cases hdeep
  | cons item items ih =>
    obtain ⟨hitem, hothers⟩ := List.forall_mem_cons.mp hitems
    rw [nestingItems] at hdeep
    revert short
    rw [laterItems_cons]
    intro short
    rcases Nat.lt_or_ge depth item.nesting with hhere | hhere
    · rw [readItems_of_skipSpace (skipSpace_cons (by decide)), if_neg (by decide), if_pos rfl,
        hitem.refused hhere]
    · obtain ⟨less, hread⟩ := hitem.readsBack hhere _ (endsNumber_laterItems items rest)
      rw [readItems_comma hread short]
      exact ih hothers (by omega) _

/-- An array is refused with the first of its items that nests too deep. -/
theorem refused_array (hitems : ∀ item ∈ items, Limited depth item)
    (hdeep : depth < nestingItems items) : Refused (depth + 1) (.array items) := by
  intro rest
  rw [bytes_array, readValue_bracket]
  cases items with
  | nil => cases hdeep
  | cons item items =>
    obtain ⟨hitem, hothers⟩ := List.forall_mem_cons.mp hitems
    rw [nestingItems] at hdeep
    rcases Nat.lt_or_ge depth item.nesting with hhere | hhere
    · obtain ⟨byte, others, hfirst, hbyte⟩ :=
        exists_first_of_nesting (Nat.zero_lt_of_lt hhere) (laterItems items ++ ']'.toUInt8 :: rest)
      have hspace : isSpace byte = false := by rcases hbyte with rfl | rfl <;> decide
      have hskip := (congrArg skipSpace hfirst).trans (skipSpace_cons hspace)
      rw [readArray_of_skipSpace hskip, if_neg (by rcases hbyte with rfl | rfl <;> decide),
        hitem.refused hhere]
    · obtain ⟨less, hread⟩ := hitem.readsBack hhere _ (endsNumber_laterItems items rest)
      rw [readArray_item (exists_first_of_reads ⟨less, hread⟩) hread]
      exact readItems_of_lt_nesting hothers (by omega) _

end Arrays

section Objects

variable {members done : List (String × Json)}

/-- A member is refused when its value is. -/
theorem readMember_of_refused {member : String × Json}
    (hvalue : readValue depth (Text.bytes (compact member.2) ++ rest) = .error .malformed)
    (short : (Text.bytes (memberText member) ++ rest).length < bound) :
    readMember depth bound done (Text.bytes (memberText member) ++ rest) short =
      .error .malformed := by
  have hshort := Nat.lt_trans (length_value_lt member rest) short
  revert short
  rw [bytes_memberText]
  intro short
  rw [readMember_of_key short hshort, hvalue]

/-- Members that follow others are refused with the first one whose value nests too deep. -/
theorem readMembers_of_lt_nesting
    (hkeys : ((done ++ members).map Prod.fst).Pairwise
      fun first second => compare first second = .lt)
    (hmembers : ∀ member ∈ members, Limited depth member.2)
    (hdeep : depth < nestingMembers members)
    (short : (laterMembers members ++ '\x7d'.toUInt8 :: rest).length < bound) :
    readMembers depth bound done (laterMembers members ++ '\x7d'.toUInt8 :: rest) short =
      .error .malformed := by
  induction members generalizing done with
  | nil => cases hdeep
  | cons member members ih =>
    obtain ⟨hmember, hothers⟩ := List.forall_mem_cons.mp hmembers
    have hlesser : ∀ other ∈ done, compare other.1 member.1 = .lt := by
      rw [List.map_append, List.pairwise_append] at hkeys
      exact fun other hother => hkeys.2.2 _ (List.mem_map_of_mem hother) _ (by simp)
    have fewer : (laterMembers members ++ '\x7d'.toUInt8 :: rest).length < bound := by
      rw [laterMembers_cons, List.length_cons, List.length_append] at short
      omega
    rw [List.append_cons] at hkeys
    rw [nestingMembers] at hdeep
    revert short
    rw [laterMembers_cons]
    intro short
    rw [readMembers_comma short]
    rcases Nat.lt_or_ge depth member.2.nesting with hhere | hhere
    · exact readMember_of_refused (hmember.refused hhere _) _
    · have hvalue := hmember.readsBack hhere _ (endsNumber_laterMembers members rest)
      rw [readMember_memberText hlesser hvalue _ fewer]
      exact ih hkeys hothers (by omega) fewer

/-- An object is refused with the first of its members that nests too deep. -/
theorem refused_object
    (hkeys : (members.map Prod.fst).Pairwise fun first second => compare first second = .lt)
    (hmembers : ∀ member ∈ members, Limited depth member.2)
    (hdeep : depth < nestingMembers members) : Refused (depth + 1) (.object members) := by
  intro rest
  rw [bytes_object, readValue_brace]
  cases members with
  | nil => cases hdeep
  | cons member members =>
    obtain ⟨hmember, hothers⟩ := List.forall_mem_cons.mp hmembers
    rw [nestingMembers] at hdeep
    rw [readObject_memberText]
    rcases Nat.lt_or_ge depth member.2.nesting with hhere | hhere
    · exact readMember_of_refused (hmember.refused hhere _) _
    · have fewer : (laterMembers members ++ '\x7d'.toUInt8 :: rest).length <
          (Text.bytes (memberText member) ++
            (laterMembers members ++ '\x7d'.toUInt8 :: rest)).length.succ := by
        simp only [List.length_append]
        omega
      have hvalue := hmember.readsBack hhere _ (endsNumber_laterMembers members rest)
      rw [readMember_memberText (by simp) hvalue _ fewer]
      exact readMembers_of_lt_nesting hkeys hothers (by omega) fewer

end Objects

/-- The nesting of a value decides how its text is read, if its doubles are read back. -/
theorem limited_of_tidy {value : Json} (hvalue : value.Tidy) (depth : Nat)
    (hdoubles : ∀ x ∈ value.doubles, ReadsDouble x) : Limited depth value := by
  refine ⟨fun hdepth => readsBack_of_tidy hvalue hdepth hdoubles, fun hdeep => ?_⟩
  induction hvalue generalizing depth with
  | null | bool | unsigned | negative | float | string => cases hdeep
  | @array items hitems ih =>
    cases depth with
    | zero => exact refused_zero hdeep
    | succ depth =>
      refine refused_array (fun item hitem => ?_) (Nat.lt_of_succ_lt_succ hdeep)
      have hinner : ∀ x ∈ item.doubles, ReadsDouble x :=
        fun x hx => hdoubles x (mem_doublesItems hitem hx)
      exact ⟨fun hdepth => readsBack_of_tidy (hitems item hitem) hdepth hinner,
        ih item hitem depth hinner⟩
  | @object members hkeys hmembers ih =>
    cases depth with
    | zero => exact refused_zero hdeep
    | succ depth =>
      refine refused_object hkeys (fun member hmember => ?_) (Nat.lt_of_succ_lt_succ hdeep)
      have hinner : ∀ x ∈ member.2.doubles, ReadsDouble x :=
        fun x hx => hdoubles x (mem_doublesMembers hmember hx)
      exact ⟨fun hdepth => readsBack_of_tidy (hmembers member hmember) hdepth hinner,
        ih member hmember depth hinner⟩

/-- The text of a value is read as the value where its nesting is allowed, and refused where it is
not. -/
theorem read_compact_eq_ite {value : Json} (hvalue : value.Tidy) (depth : Nat)
    (hdoubles : ∀ x ∈ value.doubles, ReadsDouble x) :
    read depth (Text.bytes (compact value)) =
      if value.nesting ≤ depth then .ok value else .error .malformed := by
  split_ifs with hdepth
  · exact read_compact hvalue hdepth hdoubles
  · have hlimited := limited_of_tidy hvalue depth hdoubles
    have hrefused := hlimited.refused (Nat.lt_of_not_le hdepth) []
    rw [List.append_nil] at hrefused
    rw [read, hrefused]

end ModuleInspector.Json
