import ModuleInspector.Proofs.Json.Members
import ModuleInspector.Proofs.Json.Nesting
import ModuleInspector.Proofs.Json.Numbers
import ModuleInspector.Proofs.Json.Steps
import ModuleInspector.Proofs.Text.Brackets

/-!
# Values read back

The text of a value is read as the value, when it nests no deeper than allowed, when its members
are in the order in which a reader keeps them, and when each of its doubles is read back.
-/

namespace ModuleInspector.Json

/-- Whether a value is read up to the given bytes. -/
def Reads (depth : Nat) (value : Json) (input rest : Bytes) : Prop :=
  ∃ less, readValue depth input = .ok ⟨value, rest, less⟩

/-- The values in the form in which a reader returns them: the keys of an object ascend, and a
number below zero is negative. -/
inductive Tidy : Json → Prop
  | null : Tidy .null
  | bool {value : Bool} : Tidy (.bool value)
  | unsigned {value : UInt64} : Tidy (.number (.unsigned value))
  | negative {value : Int64} (hvalue : value < 0) : Tidy (.number (.negative value))
  | float {value : Binary64} : Tidy (.number (.float value))
  | string {value : String} : Tidy (.string value)
  | array {items : List Json} (hitems : ∀ item ∈ items, Tidy item) : Tidy (.array items)
  | object {members : List (String × Json)}
    (hkeys : (members.map Prod.fst).Pairwise fun first second => compare first second = .lt)
    (hmembers : ∀ member ∈ members, Tidy member.2) : Tidy (.object members)

mutual

/-- The doubles in a value. -/
def doubles : Json → List Binary64
  | .number (.float value) => [value]
  | .array items => doublesItems items
  | .object members => doublesMembers members
  | _ => []

/-- The doubles in the items of an array. -/
def doublesItems : List Json → List Binary64
  | [] => []
  | item :: items => item.doubles ++ doublesItems items

/-- The doubles in the members of an object. -/
def doublesMembers : List (String × Json) → List Binary64
  | [] => []
  | (_, value) :: members => value.doubles ++ doublesMembers members

end

/-- The doubles of an item are among those of the array. -/
theorem mem_doublesItems {items : List Json} {item : Json} (hitem : item ∈ items) {x : Binary64}
    (hx : x ∈ item.doubles) : x ∈ doublesItems items := by
  induction items with
  | nil => cases hitem
  | cons first items ih =>
    rw [doublesItems]
    rcases List.mem_cons.mp hitem with rfl | hitem
    · exact List.mem_append_left _ hx
    · exact List.mem_append_right _ (ih hitem)

/-- The doubles of a member are among those of the object. -/
theorem mem_doublesMembers {members : List (String × Json)} {member : String × Json}
    (hmember : member ∈ members) {x : Binary64} (hx : x ∈ member.2.doubles) :
    x ∈ doublesMembers members := by
  induction members with
  | nil => cases hmember
  | cons first members ih =>
    rw [doublesMembers]
    rcases List.mem_cons.mp hmember with rfl | hmember
    · exact List.mem_append_left _ hx
    · exact List.mem_append_right _ (ih hmember)

/-- Whether the text of a double is read as the double. -/
def ReadsDouble (x : Binary64) : Prop := Reads 0 (.number (.float x)) (Text.bytes (floatText x)) []

/-- A value starts with a byte that closes no container. -/
theorem exists_first_of_reads {depth : Nat} {value : Json} {input rest : Bytes}
    (hreads : Reads depth value input rest) :
    ∃ byte others, skipSpace input = byte :: others ∧ byte ≠ ']'.toUInt8 := by
  obtain ⟨less, hvalue⟩ := hreads
  cases hskip : skipSpace input with
  | nil =>
    rw [readValue] at hvalue
    split at hvalue
    · cases hvalue
    · next hcons => cases hcons.symm.trans hskip
  | cons byte others =>
    refine ⟨byte, others, rfl, ?_⟩
    rintro rfl
    rw [readValue_of_skipSpace hskip, if_neg (by decide), if_neg (by decide), if_neg (by decide),
      if_neg (by decide), if_neg (by decide), if_neg (by decide), if_neg (by decide),
      if_neg (by decide)] at hvalue
    cases hvalue

/-- A fixed word is read as its value. -/
theorem afterWord_append (word : List Char) (rest : Bytes) :
    afterWord word (word.map Char.toUInt8 ++ rest) = .ok rest := by
  induction word with
  | nil => rfl
  | cons c word ih => rw [List.map_cons, List.cons_append, afterWord, if_pos rfl, ih]

/-- A fixed word is read as its value. -/
theorem readWord_append {bound : Nat} {word : List Char} {value : Json} {rest : Bytes}
    (short : (word.map Char.toUInt8 ++ rest).length < bound) :
    ∃ less, readWord bound word value (word.map Char.toUInt8 ++ rest) short =
      .ok ⟨value, rest, less⟩ := by
  have hword := afterWord_append word rest
  refine ⟨Nat.lt_of_le_of_lt (length_le_of_afterWord hword) short, ?_⟩
  rw [readWord]
  split
  · next e he => cases he.symm.trans hword
  · next other hother =>
    obtain rfl := Except.ok.inj (hother.symm.trans hword)
    rfl

/-- A null is read back. -/
theorem reads_null (depth : Nat) (rest : Bytes) :
    Reads depth .null (Text.bytes "null" ++ rest) rest := by
  have hbytes : Text.bytes "null" = 'n'.toUInt8 :: ['u', 'l', 'l'].map Char.toUInt8 := by decide
  obtain ⟨less, hword⟩ := @readWord_append _ ['u', 'l', 'l'] .null rest (Nat.lt_succ_self _)
  rw [hbytes, List.cons_append]
  refine ⟨less, ?_⟩
  rw [readValue_of_skipSpace (skipSpace_cons (by decide)), if_pos rfl]
  exact hword

/-- A truth value is read back. -/
theorem reads_bool (depth : Nat) (value : Bool) (rest : Bytes) :
    Reads depth (.bool value) (Text.bytes (if value then "true" else "false") ++ rest) rest := by
  cases value with
  | true =>
    have hbytes : Text.bytes "true" = 't'.toUInt8 :: ['r', 'u', 'e'].map Char.toUInt8 := by decide
    obtain ⟨less, hword⟩ :=
      @readWord_append _ ['r', 'u', 'e'] (.bool true) rest (Nat.lt_succ_self _)
    rw [if_pos rfl, hbytes, List.cons_append]
    refine ⟨less, ?_⟩
    rw [readValue_of_skipSpace (skipSpace_cons (by decide)), if_neg (by decide), if_pos rfl]
    exact hword
  | false =>
    have hbytes : Text.bytes "false" = 'f'.toUInt8 :: ['a', 'l', 's', 'e'].map Char.toUInt8 := by
      decide
    obtain ⟨less, hword⟩ :=
      @readWord_append _ ['a', 'l', 's', 'e'] (.bool false) rest (Nat.lt_succ_self _)
    rw [if_neg (by decide), hbytes, List.cons_append]
    refine ⟨less, ?_⟩
    rw [readValue_of_skipSpace (skipSpace_cons (by decide)), if_neg (by decide),
      if_neg (by decide), if_pos rfl]
    exact hword

/-- A string is read back. -/
theorem reads_string (depth : Nat) (text : String) (rest : Bytes) :
    Reads depth (.string text) (Text.bytes (quote text) ++ rest) rest := by
  obtain ⟨less, htext⟩ := readString_quotedTail text rest (Nat.le_refl _)
  rw [bytes_quote, List.cons_append]
  exact ⟨Nat.lt_succ_of_lt less, readValue_quote htext⟩

/-- A number that starts with a digit is read as its digits are. -/
theorem reads_of_digits {depth : Nat} {byte : UInt8} {others rest : Bytes} {number : Number}
    (hdigit : isDigit byte = true)
    (hread : ReadsNumber (readDigits (others.length + 1) false (byte :: others) (Nat.le_refl _))
      number rest) :
    Reads depth (.number number) (byte :: others) rest := by
  obtain ⟨less, hread⟩ := hread
  have hskip : skipSpace (byte :: others) = byte :: others :=
    skipSpace_cons (isSpace_of_isDigit hdigit)
  exact ⟨less, (readValue_digit hskip hdigit).trans (congrArg numberValue hread)⟩

/-- A whole number that is not negative is read back. -/
theorem reads_unsigned (depth : Nat) (value : UInt64) {rest : Bytes} (hrest : EndsNumber rest) :
    Reads depth (.number (.unsigned value)) (Text.bytes (toString value.toNat) ++ rest) rest := by
  have hnumber : wholeNumber false value.toNat = some (.unsigned value) := by
    rw [wholeNumber, if_pos (by decide), UInt64.ofNat_toNat]
  have hdigits := isDigit_of_mem_bytes_repr value.toNat
  rw [Nat.toString_eq_repr]
  cases hbytes : Text.bytes (Nat.repr value.toNat) with
  | nil =>
    obtain ⟨first, others, hhead, -⟩ := head_bytes_repr value.toNat
    rw [hbytes] at hhead
    cases hhead
  | cons byte others =>
    have hdigit : isDigit byte = true := hdigits byte (by simp [hbytes])
    have hfits :
        (Text.bytes (Nat.repr value.toNat) ++ rest).length ≤ (others ++ rest).length + 1 := by
      rw [hbytes]
      exact Nat.le_refl _
    have hread := readDigits_repr value.toNat_lt hnumber hrest hfits
    simp only [hbytes, List.cons_append] at hread
    exact reads_of_digits hdigit hread

/-- A whole number below zero is read back. -/
theorem reads_negative (depth : Nat) {value : Int64} (hvalue : value < 0) {rest : Bytes}
    (hrest : EndsNumber rest) :
    Reads depth (.number (.negative value)) (Text.bytes (toString value.toInt) ++ rest) rest := by
  have hnegative : value.toInt < 0 := Int64.lt_iff_toInt_lt.mp hvalue
  obtain ⟨n, hn⟩ := Int.eq_negSucc_of_lt_zero hnegative
  have hlow := value.le_toInt
  have hsmall : 0 < n + 1 ∧ n + 1 ≤ Nat.pow 2 63 := by
    rw [hn] at hlow
    have hpower : Nat.pow 2 63 = 9223372036854775808 := by decide
    omega
  have hnumber : wholeNumber true (n + 1) = some (.negative value) := by
    have hopposite : -((n + 1 : Nat) : Int) = value.toInt := hn.symm
    rw [wholeNumber, if_neg (by decide), if_pos hsmall, hopposite, Int64.ofInt_toInt]
  have hbytes : Text.bytes (toString value.toInt) =
      '-'.toUInt8 :: Text.bytes (Nat.repr (n + 1)) := by
    have hminus : Text.bytes "-" = ['-'.toUInt8] := by decide
    have htext : toString (Int.negSucc n) = "-" ++ Nat.repr (n + 1) := rfl
    rw [hn, htext, Text.bytes_append, hminus, List.singleton_append]
  rw [hbytes, List.cons_append]
  have hword : n + 1 < UInt64.size := Nat.lt_of_le_of_lt hsmall.2 (by decide)
  obtain ⟨less, hread⟩ := readDigits_repr hword hnumber hrest (Nat.le_succ _)
  exact ⟨less, (readValue_minus (skipSpace_cons (by decide))).trans (congrArg numberValue hread)⟩

/-- White space before a value stays the same when bytes follow the value. -/
theorem skipSpace_append {input rest others : Bytes} {byte : UInt8}
    (hinput : skipSpace input = byte :: others) :
    skipSpace (input ++ rest) = byte :: (others ++ rest) := by
  unfold skipSpace at hinput ⊢
  rw [List.dropWhile_append, hinput]
  rfl

/-- A fixed word is no number. -/
theorem readWord_ne_number {bound : Nat} {word : List Char} {value : Json} {number : Number}
    {input rest : Bytes} {short : input.length < bound} {less : rest.length < bound}
    (hvalue : ∀ other, value ≠ .number other) :
    readWord bound word value input short ≠ .ok ⟨.number number, rest, less⟩ := by
  intro hread
  unfold readWord at hread
  split at hread
  · cases hread
  · exact hvalue number (Parsed.mk.inj (Except.ok.inj hread)).1

/-- A number as a value is the number that was read. -/
theorem readsNumber_of_numberValue {bound : Nat} {read : Except ReadError (Parsed Number bound)}
    {number : Number} {rest : Bytes} {less : rest.length < bound}
    (hvalue : numberValue read = .ok ⟨.number number, rest, less⟩) :
    ReadsNumber read number rest := by
  cases read with
  | error e => cases hvalue
  | ok parsed =>
    obtain ⟨hnumber, rfl⟩ := Parsed.mk.inj (Except.ok.inj hvalue)
    obtain rfl := Json.number.inj hnumber
    exact ⟨parsed.short, rfl⟩

/-- A number starts with a minus or a digit. -/
theorem readsNumber_of_reads {number : Number} {input rest : Bytes}
    (hread : Reads 0 (.number number) input rest) :
    ∃ byte others, skipSpace input = byte :: others ∧
      ((byte = '-'.toUInt8 ∧ ∃ fits, ReadsNumber (readDigits input.length true others fits) number
        rest) ∨
      (isDigit byte = true ∧ ∃ fits, ReadsNumber
        (readDigits input.length false (byte :: others) fits) number rest)) := by
  obtain ⟨less, hvalue⟩ := hread
  rw [readValue] at hvalue
  split at hvalue
  · cases hvalue
  next byte others hskip =>
  refine ⟨byte, others, hskip, ?_⟩
  dsimp only at hvalue
  split_ifs at hvalue with hnull htrue hfalse hquote hminus hdigit
  · exact absurd hvalue (readWord_ne_number nofun)
  · exact absurd hvalue (readWord_ne_number nofun)
  · exact absurd hvalue (readWord_ne_number nofun)
  · split at hvalue
    · cases hvalue
    · cases (Parsed.mk.inj (Except.ok.inj hvalue)).1
  · exact .inl ⟨hminus, _, readsNumber_of_numberValue hvalue⟩
  · exact .inr ⟨hdigit, _, readsNumber_of_numberValue hvalue⟩

/-- A number that is read on its own is read in any place where it can stand. -/
theorem reads_number_append {depth : Nat} {number : Number} {input rest : Bytes}
    (hread : Reads 0 (.number number) input []) (hrest : EndsNumber rest) :
    Reads depth (.number number) (input ++ rest) rest := by
  obtain ⟨byte, others, hskip, hnumber⟩ := readsNumber_of_reads hread
  have hskipped : skipSpace (input ++ rest) = byte :: (others ++ rest) := skipSpace_append hskip
  have hlength := length_lt_of_skipSpace hskipped
  rcases hnumber with ⟨rfl, fits, hdigits⟩ | ⟨hdigit, fits, hdigits⟩
  · obtain ⟨less, hdigits⟩ := readDigits_append hdigits hrest (Nat.le_of_lt hlength)
    exact ⟨less, (readValue_minus hskipped).trans (congrArg numberValue hdigits)⟩
  · obtain ⟨less, hdigits⟩ := readDigits_append hdigits hrest hlength
    exact ⟨less, (readValue_digit hskipped hdigit).trans (congrArg numberValue hdigits)⟩

/-- The items of an array are written one after the other. -/
theorem compactItems_eq_map (items : List Json) : compactItems items = items.map compact := by
  induction items with
  | nil => rfl
  | cons item items ih => rw [compactItems, ih, List.map_cons]

/-- The text of a member: its key, a colon and its value. -/
def memberText (member : String × Json) : String := quote member.1 ++ ":" ++ compact member.2

/-- The members of an object are written one after the other. -/
theorem compactMembers_eq_map (members : List (String × Json)) :
    compactMembers members = members.map memberText := by
  induction members with
  | nil => rfl
  | cons member members ih => rw [compactMembers, ih, List.map_cons, memberText]

/-- Every text after the first one is preceded by a comma. -/
theorem bytes_join (text : String) (texts : List String) :
    Text.bytes (Text.join "," (text :: texts)) =
      Text.bytes text ++ texts.flatMap fun other => ','.toUInt8 :: Text.bytes other := by
  unfold Text.bytes
  rw [Text.toList_join, List.flatMap_append, Text.laterTexts, List.flatMap_assoc]
  rfl

/-- Whether the text of a value is read as the value, in any place where it can stand. -/
def ReadsBack (depth : Nat) (value : Json) : Prop :=
  ∀ rest, EndsNumber rest → Reads depth value (Text.bytes (compact value) ++ rest) rest

/-- The bytes of items that follow others. -/
def laterItems (items : List Json) : Bytes :=
  items.flatMap fun item => ','.toUInt8 :: Text.bytes (compact item)

/-- The bytes of items that follow others start with a comma and the first of them. -/
theorem laterItems_cons (item : Json) (items : List Json) (rest : Bytes) :
    laterItems (item :: items) ++ ']'.toUInt8 :: rest = ','.toUInt8 ::
      (Text.bytes (compact item) ++ (laterItems items ++ ']'.toUInt8 :: rest)) := by
  simp [laterItems]

/-- What follows an item does not go on with a number. -/
theorem endsNumber_laterItems (items : List Json) (rest : Bytes) :
    EndsNumber (laterItems items ++ ']'.toUInt8 :: rest) := by
  cases items with
  | nil => exact endsNumber_cons (by decide) rest
  | cons item items => exact endsNumber_cons (by decide) _

/-- The items of an array that follow others are read back. -/
theorem readItems_laterItems {depth bound : Nat} {items done : List Json} {rest : Bytes}
    (hitems : ∀ item ∈ items, ReadsBack depth item)
    (short : (laterItems items ++ ']'.toUInt8 :: rest).length < bound) :
    ∃ less, readItems depth bound done (laterItems items ++ ']'.toUInt8 :: rest) short =
      .ok ⟨.array (done.reverse ++ items), rest, less⟩ := by
  induction items generalizing done with
  | nil =>
    rw [List.append_nil]
    exact ⟨_, readItems_close short⟩
  | cons item items ih =>
    obtain ⟨hitem, hothers⟩ := List.forall_mem_cons.mp hitems
    obtain ⟨less, hread⟩ := hitem _ (endsNumber_laterItems items rest)
    have hdone : done.reverse ++ item :: items = (item :: done).reverse ++ items := by simp
    rw [hdone]
    revert short
    rw [laterItems_cons]
    intro short
    rw [readItems_comma hread short]
    exact ih hothers _

/-- The bytes of an array: a bracket, its items with commas between them, and a bracket. -/
theorem bytes_array (items : List Json) (rest : Bytes) :
    Text.bytes (compact (.array items)) ++ rest = '['.toUInt8 ::
      match items with
      | [] => ']'.toUInt8 :: rest
      | item :: items =>
        Text.bytes (compact item) ++ (laterItems items ++ ']'.toUInt8 :: rest) := by
  have hopen : Text.bytes "[" = ['['.toUInt8] := by decide
  have hclose : Text.bytes "]" = [']'.toUInt8] := by decide
  rw [compact, compactItems_eq_map, Text.bytes_append, Text.bytes_append, hopen, hclose,
    List.append_assoc, List.append_assoc, List.singleton_append, List.singleton_append]
  cases items with
  | nil => rfl
  | cons item items =>
    rw [List.map_cons, bytes_join, List.flatMap_map, List.append_assoc]
    rfl

/-- An array is read back when its items are. -/
theorem readsBack_array {depth : Nat} {items : List Json}
    (hitems : ∀ item ∈ items, ReadsBack depth item) : ReadsBack (depth + 1) (.array items) := by
  intro rest _
  rw [bytes_array]
  cases items with
  | nil => exact ⟨_, readValue_bracket.trans (readArray_close _)⟩
  | cons item items =>
    obtain ⟨hitem, hothers⟩ := List.forall_mem_cons.mp hitems
    obtain ⟨less, hvalue⟩ := hitem _ (endsNumber_laterItems items rest)
    rw [Reads, readValue_bracket, readArray_item (exists_first_of_reads ⟨less, hvalue⟩) hvalue]
    exact readItems_laterItems hothers _

/-- The bytes of a member: its quoted key, a colon and its value. -/
theorem bytes_memberText (member : String × Json) (rest : Bytes) :
    Text.bytes (memberText member) ++ rest = '"'.toUInt8 ::
      (quotedTail member.1 ++ ':'.toUInt8 :: (Text.bytes (compact member.2) ++ rest)) := by
  have hcolon : Text.bytes ":" = [':'.toUInt8] := by decide
  rw [memberText, Text.bytes_append, Text.bytes_append, hcolon, bytes_quote]
  simp

/-- The bytes of members that follow others. -/
def laterMembers (members : List (String × Json)) : Bytes :=
  members.flatMap fun member => ','.toUInt8 :: Text.bytes (memberText member)

/-- The bytes of members that follow others start with a comma and the first of them. -/
theorem laterMembers_cons (member : String × Json) (members : List (String × Json))
    (rest : Bytes) :
    laterMembers (member :: members) ++ '\x7d'.toUInt8 :: rest = ','.toUInt8 ::
      (Text.bytes (memberText member) ++ (laterMembers members ++ '\x7d'.toUInt8 :: rest)) := by
  simp [laterMembers]

/-- What follows a member does not go on with a number. -/
theorem endsNumber_laterMembers (members : List (String × Json)) (rest : Bytes) :
    EndsNumber (laterMembers members ++ '\x7d'.toUInt8 :: rest) := by
  cases members with
  | nil => exact endsNumber_cons (by decide) rest
  | cons member members => exact endsNumber_cons (by decide) _

/-- The value of a member is shorter than the member. -/
theorem length_value_lt (member : String × Json) (rest : Bytes) :
    (Text.bytes (compact member.2) ++ rest).length <
      (Text.bytes (memberText member) ++ rest).length := by
  rw [bytes_memberText]
  simp only [List.length_append, List.length_cons]
  omega

/-- A member after members with lesser keys is read back. -/
theorem readMember_memberText {depth bound : Nat} {member : String × Json}
    {done : List (String × Json)} {rest : Bytes}
    (hkeys : ∀ other ∈ done, compare other.1 member.1 = .lt)
    (hvalue : Reads depth member.2 (Text.bytes (compact member.2) ++ rest) rest)
    (short : (Text.bytes (memberText member) ++ rest).length < bound)
    (fewer : rest.length < bound) :
    readMember depth bound done (Text.bytes (memberText member) ++ rest) short =
      readMembers depth bound (done ++ [member]) rest fewer := by
  obtain ⟨less, hread⟩ := hvalue
  have hshort := Nat.lt_trans (length_value_lt member rest) short
  revert short
  rw [bytes_memberText]
  intro short
  rw [readMember_of_key short hshort, hread]
  dsimp only
  rw [setMember_append hkeys]

/-- An object with a member starts with it. -/
theorem readObject_memberText {depth bound : Nat} {member : String × Json} {rest : Bytes}
    (short : (Text.bytes (memberText member) ++ rest).length < bound) :
    readObject depth bound (Text.bytes (memberText member) ++ rest) short =
      readMember depth bound [] (Text.bytes (memberText member) ++ rest) short := by
  revert short
  rw [bytes_memberText]
  exact fun short => readObject_quote short

/-- The members of an object that follow others are read back. -/
theorem readMembers_laterMembers {depth bound : Nat} {members done : List (String × Json)}
    {rest : Bytes}
    (hkeys : ((done ++ members).map Prod.fst).Pairwise
      fun first second => compare first second = .lt)
    (hmembers : ∀ member ∈ members, ReadsBack depth member.2)
    (short : (laterMembers members ++ '\x7d'.toUInt8 :: rest).length < bound) :
    ∃ less, readMembers depth bound done (laterMembers members ++ '\x7d'.toUInt8 :: rest) short =
      .ok ⟨.object (done ++ members), rest, less⟩ := by
  induction members generalizing done with
  | nil =>
    rw [List.append_nil]
    exact ⟨_, readMembers_close short⟩
  | cons member members ih =>
    obtain ⟨hmember, hothers⟩ := List.forall_mem_cons.mp hmembers
    have hvalue := hmember _ (endsNumber_laterMembers members rest)
    have hlesser : ∀ other ∈ done, compare other.1 member.1 = .lt := by
      rw [List.map_append, List.pairwise_append] at hkeys
      exact fun other hother => hkeys.2.2 _ (List.mem_map_of_mem hother) _ (by simp)
    have hdone : done ++ member :: members = (done ++ [member]) ++ members := by simp
    have fewer : (laterMembers members ++ '\x7d'.toUInt8 :: rest).length < bound := by
      rw [laterMembers_cons, List.length_cons, List.length_append] at short
      omega
    rw [hdone] at hkeys ⊢
    revert short
    rw [laterMembers_cons]
    intro short
    rw [readMembers_comma short, readMember_memberText hlesser hvalue _ fewer]
    exact ih hkeys hothers fewer

/-- The bytes of an object: a brace, its members with commas between them, and a brace. -/
theorem bytes_object (members : List (String × Json)) (rest : Bytes) :
    Text.bytes (compact (.object members)) ++ rest = '\x7b'.toUInt8 ::
      match members with
      | [] => '\x7d'.toUInt8 :: rest
      | member :: members =>
        Text.bytes (memberText member) ++ (laterMembers members ++ '\x7d'.toUInt8 :: rest) := by
  have hopen : Text.bytes "\x7b" = ['\x7b'.toUInt8] := by decide
  have hclose : Text.bytes "\x7d" = ['\x7d'.toUInt8] := by decide
  rw [compact, compactMembers_eq_map, Text.bytes_append, Text.bytes_append, hopen, hclose,
    List.append_assoc, List.append_assoc, List.singleton_append, List.singleton_append]
  cases members with
  | nil => rfl
  | cons member members =>
    rw [List.map_cons, bytes_join, List.flatMap_map, List.append_assoc]
    rfl

/-- An object is read back when its keys ascend and the values of its members are read back. -/
theorem readsBack_object {depth : Nat} {members : List (String × Json)}
    (hkeys : (members.map Prod.fst).Pairwise fun first second => compare first second = .lt)
    (hmembers : ∀ member ∈ members, ReadsBack depth member.2) :
    ReadsBack (depth + 1) (.object members) := by
  intro rest _
  rw [bytes_object]
  cases members with
  | nil => exact ⟨_, readValue_brace.trans (readObject_close _)⟩
  | cons member members =>
    obtain ⟨hmember, hothers⟩ := List.forall_mem_cons.mp hmembers
    have hvalue := hmember _ (endsNumber_laterMembers members rest)
    have fewer : (laterMembers members ++ '\x7d'.toUInt8 :: rest).length <
        (Text.bytes (memberText member) ++
          (laterMembers members ++ '\x7d'.toUInt8 :: rest)).length.succ := by
      simp only [List.length_append]
      omega
    rw [Reads, readValue_brace, readObject_memberText,
      readMember_memberText (by simp) hvalue _ fewer]
    exact readMembers_laterMembers hkeys hothers fewer

/-- A value is read back where its nesting is allowed, if its doubles are. -/
theorem readsBack_of_tidy {value : Json} (hvalue : value.Tidy) {depth : Nat}
    (hdepth : value.nesting ≤ depth)
    (hdoubles : ∀ x ∈ value.doubles, ReadsDouble x) :
    ReadsBack depth value := by
  induction hvalue generalizing depth with
  | null => exact fun rest _ => reads_null depth rest
  | @bool value => exact fun rest _ => reads_bool depth value rest
  | @unsigned value => exact fun rest hrest => reads_unsigned depth value hrest
  | negative hnegative => exact fun rest hrest => reads_negative depth hnegative hrest
  | @float x => exact fun rest hrest => reads_number_append (hdoubles x (by simp [doubles])) hrest
  | @string value => exact fun rest _ => reads_string depth value rest
  | array hitems ih =>
    rw [nesting] at hdepth
    obtain ⟨inner, rfl⟩ := Nat.exists_eq_add_one.mpr (Nat.lt_of_lt_of_le (Nat.succ_pos _) hdepth)
    have hnesting := nestingItems_le_iff.mp (Nat.le_of_succ_le_succ hdepth)
    exact readsBack_array fun item hitem => ih item hitem (hnesting item hitem) fun x hx =>
      hdoubles x (mem_doublesItems hitem hx)
  | object hkeys hmembers ih =>
    rw [nesting] at hdepth
    obtain ⟨inner, rfl⟩ := Nat.exists_eq_add_one.mpr (Nat.lt_of_lt_of_le (Nat.succ_pos _) hdepth)
    have hnesting := nestingMembers_le_iff.mp (Nat.le_of_succ_le_succ hdepth)
    exact readsBack_object hkeys fun member hmember =>
      ih member hmember (hnesting member hmember) fun x hx =>
        hdoubles x (mem_doublesMembers hmember hx)

/-- The text of a value is read as the value. -/
theorem read_compact {value : Json} (hvalue : value.Tidy) {depth : Nat}
    (hdepth : value.nesting ≤ depth)
    (hdoubles : ∀ x ∈ value.doubles, ReadsDouble x) :
    read depth (Text.bytes (compact value)) = .ok value := by
  have hreads := readsBack_of_tidy hvalue hdepth hdoubles [] nofun
  rw [List.append_nil] at hreads
  obtain ⟨less, hread⟩ := hreads
  rw [read, hread]
  rfl

end ModuleInspector.Json
