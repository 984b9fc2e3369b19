import ModuleInspector.Proofs.Json.ReadCompact

/-!
# Indented texts read back

The text of a value over several lines is read as the value, except that a reader sorts the members
of an object by their keys and keeps the last one of a repeated key. A text over several lines has
white space before its tokens, which a reader skips.
-/

namespace ModuleInspector.Json

/-- Whether bytes are white space only. -/
def IsBlank (space : Bytes) : Prop := ∀ byte ∈ space, isSpace byte = true

/-- White space before other bytes is skipped. -/
theorem skipSpace_append_of_isBlank {space : Bytes} (hspace : IsBlank space) (rest : Bytes) :
    skipSpace (space ++ rest) = skipSpace rest :=
  List.dropWhile_append_of_pos hspace

/-- White space before a token is skipped. -/
theorem skipSpace_blank_cons {space : Bytes} (hspace : IsBlank space) {byte : UInt8}
    (hbyte : isSpace byte = false) (rest : Bytes) :
    skipSpace (space ++ byte :: rest) = byte :: rest :=
  (skipSpace_append_of_isBlank hspace _).trans (skipSpace_cons hbyte)

/-- A fixed word is read alike whatever the bound is. -/
theorem readWord_of_bound {bound wider : Nat} {word : List Char} {value result : Json}
    {input rest : Bytes} {short : input.length < bound} {less : rest.length < bound}
    (hread : readWord bound word value input short = .ok ⟨result, rest, less⟩)
    (wide : input.length < wider) :
    ∃ less, readWord wider word value input wide = .ok ⟨result, rest, less⟩ := by
  unfold readWord at hread ⊢
  split at hread
  · cases hread
  · next after hafter =>
    obtain ⟨rfl, rfl⟩ := Parsed.mk.inj (Except.ok.inj hread)
    exact ⟨Nat.lt_of_le_of_lt (length_le_of_afterWord hafter) wide, rfl⟩

/-- A number is read alike whatever the bound is. -/
theorem numberValue_of_bound {bound wider : Nat} {negative : Bool} {value : Json}
    {input rest : Bytes} {fits : input.length ≤ bound} {less : rest.length < bound}
    (hread : numberValue (readDigits bound negative input fits) = .ok ⟨value, rest, less⟩)
    (wide : input.length ≤ wider) :
    ∃ less, numberValue (readDigits wider negative input wide) = .ok ⟨value, rest, less⟩ := by
  cases hdigits : readDigits bound negative input fits with
  | error e =>
    rw [hdigits] at hread
    cases hread
  | ok parsed =>
    rw [hdigits] at hread
    obtain ⟨rfl, rfl⟩ := Parsed.mk.inj (Except.ok.inj hread)
    have hwide : (input ++ []).length ≤ wider := by rwa [List.append_nil]
    have hnumber := readDigits_append ⟨parsed.short, hdigits⟩ endsNumber_nil hwide
    simp only [List.append_nil] at hnumber
    obtain ⟨less, hdigits⟩ := hnumber
    exact ⟨less, congrArg numberValue hdigits⟩

/-- A value that is no container is read alike whatever white space is before it. -/
theorem reads_of_skipSpace {depth : Nat} {value : Json} {input other rest : Bytes}
    (hread : Reads 0 value input rest) (hskip : skipSpace other = skipSpace input) :
    Reads depth value other rest := by
  obtain ⟨less, hvalue⟩ := hread
  rw [readValue] at hvalue
  split at hvalue
  · cases hvalue
  next byte others hcons =>
  have hother := hskip.trans hcons
  have hwide := length_lt_of_skipSpace hother
  dsimp only at hvalue
  rw [Reads, readValue_of_skipSpace hother]
  by_cases hnull : byte = 'n'.toUInt8
  · rw [if_pos hnull] at hvalue ⊢
    exact readWord_of_bound hvalue _
  rw [if_neg hnull] at hvalue ⊢
  by_cases htrue : byte = 't'.toUInt8
  · rw [if_pos htrue] at hvalue ⊢
    exact readWord_of_bound hvalue _
  rw [if_neg htrue] at hvalue ⊢
  by_cases hfalse : byte = 'f'.toUInt8
  · rw [if_pos hfalse] at hvalue ⊢
    exact readWord_of_bound hvalue _
  rw [if_neg hfalse] at hvalue ⊢
  by_cases hquote : byte = '"'.toUInt8
  · rw [if_pos hquote] at hvalue ⊢
    split at hvalue
    · cases hvalue
    · next text htext =>
      obtain ⟨rfl, rfl⟩ := Parsed.mk.inj (Except.ok.inj hvalue)
      refine ⟨Nat.lt_trans text.short hwide, ?_⟩
      rw [htext]
  rw [if_neg hquote] at hvalue ⊢
  by_cases hminus : byte = '-'.toUInt8
  · rw [if_pos hminus] at hvalue ⊢
    exact numberValue_of_bound hvalue _
  rw [if_neg hminus] at hvalue ⊢
  by_cases hdigit : isDigit byte = true
  · rw [if_pos hdigit] at hvalue ⊢
    exact numberValue_of_bound hvalue _
  -- No container is allowed at depth zero, and nothing else starts a value.
  rw [if_neg hdigit] at hvalue
  split at hvalue
  · cases hvalue
  · split at hvalue <;> cases hvalue

mutual

/-- A value as a reader keeps it: the members of its objects are sorted by key, and of a repeated
key the last one is kept. -/
def kept : Json → Json
  | .array items => .array (keptItems items)
  | .object members => .object (keptMembers [] members)
  | value => value

/-- The items of an array as a reader keeps them. -/
def keptItems : List Json → List Json
  | [] => []
  | item :: items => item.kept :: keptItems items

/-- The members of an object as a reader keeps them together with those it has. -/
def keptMembers (done : List (String × Json)) : List (String × Json) → List (String × Json)
  | [] => done
  | (key, value) :: members => keptMembers (setMember key value.kept done) members

end

/-- A reader keeps the items of an array one by one. -/
theorem keptItems_eq_map (items : List Json) : keptItems items = items.map kept := by
  induction items with
  | nil => rfl
  | cons item items ih => rw [keptItems, ih, List.map_cons]

/-- Where no key repeats, a reader keeps every member under its key. -/
theorem member?_keptMembers {key : String} {members done : List (String × Json)}
    (hkeys : (members.map Prod.fst).Nodup) :
    member? key (keptMembers done members) =
      ((member? key members).map kept).or (member? key done) := by
  induction members generalizing done with
  | nil => rfl
  | cons member members ih =>
    obtain ⟨name, value⟩ := member
    rw [List.map_cons, List.nodup_cons] at hkeys
    rw [keptMembers, ih hkeys.2, member?_setMember, member?_cons]
    split_ifs with hname
    · rw [hname, member?_eq_none hkeys.1]
      rfl
    · rfl

/-- The values that nest at most so many containers and whose numbers are read back: a number below
zero is negative, and the text of a double is read as the double. -/
inductive Legible : Nat → Json → Prop
  | null {depth : Nat} : Legible depth .null
  | bool {depth : Nat} {value : Bool} : Legible depth (.bool value)
  | unsigned {depth : Nat} {value : UInt64} : Legible depth (.number (.unsigned value))
  | negative {depth : Nat} {value : Int64} (hvalue : value < 0) :
    Legible depth (.number (.negative value))
  | float {depth : Nat} {value : Binary64} (hvalue : ReadsDouble value) :
    Legible depth (.number (.float value))
  | string {depth : Nat} {value : String} : Legible depth (.string value)
  | array {depth : Nat} {items : List Json} (hitems : ∀ item ∈ items, Legible depth item) :
    Legible (depth + 1) (.array items)
  | object {depth : Nat} {members : List (String × Json)}
    (hmembers : ∀ member ∈ members, Legible depth member.2) :
    Legible (depth + 1) (.object members)

/-- Whether the indented text of a value is read as the value that a reader keeps, behind white
space and in any place where it can stand. -/
def ReadsIndented (depth level : Nat) (value : Json) : Prop :=
  ∀ space rest, IsBlank space → EndsNumber rest →
    Reads depth value.kept (space ++ (Text.bytes (indented level value) ++ rest)) rest

/-- A value that is no container is read behind white space. -/
theorem readsIndented_of_reads {depth level : Nat} {value : Json} (hkept : value.kept = value)
    (hread : ∀ rest, EndsNumber rest →
      Reads 0 value (Text.bytes (indented level value) ++ rest) rest) :
    ReadsIndented depth level value := by
  intro space rest hspace hrest
  rw [hkept]
  exact reads_of_skipSpace (hread rest hrest) (skipSpace_append_of_isBlank hspace _)

/-- The bytes of a line break and the margin behind it. -/
def newline (level : Nat) : Bytes := '\n'.toUInt8 :: Text.bytes (margin level)

/-- A line break and the margin behind it are white space. -/
theorem isBlank_newline (level : Nat) : IsBlank (newline level) := by
  have hspace : String.utf8EncodeChar ' ' = [' '.toUInt8] := by decide
  intro byte hbyte
  rw [newline, margin, Text.bytes_ofList, List.mem_cons, List.mem_flatMap] at hbyte
  rcases hbyte with rfl | ⟨c, hc, hbyte⟩
  · decide
  · rw [List.eq_of_mem_replicate hc, hspace, List.mem_singleton] at hbyte
    rw [hbyte]
    decide

/-- The bytes of lines that follow others. -/
def laterLines (level : Nat) (lines : List String) : Bytes :=
  lines.flatMap fun line => ','.toUInt8 :: (newline level ++ Text.bytes line)

/-- The bytes of lines that follow others start with a comma and the first of them. -/
theorem laterLines_cons (level : Nat) (line : String) (lines : List String) (rest : Bytes) :
    laterLines level (line :: lines) ++ rest =
      ','.toUInt8 :: (newline level ++ (Text.bytes line ++ (laterLines level lines ++ rest))) := by
  simp [laterLines]

/-- What follows a line does not go on with a number. -/
theorem endsNumber_laterLines (level outer : Nat) (lines : List String) (rest : Bytes) :
    EndsNumber (laterLines level lines ++ (newline outer ++ rest)) := by
  cases lines with
  | nil => exact endsNumber_cons (by decide) _
  | cons line lines =>
    rw [laterLines_cons]
    exact endsNumber_cons (by decide) _

/-- The bytes of a container without lines. -/
theorem bytes_block_nil (level : Nat) (opening closing : String) :
    Text.bytes (block level opening closing []) = Text.bytes opening ++ Text.bytes closing :=
  Text.bytes_append opening closing

/-- The bytes of a container over several lines. -/
theorem bytes_block_cons (level : Nat) (opening closing line : String) (lines : List String) :
    Text.bytes (block level opening closing (line :: lines)) =
      Text.bytes opening ++ (newline (level + 1) ++ (Text.bytes line ++
        (laterLines (level + 1) lines ++ (newline level ++ Text.bytes closing)))) := by
  have hbreak : Text.bytes "\n" = ['\n'.toUInt8] := by decide
  have hjoined : Text.bytes (Text.join ",\n" ((line :: lines).map (margin (level + 1) ++ ·))) =
      Text.bytes (margin (level + 1)) ++ (Text.bytes line ++ laterLines (level + 1) lines) := by
    have hcomma : String.utf8EncodeChar ',' = [','.toUInt8] := by decide
    have hend : String.utf8EncodeChar '\n' = ['\n'.toUInt8] := by decide
    unfold Text.bytes laterLines newline
    rw [List.map_cons, Text.toList_join, List.flatMap_append, Text.laterTexts]
    simp [List.flatMap_assoc, List.flatMap_map, hcomma, hend, Text.bytes]
  rw [block, if_neg (by simp), Text.bytes_append, Text.bytes_append, Text.bytes_append,
    Text.bytes_append, Text.bytes_append, hjoined, hbreak]
  simp [newline]

section Arrays

variable {depth bound level : Nat} {items done : List Json} {rest : Bytes}

/-- The items of an array are written line by line. -/
theorem indentedItems_eq_map (level : Nat) (items : List Json) :
    indentedItems level items = items.map (indented level) := by
  induction items with
  | nil => rfl
  | cons item items ih => rw [indentedItems, ih, List.map_cons]

/-- The items of an array that follow others are read back. -/
theorem readItems_laterLines (outer : Nat) (hitems : ∀ item ∈ items, ReadsIndented depth level item)
    (short : (laterLines level (items.map (indented level)) ++
      (newline outer ++ ']'.toUInt8 :: rest)).length < bound) :
    ∃ less, readItems depth bound done (laterLines level (items.map (indented level)) ++
        (newline outer ++ ']'.toUInt8 :: rest)) short =
      .ok ⟨.array (done.reverse ++ keptItems items), rest, less⟩ := by
  induction items generalizing done with
  | nil =>
    have hskip : skipSpace (newline outer ++ ']'.toUInt8 :: rest) = ']'.toUInt8 :: rest :=
      skipSpace_blank_cons (isBlank_newline outer) (by decide) rest
    refine ⟨Nat.lt_trans (length_lt_of_skipSpace hskip) short, ?_⟩
    rw [keptItems, List.append_nil]
    exact (readItems_of_skipSpace hskip short).trans (if_pos rfl)
  | cons item items ih =>
    obtain ⟨hitem, hothers⟩ := List.forall_mem_cons.mp hitems
    obtain ⟨less, hread⟩ := hitem _ _ (isBlank_newline level)
      (endsNumber_laterLines level outer (items.map (indented level)) (']'.toUInt8 :: rest))
    have hdone : done.reverse ++ keptItems (item :: items) =
        (item.kept :: done).reverse ++ keptItems items := by simp [keptItems]
    rw [hdone]
    revert short
    rw [List.map_cons, laterLines_cons]
    intro short
    rw [readItems_comma hread short]
    exact ih hothers _

/-- The bytes of an array without items. -/
theorem bytes_indented_nil (level : Nat) (rest : Bytes) :
    Text.bytes (indented level (.array [])) ++ rest = '['.toUInt8 :: ']'.toUInt8 :: rest := by
  have hopen : Text.bytes "[" = ['['.toUInt8] := by decide
  have hclose : Text.bytes "]" = [']'.toUInt8] := by decide
  rw [indented, indentedItems, bytes_block_nil, hopen, hclose]
  rfl

/-- The bytes of an array: a bracket, its items line by line, and a bracket. -/
theorem bytes_indented_items (level : Nat) (item : Json) (items : List Json) (rest : Bytes) :
    Text.bytes (indented level (.array (item :: items))) ++ rest = '['.toUInt8 ::
      (newline (level + 1) ++ (Text.bytes (indented (level + 1) item) ++
        (laterLines (level + 1) (items.map (indented (level + 1))) ++
          (newline level ++ ']'.toUInt8 :: rest)))) := by
  have hopen : Text.bytes "[" = ['['.toUInt8] := by decide
  have hclose : Text.bytes "]" = [']'.toUInt8] := by decide
  rw [indented, indentedItems_eq_map, List.map_cons, bytes_block_cons, hopen, hclose]
  simp

/-- An array is read back when its items are. -/
theorem readsIndented_array (hitems : ∀ item ∈ items, ReadsIndented depth (level + 1) item) :
    ReadsIndented (depth + 1) level (.array items) := by
  intro space rest hspace _
  have hbracket : isSpace '['.toUInt8 = false := by decide
  cases items with
  | nil =>
    rw [bytes_indented_nil, Reads,
      readValue_bracket_of_skipSpace (skipSpace_blank_cons hspace hbracket _)]
    exact ⟨_, readArray_close _⟩
  | cons item items =>
    obtain ⟨hitem, hothers⟩ := List.forall_mem_cons.mp hitems
    obtain ⟨less, hvalue⟩ := hitem _ _ (isBlank_newline (level + 1))
      (endsNumber_laterLines (level + 1) level (items.map (indented (level + 1)))
        (']'.toUInt8 :: rest))
    rw [bytes_indented_items, Reads,
      readValue_bracket_of_skipSpace (skipSpace_blank_cons hspace hbracket _),
      readArray_item (exists_first_of_reads ⟨less, hvalue⟩) hvalue]
    exact readItems_laterLines level hothers _

end Arrays

section Objects

variable {depth bound level : Nat} {members done : List (String × Json)} {rest : Bytes}

/-- The line of a member: its key, a colon and its value. -/
def memberLine (level : Nat) (member : String × Json) : String :=
  quote member.1 ++ ": " ++ indented level member.2

/-- The members of an object are written line by line. -/
theorem indentedMembers_eq_map (level : Nat) (members : List (String × Json)) :
    indentedMembers level members = members.map (memberLine level) := by
  induction members with
  | nil => rfl
  | cons member members ih => rw [indentedMembers, ih, List.map_cons, memberLine]

/-- The bytes of the line of a member: its quoted key, a colon, a space and its value. -/
theorem bytes_memberLine (level : Nat) (member : String × Json) (rest : Bytes) :
    Text.bytes (memberLine level member) ++ rest = '"'.toUInt8 ::
      (quotedTail member.1 ++ ':'.toUInt8 ::
        ([' '.toUInt8] ++ (Text.bytes (indented level member.2) ++ rest))) := by
  have hcolon : Text.bytes ": " = [':'.toUInt8, ' '.toUInt8] := by decide
  rw [memberLine, Text.bytes_append, Text.bytes_append, hcolon, bytes_quote]
  simp

/-- White space before the line of a member is skipped. -/
theorem skipSpace_memberLine {space : Bytes} (hspace : IsBlank space) (level : Nat)
    (member : String × Json) (rest : Bytes) :
    skipSpace (space ++ (Text.bytes (memberLine level member) ++ rest)) =
      '"'.toUInt8 :: (quotedTail member.1 ++ ':'.toUInt8 ::
        ([' '.toUInt8] ++ (Text.bytes (indented level member.2) ++ rest))) := by
  rw [bytes_memberLine]
  exact skipSpace_blank_cons hspace (by decide) _

/-- What follows a line is shorter than a bound on all of them. -/
theorem length_lt_of_line {space line : Bytes} (short : (space ++ (line ++ rest)).length < bound) :
    rest.length < bound := by
  rw [List.length_append, List.length_append] at short
  omega

/-- A member behind white space is read back, and added to those before it. -/
theorem readMember_memberLine {member : String × Json} {space : Bytes} (hspace : IsBlank space)
    (hmember : ReadsIndented depth level member.2) (hrest : EndsNumber rest)
    (short : (space ++ (Text.bytes (memberLine level member) ++ rest)).length < bound) :
    readMember depth bound done (space ++ (Text.bytes (memberLine level member) ++ rest)) short =
      readMembers depth bound (setMember member.1 member.2.kept done) rest
        (length_lt_of_line short) := by
  have hblank : IsBlank [' '.toUInt8] := by
    intro byte hbyte
    rw [List.mem_singleton.mp hbyte]
    decide
  obtain ⟨less, hvalue⟩ := hmember _ _ hblank hrest
  have hskip := skipSpace_memberLine hspace level member rest
  have hshort : ([' '.toUInt8] ++ (Text.bytes (indented level member.2) ++ rest)).length <
      bound := by
    have hlength := length_lt_of_skipSpace hskip
    rw [List.length_append, List.length_cons] at hlength
    omega
  rw [readMember_of_skipSpace hskip short hshort, hvalue]

/-- The members of an object that follow others are read back. -/
theorem readMembers_laterLines (outer : Nat)
    (hmembers : ∀ member ∈ members, ReadsIndented depth level member.2)
    (short : (laterLines level (members.map (memberLine level)) ++
      (newline outer ++ '\x7d'.toUInt8 :: rest)).length < bound) :
    ∃ less, readMembers depth bound done (laterLines level (members.map (memberLine level)) ++
        (newline outer ++ '\x7d'.toUInt8 :: rest)) short =
      .ok ⟨.object (keptMembers done members), rest, less⟩ := by
  induction members generalizing done with
  | nil =>
    have hskip : skipSpace (newline outer ++ '\x7d'.toUInt8 :: rest) = '\x7d'.toUInt8 :: rest :=
      skipSpace_blank_cons (isBlank_newline outer) (by decide) rest
    refine ⟨Nat.lt_trans (length_lt_of_skipSpace hskip) short, ?_⟩
    exact (readMembers_of_skipSpace hskip short).trans (if_pos rfl)
  | cons member members ih =>
    obtain ⟨hmember, hothers⟩ := List.forall_mem_cons.mp hmembers
    have hends := endsNumber_laterLines level outer (members.map (memberLine level))
      ('\x7d'.toUInt8 :: rest)
    revert short
    rw [List.map_cons, laterLines_cons]
    intro short
    rw [readMembers_comma short,
      readMember_memberLine (isBlank_newline level) hmember hends, keptMembers]
    exact ih hothers _

/-- The bytes of an object without members. -/
theorem bytes_indented_empty (level : Nat) (rest : Bytes) :
    Text.bytes (indented level (.object [])) ++ rest =
      '\x7b'.toUInt8 :: '\x7d'.toUInt8 :: rest := by
  have hopen : Text.bytes "\x7b" = ['\x7b'.toUInt8] := by decide
  have hclose : Text.bytes "\x7d" = ['\x7d'.toUInt8] := by decide
  rw [indented, indentedMembers, bytes_block_nil, hopen, hclose]
  rfl

/-- The bytes of an object: a brace, its members line by line, and a brace. -/
theorem bytes_indented_members (level : Nat) (member : String × Json)
    (members : List (String × Json)) (rest : Bytes) :
    Text.bytes (indented level (.object (member :: members))) ++ rest = '\x7b'.toUInt8 ::
      (newline (level + 1) ++ (Text.bytes (memberLine (level + 1) member) ++
        (laterLines (level + 1) (members.map (memberLine (level + 1))) ++
          (newline level ++ '\x7d'.toUInt8 :: rest)))) := by
  have hopen : Text.bytes "\x7b" = ['\x7b'.toUInt8] := by decide
  have hclose : Text.bytes "\x7d" = ['\x7d'.toUInt8] := by decide
  rw [indented, indentedMembers_eq_map, List.map_cons, bytes_block_cons, hopen, hclose]
  simp

/-- The line of a member behind white space opens an object. -/
theorem readObject_memberLine {member : String × Json} {space : Bytes} (hspace : IsBlank space)
    (short : (space ++ (Text.bytes (memberLine level member) ++ rest)).length < bound) :
    readObject depth bound (space ++ (Text.bytes (memberLine level member) ++ rest)) short =
      readMember depth bound [] (space ++ (Text.bytes (memberLine level member) ++ rest))
        short := by
  rw [readObject_of_skipSpace (skipSpace_memberLine hspace level member rest), if_neg (by decide)]

/-- An object is read back when the values of its members are. -/
theorem readsIndented_object
    (hmembers : ∀ member ∈ members, ReadsIndented depth (level + 1) member.2) :
    ReadsIndented (depth + 1) level (.object members) := by
  intro space rest hspace _
  have hbrace : isSpace '\x7b'.toUInt8 = false := by decide
  cases members with
  | nil =>
    rw [bytes_indented_empty, Reads,
      readValue_brace_of_skipSpace (skipSpace_blank_cons hspace hbrace _)]
    exact ⟨_, readObject_close _⟩
  | cons member members =>
    obtain ⟨hmember, hothers⟩ := List.forall_mem_cons.mp hmembers
    have hbreak := isBlank_newline (level + 1)
    rw [bytes_indented_members, Reads,
      readValue_brace_of_skipSpace (skipSpace_blank_cons hspace hbrace _),
      readObject_memberLine hbreak,
      readMember_memberLine hbreak hmember (endsNumber_laterLines _ _ _ _)]
    exact readMembers_laterLines level hothers _

end Objects

/-- A legible value is read back at every level. -/
theorem readsIndented_of_legible {depth : Nat} {value : Json} (hvalue : Legible depth value)
    (level : Nat) : ReadsIndented depth level value := by
  induction hvalue generalizing level with
  | null => exact readsIndented_of_reads rfl fun rest _ => reads_null 0 rest
  | @bool _ value => exact readsIndented_of_reads rfl fun rest _ => reads_bool 0 value rest
  | @unsigned _ value =>
    exact readsIndented_of_reads rfl fun rest hrest => reads_unsigned 0 value hrest
  | negative hnegative =>
    exact readsIndented_of_reads rfl fun rest hrest => reads_negative 0 hnegative hrest
  | float hdouble =>
    exact readsIndented_of_reads rfl fun rest hrest => reads_number_append hdouble hrest
  | @string _ value => exact readsIndented_of_reads rfl fun rest _ => reads_string 0 value rest
  | array _ ih => exact readsIndented_array fun item hitem => ih item hitem (level + 1)
  | object _ ih => exact readsIndented_object fun member hmember => ih member hmember (level + 1)

/-- The text of a legible value over several lines is read as the value that a reader keeps. -/
theorem read_pretty {depth : Nat} {value : Json} (hvalue : Legible depth value) :
    read depth (Text.bytes (pretty value)) = .ok value.kept := by
  have hreads := readsIndented_of_legible hvalue 0 [] [] nofun endsNumber_nil
  rw [List.nil_append, List.append_nil] at hreads
  obtain ⟨less, hread⟩ := hreads
  rw [read, pretty, hread]
  rfl

end ModuleInspector.Json
