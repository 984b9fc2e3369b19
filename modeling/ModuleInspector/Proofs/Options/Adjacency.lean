import ModuleInspector.Proofs.Options.Switches
import Mathlib.Data.List.Induction
import Mathlib.Data.List.Perm.Basic

/-!
# Options by adjacency

What the tokens of a command mean can be told from neighbouring tokens alone. The value of an
option token is the token behind it, unless there is none or it is an option too: then the value
is `true`. A token is positional when it is not an option and no option is right before it. The
parser reads the tokens once and overwrites the value `true` that it noted for an option when an
argument follows; here it is shown to arrive at this rule for all tokens.
-/

namespace ModuleInspector.Options

/-- Whether a token starts with a dash and has more than this one character. -/
def StartsOption (token : String) : Prop := ['-'] <+: token.toList ∧ 1 < token.toList.length

instance (token : String) : Decidable (StartsOption token) :=
  inferInstanceAs (Decidable (['-'] <+: token.toList ∧ 1 < token.toList.length))

/-- What an option token has behind two dashes if it has anything there, and otherwise what it
has behind its first dash. -/
def keyText (token : String) : String :=
  if ['-', '-'] <+: token.toList ∧ 2 < token.toList.length then
    String.ofList (token.toList.drop 2)
  else String.ofList (token.toList.drop 1)

/-- The tokens with a key are the ones that start with a dash and do not end there. -/
theorem keyOfToken?_eq (token : String) :
    keyOfToken? token = if StartsOption token then some (keyText token) else none := by
  unfold keyOfToken? StartsOption keyText
  split
  next c rest htoken => simp [htoken]
  next c rest hone htoken =>
    have hdashes : ¬(['-', '-'] <+: token.toList ∧ 2 < token.toList.length) := by
      rw [htoken]
      rintro ⟨⟨more, hmore⟩, hlength⟩
      obtain ⟨rfl, rfl⟩ : '-' = c ∧ more = rest := by simpa using hmore
      cases more with
      | nil => simp at hlength
      | cons d more => exact hone d more rfl rfl
    rw [if_neg hdashes]
    simp [htoken]
  next hnone hone =>
    refine (if_neg ?_).symm
    rintro ⟨⟨rest, hrest⟩, hlength⟩
    cases rest with
    | nil => simp [← hrest] at hlength
    | cons c rest => exact hone c rest hrest.symm

/-- The key of the option token at a position, in lower case. -/
def keyAt? (tokens : List String) (i : Nat) : Option String :=
  (tokens[i]?.bind keyOfToken?).map Text.lowerCase

/-- The token at a position when it is no option token. -/
def argumentAt? (tokens : List String) (i : Nat) : Option String :=
  tokens[i]?.filter fun token => (keyOfToken? token).isNone

/-- The value of an option token at a position: the argument behind it or else `true`. -/
def valueAt (tokens : List String) (i : Nat) : String :=
  (argumentAt? tokens (i + 1)).getD "true"

/-- The positions of the option tokens whose key passes a test. -/
def optionPositions (p : String → Bool) (tokens : List String) : List Nat :=
  (List.range tokens.length).filter fun i => (keyAt? tokens i).any p

/-- Whether a position is right behind an option token. -/
def isBehindOption (tokens : List String) (i : Nat) : Bool :=
  0 < i && (keyAt? tokens (i - 1)).isSome

/-- The positions of the arguments right behind an option token. -/
def takenPositions (tokens : List String) : List Nat :=
  (List.range tokens.length).filter fun i =>
    (argumentAt? tokens i).isSome && isBehindOption tokens i

/-- The positions of the other arguments. -/
def freePositions (tokens : List String) : List Nat :=
  (List.range tokens.length).filter fun i =>
    (argumentAt? tokens i).isSome && !isBehindOption tokens i

/-- A token is an option token or an argument. -/
theorem isSome_argumentAt? {tokens : List String} {i : Nat} (hi : i < tokens.length) :
    (argumentAt? tokens i).isSome = !(keyAt? tokens i).isSome := by
  rw [argumentAt?, keyAt?, List.getElem?_eq_getElem hi]
  cases hkey : keyOfToken? tokens[i] <;> simp [Option.filter, hkey]

/-- Every token is an option token, an argument that an option token takes, or another argument,
and only one of these. -/
theorem positions_perm (tokens : List String) :
    (optionPositions (fun _ => true) tokens ++
      (takenPositions tokens ++ freePositions tokens)).Perm (List.range tokens.length) := by
  let isOption : Nat → Bool := fun i => (keyAt? tokens i).isSome
  have harguments (q : Nat → Bool) : ((List.range tokens.length).filter fun i =>
      (argumentAt? tokens i).isSome && q i) =
      ((List.range tokens.length).filter fun i => !isOption i).filter q := by
    rw [List.filter_filter]
    refine List.filter_congr fun i hi => ?_
    rw [isSome_argumentAt? (List.mem_range.mp hi), Bool.and_comm]
  have hoptions : optionPositions (fun _ => true) tokens =
      (List.range tokens.length).filter isOption := by
    refine List.filter_congr fun i _ => ?_
    cases hkey : keyAt? tokens i <;> simp [isOption, hkey]
  rw [hoptions, takenPositions, freePositions, harguments, harguments]
  exact ((List.filter_append_perm _ _).append_left _).trans (List.filter_append_perm _ _)

/-- What the options of a list of tokens are, phrase by phrase: an option token without an
argument, an option token with its argument, or an argument that no option token takes. -/
inductive Reads : List String → Options → Prop
  | nil : Reads [] ⟨[], []⟩
  | switch {tokens : List String} {o : Options} {token key : String} (hreads : Reads tokens o)
      (hkey : keyOfToken? token = some key) :
      Reads (tokens ++ [token]) ⟨addValue (Text.lowerCase key) "true" o.values, o.positional⟩
  | argument {tokens : List String} {o : Options} {token key value : String}
      (hreads : Reads tokens o) (hkey : keyOfToken? token = some key)
      (hvalue : keyOfToken? value = none) :
      Reads (tokens ++ [token, value])
        ⟨addValue (Text.lowerCase key) value o.values, o.positional⟩
  | positional {tokens : List String} {o : Options} {token : String} (hreads : Reads tokens o)
      (hlast : ∀ last ∈ tokens.getLast?, keyOfToken? last = none)
      (htoken : keyOfToken? token = none) :
      Reads (tokens ++ [token]) ⟨o.values, o.positional ++ [token]⟩

/-- The parser between two tokens. A key waits for a value exactly when its option token was the
last one, and then the value `true` that it was given last is still to be confirmed. -/
inductive Reading.Tracks : List String → Reading → Prop
  | settled {tokens : List String} {o : Options} (hreads : Reads tokens o)
      (hlast : ∀ last ∈ tokens.getLast?, keyOfToken? last = none) : Tracks tokens ⟨o, none⟩
  | waiting {tokens : List String} {o : Options} {token key : String} (hreads : Reads tokens o)
      (hkey : keyOfToken? token = some key) :
      Tracks (tokens ++ [token])
        ⟨⟨addValue (Text.lowerCase key) "true" o.values, o.positional⟩,
          some (Text.lowerCase key)⟩

/-- The parser has read every token that it has seen. -/
theorem Reading.Tracks.reads {tokens : List String} {reading : Reading}
    (htracks : reading.Tracks tokens) : Reads tokens reading.options := by
  cases htracks with
  | settled hreads hlast => exact hreads
  | waiting hreads hkey => exact .switch hreads hkey

/-- Reading one more token that is not blank. -/
theorem Reading.Tracks.step {tokens : List String} {reading : Reading} {token : String}
    (htracks : reading.Tracks tokens) (hblank : Text.isBlank token = false) :
    (reading.step token).Tracks (tokens ++ [token]) := by
  cases htoken : keyOfToken? token with
  | some key =>
    have hstep : reading.step token = ⟨⟨addValue (Text.lowerCase key) "true"
        reading.options.values, reading.options.positional⟩, some (Text.lowerCase key)⟩ := by
      simp [Reading.step, hblank, htoken]
    rw [hstep]
    exact .waiting htracks.reads htoken
  | none =>
    have hlast : ∀ front : List String, ∀ last ∈ (front ++ [token]).getLast?,
        keyOfToken? last = none := by
      simp [htoken]
    cases htracks with
    | @settled _ o hreads hsettled =>
      have hstep : (⟨o, none⟩ : Reading).step token =
          ⟨⟨o.values, o.positional ++ [token]⟩, none⟩ := by
        simp [Reading.step, hblank, htoken]
      rw [hstep]
      exact .settled (.positional hreads hsettled htoken) (hlast _)
    | @waiting tokens o option key hreads hkey =>
      -- The value `true` of the last option is overwritten, as if it had never been noted.
      have hstep : (⟨⟨addValue (Text.lowerCase key) "true" o.values, o.positional⟩,
          some (Text.lowerCase key)⟩ : Reading).step token =
          ⟨⟨addValue (Text.lowerCase key) token o.values, o.positional⟩, none⟩ := by
        simp [Reading.step, hblank, htoken, replaceValue_addValue]
      rw [hstep]
      refine .settled ?_ (hlast _)
      rw [List.append_assoc]
      exact .argument hreads hkey htoken

/-- The parser reads the tokens that are not blank. -/
theorem reads_parse (tokens : List String) :
    Reads (tokens.filter fun token => !Text.isBlank token) (parse tokens) := by
  suffices htracks : (tokens.foldl Reading.step ⟨⟨[], []⟩, none⟩).Tracks
      (tokens.filter fun token => !Text.isBlank token) from htracks.reads
  induction tokens using List.reverseRecOn with
  | nil => exact .settled .nil (by simp)
  | append_singleton tokens token ih =>
    rw [List.foldl_append, List.filter_append]
    cases hblank : Text.isBlank token with
    | true => simpa [Reading.step, hblank] using ih
    | false => simpa [hblank] using ih.step hblank

/-- The values of the option tokens whose key passes a test, in order. -/
def optionValues (p : String → Bool) (tokens : List String) : List String :=
  (optionPositions p tokens).map (valueAt tokens)

/-- The arguments that no option token takes, in order. -/
def freeArguments (tokens : List String) : List String :=
  (freePositions tokens).filterMap (argumentAt? tokens)

/-- Whether no option token at the end of the first tokens takes the first one of the others. -/
def Apart (front back : List String) : Prop :=
  ∀ last ∈ front.getLast?, ∀ first ∈ back.head?,
    keyOfToken? last = none ∨ (keyOfToken? first).isSome

section Append

variable {front back : List String}

theorem keyAt?_append_left {i : Nat} (hi : i < front.length) :
    keyAt? (front ++ back) i = keyAt? front i := by
  rw [keyAt?, keyAt?, List.getElem?_append_left hi]

theorem keyAt?_append_right (i : Nat) :
    keyAt? (front ++ back) (front.length + i) = keyAt? back i := by
  rw [keyAt?, keyAt?, List.getElem?_append_right (Nat.le_add_right _ _), Nat.add_sub_cancel_left]

theorem argumentAt?_append_left {i : Nat} (hi : i < front.length) :
    argumentAt? (front ++ back) i = argumentAt? front i := by
  rw [argumentAt?, argumentAt?, List.getElem?_append_left hi]

theorem argumentAt?_append_right (i : Nat) :
    argumentAt? (front ++ back) (front.length + i) = argumentAt? back i := by
  rw [argumentAt?, argumentAt?, List.getElem?_append_right (Nat.le_add_right _ _),
    Nat.add_sub_cancel_left]

/-- The positions that pass a test, in the first tokens and in the others. -/
theorem filter_range_append (p : Nat → Bool) :
    (List.range (front ++ back).length).filter p =
      (List.range front.length).filter p ++
        ((List.range back.length).filter fun i => p (front.length + i)).map
          (front.length + ·) := by
  rw [List.length_append, List.range_add, List.filter_append, List.filter_map]
  rfl

/-- Where an option token ends the first tokens, the others do not start with an argument. -/
theorem Apart.argumentAt?_eq_none (hapart : Apart front back) {i : Nat}
    (hi : i + 1 = front.length) (hkey : (keyAt? front i).isSome) :
    argumentAt? back 0 = none := by
  cases back with
  | nil => rfl
  | cons first back =>
    have hlast : front.getLast? = front[i]? := by
      rw [List.getLast?_eq_getElem?, Nat.sub_eq_of_eq_add hi.symm]
    obtain ⟨key, hkey⟩ := Option.isSome_iff_exists.mp hkey
    obtain ⟨_, hoption, rfl⟩ := Option.map_eq_some_iff.mp hkey
    obtain ⟨last, hget, hoption⟩ := Option.bind_eq_some_iff.mp hoption
    rcases hapart last (hlast.trans hget) first rfl with hnone | hfirst
    · simp [hnone] at hoption
    · simp [argumentAt?, Option.filter, Option.isSome_iff_ne_none.mp hfirst]

/-- An option token among the first tokens keeps its value. -/
theorem Apart.valueAt_append_left (hapart : Apart front back) {i : Nat} (hi : i < front.length)
    (hkey : (keyAt? front i).isSome) : valueAt (front ++ back) i = valueAt front i := by
  rw [valueAt, valueAt]
  rcases Nat.lt_or_eq_of_le (Nat.succ_le_of_lt hi) with hnext | hnext
  · rw [argumentAt?_append_left hnext]
  · have hbehind : argumentAt? front (i + 1) = none := by
      rw [argumentAt?, List.getElem?_eq_none (Nat.le_of_eq hnext.symm)]
      rfl
    rw [hbehind, show i + 1 = front.length + 0 from hnext, argumentAt?_append_right,
      hapart.argumentAt?_eq_none hnext hkey]

/-- The values of the option tokens, among the first tokens and among the others. -/
theorem Apart.optionValues_append (hapart : Apart front back) (p : String → Bool) :
    optionValues p (front ++ back) = optionValues p front ++ optionValues p back := by
  have hleft : ((List.range front.length).filter fun i => (keyAt? (front ++ back) i).any p) =
      optionPositions p front := by
    refine List.filter_congr fun i hi => ?_
    rw [keyAt?_append_left (List.mem_range.mp hi)]
  rw [optionValues, optionPositions, filter_range_append, List.map_append, List.map_map, hleft]
  congr 1
  · refine List.map_congr_left fun i hi => ?_
    obtain ⟨hi, hkey⟩ := List.mem_filter.mp hi
    exact hapart.valueAt_append_left (List.mem_range.mp hi) (Option.isSome_of_any hkey)
  · simp only [keyAt?_append_right]
    refine List.map_congr_left fun i _ => ?_
    rw [Function.comp_apply, valueAt, valueAt, Nat.add_assoc, argumentAt?_append_right]

/-- Among the other tokens, an argument is behind an option token when it was so before. -/
theorem Apart.isFree_append_right (hapart : Apart front back) (i : Nat) :
    ((argumentAt? back i).isSome && !isBehindOption (front ++ back) (front.length + i)) =
      ((argumentAt? back i).isSome && !isBehindOption back i) := by
  cases i with
  | succ i => simp [isBehindOption, ← Nat.add_assoc, keyAt?_append_right]
  | zero =>
    cases hbehind : isBehindOption (front ++ back) front.length with
    | false => simp [isBehindOption]
    | true =>
      simp only [isBehindOption, Bool.and_eq_true, decide_eq_true_eq] at hbehind
      obtain ⟨hpos, hkey⟩ := hbehind
      rw [keyAt?_append_left (Nat.sub_one_lt_of_lt hpos)] at hkey
      rw [hapart.argumentAt?_eq_none (Nat.sub_add_cancel hpos) hkey]
      rfl

/-- The arguments that no option token takes, among the first tokens and among the others. -/
theorem Apart.freeArguments_append (hapart : Apart front back) :
    freeArguments (front ++ back) = freeArguments front ++ freeArguments back := by
  have hleft : ((List.range front.length).filter fun i =>
      (argumentAt? (front ++ back) i).isSome && !isBehindOption (front ++ back) i) =
      freePositions front := by
    refine List.filter_congr fun i hi => ?_
    have hi := List.mem_range.mp hi
    rw [argumentAt?_append_left hi, isBehindOption, isBehindOption,
      keyAt?_append_left (Nat.lt_of_le_of_lt (Nat.sub_le i 1) hi)]
  rw [freeArguments, freePositions, filter_range_append, List.filterMap_append,
    List.filterMap_map, hleft]
  congr 1
  · refine List.filterMap_congr fun i hi => ?_
    exact argumentAt?_append_left (List.mem_range.mp (List.mem_of_mem_filter hi))
  · simp only [argumentAt?_append_right, hapart.isFree_append_right]
    refine List.filterMap_congr fun i _ => ?_
    exact argumentAt?_append_right i

end Append

section Reads

variable {tokens : List String} {o : Options}

/-- An option token alone, or with its argument, is apart from the tokens before it. -/
theorem apart_of_option {token key : String} (hkey : keyOfToken? token = some key)
    (front back : List String) : Apart front (token :: back) := by
  intro last _ first hfirst
  obtain rfl := Option.some.inj hfirst
  exact .inr (by simp [hkey])

/-- Tokens that do not end with an option token are apart from all others. -/
theorem apart_of_last {front : List String}
    (hlast : ∀ last ∈ front.getLast?, keyOfToken? last = none) (back : List String) :
    Apart front back :=
  fun last hmem _ _ => .inl (hlast last hmem)

/-- The value of an option token without an argument is `true`. -/
theorem optionValues_append_switch {token key : String} (hkey : keyOfToken? token = some key)
    (p : String → Bool) :
    optionValues p (tokens ++ [token]) =
      optionValues p tokens ++ if p (Text.lowerCase key) then ["true"] else [] := by
  rw [(apart_of_option hkey tokens []).optionValues_append]
  cases hp : p (Text.lowerCase key) <;>
    simp [optionValues, optionPositions, valueAt, keyAt?, argumentAt?, hkey, hp]

/-- The value of an option token with an argument is the argument. -/
theorem optionValues_append_argument {token key value : String}
    (hkey : keyOfToken? token = some key) (hvalue : keyOfToken? value = none)
    (p : String → Bool) :
    optionValues p (tokens ++ [token, value]) =
      optionValues p tokens ++ if p (Text.lowerCase key) then [value] else [] := by
  rw [(apart_of_option hkey tokens [value]).optionValues_append]
  cases hp : p (Text.lowerCase key) <;>
    simp [optionValues, optionPositions, valueAt, keyAt?, argumentAt?, hkey, hvalue, hp,
      List.range_succ, Option.filter]

/-- An argument that no option token takes is not among the values. -/
theorem optionValues_append_positional {token : String}
    (hlast : ∀ last ∈ tokens.getLast?, keyOfToken? last = none)
    (htoken : keyOfToken? token = none) (p : String → Bool) :
    optionValues p (tokens ++ [token]) = optionValues p tokens := by
  rw [(apart_of_last hlast [token]).optionValues_append]
  simp [optionValues, optionPositions, keyAt?, htoken]

/-- Adding a value to a key adds it to the stored values. -/
theorem flatMap_addValue_perm (key value : String) (values : List (String × List String)) :
    ((addValue key value values).flatMap Prod.snd).Perm (values.flatMap Prod.snd ++ [value]) := by
  induction values with
  | nil => exact .refl _
  | cons entry values ih =>
    obtain ⟨name, found⟩ := entry
    rw [addValue]
    split
    · simp only [List.flatMap_cons, List.append_assoc]
      exact List.perm_append_comm.append_left found
    · simp only [List.flatMap_cons, List.append_assoc]
      exact ih.append_left found

/-- Adding a value to a key when the values of another key, or of the same one, are known. -/
theorem lookup_addValue_of_lookup {values : List (String × List String)} {other : String}
    {found : List String} (hlookup : values.lookup other = if found = [] then none else some found)
    (key value : String) :
    let more := if decide (key = other) then [value] else []
    (addValue key value values).lookup other =
      if found ++ more = [] then none else some (found ++ more) := by
  intro more
  rw [lookup_addValue, hlookup]
  by_cases hsame : other = key
  · subst hsame
    by_cases hempty : found = [] <;> simp [more, hempty]
  · simp [more, hsame, Ne.symm hsame]

/-- The stored values of a key are those of its option tokens, and a key without an option token
is not stored. -/
theorem Reads.lookup_eq (hreads : Reads tokens o) (key : String) :
    o.values.lookup key =
      if optionValues (· = key) tokens = [] then none
      else some (optionValues (· = key) tokens) := by
  induction hreads with
  | nil => rfl
  | switch hreads hkey ih =>
    rw [optionValues_append_switch hkey]
    exact lookup_addValue_of_lookup ih _ _
  | argument hreads hkey hvalue ih =>
    rw [optionValues_append_argument hkey hvalue]
    exact lookup_addValue_of_lookup ih _ _
  | positional hreads hlast htoken ih => rw [optionValues_append_positional hlast htoken, ih]

/-- The positional tokens are the arguments that no option token takes. -/
theorem Reads.positional_eq (hreads : Reads tokens o) : o.positional = freeArguments tokens := by
  induction hreads with
  | nil => rfl
  | switch hreads hkey ih =>
    rw [(apart_of_option hkey _ []).freeArguments_append, ← ih]
    simp [freeArguments, freePositions, argumentAt?, Option.filter, hkey]
  | argument hreads hkey hvalue ih =>
    rw [(apart_of_option hkey _ _).freeArguments_append, ← ih]
    simp [freeArguments, freePositions, argumentAt?, isBehindOption, keyAt?, Option.filter, hkey,
      hvalue, List.range_succ]
  | positional hreads hlast htoken ih =>
    rw [(apart_of_last hlast _).freeArguments_append, ← ih]
    simp [freeArguments, freePositions, argumentAt?, isBehindOption, Option.filter, htoken]

/-- The stored values are those of the option tokens, each of them once. -/
theorem Reads.values_perm (hreads : Reads tokens o) :
    (o.values.flatMap Prod.snd).Perm (optionValues (fun _ => true) tokens) := by
  induction hreads with
  | nil => exact .refl _
  | switch hreads hkey ih =>
    rw [optionValues_append_switch hkey]
    exact (flatMap_addValue_perm _ _ _).trans (ih.append_right _)
  | argument hreads hkey hvalue ih =>
    rw [optionValues_append_argument hkey hvalue]
    exact (flatMap_addValue_perm _ _ _).trans (ih.append_right _)
  | positional hreads hlast htoken ih => rwa [optionValues_append_positional hlast htoken]

/-- The values of a key are those of its option tokens. -/
theorem Reads.getAll_eq (hreads : Reads tokens o) (key : String) :
    o.getAll key = optionValues (· = Text.lowerCase key) tokens := by
  rw [getAll, hreads.lookup_eq]
  split
  next hempty => exact hempty.symm
  next hsome => rfl

/-- A key occurs when it has a value. -/
theorem Reads.has_iff (hreads : Reads tokens o) (key : String) :
    o.has key = true ↔ o.getAll key ≠ [] := by
  rw [has, hreads.getAll_eq, hreads.lookup_eq]
  split <;> simp_all

section Written

variable (hwritten : ∀ token ∈ tokens, Text.isBlank token = false)

include hwritten

/-- Where no token is blank, no argument is. -/
theorem isBlank_of_argumentAt? {i : Nat} {token : String}
    (htoken : argumentAt? tokens i = some token) : Text.isBlank token = false := by
  rw [argumentAt?, Option.filter_eq_some_iff] at htoken
  exact hwritten token (List.mem_of_getElem? htoken.1)

/-- Where no token is blank, no value is. -/
theorem isBlank_of_mem_optionValues {p : String → Bool} {value : String}
    (hvalue : value ∈ optionValues p tokens) : Text.isBlank value = false := by
  obtain ⟨i, -, rfl⟩ := List.mem_map.mp hvalue
  rw [valueAt]
  cases hargument : argumentAt? tokens (i + 1) with
  | none => decide
  | some token => exact isBlank_of_argumentAt? hwritten hargument

/-- Where no token is blank, no stored value is. -/
theorem Reads.isBlank_value (hreads : Reads tokens o) {entry : String × List String}
    (hentry : entry ∈ o.values) {value : String} (hvalue : value ∈ entry.2) :
    Text.isBlank value = false :=
  isBlank_of_mem_optionValues hwritten
    (hreads.values_perm.mem_iff.mp (List.mem_flatMap.mpr ⟨entry, hentry, hvalue⟩))

/-- Where no token is blank, no positional token is. -/
theorem Reads.isBlank_positional (hreads : Reads tokens o) {token : String}
    (htoken : token ∈ o.positional) : Text.isBlank token = false := by
  rw [hreads.positional_eq] at htoken
  obtain ⟨i, -, hargument⟩ := List.mem_filterMap.mp htoken
  exact isBlank_of_argumentAt? hwritten hargument

/-- Where no token is blank, the last value of a key counts whatever it is. -/
theorem Reads.filled?_eq (hreads : Reads tokens o) (key : String) :
    o.filled? key = o.get? key := by
  rw [filled?]
  cases hvalue : o.get? key with
  | none => rfl
  | some value =>
    rw [get?, hreads.getAll_eq] at hvalue
    have hblank := isBlank_of_mem_optionValues hwritten (List.mem_of_getLast? hvalue)
    simp [hblank]

/-- Where no token is blank, the first key that occurs gives its last value. -/
theorem Reads.firstOf?_eq (hreads : Reads tokens o) (keys : List String) :
    o.firstOf? keys = (keys.find? o.has).bind o.get? := by
  induction keys with
  | nil => rfl
  | cons key keys ih =>
    rw [firstOf?, List.findSome?_cons, hreads.filled?_eq hwritten, List.find?_cons]
    cases hhas : o.has key with
    | true =>
      have hvalues := (hreads.has_iff key).mp hhas
      rw [get?, List.getLast?_eq_some_getLast hvalues]
      simp [get?, List.getLast?_eq_some_getLast hvalues]
    | false =>
      have hnone : o.getAll key = [] := by
        by_contra hvalues
        simp [(hreads.has_iff key).mpr hvalues] at hhas
      rw [get?, hnone]
      exact ih

end Written

end Reads

/-- The options of a list of tokens, by the adjacency of the tokens that are not blank. A token is
an option when it starts with a dash and goes on, and its key is what follows the dash or the two
dashes. The values of a key are, in order, the arguments behind its option tokens, or `true` where
there is none; the positional tokens are the other arguments. So every token is used once, as an
option, as a value or as a positional token; a key occurs when it has a value; no stored value and
no positional token is blank; and of several keys the first one that occurs counts. -/
theorem parse_adjacent (tokens : List String) :
    (∀ token, keyOfToken? token = if StartsOption token then some (keyText token) else none) ∧
    let written := tokens.filter fun token => !Text.isBlank token
    let o := parse tokens
    (∀ key, o.getAll key = optionValues (· = Text.lowerCase key) written) ∧
    o.positional = freeArguments written ∧
    (optionPositions (fun _ => true) written ++
      (takenPositions written ++ freePositions written)).Perm (List.range written.length) ∧
    (o.values.flatMap Prod.snd).Perm (optionValues (fun _ => true) written) ∧
    (∀ key, o.get? key = (o.getAll key).getLast? ∧ (o.has key = true ↔ o.getAll key ≠ [])) ∧
    (∀ entry ∈ o.values, ∀ value ∈ entry.2, Text.isBlank value = false) ∧
    (∀ token ∈ o.positional, Text.isBlank token = false) ∧
    ∀ keys, o.firstOf? keys = (keys.find? o.has).bind o.get? := by
  refine ⟨keyOfToken?_eq, ?_⟩
  intro written o
  have hreads : Reads written o := reads_parse tokens
  have hwritten : ∀ token ∈ written, Text.isBlank token = false := by
    intro token htoken
    simpa using (List.mem_filter.mp htoken).2
  exact ⟨hreads.getAll_eq, hreads.positional_eq, positions_perm written, hreads.values_perm,
    fun key => ⟨rfl, hreads.has_iff key⟩,
    fun entry hentry value => hreads.isBlank_value hwritten hentry,
    fun token => hreads.isBlank_positional hwritten, hreads.firstOf?_eq hwritten⟩

end ModuleInspector.Options
