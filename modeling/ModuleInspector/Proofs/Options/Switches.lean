import ModuleInspector.Options

/-!
# Adding an option

An option token at the end of the tokens adds a value to its key and changes no other key: the
argument that follows the token, or `true` when it is the last one.
-/

namespace ModuleInspector.Options

theorem lookup_cons_eq_ite (key other : String) (found : List String)
    (values : List (String × List String)) :
    ((key, found) :: values).lookup other =
      if other = key then some found else values.lookup other := by
  rw [List.lookup_cons]
  by_cases hother : other = key
  · simp [hother]
  · simp [hother, beq_eq_false_iff_ne.mpr hother]

/-- Adding a value to a key appends it to the values of this key, and leaves other keys alone. -/
theorem lookup_addValue (key value other : String) (values : List (String × List String)) :
    (addValue key value values).lookup other =
      if other = key then some ((values.lookup other).getD [] ++ [value])
      else values.lookup other := by
  induction values with
  | nil => rw [addValue, lookup_cons_eq_ite, List.lookup_nil, Option.getD_none, List.nil_append]
  | cons entry values ih =>
    obtain ⟨name, found⟩ := entry
    rw [addValue]
    by_cases hname : name = key
    · subst hname
      simp only [if_true, lookup_cons_eq_ite]
      by_cases hother : other = name <;> simp [hother]
    · simp only [if_neg hname, lookup_cons_eq_ite, ih]
      by_cases hother : other = name
      · simp [hother, hname]
      · simp [hother]

/-- Replacing the value that was added last is adding the other value. -/
theorem replaceValue_addValue (key first value : String) (values : List (String × List String)) :
    replaceValue key value (addValue key first values) = addValue key value values := by
  induction values with
  | nil => simp [addValue, replaceValue]
  | cons entry values ih =>
    obtain ⟨name, found⟩ := entry
    by_cases hname : name = key
    · simp [addValue, replaceValue, hname]
    · simp [addValue, replaceValue, hname, ih]

/-- Whether a token is an argument: neither blank nor an option. -/
def IsArgument (token : String) : Prop := Text.isBlank token = false ∧ keyOfToken? token = none

instance (token : String) : Decidable (IsArgument token) :=
  inferInstanceAs (Decidable (Text.isBlank token = false ∧ keyOfToken? token = none))

/-- Arguments without options are positional. -/
theorem parse_arguments {tokens : List String} (htokens : ∀ token ∈ tokens, IsArgument token) :
    parse tokens = ⟨[], tokens⟩ := by
  have hread (front : List String) : tokens.foldl Reading.step ⟨⟨[], front⟩, none⟩ =
      ⟨⟨[], front ++ tokens⟩, none⟩ := by
    induction tokens generalizing front with
    | nil => simp
    | cons token tokens ih =>
      obtain ⟨⟨hblank, hkey⟩, htokens⟩ := List.forall_mem_cons.mp htokens
      have hstep : Reading.step ⟨⟨[], front⟩, none⟩ token = ⟨⟨[], front ++ [token]⟩, none⟩ := by
        simp [Reading.step, hblank, hkey]
      rw [List.foldl_cons, hstep, ih htokens]
      simp
  rw [parse, hread]
  rfl

/-- A final option token with its argument adds the argument to its key. -/
theorem parse_append_argument {token key value : String} (tokens : List String)
    (hblank : Text.isBlank token = false) (hkey : keyOfToken? token = some key)
    (hvalue : IsArgument value) :
    parse (tokens ++ [token, value]) =
      ⟨addValue (Text.lowerCase key) value (parse tokens).values, (parse tokens).positional⟩ := by
  obtain ⟨hvalueBlank, hvalueKey⟩ := hvalue
  rw [parse, parse, List.foldl_append, List.foldl_cons, List.foldl_cons, List.foldl_nil]
  simp [Reading.step, hblank, hkey, hvalueBlank, hvalueKey, replaceValue_addValue]

/-- A final option token adds the value `true` to its key. -/
theorem parse_append_switch {token key : String} (tokens : List String)
    (hblank : Text.isBlank token = false) (hkey : keyOfToken? token = some key) :
    parse (tokens ++ [token]) =
      ⟨addValue (Text.lowerCase key) "true" (parse tokens).values, (parse tokens).positional⟩ := by
  rw [parse, parse, List.foldl_append, List.foldl_cons, List.foldl_nil, Reading.step, hblank, hkey]
  rfl

/-- A final option token changes no value of another key. -/
theorem filled?_parse_append_switch {token key other : String} (tokens : List String)
    (hblank : Text.isBlank token = false) (hkey : keyOfToken? token = some key)
    (hother : Text.lowerCase other ≠ Text.lowerCase key) :
    (parse (tokens ++ [token])).filled? other = (parse tokens).filled? other := by
  rw [parse_append_switch tokens hblank hkey]
  simp only [filled?, get?, getAll, lookup_addValue, if_neg hother]

/-- The keys that the commands read are in lower case. -/
theorem lowerCase_key {key : String} (hkey : key ∈ ["type", "kind", "method", "parameters",
    "pattern", "case-sensitive", "public", "nonpublic", "include-nonpublic", "namespace", "filter",
    "base", "interface"]) : Text.lowerCase key = key := by
  revert key
  decide

/-- The tokens of the visibility switch. -/
def visibilityTokens (nonPublic : Bool) : List String := if nonPublic then ["--nonpublic"] else []

/-- A final visibility switch leaves the positional tokens and the other keys as they are. -/
theorem parse_append_visibility (tokens : List String) (nonPublic : Bool) :
    parse (tokens ++ visibilityTokens nonPublic) =
      ⟨if nonPublic then addValue "nonpublic" "true" (parse tokens).values
        else (parse tokens).values, (parse tokens).positional⟩ := by
  cases nonPublic with
  | false => simp [visibilityTokens]
  | true =>
    have hkey : keyOfToken? "--nonpublic" = some "nonpublic" := by decide
    have hlower : Text.lowerCase "nonpublic" = "nonpublic" := lowerCase_key (by simp)
    rw [visibilityTokens, if_pos rfl, parse_append_switch tokens (by decide) hkey, hlower, if_pos rfl]

/-- A final visibility switch changes only the values of its own key. -/
theorem lookup_parse_append_visibility (tokens : List String) (nonPublic : Bool) {key : String}
    (hkey : key ≠ "nonpublic") :
    (parse (tokens ++ visibilityTokens nonPublic)).values.lookup key =
      (parse tokens).values.lookup key := by
  rw [parse_append_visibility]
  cases nonPublic with
  | false => rfl
  | true => exact (lookup_addValue _ _ _ _).trans (if_neg hkey)

end ModuleInspector.Options
