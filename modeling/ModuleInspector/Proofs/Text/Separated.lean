import ModuleInspector.Proofs.Text.Brackets
import ModuleInspector.Text.Blank
import Mathlib.Data.List.TakeWhile

/-!
# Texts between commas

A text that stands for a list is cut at every comma, and of the parts those count that hold more
than blanks. A text without a comma is one part. A text that has a comma, but neither starts nor
ends with one, is at least two.
-/

namespace ModuleInspector.Text

/-- The blocks between separators are those of the core library. -/
theorem split_eq_splitOn (separator : Char) (text : List Char) :
    split separator text = text.splitOn separator := by
  induction text with
  | nil => rfl
  | cons c text ih =>
    rw [split, ih, List.splitOn_cons_eq_if_modifyHead]
    cases hblocks : text.splitOn separator with
    | nil => exact absurd hblocks (List.splitOn_ne_nil _ _)
    | cons block blocks => simp

/-- Whether a character is part of a word: neither a comma nor blank. -/
def IsWordChar (c : Char) : Prop := c ≠ ',' ∧ isBlankChar c = false

instance (c : Char) : Decidable (IsWordChar c) := inferInstanceAs (Decidable (_ ∧ _))

/-- Whether a text is not empty and nothing but word characters. -/
def IsWord (text : String) : Prop := text ≠ "" ∧ ∀ c ∈ text.toList, IsWordChar c

instance (text : String) : Decidable (IsWord text) :=
  -- Over the characters of the text, as an instance over all characters cannot be evaluated.
  @instDecidableAnd _ _ inferInstance (List.decidableBAll _ text.toList)

/-- Trimming takes a part of a text. -/
theorem trimChars_infix (text : List Char) : trimChars text <:+: text := by
  have hback : trimChars text <+: text.dropWhile isBlankChar := by
    simpa [trimChars] using List.reverse_prefix.mpr
      (List.dropWhile_suffix (l := (text.dropWhile isBlankChar).reverse) isBlankChar)
  exact hback.isInfix.trans (List.dropWhile_suffix isBlankChar).isInfix

/-- Trimming keeps the characters that are not blank. -/
theorem mem_trimChars {c : Char} {text : List Char} (hc : c ∈ text)
    (hblank : isBlankChar c = false) : c ∈ trimChars text := by
  have hdrop {text : List Char} (hc : c ∈ text) : c ∈ text.dropWhile isBlankChar := by
    rw [← List.takeWhile_append_dropWhile (p := isBlankChar) (l := text)] at hc
    refine (List.mem_append.mp hc).resolve_left fun htaken => ?_
    simp [List.mem_takeWhile_imp htaken] at hblank
  exact List.mem_reverse.mpr (hdrop (List.mem_reverse.mpr (hdrop hc)))

/-- What trimming takes away are blanks at both ends. -/
theorem exists_trimChars (text : List Char) : ∃ before after : List Char,
    text = before ++ trimChars text ++ after ∧ ∀ c ∈ before ++ after, isBlankChar c = true := by
  let rest := text.dropWhile isBlankChar
  refine ⟨text.takeWhile isBlankChar, (rest.reverse.takeWhile isBlankChar).reverse, ?_, ?_⟩
  · have hrest : trimChars text ++ (rest.reverse.takeWhile isBlankChar).reverse = rest := by
      rw [trimChars, ← List.reverse_append, List.takeWhile_append_dropWhile, List.reverse_reverse]
    rw [List.append_assoc, hrest, List.takeWhile_append_dropWhile]
  · intro c hc
    rcases List.mem_append.mp hc with hbefore | hafter
    · exact List.mem_takeWhile_imp hbefore
    · exact List.mem_takeWhile_imp (List.mem_reverse.mp hafter)

/-- Dropping the blanks in front of a text that does not start with one leaves the text. -/
theorem dropWhile_isBlankChar_append {blanks text : List Char}
    (hblanks : ∀ c ∈ blanks, isBlankChar c = true)
    (hhead : ∀ c ∈ text.head?, isBlankChar c = false) :
    (blanks ++ text).dropWhile isBlankChar = text := by
  rw [List.dropWhile_append_of_pos hblanks]
  cases text with
  | nil => rfl
  | cons c text => exact List.dropWhile_cons_of_neg (by simp [hhead c rfl])

/-- Trimming takes away the blanks around a text without any. -/
theorem trimChars_append {before text after : List Char} (hne : text ≠ [])
    (hblank : ∀ c ∈ before ++ after, isBlankChar c = true)
    (htext : ∀ c ∈ text, isBlankChar c = false) : trimChars (before ++ text ++ after) = text := by
  obtain ⟨hbefore, hafter⟩ := List.forall_mem_append.mp hblank
  have hfront : (before ++ (text ++ after)).dropWhile isBlankChar = text ++ after := by
    refine dropWhile_isBlankChar_append hbefore fun c hc => ?_
    rw [List.head?_append_of_ne_nil _ hne] at hc
    exact htext c (List.mem_of_mem_head? hc)
  have hback : (after.reverse ++ text.reverse).dropWhile isBlankChar = text.reverse :=
    dropWhile_isBlankChar_append (fun c hc => hafter c (List.mem_reverse.mp hc)) fun c hc =>
      htext c (List.mem_reverse.mp (List.mem_of_mem_head? hc))
  rw [trimChars, List.append_assoc, hfront, List.reverse_append, hback, List.reverse_reverse]

/-- The parts of a text between its commas, trimmed, without the blank ones. -/
def filledParts (text : List Char) : List (List Char) :=
  ((split ',' text).map trimChars).filter fun part => !part.isEmpty

/-- A comma ends the parts in front of it. -/
theorem filledParts_append_cons (front back : List Char) :
    filledParts (front ++ ',' :: back) = filledParts front ++ filledParts back := by
  simp [filledParts, split_eq_splitOn, List.splitOn_append_cons_self]

/-- A text without a comma is one part. -/
theorem filledParts_eq_singleton {text : List Char} (hcomma : ',' ∉ text)
    (hfilled : trimChars text ≠ []) : filledParts text = [trimChars text] := by
  simp [filledParts, split_eq_splitOn, List.splitOn_eq_singleton hcomma, hfilled]

/-- A text with a word character has a part. -/
theorem filledParts_ne_nil {text : List Char} (hfilled : ∃ c ∈ text, IsWordChar c) :
    filledParts text ≠ [] := by
  obtain ⟨c, hc, hword⟩ := hfilled
  by_cases hcomma : ',' ∈ text
  · obtain ⟨front, back, rfl⟩ := List.append_of_mem hcomma
    rw [filledParts_append_cons]
    rcases List.mem_append.mp hc with hfront | hback
    · exact List.append_ne_nil_of_left_ne_nil (filledParts_ne_nil ⟨c, hfront, hword⟩) _
    · have hback := (List.mem_cons.mp hback).resolve_left hword.1
      exact List.append_ne_nil_of_right_ne_nil _ (filledParts_ne_nil ⟨c, hback, hword⟩)
  · have htrim : trimChars text ≠ [] := List.ne_nil_of_mem (mem_trimChars hc hword.2)
    rw [filledParts_eq_singleton hcomma htrim]
    exact List.cons_ne_nil _ _
termination_by text.length

/-- Whether the first and the last character of a text are word characters. -/
def Edged (text : List Char) : Prop :=
  (∃ c ∈ text.head?, IsWordChar c) ∧ ∃ c ∈ text.getLast?, IsWordChar c

/-- A text of word characters starts and ends with one. -/
theorem edged_of_forall {text : List Char} (hne : text ≠ []) (hword : ∀ c ∈ text, IsWordChar c) :
    Edged text :=
  ⟨⟨_, List.head_mem_head? hne, hword _ (List.head_mem hne)⟩,
    ⟨_, List.getLast_mem_getLast? hne, hword _ (List.getLast_mem hne)⟩⟩

/-- Further characters before a word character leave a text with such characters at its ends. -/
theorem Edged.append_concat {front : List Char} (hfront : Edged front) (middle : List Char)
    {c : Char} (hc : IsWordChar c) : Edged (front ++ (middle ++ [c])) := by
  obtain ⟨⟨first, hfirst, hword⟩, -⟩ := hfront
  refine ⟨⟨first, ?_, hword⟩, c, by simp [← List.append_assoc], hc⟩
  rw [List.head?_append, Option.mem_def.mp hfirst]
  rfl

/-- A comma in a text that starts and ends with word characters has some on both sides. -/
theorem Edged.exists_append_cons {text : List Char} (hedged : Edged text) (hcomma : ',' ∈ text) :
    ∃ front back, text = front ++ ',' :: back ∧ (∃ c ∈ front, IsWordChar c) ∧
      ∃ c ∈ back, IsWordChar c := by
  obtain ⟨front, back, rfl⟩ := List.append_of_mem hcomma
  obtain ⟨⟨first, hfirst, hfirstWord⟩, last, hlast, hlastWord⟩ := hedged
  refine ⟨front, back, rfl, ?_, ?_⟩
  · cases front with
    | nil =>
      obtain rfl : ',' = first := by simpa using hfirst
      exact absurd rfl hfirstWord.1
    | cons c front =>
      obtain rfl : c = first := by simpa using hfirst
      exact ⟨c, List.mem_cons_self, hfirstWord⟩
  · cases hback : back.getLast? with
    | none =>
      obtain rfl := List.getLast?_eq_none_iff.mp hback
      obtain rfl : ',' = last := by simpa using hlast
      exact absurd rfl hlastWord.1
    | some c =>
      obtain rfl : c = last := by simpa [List.getLast?_cons, hback] using hlast
      exact ⟨c, List.mem_of_getLast? hback, hlastWord⟩

/-- A text that is one part once it is trimmed has no comma, where the trimmed text neither starts
nor ends with one. -/
theorem notMem_of_length_filledParts {text : List Char} (hedged : Edged (trimChars text))
    (hlength : (filledParts text).length = 1) : ',' ∉ trimChars text := by
  intro hcomma
  obtain ⟨left, right, htext⟩ := trimChars_infix text
  obtain ⟨front, back, htrim, ⟨c, hc, hcWord⟩, d, hd, hdWord⟩ := hedged.exists_append_cons hcomma
  have hfront := filledParts_ne_nil ⟨c, List.mem_append_right left hc, hcWord⟩
  have hback := filledParts_ne_nil ⟨d, List.mem_append_left right hd, hdWord⟩
  have hparts : filledParts text = filledParts (left ++ front) ++ filledParts (back ++ right) := by
    rw [← filledParts_append_cons, ← htext, htrim]
    simp
  rw [hparts, List.length_append] at hlength
  have hfrontParts := List.length_pos_of_ne_nil hfront
  have hbackParts := List.length_pos_of_ne_nil hback
  omega

/-- The parts of texts that are joined by commas are those of one text after the other. -/
theorem filledParts_join (texts : List String) :
    filledParts (join "," texts).toList = texts.flatMap fun text => filledParts text.toList := by
  induction texts with
  | nil => rfl
  | cons text texts ih =>
    cases texts with
    | nil => simp [join]
    | cons other texts =>
      have hlist : (join "," (text :: other :: texts)).toList =
          text.toList ++ ',' :: (join "," (other :: texts)).toList := by
        simp [join, String.intercalate_cons_cons]
      rw [hlist, filledParts_append_cons, ih]
      rfl

end ModuleInspector.Text
