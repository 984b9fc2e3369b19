import ModuleInspector.Proofs.Metadata.CanonicalText

/-!
# Closed references

References without generic parameters, in which every generic definition carries the number of its
arguments behind a backtick. The text leaves this number out, and yet it determines the reference:
the arguments can be counted.
-/

namespace ModuleInspector.TypeRef

/-- Whether a name is not empty and has neither a mark nor a backtick in it. -/
def IsBareName (name : String) : Prop :=
  name ≠ "" ∧ ∀ c ∈ name.toList, c ∉ ['<', '>', '[', ']', ',', '&', '\x60']

instance (name : String) : Decidable (IsBareName name) :=
  -- Over the characters of the name, as an instance over all characters cannot be evaluated.
  @instDecidableAnd _ _ inferInstance (List.decidableBAll _ name.toList)

/-- Whether a generic definition is a bare name, a backtick and the number of its arguments, of
which there are some. -/
def IsArityNamed (definition : String) (count : Nat) : Prop :=
  1 ≤ count ∧ ∃ base, IsBareName base ∧ definition = base ++ "`" ++ toString count

/-- The closed references: of types by their qualified names, of generic definitions with as many
arguments as their names tell, of arrays of some rank, and of types passed by reference. -/
def closedReferences : Grammar where
  parameter _ := False
  type := IsBareName
  definition := IsArityNamed
  rank rank := 1 ≤ rank.toNat

/-- A bare name has no marks. -/
theorem unmarked_of_isBareName {name : String} (hname : IsBareName name) : Text.Unmarked name := by
  intro c hc
  have hnone := hname.2 c hc
  simp only [List.mem_cons, List.not_mem_nil, or_false, not_or] at hnone
  simp [Text.isMark, hnone]

/-- The stem of a definition is the name in front of the first backtick. -/
theorem definitionStem_append {base : String} (hbase : IsBareName base) (arity : String) :
    definitionStem (base ++ "`" ++ arity) = base := by
  have hbacktick : ∀ c ∈ base.toList, (c != '\x60') = true := by
    intro c hc
    have hnone := hbase.2 c hc
    simp only [List.mem_cons, List.not_mem_nil, or_false, not_or] at hnone
    simp [hnone]
  have hlist : (base ++ "`" ++ arity).toList = base.toList ++ '\x60' :: arity.toList := by simp
  rw [definitionStem, hlist, List.takeWhile_append_of_pos hbacktick, List.takeWhile_cons]
  simp

/-- The texts of closed references can be read back. -/
theorem readable_closedReferences : closedReferences.Readable where
  unmarked := by
    rintro name (hnone | hname)
    · exact hnone.elim
    · exact unmarked_of_isBareName hname
  nonempty := by
    rintro name (hnone | hname)
    · exact hnone.elim
    · exact hname.1
  apart hnone := hnone.elim
  stem := by
    rintro _ count ⟨-, base, hbase, rfl⟩
    rw [definitionStem_append hbase]
    exact unmarked_of_isBareName hbase
  stems := by
    rintro _ _ count ⟨-, base, hbase, rfl⟩ ⟨-, other, hother, rfl⟩ hstem
    rw [definitionStem_append hbase, definitionStem_append hother] at hstem
    rw [hstem]
  rank hrank := hrank

/-- Two closed references have the same text exactly when they have the same structure: the same
forms, qualified names, definitions, arguments and ranks, at every depth. -/
theorem text_eq_iff_same {left right : TypeRef} (hleft : closedReferences.Builds left)
    (hright : closedReferences.Builds right) : left.text = right.text ↔ left.Same right :=
  ⟨same_of_text_eq readable_closedReferences hleft hright, Same.text_eq⟩

/-- An array of mappings from a key to a two-dimensional array of items, passed by reference; the
items come with some simple name. -/
def mappings (simpleName : String) : TypeRef :=
  .byRef (.array (.generic "Map`2"
    [ofFullName "Acme.Key", .array (.named simpleName (some "Acme.Item")) 2]) 1)

/-- A mapping from a key to an array of two-dimensional arrays of items, passed by reference. -/
def mapping : TypeRef :=
  .byRef (.generic "Map`2" [ofFullName "Acme.Key", .array (.array (ofFullName "Acme.Item") 2) 1])

/-- The simple name of the items does not count, and it counts of what an array is made. -/
theorem text_mappings :
    closedReferences.Builds (mappings "Item") ∧ closedReferences.Builds (mappings "Part") ∧
      closedReferences.Builds mapping ∧
      (mappings "Item").text = (mappings "Part").text ∧ (mappings "Item").Same (mappings "Part") ∧
      ¬(mappings "Item").Same mapping ∧ (mappings "Item").text ≠ mapping.text := by
  have harity : IsArityNamed "Map`2" 2 := ⟨by decide, "Map", by decide, by decide⟩
  have hkey : closedReferences.Builds (ofFullName "Acme.Key") :=
    .type (by decide : IsBareName "Acme.Key")
  have hitem (simpleName : String) :
      closedReferences.Builds (.named simpleName (some "Acme.Item")) :=
    .type (by decide : IsBareName "Acme.Item")
  have hplane {element : TypeRef} (helement : closedReferences.Builds element) :
      closedReferences.Builds (.array element 2) :=
    .array helement (by decide : 1 ≤ (2 : UInt32).toNat)
  have hrow {element : TypeRef} (helement : closedReferences.Builds element) :
      closedReferences.Builds (.array element 1) :=
    .array helement (by decide : 1 ≤ (1 : UInt32).toNat)
  have hmap {value : TypeRef} (hvalue : closedReferences.Builds value) :
      closedReferences.Builds (.generic "Map`2" [ofFullName "Acme.Key", value]) :=
    .generic harity (by simp [hkey, hvalue])
  have hmappings (simpleName : String) : closedReferences.Builds (mappings simpleName) :=
    .byRef (hrow (hmap (hplane (hitem simpleName))))
  have hmapping : closedReferences.Builds mapping := .byRef (hmap (hrow (hplane (hitem "Item"))))
  have hother : ¬(mappings "Item").Same mapping := by
    rintro ⟨⟩
    contradiction
  exact ⟨hmappings _, hmappings _, hmapping, rfl,
    (text_eq_iff_same (hmappings "Item") (hmappings "Part")).mp rfl, hother,
    fun htext => hother ((text_eq_iff_same (hmappings "Item") hmapping).mp htext)⟩

end ModuleInspector.TypeRef
