import ModuleInspector.Catalog.Members
import ModuleInspector.Proofs.Catalog.BaseWalk

/-!
# Inherited members

The members of a type are the selected ones it declares, followed by those that each of its bases
passes on: instance members that are not private and whose key no nearer type declares. What
hides a member is thus stated by position in the chain of bases and not by the keys that the walk
has gathered, and selection takes no part in it.
-/

namespace ModuleInspector

variable {m : Module}

namespace Entry

/-- The member at a position of a type. -/
def memberAt (e : Entry m) (i : Fin e.type.members.length) : MemberEntry m :=
  ⟨e, i, e.type.members[i]⟩

/-- The members of a type that pass a test, in metadata order. -/
def membersWhere (e : Entry m) (p : Member → Bool) : List (MemberEntry m) :=
  ((List.finRange e.type.members.length).map e.memberAt).filter fun entry => p entry.member

theorem declared_eq_membersWhere (e : Entry m) (kind : MemberKind) :
    e.declared kind = e.membersWhere fun member => member.kind = kind := by
  have hpositions : (e.type.members.zipIdx.map fun item => (⟨e, item.2, item.1⟩ : MemberEntry m)) =
      (List.finRange e.type.members.length).map e.memberAt := by
    apply List.ext_getElem <;> simp [memberAt]
  rw [declared, membersWhere, hpositions]

theorem filter_membersWhere (e : Entry m) (p q : Member → Bool) :
    ((e.membersWhere p).filter fun entry => q entry.member) =
      e.membersWhere fun member => p member && q member := by
  rw [membersWhere, membersWhere, List.filter_filter]
  simp only [Bool.and_comm]

theorem declaring_of_mem_membersWhere {e : Entry m} {p : Member → Bool} {entry : MemberEntry m}
    (hentry : entry ∈ e.membersWhere p) : entry.declaring = e := by
  obtain ⟨i, -, rfl⟩ := List.mem_map.mp (List.mem_of_mem_filter hentry)
  rfl

end Entry

/-- The place of a member: its declaring type and its position there. -/
def MemberEntry.place (entry : MemberEntry m) : Entry m × Nat := (entry.declaring, entry.index)

/-- No position of a type is listed twice. -/
theorem Entry.nodup_place_membersWhere (e : Entry m) (p : Member → Bool) :
    ((e.membersWhere p).map MemberEntry.place).Nodup := by
  have hall : (((List.finRange e.type.members.length).map e.memberAt).map
      MemberEntry.place).Nodup := by
    rw [List.map_map]
    refine (List.nodup_finRange _).map fun i j hij => ?_
    exact Fin.ext (congrArg Prod.snd hij)
  exact hall.sublist (List.filter_sublist.map _)

/-- Members of a type stay apart from those of types other than it. -/
theorem MemberEntry.nodup_place_append {e : Entry m} {types : List (Entry m)}
    {own others : List (MemberEntry m)} (he : e ∉ types)
    (hown : ∀ entry ∈ own, entry.declaring = e)
    (hothers : ∀ entry ∈ others, entry.declaring ∈ types)
    (hownNodup : (own.map place).Nodup) (hothersNodup : (others.map place).Nodup) :
    ((own ++ others).map place).Nodup := by
  rw [List.map_append, List.nodup_append]
  refine ⟨hownNodup, hothersNodup, ?_⟩
  rintro here hhere there hthere rfl
  obtain ⟨entry, hentry, rfl⟩ := List.mem_map.mp hhere
  obtain ⟨other, hother, hsame⟩ := List.mem_map.mp hthere
  have hdeclaring : other.declaring = entry.declaring := congrArg Prod.fst hsame
  rw [hown entry hentry] at hdeclaring
  have hmem := hothers other hother
  rw [hdeclaring] at hmem
  exact he hmem

/-- Whether one of the types declares a member of the kind with the key of this one. -/
def Declares (kind : MemberKind) (types : List (Entry m)) (key : String) : Prop :=
  ∃ e ∈ types, ∃ member ∈ e.type.members, member.kind = kind ∧ member.hidingKey = key

instance (kind : MemberKind) (types : List (Entry m)) (key : String) :
    Decidable (Declares kind types key) :=
  inferInstanceAs (Decidable (∃ e ∈ types, ∃ member ∈ e.type.members,
    member.kind = kind ∧ member.hidingKey = key))

/-- The members of a kind that a base passes on to a type when the types before it are nearer. -/
def passedOn (kind : MemberKind) (selection : Selection) (nearer : List (Entry m))
    (base : Entry m) : List (MemberEntry m) :=
  base.membersWhere fun member =>
    member.kind = kind && !member.isStatic && !member.isPrivate &&
      selection.selects member.isPublic false && !Declares kind nearer member.hidingKey

namespace Catalog

/-- The keys of the members of a kind that the types declare. -/
def declaredKeys (kind : MemberKind) (types : List (Entry m)) : List String :=
  types.flatMap fun e => (e.declared kind).map (·.member.hidingKey)

/-- The gathered keys are those that one of the types declares. -/
theorem mem_declaredKeys {kind : MemberKind} {types : List (Entry m)} {key : String} :
    key ∈ declaredKeys kind types ↔ Declares kind types key := by
  simp only [declaredKeys, List.mem_flatMap, Entry.declared_eq_membersWhere]
  constructor
  · rintro ⟨e, he, hkey⟩
    obtain ⟨entry, hentry, rfl⟩ := List.mem_map.mp hkey
    obtain ⟨hentry, hkind⟩ := List.mem_filter.mp hentry
    obtain ⟨i, -, rfl⟩ := List.mem_map.mp hentry
    exact ⟨e, he, e.type.members[i], List.getElem_mem _, of_decide_eq_true hkind, rfl⟩
  · rintro ⟨e, he, member, hmember, hkind, rfl⟩
    obtain ⟨i, hi, rfl⟩ := List.mem_iff_getElem.mp hmember
    refine ⟨e, he, List.mem_map.mpr ⟨e.memberAt ⟨i, hi⟩, ?_, rfl⟩⟩
    refine List.mem_filter.mpr ⟨List.mem_map.mpr ⟨⟨i, hi⟩, List.mem_finRange _, rfl⟩, ?_⟩
    exact decide_eq_true hkind

/-- One base adds what it passes on, where the hidden keys are those of the nearer types. -/
theorem inherited_cons (kind : MemberKind) (selection : Selection) (nearer : List (Entry m))
    (base : Entry m) (bases : List (Entry m)) :
    inherited kind selection (declaredKeys kind nearer) (base :: bases) =
      passedOn kind selection nearer base ++
        inherited kind selection (declaredKeys kind (nearer ++ [base])) bases := by
  have hkeys : declaredKeys kind nearer ++ (base.declared kind).map (·.member.hidingKey) =
      declaredKeys kind (nearer ++ [base]) := by
    simp [declaredKeys]
  have hhidden : ∀ key, (declaredKeys kind nearer).contains key =
      decide (Declares kind nearer key) := by
    intro key
    rw [Bool.eq_iff_iff, List.contains_iff_mem, mem_declaredKeys, decide_eq_true_eq]
  rw [inherited, hkeys]
  congr 1
  rw [Entry.declared_eq_membersWhere, Entry.filter_membersWhere base _ fun member =>
    !member.isStatic && !member.isPrivate && !(declaredKeys kind nearer).contains member.hidingKey
      && selection.selects member.isPublic false, passedOn]
  congr 1
  funext member
  rw [hhidden]
  ac_rfl

/-- What a chain of bases adds: each base what it passes on behind the nearer types and the bases
before it. The induction is on the chain, and the gathered keys are at every base those that the
types before it declare. -/
theorem inherited_eq_flatMap (kind : MemberKind) (selection : Selection)
    (nearer bases : List (Entry m)) :
    inherited kind selection (declaredKeys kind nearer) bases =
      bases.zipIdx.flatMap fun base =>
        passedOn kind selection (nearer ++ bases.take base.2) base.1 := by
  induction bases generalizing nearer with
  | nil => rfl
  | cons base bases ih =>
    rw [inherited_cons, ih, List.zipIdx_cons, List.flatMap_cons, List.zipIdx_succ,
      List.flatMap_map]
    simp

/-- A chain of bases adds members that one of the bases declares. -/
theorem declaring_mem_of_mem_inherited {kind : MemberKind} {selection : Selection}
    {hidden : List String} {bases : List (Entry m)} {entry : MemberEntry m}
    (hentry : entry ∈ inherited kind selection hidden bases) : entry.declaring ∈ bases := by
  induction bases generalizing hidden with
  | nil => simp [inherited] at hentry
  | cons base bases ih =>
    rw [inherited, Entry.declared_eq_membersWhere] at hentry
    rcases List.mem_append.mp hentry with hbase | hbases
    · simp [Entry.declaring_of_mem_membersWhere (List.mem_of_mem_filter hbase)]
    · exact List.mem_cons_of_mem _ (ih hbases)

/-- A chain of distinct bases adds no member twice. -/
theorem nodup_place_inherited (kind : MemberKind) (selection : Selection) (hidden : List String)
    {bases : List (Entry m)} (hbases : bases.Nodup) :
    ((inherited kind selection hidden bases).map MemberEntry.place).Nodup := by
  induction bases generalizing hidden with
  | nil => simp [inherited]
  | cons base bases ih =>
    obtain ⟨hbase, hbases⟩ := List.nodup_cons.mp hbases
    rw [inherited, Entry.declared_eq_membersWhere]
    refine MemberEntry.nodup_place_append hbase (fun entry hentry => ?_)
      (fun entry => declaring_mem_of_mem_inherited)
      ((base.nodup_place_membersWhere _).sublist (List.filter_sublist.map _)) (ih _ hbases)
    exact Entry.declaring_of_mem_membersWhere (List.mem_of_mem_filter hentry)

/-- The members of a kind are the selected declared ones and, unless only these are asked for or
constructors are, the inherited ones behind the keys of the type itself. -/
theorem members_eq_declared_append (c : Catalog m) (e : Entry m) (kind : MemberKind)
    (selection : Selection) :
    c.members e kind selection =
      (e.membersWhere fun member =>
        member.kind = kind && selection.selects member.isPublic member.isStatic) ++
      (if selection.declaredOnly ∨ kind = .constructor then []
        else inherited kind selection (declaredKeys kind [e]) (c.baseChain e)) := by
  have hkeys : (e.declared kind).map (·.member.hidingKey) = declaredKeys kind [e] := by
    simp [declaredKeys]
  have hown := e.filter_membersWhere (fun member => member.kind = kind) fun member =>
    selection.selects member.isPublic member.isStatic
  rw [members, hkeys, Entry.declared_eq_membersWhere, hown]
  simp only [Bool.or_eq_true, decide_eq_true_eq]
  split <;> simp

/-- The places of the members are pairwise distinct, since the type and its bases are. -/
theorem nodup_place_members (c : Catalog m) (e : Entry m) (kind : MemberKind)
    (selection : Selection) : ((c.members e kind selection).map MemberEntry.place).Nodup := by
  obtain ⟨he, hchain⟩ := List.nodup_cons.mp (nodup_baseChain (c := c) e)
  rw [members_eq_declared_append]
  refine MemberEntry.nodup_place_append he (fun entry => Entry.declaring_of_mem_membersWhere)
    (fun entry hentry => ?_) (e.nodup_place_membersWhere _) ?_
  · split at hentry
    · simp at hentry
    · exact declaring_mem_of_mem_inherited hentry
  · split
    · simp
    · exact nodup_place_inherited kind selection _ hchain

/-- The members of a kind: the selected ones that the type declares, followed unless only these
are asked for or constructors are by what each base in turn passes on behind the type and the
bases before it. No place is listed twice. -/
theorem members_eq_declared_append_passedOn (e : Entry m) (kind : MemberKind)
    (selection : Selection) :
    (Catalog.of m).members e kind selection =
        (e.membersWhere fun member =>
          member.kind = kind && selection.selects member.isPublic member.isStatic) ++
        (if selection.declaredOnly ∨ kind = .constructor then []
          else ((Catalog.of m).baseChain e).zipIdx.flatMap fun base =>
            passedOn kind selection (e :: ((Catalog.of m).baseChain e).take base.2) base.1) ∧
      (((Catalog.of m).members e kind selection).map MemberEntry.place).Nodup := by
  refine ⟨?_, nodup_place_members _ e kind selection⟩
  rw [members_eq_declared_append, inherited_eq_flatMap]
  simp only [List.singleton_append]

end Catalog

end ModuleInspector
