import Cloudland.Sci.Group.Lemmas

/-!
A `Group` is a range list together with the proof that it is well formed (`common/group.cpp`).
-/

namespace Sci

open List

structure Group where
  rangeList : List Range
  wf : RangeList.WellFormed rangeList
  deriving DecidableEq

namespace Group

instance : EmptyCollection Group := ⟨⟨[], RangeList.wellFormed_nil⟩⟩

instance : Inhabited Group := ⟨∅⟩

instance : Membership Int Group := ⟨fun g i => i ∈ RangeList.ids g.rangeList⟩

def hasMember (g : Group) (clientId : Int) : Bool := RangeList.hasMember g.rangeList clientId

def isEmpty (g : Group) : Bool := g.rangeList.isEmpty

def members (g : Group) : List Int := RangeList.members g.rangeList

def size (g : Group) : Int := RangeList.size g.rangeList

theorem scan_start {l : List Range} {p : Range → Prop} : ∀ x ∈ l.take 0, p x := by
  simp

def addRange (g : Group) (r : Range) (h : r.NonEmpty) : Group :=
  ⟨(RangeList.addAt g.rangeList r 0).1, (RangeList.addAt_spec h g.wf (Nat.zero_le _) scan_start).wf⟩

-- the sum is that of `int` for every id but the largest one, which the conditions of the runs leave out
def single (clientId : Int) : Range := ⟨clientId, clientId + 1⟩

theorem single_nonEmpty (clientId : Int) : (single clientId).NonEmpty :=
  Int.lt_succ clientId

def add (g : Group) (clientId : Int) : Group := g.addRange (single clientId) (single_nonEmpty clientId)

def addGroup (g h : Group) : Group :=
  ⟨RangeList.addAll g.rangeList h.rangeList, (RangeList.addAll_spec h.wf g.wf).1⟩

def deleteRange (g : Group) (r : Range) (h : r.NonEmpty) : Group :=
  ⟨(RangeList.deleteAt g.rangeList r 0).1,
    (RangeList.deleteAt_spec h g.wf (Nat.zero_le _) scan_start).wf⟩

def delete (g : Group) (clientId : Int) : Group := g.deleteRange (single clientId) (single_nonEmpty clientId)

def deleteGroup (g h : Group) : Group :=
  ⟨RangeList.deleteAll g.rangeList h.rangeList, (RangeList.deleteAll_spec h.wf g.wf).1⟩

def copy (g : Group) : Group := addGroup ∅ g

/--
The intersection as the distributed group computes it, from a copy of `g` and a copy of what `g`
does not share with `h`.
-/
def intersect (g h : Group) : Group := g.copy.deleteGroup (g.copy.deleteGroup h)

def ofList (be_list : List Int) : Group := be_list.foldl add ∅

theorem ext_mem {g h : Group} (hmem : ∀ i, i ∈ g ↔ i ∈ h) : g = h := by
  have heq := RangeList.eq_of_ids_eq g.wf h.wf (Set.ext hmem)
  cases g
  cases h
  congr

@[simp]
theorem hasMember_iff {g : Group} : g.hasMember i = true ↔ i ∈ g :=
  RangeList.hasMember_iff

instance (g : Group) (i : Int) : Decidable (i ∈ g) := decidable_of_iff _ hasMember_iff

@[simp]
theorem not_mem_empty (i : Int) : ¬i ∈ (∅ : Group) := by
  show ¬i ∈ RangeList.ids []
  simp

section Group

variable {g : Group}

@[simp]
theorem mem_addRange {h : r.NonEmpty} {i : Int}
    : i ∈ g.addRange r h ↔ i ∈ g ∨ (r.first ≤ i ∧ i < r.last) := by
  show i ∈ RangeList.ids _ ↔ _
  rw [addRange, (RangeList.addAt_spec h g.wf (Nat.zero_le _) scan_start).ids_eq, Set.mem_union,
    Range.mem_ids]
  rfl

@[simp]
theorem mem_add : i ∈ g.add j ↔ i ∈ g ∨ i = j := by
  rw [add, mem_addRange, single]
  refine or_congr_right ?_
  dsimp only
  omega

@[simp]
theorem mem_addGroup : i ∈ g.addGroup h ↔ i ∈ g ∨ i ∈ h := by
  show i ∈ RangeList.ids _ ↔ _
  rw [addGroup, (RangeList.addAll_spec h.wf g.wf).2]
  rfl

@[simp]
theorem mem_deleteRange {h : r.NonEmpty} {i : Int}
    : i ∈ g.deleteRange r h ↔ i ∈ g ∧ ¬(r.first ≤ i ∧ i < r.last) := by
  show i ∈ RangeList.ids _ ↔ _
  rw [deleteRange, (RangeList.deleteAt_spec h g.wf (Nat.zero_le _) scan_start).ids_eq,
    Set.mem_sdiff, Range.mem_ids]
  rfl

@[simp]
theorem mem_delete : i ∈ g.delete j ↔ i ∈ g ∧ i ≠ j := by
  rw [delete, mem_deleteRange, single]
  refine and_congr_right (fun _ => ?_)
  dsimp only
  omega

@[simp]
theorem mem_deleteGroup : i ∈ g.deleteGroup h ↔ i ∈ g ∧ ¬i ∈ h := by
  show i ∈ RangeList.ids _ ↔ _
  rw [deleteGroup, (RangeList.deleteAll_spec h.wf g.wf).2]
  rfl

end Group

@[simp]
theorem copy_eq (g : Group) : g.copy = g := by
  apply ext_mem
  simp [copy]

@[simp]
theorem mem_intersect {g : Group} : i ∈ g.intersect h ↔ i ∈ g ∧ i ∈ h := by
  simp only [intersect, copy_eq, mem_deleteGroup]
  tauto

theorem mem_foldl_add {be_list : List Int} : i ∈ be_list.foldl add g ↔ i ∈ g ∨ i ∈ be_list := by
  induction be_list generalizing g with
  | nil => simp
  | cons b bs ih =>
    rw [foldl_cons, ih, mem_add, mem_cons, or_assoc]

@[simp]
theorem mem_ofList : i ∈ ofList be_list ↔ i ∈ be_list := by
  simp [ofList, mem_foldl_add]

@[simp]
theorem mem_members {g : Group} : i ∈ g.members ↔ i ∈ g :=
  RangeList.mem_members

theorem members_nodup (g : Group) : g.members.Nodup :=
  (RangeList.members_pairwise g.wf).imp ne_of_lt

theorem length_members_add {g : Group} (h : ¬i ∈ g) : (g.add i).members.length = g.members.length + 1 := by
  have hperm : (g.add i).members.Perm (i :: g.members) := by
    rw [perm_ext_iff_of_nodup (members_nodup _)
      (nodup_cons.mpr ⟨by rwa [mem_members], members_nodup g⟩)]
    simp [or_comm]
  rw [hperm.length_eq, length_cons]

theorem length_members_delete {g : Group} {i : Int} (h : i ∈ g)
    : g.members.length = (g.delete i).members.length + 1 := by
  have hg : g = (g.delete i).add i := by
    apply ext_mem
    intro j
    by_cases hj : j = i
    . simp [hj, h]
    . simp [hj]
  have hdeleted : ¬i ∈ g.delete i := by simp
  rw [← length_members_add hdeleted, ← hg]

theorem isEmpty_iff {g : Group} : g.isEmpty = true ↔ ∀ i, ¬i ∈ g := by
  constructor
  . intro h i
    have hg : g = ∅ := by
      cases g
      simp only [isEmpty, List.isEmpty_iff] at h
      subst h
      rfl
    rw [hg]
    exact not_mem_empty i
  . intro h
    have hg : g = ∅ := ext_mem (by simpa using h)
    rw [hg]
    rfl

theorem isEmpty_eq_false_iff {g : Group} : g.isEmpty = false ↔ ∃ i, i ∈ g := by
  rw [← Bool.not_eq_true, isEmpty_iff]
  push Not
  rfl

theorem size_eq_zero_iff {g : Group} : g.size = 0 ↔ ∀ i, ¬i ∈ g := by
  rw [size, ← RangeList.length_members g.wf]
  rw [Int.natCast_eq_zero, length_eq_zero_iff, eq_nil_iff_forall_not_mem]
  exact forall_congr' (fun i => not_congr RangeList.mem_members)

end Group
end Sci
