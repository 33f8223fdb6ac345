import Cloudland.Sci.DGroup.Invariant

/-!
The set algebra of distributed groups: which members `operate` and `operateExt` give to the new group.
-/

namespace Sci.DistributedGroup

open OrdMap Parts
open Std (ExtTreeMap)

def Member (d : DistributedGroup) (g i : Int) : Prop := ∃ c, (d.parts g).Mem c i

structure Creates (d : DistributedGroup) (newgroup : Int) (target : Int → Prop)
    (res : DistributedGroup × SciRc) : Prop where
  member : ∀ i, res.1.Member newgroup i ↔ target i
  part : ∀ c i, (res.1.parts newgroup).Mem c i ↔ target i ∧ (d.parts SCI_GROUP_ALL).Mem c i
  success : (∃ i, target i) → res.2 = .success
  groupEmpty : (¬∃ i, target i) → res.2 = .groupEmpty
  other : ∀ g, newgroup ≠ g → ∀ i, res.1.Member g i ↔ d.Member g i

variable {d : DistributedGroup}

theorem mem_iff_member (hinv : d.TableInv) {g c i : Int}
    : (d.parts g).Mem c i ↔ d.Member g i ∧ (d.parts SCI_GROUP_ALL).Mem c i := by
  constructor
  . exact fun h => ⟨⟨c, h⟩, hinv.subset g c i h⟩
  . rintro ⟨⟨c', hc'⟩, hall⟩
    rw [hinv.all_disjoint c c' i hall (hinv.subset g c' i hc')]
    exact hc'

theorem creates_finish_iff (hsame : SameTables d d2)
    {new : Int} (hnew : d.generalInfo[new]? = none) {op : SciOp}
    (hoccupied : op ≠ .union → stored.Occupied) (htarget : ∀ i, target i → d.Member SCI_GROUP_ALL i)
    : Creates d new target (d2.finish new stored (hasMember op stored))
        ↔
      (∀ c i, stored.Mem c i ↔ target i ∧ (d.parts SCI_GROUP_ALL).Mem c i) ∧
        (op = .union → ∃ i, target i) := by
  have hmem : ∀ c i, ((d2.finish new stored (hasMember op stored)).1.parts new).Mem c i
      ↔ stored.Mem c i := by
    intro c i
    rw [mem_finish, hsame.parts_eq, parts_eq_empty hnew]
    simp
  constructor
  . intro h
    refine ⟨fun c i => by rw [← hmem, h.part], ?_⟩
    rintro rfl
    by_contra hnone
    have := h.groupEmpty hnone
    simp [finish, hasMember] at this
  . rintro ⟨hstored, hunion⟩
    constructor
    . intro i
      constructor
      . rintro ⟨c, hc⟩
        rw [hmem, hstored] at hc
        exact hc.1
      . intro hi
        obtain ⟨c, hc⟩ := htarget i hi
        exact ⟨c, (hmem c i).mpr ((hstored c i).mpr ⟨hi, hc⟩)⟩
    . intro c i
      rw [hmem, hstored]
    . rintro ⟨i, hi⟩
      obtain ⟨c, hc⟩ := htarget i hi
      have hne : stored.isEmpty = false := by
        have := (hstored c i).mpr ⟨hi, hc⟩
        rw [← Bool.not_eq_true, isEmpty_iff_forall_getElem?]
        exact fun h => not_mem_of_getElem? (h c) this
      simp [finish, hasMember, hne]
    . intro hnone
      have hop : op ≠ .union := fun h => hnone (hunion h)
      have he : stored.isEmpty = true := by
        rw [isEmpty_iff_of_occupied (hoccupied hop)]
        exact fun c i h => hnone ⟨i, ((hstored c i).mp h).1⟩
      simp [finish, hasMember, he, hop]
    . intro g hne i
      unfold Member
      rw [parts_finish_of_ne hne, hsame.parts_eq]

theorem exists_getElem? {m : IntMap β} {k : Int} (h : k ∈ m) : ∃ v, m[k]? = some v := by
  rw [ExtTreeMap.mem_iff_isSome_getElem?] at h
  exact Option.isSome_iff_exists.mp h

theorem operate_total {g1 : Int} (hg1 : g1 ∈ d.generalInfo) (g2 : Int) (op : SciOp) (new : Int)
    : ∃ res, d.operate g1 g2 op new = some res := by
  obtain ⟨p1, hp1⟩ := exists_getElem? hg1
  cases op <;> exact ⟨_, by simp only [operate, hp1]; rfl⟩

theorem operateExt_total {g : Int} (hg : g ∈ d.generalInfo) (hall : SCI_GROUP_ALL ∈ d.generalInfo)
    (be_list : List Int) (op : SciOp) (new : Int)
    : ∃ res, d.operateExt g be_list op new = some res := by
  obtain ⟨p, hp⟩ := exists_getElem? hg
  obtain ⟨all, hall⟩ := exists_getElem? hall
  cases op <;> exact ⟨_, by simp only [operateExt, hp, hall]; rfl⟩

theorem operate_creates_iff (hinv : d.TableInv) {g1 g2 new : Int} {op : SciOp}
    (hnew : d.generalInfo[new]? = none) {res : DistributedGroup × SciRc}
    (hres : d.operate g1 g2 op new = some res)
    : Creates d new (fun i => op.Holds (d.Member g1 i) (d.Member g2 i)) res
        ↔
      (op = .union → ∃ i, d.Member g1 i ∨ d.Member g2 i) := by
  obtain ⟨d2, hsame, rfl⟩ := operate_eq_some hres
  rw [creates_finish_iff hsame hnew occupied_operateParts_of_ne, and_iff_right]
  . refine imp_congr_right ?_
    rintro rfl
    rfl
  . intro c i
    rw [mem_operateParts, mem_iff_member hinv, @mem_iff_member d hinv g2]
    cases op <;> simp only [SciOp.Holds] <;> tauto
  . intro i hi
    have hsub : ∀ g, d.Member g i → d.Member SCI_GROUP_ALL i := by
      rintro g ⟨c, hc⟩
      exact ⟨c, hinv.subset g c i hc⟩
    cases op <;> simp only [SciOp.Holds] at hi <;> tauto

theorem mem_operateExtParts_iff (hinv : d.TableInv)
    : (∀ c i, (operateExtParts (d.parts SCI_GROUP_ALL) (d.parts g) (Group.ofList be_list) op).Mem c i
        ↔ op.Holds (d.Member g i) (i ∈ be_list ∧ d.Member SCI_GROUP_ALL i)
          ∧ (d.parts SCI_GROUP_ALL).Mem c i)
        ↔
      (op = .union → ∀ c i, c ∈ d.parts g → (d.parts SCI_GROUP_ALL).Mem c i →
        (d.parts g).Mem c i ∨ i ∈ be_list) := by
  have hmember : ∀ {c i}, (d.parts SCI_GROUP_ALL).Mem c i → d.Member SCI_GROUP_ALL i :=
    fun h => ⟨_, h⟩
  have hpart : ∀ c i, (d.parts g).Mem c i ↔ d.Member g i ∧ (d.parts SCI_GROUP_ALL).Mem c i :=
    fun c i => mem_iff_member hinv
  have hkey : ∀ {c i}, (d.parts g).Mem c i → c ∈ d.parts g := by
    rintro c i ⟨grp, hgrp, -⟩
    rw [ExtTreeMap.mem_iff_isSome_getElem?, hgrp]
    rfl
  cases op with
  | union =>
    simp only [operateExtParts, mem_unionExtParts, Group.mem_ofList, SciOp.Holds, true_imp_iff]
    constructor
    . intro h c i hc hall
      obtain ⟨hi | hi, -⟩ := (h c i).mp ⟨hall, Or.inl hc⟩
      . exact Or.inl ((hpart c i).mpr ⟨hi, hall⟩)
      . exact Or.inr hi.1
    . intro h c i
      constructor
      . rintro ⟨hall, hi⟩
        refine ⟨?_, hall⟩
        rcases hi with hc | hi
        . rcases h c i hc hall with hi | hi
          . exact Or.inl ⟨c, hi⟩
          . exact Or.inr ⟨hi, hmember hall⟩
        . exact Or.inr ⟨hi, hmember hall⟩
      . rintro ⟨hi | hi, hall⟩
        . exact ⟨hall, Or.inl (hkey ((hpart c i).mpr ⟨hi, hall⟩))⟩
        . exact ⟨hall, Or.inr hi.1⟩
  | intersection =>
    simp only [operateExtParts, mem_restrictParts, Group.mem_ofList, SciOp.Holds, hpart]
    grind
  | difference =>
    simp only [operateExtParts, mem_differenceExtParts, Group.mem_ofList, SciOp.Holds, hpart]
    grind

theorem operateExt_creates_iff (hinv : d.TableInv) {g new : Int} {be_list : List Int} {op : SciOp}
    (hnew : d.generalInfo[new]? = none) {res : DistributedGroup × SciRc}
    (hres : d.operateExt g be_list op new = some res)
    : Creates d new
        (fun i => op.Holds (d.Member g i) (i ∈ be_list ∧ d.Member SCI_GROUP_ALL i)) res
        ↔
      (op = .union →
        (∀ c i, c ∈ d.parts g → (d.parts SCI_GROUP_ALL).Mem c i →
          (d.parts g).Mem c i ∨ i ∈ be_list) ∧
        ∃ i, d.Member g i ∨ (i ∈ be_list ∧ d.Member SCI_GROUP_ALL i)) := by
  obtain ⟨d2, hsame, rfl⟩ := operateExt_eq_some hres
  rw [creates_finish_iff hsame hnew occupied_operateExtParts_of_ne, mem_operateExtParts_iff hinv,
    ← forall_and]
  . refine forall_congr' ?_
    rintro rfl
    rfl
  . intro i hi
    have hsub : d.Member g i → d.Member SCI_GROUP_ALL i := by
      rintro ⟨c, hc⟩
      exact ⟨c, hinv.subset g c i hc⟩
    cases op <;> simp only [SciOp.Holds] at hi <;> tauto

theorem operate_operateExt_exact {calls : List Call}
    (hrun : Run (Guarded Call.Fits Call.Step) new calls d) {g1 newgroup : Int}
    (hg1 : g1 ∈ d.generalInfo) (g2 : Int) (hall : SCI_GROUP_ALL ∈ d.generalInfo)
    (hnew : d.generalInfo[newgroup]? = none) {be_list : List Int} {op : SciOp}
    (hfits : (Call.operateExt g1 be_list op newgroup).Fits d)
    : (∃ res, d.operate g1 g2 op newgroup = some res ∧
        (Creates d newgroup (fun i => op.Holds (d.Member g1 i) (d.Member g2 i)) res
          ↔
        (op = .union → ∃ i, d.Member g1 i ∨ d.Member g2 i))) ∧
      (∃ res, d.operateExt g1 be_list op newgroup = some res ∧
        Guarded Call.Fits Call.Step d (.operateExt g1 be_list op newgroup) res.1 ∧
        (Creates d newgroup
          (fun i => op.Holds (d.Member g1 i) (i ∈ be_list ∧ d.Member SCI_GROUP_ALL i)) res
          ↔
        (op = .union →
          (∀ c i, c ∈ d.parts g1 → (d.parts SCI_GROUP_ALL).Mem c i →
            (d.parts g1).Mem c i ∨ i ∈ be_list) ∧
          ∃ i, d.Member g1 i ∨ (i ∈ be_list ∧ d.Member SCI_GROUP_ALL i)))) := by
  have hinv := tableInv_run hrun
  obtain ⟨res, hres⟩ := operate_total hg1 g2 op newgroup
  obtain ⟨resExt, hresExt⟩ := operateExt_total hg1 hall be_list op newgroup
  exact ⟨⟨res, hres, operate_creates_iff hinv hnew hres⟩,
    ⟨resExt, hresExt, ⟨hfits, by simp [Call.Step, Call.exec, hresExt]⟩, operateExt_creates_iff hinv hnew hresExt⟩⟩

theorem operate_operateExt_exact_sample
    : ∃ d, Run (Guarded Call.Fits Call.Step) new [.initSubGroup (-2) 0 3, .create [0] (-2)] d ∧
        ∃ res, d.operateExt (-2) [1, 2, 3] .union (-3) = some res ∧
          Creates d (-3)
            (fun i => d.Member (-2) i ∨ (i ∈ [1, 2, 3] ∧ d.Member SCI_GROUP_ALL i)) res := by
  refine exists_fitting_run (fun d => (-2) ∈ d.generalInfo ∧ SCI_GROUP_ALL ∈ d.generalInfo ∧
      (-3) ∉ d.generalInfo ∧ 0 ∈ (d.parts (-2)).getD (-2) ∅ ∧
      ∀ e ∈ (d.parts SCI_GROUP_ALL).toList, e.1 = -2 ∧ ∀ i ∈ e.2.members, i ∈ [0, 1, 2, 3])
    (by decide) (by simp [Call.Fits, Call.Placed, Call.InRange, CInt.IsInt]) (by decide +kernel) ?_
  rintro d hrun ⟨hg, hall, hnew, hzero, hlist⟩
  rw [mem_getD] at hzero
  have hfits : (Call.operateExt (-2) [1, 2, 3] .union (-3)).Fits d := by
    simp [Call.Fits, Call.Placed, Call.InRange, CInt.IsInt]
  obtain ⟨res, hres, -, hiff⟩ := (operate_operateExt_exact hrun hg (-2) hall
    (ExtTreeMap.getElem?_eq_none hnew) hfits).2
  refine ⟨res, hres, hiff.mpr (fun _ => ⟨?_, 0, Or.inl ⟨-2, hzero⟩⟩)⟩
  rintro c i - ⟨grp, hgrp, hi⟩
  obtain ⟨rfl, hmem⟩ := hlist (c, grp) (ExtTreeMap.mem_toList_iff_getElem?_eq_some.mpr hgrp)
  have := hmem i (Group.mem_members.mpr hi)
  rcases List.mem_cons.mp this with rfl | h
  . exact Or.inl hzero
  . exact Or.inr h

theorem operateExt_union_not_exact
    : (∃ d, Run Call.Step new [.initSubGroup (-2) 0 3, .create [0] (-2)] d ∧
        (-2) ∈ d.generalInfo ∧ ¬d.Member (-2) 3 ∧
        ∃ d', d.operateExt (-2) [] .union (-3) = some (d', .success) ∧ d'.Member (-3) 3) ∧
      (∃ d, Run Call.Step new [.initSubGroup (-2) 0 3, .create [] (-2)] d ∧
        (-2) ∈ d.generalInfo ∧ (¬∃ i, d.Member (-2) i) ∧
        ∃ d', d.operate (-2) (-2) .union (-3) = some (d', .success)) := by
  refine ⟨?_, ?_⟩
  . refine Run.exists_of_foldlM (fun d => (-2) ∈ d.generalInfo ∧ (∀ e ∈ (d.parts (-2)).toList, 3 ∉ e.2) ∧
      (d.operateExt (-2) [] .union (-3)).any (fun res =>
        res.2 = .success ∧ 3 ∈ (res.1.parts (-3)).getD (-2) ∅)) (by decide +kernel) ?_
    intro d _ ⟨hg, hlist, hany⟩
    simp only [Option.any_eq_true, decide_eq_true_eq, mem_getD] at hany
    obtain ⟨res, hres, hrc, hmem⟩ := hany
    refine ⟨hg, ?_, res.1, ?_, -2, hmem⟩
    . rintro ⟨c, grp, hgrp, hi⟩
      exact hlist (c, grp) (ExtTreeMap.mem_toList_iff_getElem?_eq_some.mpr hgrp) hi
    . rw [hres, ← hrc]
  . refine Run.exists_of_foldlM (fun d => (-2) ∈ d.generalInfo ∧ (d.parts (-2)).isEmpty ∧
      (d.operate (-2) (-2) .union (-3)).any (fun res => res.2 = .success)) (by decide +kernel) ?_
    intro d _ ⟨hg, hempty, hany⟩
    simp only [Option.any_eq_true, decide_eq_true_eq] at hany
    obtain ⟨res, hres, hrc⟩ := hany
    refine ⟨hg, ?_, res.1, ?_⟩
    . rintro ⟨i, c, hc⟩
      rw [isEmpty_iff_forall_getElem?] at hempty
      exact not_mem_of_getElem? (hempty c) hc
    . rw [hres, ← hrc]

end Sci.DistributedGroup
