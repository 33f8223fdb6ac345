import Cloudland.Sci.DGroup.Impl

/-!
What the operations of a distributed group do to the members filed under each child, and to the
cached lists.
-/

namespace Sci

open OrdMap Option
open Std (ExtTreeMap)

def Parts.Mem (p : Parts) (c i : Int) : Prop := ∃ grp, p[c]? = some grp ∧ i ∈ grp

namespace Parts

variable {p : Parts} {c i : Int}

theorem mem_of_getElem? (h : p[c]? = some grp) : p.Mem c i ↔ i ∈ grp := by
  simp [Mem, h]

theorem not_mem_of_getElem? (h : p[c]? = none) : ¬p.Mem c i := by
  simp [Mem, h]

@[simp]
theorem not_mem_empty (c i : Int) : ¬(∅ : Parts).Mem c i := by
  simp [Mem]

theorem mem_insert : Mem (p.insert c grp) c' i ↔ if c = c' then i ∈ grp else p.Mem c' i := by
  split
  . next h =>
    subst h
    exact mem_of_getElem? (by simp)
  . next h => simp only [Mem, getElem?_insert_of_ne h]

theorem mem_erase : Mem (p.erase c) c' i ↔ c ≠ c' ∧ p.Mem c' i := by
  by_cases h : c = c'
  . subst h
    simp [Mem]
  . simp only [Mem, getElem?_erase_of_ne h, ne_eq, h, not_false_eq_true, true_and]

theorem mem_getD : i ∈ p.getD c ∅ ↔ p.Mem c i := by
  rw [ExtTreeMap.getD_eq_getD_getElem?]
  cases h : p[c]? with
  | none => simp [not_mem_of_getElem? h]
  | some grp => simp [mem_of_getElem? h]

theorem mem_insertEach_empty
    : Mem (insertEach f p ∅) c i ↔ ∃ grp, p[c]? = some grp ∧ ∃ grp', f c grp = some grp' ∧ i ∈ grp' := by
  simp only [Mem, getElem?_insertEach, ExtTreeMap.getElem?_empty, or_none,
    bind_eq_some_iff]
  grind

theorem mem_unlessEmpty : (∃ grp', DistributedGroup.unlessEmpty grp = some grp' ∧ i ∈ grp') ↔ i ∈ grp := by
  unfold DistributedGroup.unlessEmpty
  split
  . next h => simpa using Group.isEmpty_iff.mp h i
  . simp

end Parts

namespace DistributedGroup

open Parts

variable {c i : Int}

@[simp]
theorem mem_restrictParts : (restrictParts p total).Mem c i ↔ p.Mem c i ∧ i ∈ total := by
  rw [restrictParts, mem_insertEach_empty]
  simp only [mem_unlessEmpty, Group.mem_intersect, Mem]
  grind

@[simp]
theorem mem_intersectionParts
    : (intersectionParts p1 p2).Mem c i ↔ p1.Mem c i ∧ p2.Mem c i := by
  rw [intersectionParts, mem_insertEach_empty]
  cases h : p2[c]? with
  | none => simp [not_mem_of_getElem? h]
  | some other =>
    simp only [bind_some, mem_unlessEmpty, Group.mem_intersect, mem_of_getElem? h]
    simp only [Mem]
    grind

@[simp]
theorem mem_differenceParts : (differenceParts p1 p2).Mem c i ↔ p1.Mem c i ∧ ¬p2.Mem c i := by
  rw [differenceParts, mem_insertEach_empty]
  cases h : p2[c]? with
  | none =>
    simp only [mem_unlessEmpty, Group.copy_eq, not_mem_of_getElem? h, not_false_eq_true, and_true]
    rfl
  | some other =>
    simp only [mem_unlessEmpty, Group.copy_eq, Group.mem_deleteGroup, mem_of_getElem? h]
    simp only [Mem]
    grind

@[simp]
theorem mem_unionParts : (unionParts p1 p2).Mem c i ↔ p1.Mem c i ∨ p2.Mem c i := by
  unfold unionParts Mem
  simp only [getElem?_insertEach, ExtTreeMap.getElem?_empty, or_none]
  cases h1 : p1[c]? with
  | none =>
    have hc : c ∉ p1 := by
      rw [ExtTreeMap.mem_iff_isSome_getElem?, h1]
      simp
    simp [hc]
  | some grp =>
    have hc : c ∈ p1 := by
      rw [ExtTreeMap.mem_iff_isSome_getElem?, h1]
      rfl
    cases h2 : p2[c]? with
    | none => simp
    | some other => simp [hc]

@[simp]
theorem mem_unionExtParts
    : (unionExtParts all p total).Mem c i ↔ all.Mem c i ∧ (c ∈ p ∨ i ∈ total) := by
  rw [unionExtParts, mem_insertEach_empty]
  cases h : all[c]? with
  | none => simp [not_mem_of_getElem? h]
  | some grp =>
    simp only [some.injEq, exists_eq_left', mem_of_getElem? h]
    by_cases hc : c ∈ p
    . simp only [hc, if_true, true_or, and_true]
      split <;> simp
      tauto
    . simp only [hc, if_false, false_or]
      split
      . next he =>
        have := Group.isEmpty_iff.mp he i
        simpa using this
      . simp

@[simp]
theorem mem_differenceExtParts
    : (differenceExtParts p total).Mem c i ↔ p.Mem c i ∧ ¬i ∈ total := by
  rw [differenceExtParts, mem_insertEach_empty]
  simp only [mem_unlessEmpty, Group.copy_eq, Group.mem_deleteGroup, Mem]
  grind

section Parts

variable {d : DistributedGroup} {g h : Int}

theorem parts_eq_of_getElem? (hg : d.generalInfo[g]? = some p) : d.parts g = p := by
  simp [parts, ExtTreeMap.getD_eq_getD_getElem?, hg]

theorem parts_setParts : (d.setParts g p).parts h = if g = h then p else d.parts h := by
  simp [parts, setParts, ExtTreeMap.getD_insert]

@[simp]
theorem parts_setParts_self : (d.setParts g p).parts g = p := by
  simp [parts_setParts]

@[simp]
theorem parts_touch : (d.touch g).parts h = d.parts h := by
  simp only [parts, touch, ExtTreeMap.getD_eq_getD_getElem?, ExtTreeMap.getElem?_insertIfNew]
  split
  . next hgh =>
    obtain rfl : g = h := by simpa using hgh.1
    rw [ExtTreeMap.getElem?_eq_none hgh.2]
    rfl
  . rfl

@[simp]
theorem parts_touch_ite [Decidable b] : (if b then d else d.touch g).parts h = d.parts h := by
  split <;> simp

@[simp]
theorem parts_reset : (d.reset g).parts h = d.parts h :=
  parts_touch

theorem mem_store
    : ((d.store g stored).parts g).Mem c i
        ↔
      stored.Mem c i ∨ (stored[c]? = none ∧ (d.parts g).Mem c i) := by
  unfold store
  split
  . next he =>
    rw [isEmpty_iff_forall_getElem?] at he
    simp [he c, not_mem_of_getElem? (he c)]
  . rw [parts_setParts_self]
    cases hc : stored[c]? with
    | none => simp [Mem, hc]
    | some grp => simp [Mem, hc]

theorem parts_store_of_ne (hgh : g ≠ h) : (d.store g stored).parts h = d.parts h := by
  unfold store
  split
  . rfl
  . simp [parts_setParts, hgh]

end Parts

structure SameTables (d d' : DistributedGroup) : Prop where
  parts_eq : ∀ h, d'.parts h = d.parts h
  beInfo_eq : d'.beInfo = d.beInfo
  successorInfo_eq : d'.successorInfo = d.successorInfo
  beListInfo_eq : d'.beListInfo = d.beListInfo
  successorListInfo_eq : d'.successorListInfo = d.successorListInfo

theorem SameTables.refl (d : DistributedGroup) : SameTables d d :=
  ⟨fun _ => rfl, rfl, rfl, rfl, rfl⟩

theorem SameTables.touch (d : DistributedGroup) (g : Int) : SameTables d (d.touch g) :=
  ⟨fun _ => parts_touch, rfl, rfl, rfl, rfl⟩

variable {d : DistributedGroup}

theorem SameTables.trans (h : SameTables d d') (h' : SameTables d' d'') : SameTables d d'' :=
  ⟨fun g => (h'.parts_eq g).trans (h.parts_eq g), h'.beInfo_eq.trans h.beInfo_eq,
    h'.successorInfo_eq.trans h.successorInfo_eq, h'.beListInfo_eq.trans h.beListInfo_eq,
    h'.successorListInfo_eq.trans h.successorListInfo_eq⟩

theorem SameTables.touch_ite (d : DistributedGroup) (g : Int) (b : Prop) [Decidable b]
    : SameTables d (if b then d else d.touch g) := by
  split
  . exact .refl d
  . exact .touch d g

def operateParts (p1 p2 : Parts) : SciOp → Parts
  | .union => unionParts p1 p2
  | .intersection => intersectionParts p1 p2
  | .difference => differenceParts p1 p2

def operateExtParts (all p : Parts) (total : Group) : SciOp → Parts
  | .union => unionExtParts all p total
  | .intersection => restrictParts p total
  | .difference => differenceExtParts p total

def hasMember (op : SciOp) (stored : Parts) : Bool := op = .union || !stored.isEmpty

theorem create_eq_some (h : d.create be_list g = some d')
    : d' = (d.store g (restrictParts (d.parts SCI_GROUP_ALL) (Group.ofList be_list))).reset g := by
  simp only [create, bind_eq_bind, bind_eq_some_iff, pure_def,
    some.injEq] at h
  obtain ⟨all, hall, rfl⟩ := h
  rw [parts_eq_of_getElem? hall]

theorem operate_eq_some {g1 g2 new : Int} {op : SciOp}
    {res : DistributedGroup × SciRc} (h : d.operate g1 g2 op new = some res)
    : ∃ d2, SameTables d d2 ∧
        res
          =
        d2.finish new (operateParts (d.parts g1) (d.parts g2) op)
          (hasMember op (operateParts (d.parts g1) (d.parts g2) op)) := by
  cases op with
  | union =>
    simp only [operate, some.injEq, parts_touch] at h
    exact ⟨_, (SameTables.touch d g1).trans (.touch _ g2), h.symm⟩
  | intersection | difference =>
    simp only [operate, bind_eq_bind, bind_eq_some_iff, pure_def,
      some.injEq, parts_touch_ite] at h
    obtain ⟨p1, hp1, h⟩ := h
    refine ⟨_, SameTables.touch_ite d g2 (p1.isEmpty = true), ?_⟩
    rw [parts_eq_of_getElem? hp1, ← h]
    rfl

theorem operateExt_eq_some {g new : Int} {be_list : List Int} {op : SciOp}
    {res : DistributedGroup × SciRc} (h : d.operateExt g be_list op new = some res)
    : ∃ d2, SameTables d d2 ∧
        res
          =
        d2.finish new
          (operateExtParts (d.parts SCI_GROUP_ALL) (d.parts g) (Group.ofList be_list) op)
          (hasMember op
            (operateExtParts (d.parts SCI_GROUP_ALL) (d.parts g) (Group.ofList be_list) op)) := by
  cases op with
  | union =>
    simp only [operateExt, bind_eq_bind, bind_eq_some_iff, pure_def,
      some.injEq, parts_touch_ite] at h
    obtain ⟨all, hall, h⟩ := h
    refine ⟨_, SameTables.touch_ite d g (all.isEmpty = true), ?_⟩
    rw [parts_eq_of_getElem? hall, ← h]
    rfl
  | intersection | difference =>
    simp only [operateExt, bind_eq_bind, bind_eq_some_iff, pure_def,
      some.injEq] at h
    obtain ⟨p, hp, h⟩ := h
    refine ⟨d, .refl d, ?_⟩
    rw [parts_eq_of_getElem? hp, ← h]
    rfl

theorem parts_finish_of_ne {new h : Int} {stored : Parts} {b : Bool} (hne : new ≠ h)
    : (d.finish new stored b).1.parts h = d.parts h := by
  unfold finish
  cases b <;> simp [parts_store_of_ne hne]

theorem mem_finish {new : Int} {stored : Parts} {b : Bool}
    : ((d.finish new stored b).1.parts new).Mem c i
        ↔
      stored.Mem c i ∨ (stored[c]? = none ∧ (d.parts new).Mem c i) := by
  rw [← mem_store]
  unfold finish
  cases b <;> simp

section Loops

variable {d : DistributedGroup} {g : Int}

theorem getElem?_generalInfo_touch_of_ne (hne : g ≠ h) : (d.touch g).generalInfo[h]? = d.generalInfo[h]? := by
  simp [touch, ExtTreeMap.getElem?_insertIfNew, hne]

variable {p : Parts}

theorem getElem?_generalInfo_setParts_reset : ((d.setParts g p).reset g).generalInfo[g]? = some p := by
  simp only [reset, touch, setParts, ExtTreeMap.getElem?_insertIfNew]
  simp

theorem getElem?_generalInfo_setParts_reset_of_ne (hne : g ≠ h)
    : ((d.setParts g p).reset g).generalInfo[h]? = d.generalInfo[h]? := by
  simp only [reset]
  rw [getElem?_generalInfo_touch_of_ne hne]
  exact getElem?_insert_of_ne hne

theorem parts_enter
    : (initSubGroup.enter d c grp num).parts h
        =
      if SCI_GROUP_ALL = h then (d.parts SCI_GROUP_ALL).insert c grp else d.parts h := by
  simp [parts, initSubGroup.enter, ExtTreeMap.getD_insert]

theorem initSubGroup_eq_some (h : d.initSubGroup c s e = some d')
    : ∃ grp : Group,
        (∀ i, i ∈ grp ↔ s ≤ i ∧ i ≤ e) ∧ s ≤ e ∧
        d' = initSubGroup.enter d c grp grp.members.length := by
  unfold initSubGroup at h
  dsimp only at h
  split at h
  . next hse =>
    refine ⟨(∅ : Group).addRange ⟨s, e + 1⟩ hse, ?_, Int.lt_add_one_iff.mp hse, ?_⟩
    . intro i
      simp only [Group.mem_addRange, Group.not_mem_empty, false_or]
      omega
    . rw [← some.inj h, Group.members, RangeList.length_members (Group.wf _)]
      congr 1
      show e - s + 1 = e + 1 - s + 0
      omega
  . contradiction

theorem parts_addBE
    : (d.addBE g c b).parts h
        =
      if g = h then
        (d.parts g).insert c (((d.parts g).getD c ∅).add b)
      else
        d.parts h := by
  simp only [addBE, parts_reset, parts_setParts]

theorem parts_resetAll : d.resetAll.parts g = d.parts g :=
  foldl_invariant (P := fun (s : DistributedGroup) => s.parts g = d.parts g) (fun _ _ _ hs => parts_reset.trans hs)
    d.generalInfo rfl

theorem getElem?_eraseAll
    : (eraseAll m groups)[g]? = if g ∈ groups then none else m[g]? := by
  induction groups generalizing m with
  | nil => simp [eraseAll]
  | cons k ks ih =>
    show (eraseAll (m.erase k) ks)[g]? = _
    rw [ih]
    by_cases hk : k = g
    . simp [hk]
    . simp [getElem?_erase_of_ne hk, Ne.symm hk]

@[simp]
theorem prune_empty : prune b g ∅ = ∅ := by
  apply ExtTreeMap.ext_getElem?
  intro c
  simp [prune]

theorem mem_prune : (prune b g p).Mem c i ↔ p.Mem c i ∧ i ≠ b := by
  rw [prune, mem_insertEach_empty]
  simp only [Mem]
  constructor
  . rintro ⟨grp, hgrp, grp', hf, hi⟩
    split at hf
    . contradiction
    . cases hf
      rw [Group.mem_delete] at hi
      exact ⟨⟨grp, hgrp, hi.1⟩, hi.2⟩
  . rintro ⟨⟨grp, hgrp, hi⟩, hib⟩
    have hmem : i ∈ grp.delete b := by simp [hi, hib]
    refine ⟨grp, hgrp, grp.delete b, ?_, hmem⟩
    rw [if_neg]
    rintro ⟨hsize, -⟩
    exact Group.size_eq_zero_iff.mp hsize i hmem

theorem getElem?_pruneAll : (d.pruneAll b)[g]? = d.generalInfo[g]?.map (prune b g) := by
  simp only [pruneAll, getElem?_insertEach, ExtTreeMap.getElem?_empty, or_none]
  cases d.generalInfo[g]? <;> rfl

theorem mem_junkGrps : g ∈ junkGrps m ↔ m[g]? = some ∅ := by
  simp only [junkGrps, List.mem_map, List.mem_filter, Prod.exists, exists_and_right, exists_eq_right,
    ExtTreeMap.mem_toList_iff_getElem?_eq_some, ExtTreeMap.isEmpty_iff]

theorem parts_removeBE : (d.removeBE b).parts g = prune b g (d.parts g) := by
  unfold removeBE
  rw [parts_resetAll]
  simp only [parts, ExtTreeMap.getD_eq_getD_getElem?, getElem?_eraseAll, mem_junkGrps,
    getElem?_pruneAll]
  cases hg : d.generalInfo[g]? with
  | none => simp
  | some p =>
    simp only [map_some, some.injEq, getD_some]
    split
    . next he => simp [he]
    . rfl

theorem getElem?_generalInfo_drop
    : (dropSuccessor.drop s d g p).generalInfo[g]? = (dropParts s p).or d.generalInfo[g]? := by
  unfold dropSuccessor.drop
  cases dropParts s p with
  | none => rfl
  | some q => simp [getElem?_generalInfo_setParts_reset]

theorem getElem?_generalInfo_drop_of_ne (hne : g ≠ h)
    : (dropSuccessor.drop s d g p).generalInfo[h]? = d.generalInfo[h]? := by
  unfold dropSuccessor.drop
  cases dropParts s p with
  | none => rfl
  | some q => exact getElem?_generalInfo_setParts_reset_of_ne hne

theorem parts_dropSuccessor : (d.dropSuccessor s).parts g = (dropParts s (d.parts g)).getD (d.parts g) := by
  have hloop := view_foldl (fun (d : DistributedGroup) k => d.generalInfo[k]?)
    (fun _ p old => (dropParts s p).or old) (fun _ _ _ => getElem?_generalInfo_drop)
    (fun _ _ _ _ => getElem?_generalInfo_drop_of_ne) d.generalInfo d g
  simp only [parts, ExtTreeMap.getD_eq_getD_getElem?, dropSuccessor]
  rw [hloop]
  cases d.generalInfo[g]? with
  | none => simp [dropParts]
  | some p =>
    simp only [elim_some, getD_some]
    cases dropParts s p <;> rfl

theorem mem_dropParts
    : ((dropParts s p).getD p).Mem c i
        ↔
      p.Mem c i ∧ ¬(if 0 ≤ s then c = VALIDBACKENDIDS ∧ i = s else c = s) := by
  unfold dropParts
  split
  . cases hv : p[VALIDBACKENDIDS]? with
    | none =>
      simp only [map_none, getD_none]
      refine ⟨fun h => ⟨h, ?_⟩, fun h => h.1⟩
      rintro ⟨rfl, -⟩
      exact not_mem_of_getElem? hv h
    | some grp =>
      simp only [map_some, getD_some, mem_insert, Group.mem_delete]
      by_cases hc : VALIDBACKENDIDS = c
      . subst hc
        simp [mem_of_getElem? hv]
      . simp [hc, Ne.symm hc]
  . split
    . rw [getD_some, mem_erase, and_comm]
      exact and_congr_right (fun _ => not_congr eq_comm)
    . next hs =>
      rw [getD_none]
      refine ⟨fun h => ⟨h, ?_⟩, fun h => h.1⟩
      rintro rfl
      exact not_mem_of_getElem? (ExtTreeMap.getElem?_eq_none hs) h

end Loops

section Merge

theorem mem_unionOf : i ∈ unionOf p grp ↔ i ∈ grp ∨ ∃ c, p.Mem c i := by
  have hlist : ∀ (l : List (Int × Group)) (grp : Group),
      i ∈ l.foldl (fun acc e => acc.addGroup e.2) grp ↔ i ∈ grp ∨ ∃ e ∈ l, i ∈ e.2 := by
    intro l
    induction l with
    | nil => simp
    | cons e l ih =>
      intro grp
      rw [List.foldl_cons, ih, Group.mem_addGroup]
      simp [@or_assoc (_ ∈ grp)]
  rw [unionOf, ExtTreeMap.foldl_eq_foldl_toList, hlist]
  refine or_congr_right ?_
  simp only [Prod.exists, ExtTreeMap.mem_toList_iff_getElem?_eq_some, Mem]

def mergeChild (successor_id : Int) : Int := if 0 ≤ successor_id then VALIDBACKENDIDS else successor_id

def Moved (successor_id : Int) (dparts : Parts) (i : Int) : Prop :=
  if 0 ≤ successor_id then i = successor_id else ∃ c, dparts.Mem c i

theorem mem_moveTo
    : (moveTo p child grow shrink).Mem c i
        ↔
      if c = child then
        i ∈ grow (p.getD child ∅)
      else
        ∃ grp, p[c]? = some grp ∧ i ∈ shrink grp (grow (p.getD child ∅)) := by
  unfold moveTo Mem
  simp only [getElem?_insertEach]
  by_cases hc : c = child
  . subst hc
    cases p[c]? <;> simp
  . simp only [hc, if_false, getElem?_insert_of_ne (Ne.symm hc)]
    cases p[c]? <;> simp

theorem mem_mergeParts (h : mergeParts s overwrite dparts old = some q)
    : q.Mem c i
        ↔
      if c = mergeChild s then
        (old.getD ∅).Mem c i ∨ Moved s dparts i
      else
        (old.getD ∅).Mem c i ∧ ¬(Moved s dparts i ∨ (s < 0 ∧ (old.getD ∅).Mem s i)) := by
  by_cases hs : 0 ≤ s
  . simp only [mergeParts, mergeChild, Moved, hs, if_true, not_lt.mpr hs, false_and, or_false] at h ⊢
    cases old with
    | none =>
      simp only [ite_none_right_eq_some, some.injEq] at h
      rw [← h.2, mem_insert]
      simp [eq_comm]
    | some p =>
      rw [← some.inj h, mem_moveTo]
      split
      . next hc => simp [hc, mem_getD]
      . simp only [Group.mem_delete, Mem]
        grind
  . have hlt := not_le.mp hs
    simp only [mergeParts, mergeChild, Moved, hs, if_false, hlt, true_and] at h ⊢
    cases old with
    | none =>
      simp only [ite_none_right_eq_some, some.injEq] at h
      rw [← h.2, mem_insert]
      simp [eq_comm, mem_unionOf]
    | some p =>
      rw [← some.inj h, mem_moveTo]
      simp only [getD_some, mem_unionOf, mem_getD]
      split
      . next hc => rw [hc]
      . simp only [Group.mem_deleteGroup, mem_unionOf, mem_getD]
        simp only [Mem]
        grind

variable {d dgroup : DistributedGroup} {g s : Int} {overwrite : Bool}

theorem parts_merge
    : (d.merge s dgroup overwrite).parts g
        =
      (dgroup.generalInfo[g]?.bind
        (fun dparts => mergeParts s overwrite dparts d.generalInfo[g]?)).getD (d.parts g) := by
  have hself : ∀ (d : DistributedGroup) k dparts,
      (merge.mergeGroup s overwrite d k dparts).generalInfo[k]?
        = (mergeParts s overwrite dparts d.generalInfo[k]?).or d.generalInfo[k]? := by
    intro d k dparts
    unfold merge.mergeGroup
    cases mergeParts s overwrite dparts d.generalInfo[k]? with
    | none => rfl
    | some q => simp [getElem?_generalInfo_setParts_reset]
  have hne : ∀ (d : DistributedGroup) k dparts a, k ≠ a →
      (merge.mergeGroup s overwrite d k dparts).generalInfo[a]? = d.generalInfo[a]? := by
    intro d k dparts a hka
    unfold merge.mergeGroup
    cases mergeParts s overwrite dparts d.generalInfo[k]? with
    | none => rfl
    | some q => exact getElem?_generalInfo_setParts_reset_of_ne hka
  have hloop := view_foldl (fun (d : DistributedGroup) k => d.generalInfo[k]?)
    (fun _ dparts old => (mergeParts s overwrite dparts old).or old) hself hne dgroup.generalInfo d g
  simp only [parts, ExtTreeMap.getD_eq_getD_getElem?, merge]
  rw [hloop]
  cases dgroup.generalInfo[g]? with
  | none => rfl
  | some dparts =>
    simp only [elim_some, bind_some]
    cases mergeParts s overwrite dparts d.generalInfo[g]? <;> rfl

def Merges (d : DistributedGroup) (s : Int) (dgroup : DistributedGroup) (overwrite : Bool)
    (g i : Int) : Prop :=
  ∃ dparts, dgroup.generalInfo[g]? = some dparts ∧
    (overwrite = true ∨ g ∈ d.generalInfo) ∧ Moved s dparts i

theorem mergeParts_eq_none : mergeParts s overwrite dparts old = none ↔ overwrite = false ∧ old = none := by
  cases old with
  | none =>
    unfold mergeParts
    cases overwrite
    . simp
    . simp only [if_true]
      split <;> simp
  | some p =>
    unfold mergeParts
    dsimp only
    split <;> simp

theorem merges_of_mergeParts (hq : mergeParts s overwrite dparts d.generalInfo[g]? = some q)
    : overwrite = true ∨ g ∈ d.generalInfo := by
  by_contra hcon
  push Not at hcon
  have hnone : mergeParts s overwrite dparts d.generalInfo[g]? = none :=
    mergeParts_eq_none.mpr ⟨by simpa using hcon.1, ExtTreeMap.getElem?_eq_none hcon.2⟩
  rw [hnone] at hq
  contradiction

theorem getElem?_moveTo_of_none (hc : c ≠ child) (h : p[c]? = none)
    : (moveTo p child grow shrink)[c]? = none := by
  rw [moveTo, getElem?_insertEach, h, getElem?_insert_of_ne (Ne.symm hc), h]
  rfl

theorem getElem?_mergeParts_of_none
    (hq : mergeParts s overwrite dparts old = some q) (hc : c ≠ mergeChild s) (h : (old.getD ∅)[c]? = none)
    : q[c]? = none := by
  unfold mergeChild at hc
  cases old with
  | none =>
    simp only [mergeParts, ite_none_right_eq_some] at hq
    replace hq := hq.2
    split at hq <;> rw [← some.inj hq]
    . next hs =>
      rw [if_pos hs] at hc
      rw [getElem?_insert_of_ne (Ne.symm hc)]
      simp
    . next hs =>
      rw [if_neg hs] at hc
      rw [getElem?_insert_of_ne (Ne.symm hc)]
      simp
  | some p =>
    unfold mergeParts at hq
    dsimp only at hq
    split at hq <;> rw [← some.inj hq]
    . next hs =>
      rw [if_pos hs] at hc
      exact getElem?_moveTo_of_none hc h
    . next hs =>
      rw [if_neg hs] at hc
      exact getElem?_moveTo_of_none hc h

theorem mem_merge {c i : Int} (hdisj : ∀ c c' i, (d.parts g).Mem c i → (d.parts g).Mem c' i → c = c')
    : ((d.merge s dgroup overwrite).parts g).Mem c i
        ↔
      if c = mergeChild s then
        (d.parts g).Mem c i ∨ Merges d s dgroup overwrite g i
      else
        (d.parts g).Mem c i ∧ ¬Merges d s dgroup overwrite g i := by
  rw [parts_merge]
  unfold Merges
  cases hd : dgroup.generalInfo[g]? with
  | none => simp
  | some dparts =>
    simp only [bind_some, some.injEq, exists_eq_left']
    cases hq : mergeParts s overwrite dparts d.generalInfo[g]? with
    | none =>
      have hnone := mergeParts_eq_none.mp hq
      simp [hnone.1, ExtTreeMap.mem_iff_isSome_getElem?, hnone.2]
    | some q =>
      have hq' := merges_of_mergeParts hq
      rw [getD_some, mem_mergeParts hq, ← ExtTreeMap.getD_eq_getD_getElem?]
      simp only [hq', true_and]
      change (if c = mergeChild s then (d.parts g).Mem c i ∨ _ else (d.parts g).Mem c i ∧ _) ↔ _
      split
      . rfl
      . next hc =>
        -- a back end of another part is not in the part of the successor
        refine and_congr_right (fun hi => not_congr (or_iff_left ?_))
        rintro ⟨hs, his⟩
        apply hc
        rw [mergeChild, if_neg (not_le.mpr hs)]
        exact hdisj _ _ _ hi his

end Merge

end DistributedGroup
end Sci
