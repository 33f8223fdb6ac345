import Cloudland.Sci.DGroup.Lemmas

/-!
The cached member and successor lists of a distributed group agree with its parts.
-/

namespace Sci.DistributedGroup

open OrdMap List
open Std (ExtTreeMap)

structure CacheOk (d : DistributedGroup) (g : Int) : Prop where
  beList_perm : (d.retrieveBEList g).Perm (d.parts g).beList
  numOfBE_eq : d.numOfBE g = (d.parts g).beList.length
  successorList_perm : (d.retrieveSuccessorList g).Perm (d.parts g).successorList
  numOfSuccessor_eq : d.numOfSuccessor g = (d.parts g).successorList.length
  beList_eq : g ≠ SCI_GROUP_ALL → d.retrieveBEList g = (d.parts g).beList
  successorList_eq : g ≠ SCI_GROUP_ALL → d.retrieveSuccessorList g = (d.parts g).successorList

def CachesOk (d : DistributedGroup) : Prop := ∀ g, d.CacheOk g

variable {d d' : DistributedGroup} {g h : Int}

theorem CacheOk.of_eq (hbe : d.retrieveBEList g = (d.parts g).beList)
    (hnum : d.numOfBE g = (d.parts g).beList.length)
    (hsucc : d.retrieveSuccessorList g = (d.parts g).successorList)
    (hnumSucc : d.numOfSuccessor g = (d.parts g).successorList.length)
    : d.CacheOk g :=
  ⟨hbe ▸ .refl _, hnum, hsucc ▸ .refl _, hnumSucc, fun _ => hbe, fun _ => hsucc⟩

theorem CacheOk.congr (hok : d.CacheOk g) (hparts : d'.parts g = d.parts g)
    (hbe : d'.retrieveBEList g = d.retrieveBEList g) (hnum : d'.numOfBE g = d.numOfBE g)
    (hsucc : d'.retrieveSuccessorList g = d.retrieveSuccessorList g)
    (hnumSucc : d'.numOfSuccessor g = d.numOfSuccessor g)
    : d'.CacheOk g := by
  constructor
  all_goals rw [hparts]
  . rw [hbe]; exact hok.beList_perm
  . rw [hnum]; exact hok.numOfBE_eq
  . rw [hsucc]; exact hok.successorList_perm
  . rw [hnumSucc]; exact hok.numOfSuccessor_eq
  . rw [hbe]; exact hok.beList_eq
  . rw [hsucc]; exact hok.successorList_eq

theorem SameTables.cachesOk (hsame : SameTables d d') (hok : d.CachesOk) : d'.CachesOk := by
  intro g
  apply (hok g).congr (hsame.parts_eq g)
  . simp [retrieveBEList, hsame.beListInfo_eq]
  . simp [numOfBE, hsame.beInfo_eq]
  . simp [retrieveSuccessorList, hsame.successorListInfo_eq]
  . simp [numOfSuccessor, hsame.successorInfo_eq]

theorem getD_refill
    : (refill m g l).getD h [] = if g = h then l else m.getD h [] := by
  unfold refill
  split
  . next hl =>
    rw [isEmpty_iff.mp hl]
    by_cases hgh : g = h
    . simp [hgh]
    . simp [ExtTreeMap.getD_erase, hgh]
  . simp [ExtTreeMap.getD_insert]

theorem cacheOk_reset_self : (d.reset g).CacheOk g := by
  apply CacheOk.of_eq
  all_goals rw [parts_reset]
  . simp [retrieveBEList, reset, getD_refill]
  . simp [numOfBE, reset]
  . simp [retrieveSuccessorList, reset, getD_refill]
  . simp [numOfSuccessor, reset]

theorem cacheOk_reset_of_ne (hne : g ≠ h) (hok : d.CacheOk h) : (d.reset g).CacheOk h := by
  apply hok.congr parts_reset
  . simp [retrieveBEList, reset, getD_refill, hne]
  . simp [numOfBE, reset, ExtTreeMap.getD_insert, hne]
  . simp [retrieveSuccessorList, reset, getD_refill, hne]
  . simp [numOfSuccessor, reset, ExtTreeMap.getD_insert, hne]

theorem cachesOk_reset (hok : ∀ h, g ≠ h → d.CacheOk h) : (d.reset g).CachesOk := by
  intro h
  by_cases hne : g = h
  . subst hne
    exact cacheOk_reset_self
  . exact cacheOk_reset_of_ne hne (hok h hne)

theorem cacheOk_setParts_of_ne (hne : g ≠ h) (hok : d.CacheOk h) : (d.setParts g p).CacheOk h :=
  hok.congr (by simp [parts_setParts, hne]) rfl rfl rfl rfl

theorem cachesOk_setParts_reset (hok : d.CachesOk) : ((d.setParts g p).reset g).CachesOk :=
  cachesOk_reset (fun h hne => cacheOk_setParts_of_ne hne (hok h))

theorem cachesOk_store_reset (hok : d.CachesOk) : ((d.store g stored).reset g).CachesOk := by
  unfold store
  split
  . exact cachesOk_reset (fun h _ => hok h)
  . exact cachesOk_setParts_reset hok

theorem cachesOk_finish (hok : d.CachesOk) : (d.finish g stored (hasMember op stored)).1.CachesOk := by
  unfold finish
  split
  . exact cachesOk_store_reset hok
  . next hb =>
    -- nothing was stored, so the table is the one the operation started from
    have hempty : stored.isEmpty = true := by
      simp only [hasMember, Bool.or_eq_true, not_or, Bool.not_eq_true, Bool.not_eq_false'] at hb
      exact hb.2
    simpa [store, hempty] using hok

theorem cachesOk_resetAll (hok : ∀ h, d.generalInfo[h]? = none → d.CacheOk h) : d.resetAll.CachesOk := by
  unfold resetAll
  rw [ExtTreeMap.foldl_eq_foldl_toList]
  have hout : ∀ h, (∀ e ∈ d.generalInfo.toList, e.1 ≠ h) → d.CacheOk h := by
    intro h hh
    apply hok
    cases hp : d.generalInfo[h]? with
    | none => rfl
    | some p => exact absurd rfl (hh (h, p) (ExtTreeMap.mem_toList_iff_getElem?_eq_some.mpr hp))
  -- each round of the loop repairs the group it visits and keeps the groups it does not
  clear hok
  generalize d.generalInfo.toList = l at hout
  induction l generalizing d with
  | nil =>
    intro h
    exact hout h (by simp)
  | cons e l ih =>
    apply ih
    intro h hh
    by_cases he : e.1 = h
    . subst he
      exact cacheOk_reset_self
    . exact cacheOk_reset_of_ne he (hout h (forall_mem_cons.mpr ⟨he, hh⟩))

theorem parts_eq_empty (hg : d.generalInfo[g]? = none) : d.parts g = ∅ := by
  simp [parts, ExtTreeMap.getD_eq_getD_getElem?, hg]

theorem beList_empty : Parts.beList ∅ = [] := by
  simp [Parts.beList]

theorem successorList_empty : Parts.successorList ∅ = [] := by
  simp [Parts.successorList]

theorem getD_eraseAll
    : (eraseAll m groups).getD g x = if g ∈ groups then x else m.getD g x := by
  rw [ExtTreeMap.getD_eq_getD_getElem?, getElem?_eraseAll]
  split
  . rfl
  . rw [ExtTreeMap.getD_eq_getD_getElem?]

theorem cachesOk_removeBE (hok : d.CachesOk) : (d.removeBE b).CachesOk := by
  apply cachesOk_resetAll
  intro h hh
  have hparts := parts_eq_empty hh
  rw [getElem?_eraseAll] at hh
  by_cases hjunk : d.generalInfo[h]? = none
  . -- the group was not there before, and only groups that were are erased
    have hnot : ¬h ∈ junkGrps (d.pruneAll b) := by
      rw [mem_junkGrps, getElem?_pruneAll, hjunk]
      simp
    apply (hok h).congr
    . rw [hparts, parts_eq_empty hjunk]
    all_goals simp only [retrieveBEList, numOfBE, retrieveSuccessorList, numOfSuccessor,
      getD_eraseAll, hnot, if_false]
  . have hmem : h ∈ junkGrps (d.pruneAll b) := by
      by_contra hnot
      rw [if_neg hnot, getElem?_pruneAll] at hh
      simp [hjunk] at hh
    apply CacheOk.of_eq
    all_goals
      rw [hparts]
      simp only [retrieveBEList, numOfBE, retrieveSuccessorList, numOfSuccessor, getD_eraseAll, hmem,
        if_true, beList_empty, successorList_empty, length_nil, Nat.cast_zero]

theorem cachesOk_dropSuccessor (hok : d.CachesOk) : (d.dropSuccessor s).CachesOk := by
  apply foldl_invariant _ _ hok
  intro d g p hd
  unfold dropSuccessor.drop
  split
  . exact cachesOk_setParts_reset hd
  . exact hd

theorem cachesOk_merge (hok : d.CachesOk) : (d.merge s dgroup overwrite).CachesOk := by
  apply foldl_invariant _ _ hok
  intro d g p hd
  unfold merge.mergeGroup
  split
  . exact cachesOk_setParts_reset hd
  . exact hd

theorem cachesOk_addBE (hok : d.CachesOk) : (d.addBE g c b).CachesOk :=
  cachesOk_setParts_reset hok

theorem cachesOk_remove (h : d.remove g = some d') (hok : d.CachesOk) : d'.CachesOk := by
  simp only [remove, Option.bind_eq_bind, Option.bind_eq_some_iff, Option.pure_def,
    Option.some.injEq] at h
  obtain ⟨-, -, rfl⟩ := h
  intro h
  by_cases hgh : g = h
  . subst hgh
    apply CacheOk.of_eq
    all_goals
      rw [parts_eq_empty (by simp)]
      simp [retrieveBEList, numOfBE, retrieveSuccessorList, numOfSuccessor, beList_empty,
        successorList_empty]
  . apply (hok h).congr
    all_goals
      simp [parts, retrieveBEList, numOfBE, retrieveSuccessorList, numOfSuccessor,
        ExtTreeMap.getD_erase, hgh]

theorem getD_pushBack
    : (pushBack m g l).getD h [] = if g = h then m.getD g [] ++ l else m.getD h [] := by
  unfold pushBack
  split
  . next hl =>
    rw [isEmpty_iff.mp hl]
    split <;> simp_all
  . simp [ExtTreeMap.getD_insert]

theorem beList_insert_perm {p : Parts} {c : Int} {grp : Group} (h : p[c]? = none)
    : (Parts.beList (p.insert c grp)).Perm (p.beList ++ grp.members) := by
  refine ((toList_insert_perm h).flatMap_right _).trans ?_
  rw [flatMap_cons]
  exact perm_append_comm

theorem successorList_insert_perm {p : Parts} {c : Int} {grp : Group} (h : p[c]? = none)
    : (Parts.successorList (p.insert c grp)).Perm
        (p.successorList ++ if c ≠ VALIDBACKENDIDS then [c] else grp.members) := by
  refine ((toList_insert_perm h).flatMap_right _).trans ?_
  rw [flatMap_cons]
  exact perm_append_comm

theorem cacheOk_enter_all (hc : (d.parts SCI_GROUP_ALL)[c]? = none)
    (hok : d.CacheOk SCI_GROUP_ALL)
    : (initSubGroup.enter d c grp grp.members.length).CacheOk SCI_GROUP_ALL := by
  have hbe := @beList_insert_perm (d.parts SCI_GROUP_ALL) c grp hc
  have hsucc := @successorList_insert_perm (d.parts SCI_GROUP_ALL) c grp hc
  constructor
  all_goals rw [parts_enter, if_pos rfl]
  . simp only [retrieveBEList, initSubGroup.enter, getD_pushBack, if_true]
    exact (hok.beList_perm.append_right _).trans hbe.symm
  . have := hok.numOfBE_eq
    simp only [numOfBE, initSubGroup.enter, ExtTreeMap.getD_insert_self] at this ⊢
    rw [this, hbe.length_eq, length_append, Nat.cast_add]
  . simp only [retrieveSuccessorList, initSubGroup.enter, getD_pushBack, if_true]
    exact (hok.successorList_perm.append_right _).trans hsucc.symm
  . have := hok.numOfSuccessor_eq
    simp only [numOfSuccessor, initSubGroup.enter, ExtTreeMap.getD_insert_self] at this ⊢
    rw [this, hsucc.length_eq, length_append, Nat.cast_add]
    split <;> simp
  . simp
  . simp

theorem cachesOk_enter (hc : (d.parts SCI_GROUP_ALL)[c]? = none) (hok : d.CachesOk)
    : (initSubGroup.enter d c grp grp.members.length).CachesOk := by
  intro g
  by_cases hg : SCI_GROUP_ALL = g
  . subst hg
    exact cacheOk_enter_all hc (hok SCI_GROUP_ALL)
  . apply (hok g).congr
    . rw [parts_enter, if_neg hg]
    all_goals
      simp [retrieveBEList, numOfBE, retrieveSuccessorList, numOfSuccessor, initSubGroup.enter,
        getD_pushBack, ExtTreeMap.getD_insert, hg]

end Sci.DistributedGroup
