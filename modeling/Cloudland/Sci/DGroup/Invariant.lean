import Cloudland.Lib.CInt
import Cloudland.Lib.Run
import Cloudland.Sci.DGroup.Cache

/-!
The invariant of a distributed group over every sequence of calls.
-/

namespace Sci

open OrdMap Option
open CInt (IsInt)
open Std (ExtTreeMap)

def SciOp.Holds (op : SciOp) (a b : Prop) : Prop :=
  match op with
  | .union => a ∨ b
  | .intersection => a ∧ b
  | .difference => a ∧ ¬b

def Parts.Occupied (p : Parts) : Prop := ∀ (c : Int) (grp : Group), p[c]? = some grp → ∃ i, i ∈ grp

namespace DistributedGroup

open Parts

inductive Call where
  | initSubGroup (successor_id start_be_id end_be_id : Int)
  | create (be_list : List Int) (group : Int)
  | operate (group1 group2 : Int) (op : SciOp) (newgroup : Int)
  | operateExt (group : Int) (be_list : List Int) (op : SciOp) (newgroup : Int)
  | remove (group : Int)
  | addBE (group successor_id be_id : Int)
  | removeBE (be_id : Int)
  | dropSuccessor (successor_id : Int)
  | merge (successor_id : Int) (dgroup : DistributedGroup) (overwrite : Bool)

namespace Call

variable (d : DistributedGroup)

def exec : Call → Option DistributedGroup
  | .initSubGroup c s e => d.initSubGroup c s e
  | .create be_list group => d.create be_list group
  | .operate group1 group2 op newgroup => (d.operate group1 group2 op newgroup).map Prod.fst
  | .operateExt group be_list op newgroup => (d.operateExt group be_list op newgroup).map Prod.fst
  | .remove group => d.remove group
  | .addBE group c b => some (d.addBE group c b)
  | .removeBE b => some (d.removeBE b)
  | .dropSuccessor s => some (d.dropSuccessor s)
  | .merge s dgroup overwrite => some (d.merge s dgroup overwrite)

def Step (call : Call) (d' : DistributedGroup) : Prop := call.exec d = some d'

def Placed : Call → Prop
  | .initSubGroup c s e =>
    (d.parts SCI_GROUP_ALL)[c]? = none ∧ ∀ c' i, (d.parts SCI_GROUP_ALL).Mem c' i → ¬(s ≤ i ∧ i ≤ e)
  | .create _ group => group ≠ SCI_GROUP_ALL
  | .operate _ _ _ newgroup => newgroup ≠ SCI_GROUP_ALL
  | .operateExt _ _ _ newgroup => newgroup ≠ SCI_GROUP_ALL
  | .remove group => group ≠ SCI_GROUP_ALL
  | .addBE group c b =>
    if group = SCI_GROUP_ALL then
      ∀ c', (d.parts SCI_GROUP_ALL).Mem c' b → c' = c
    else
      (d.parts SCI_GROUP_ALL).Mem c b
  | .removeBE _ => True
  | .dropSuccessor _ => True
  | .merge s dgroup overwrite =>
    (∀ g i, Merges d s dgroup overwrite g i →
      (d.parts SCI_GROUP_ALL).Mem (mergeChild s) i ∨ Merges d s dgroup overwrite SCI_GROUP_ALL i) ∧
    (∀ g c i, (d.parts g).Mem c i → Merges d s dgroup overwrite SCI_GROUP_ALL i →
      c = mergeChild s ∨ Merges d s dgroup overwrite g i)

-- a back end is kept as `Range(id, id + 1)`, whose end overflows for the largest `int`
def InRange : Call → Prop
  | .initSubGroup _ _ e => IsInt (e + 1)
  | .create be_list _ => ∀ i ∈ be_list, IsInt (i + 1)
  | .operateExt _ be_list _ _ => ∀ i ∈ be_list, IsInt (i + 1)
  | .addBE _ _ b => IsInt (b + 1)
  | .removeBE b => IsInt (b + 1)
  | .dropSuccessor s => IsInt (s + 1)
  | .merge s dgroup _ => IsInt (s + 1) ∧ ∀ g c i, (dgroup.parts g).Mem c i → IsInt (i + 1)
  | _ => True

def Fits (call : Call) : Prop := call.Placed d ∧ call.InRange

def KeepsMembers : Call → Prop
  | .removeBE b =>
    ∀ (c : Int) (grp : Group), (d.parts SCI_GROUP_ALL)[c]? = some grp → ∃ i, i ∈ grp ∧ i ≠ b
  | .dropSuccessor s =>
    0 ≤ s → ∀ (g : Int) (grp : Group), (d.parts g)[VALIDBACKENDIDS]? = some grp → ∃ i, i ∈ grp ∧ i ≠ s
  | .merge s dgroup overwrite =>
    (∀ g, g ∈ dgroup.generalInfo → (overwrite = true ∨ g ∈ d.generalInfo) →
      ∃ i, Merges d s dgroup overwrite g i) ∧
    (∀ (g c : Int) (grp : Group), c ≠ mergeChild s → (d.parts g)[c]? = some grp →
      ∃ i, i ∈ grp ∧ ¬Merges d s dgroup overwrite g i)
  | _ => True

end Call

structure TableInv (d : DistributedGroup) : Prop where
  all_disjoint : ∀ c c' i,
    (d.parts SCI_GROUP_ALL).Mem c i → (d.parts SCI_GROUP_ALL).Mem c' i → c = c'
  subset : ∀ g c i, (d.parts g).Mem c i → (d.parts SCI_GROUP_ALL).Mem c i

variable {d d' : DistributedGroup}

theorem TableInv.disjoint (hinv : d.TableInv) (g c c' i : Int) (h : (d.parts g).Mem c i)
    (h' : (d.parts g).Mem c' i)
    : c = c' :=
  hinv.all_disjoint c c' i (hinv.subset g c i h) (hinv.subset g c' i h')

theorem TableInv.of_other (hinv : d.TableInv) (hg : g ≠ SCI_GROUP_ALL)
    (hother : ∀ h, g ≠ h → d'.parts h = d.parts h)
    (hnew : ∀ c i, (d'.parts g).Mem c i → (d.parts SCI_GROUP_ALL).Mem c i)
    : d'.TableInv := by
  have hall := hother _ hg
  constructor
  . rw [hall]
    exact hinv.all_disjoint
  . intro h c i hi
    rw [hall]
    by_cases hgh : g = h
    . subst hgh
      exact hnew c i hi
    . rw [hother h hgh] at hi
      exact hinv.subset h c i hi

theorem mem_operateParts
    : (operateParts p1 p2 op).Mem c i ↔ op.Holds (p1.Mem c i) (p2.Mem c i) := by
  cases op <;> simp [operateParts, SciOp.Holds]

theorem mem_all_of_mem_operateExtParts (hinv : d.TableInv)
    (h : (operateExtParts (d.parts SCI_GROUP_ALL) (d.parts g) total op).Mem c i)
    : (d.parts SCI_GROUP_ALL).Mem c i := by
  cases op with
  | union => exact (mem_unionExtParts.mp h).1
  | intersection => exact hinv.subset g c i (mem_restrictParts.mp h).1
  | difference => exact hinv.subset g c i (mem_differenceExtParts.mp h).1

theorem tableInv_finish (hinv : d.TableInv) (hsame : SameTables d d2)
    (hg : g ≠ SCI_GROUP_ALL)
    (hstored : ∀ c i, stored.Mem c i → (d.parts SCI_GROUP_ALL).Mem c i)
    : (d2.finish g stored b).1.TableInv := by
  apply hinv.of_other hg
  . intro h hne
    rw [parts_finish_of_ne hne, hsame.parts_eq]
  . intro c i hi
    rcases mem_finish.mp hi with h | ⟨-, h⟩
    . exact hstored c i h
    . rw [hsame.parts_eq] at h
      exact hinv.subset g c i h

theorem tableInv_enter (hinv : d.TableInv) (hc : (d.parts SCI_GROUP_ALL)[c]? = none)
    (hfresh : ∀ c' i, (d.parts SCI_GROUP_ALL).Mem c' i → ¬i ∈ grp)
    : (initSubGroup.enter d c grp num).TableInv := by
  have hmem : ∀ c' i, ((initSubGroup.enter d c grp num).parts SCI_GROUP_ALL).Mem c' i
      ↔ if c = c' then i ∈ grp else (d.parts SCI_GROUP_ALL).Mem c' i := by
    intro c' i
    rw [parts_enter, if_pos rfl, mem_insert]
  constructor
  . intro c1 c2 i h1 h2
    rw [hmem] at h1 h2
    split at h1 <;> split at h2
    . omega
    . exact absurd h1 (hfresh _ _ h2)
    . exact absurd h2 (hfresh _ _ h1)
    . exact hinv.all_disjoint c1 c2 i h1 h2
  . intro g c' i hi
    by_cases hg : SCI_GROUP_ALL = g
    . rw [← hg] at hi
      exact hi
    . rw [parts_enter, if_neg hg] at hi
      have hall := hinv.subset g c' i hi
      rw [hmem]
      split
      . next heq =>
        subst heq
        exact absurd hall (not_mem_of_getElem? hc)
      . exact hall

theorem mem_addBE {g c b c' i : Int}
    : ((d.addBE g c b).parts g).Mem c' i ↔ (d.parts g).Mem c' i ∨ (c = c' ∧ i = b) := by
  rw [parts_addBE, if_pos rfl, mem_insert]
  split
  . next heq =>
    subst heq
    simp [mem_getD]
  . next hne => simp [hne]

theorem tableInv_addBE (hinv : d.TableInv) (hplaced : (Call.addBE g c b).Placed d)
    : (d.addBE g c b).TableInv := by
  have hmem := fun c' i => @mem_addBE d g c b c' i
  simp only [Call.Placed] at hplaced
  split at hplaced
  . next hg =>
    subst hg
    constructor
    . intro c1 c2 i h1 h2
      rw [hmem] at h1 h2
      rcases h1 with h1 | ⟨rfl, rfl⟩ <;> rcases h2 with h2 | ⟨rfl, h2⟩
      . exact hinv.all_disjoint c1 c2 i h1 h2
      . exact hplaced c1 (h2 ▸ h1)
      . exact (hplaced c2 h2).symm
      . rfl
    . intro g c' i hi
      by_cases hg : SCI_GROUP_ALL = g
      . rw [← hg] at hi
        exact hi
      . rw [parts_addBE, if_neg hg] at hi
        exact (hmem c' i).mpr (Or.inl (hinv.subset g c' i hi))
  . next hg =>
    apply hinv.of_other hg
    . intro h hne
      rw [parts_addBE, if_neg hne]
    . intro c' i hi
      rcases (hmem c' i).mp hi with h | ⟨rfl, rfl⟩
      . exact hinv.subset g c' i h
      . exact hplaced

theorem TableInv.of_filter (hinv : d.TableInv) {out : Int → Int → Prop}
    (hmem : ∀ g c i, (d'.parts g).Mem c i ↔ (d.parts g).Mem c i ∧ ¬out c i)
    : d'.TableInv := by
  constructor
  . intro c c' i h h'
    exact hinv.all_disjoint c c' i ((hmem _ c i).mp h).1 ((hmem _ c' i).mp h').1
  . intro g c i hi
    obtain ⟨hi, hout⟩ := (hmem g c i).mp hi
    exact (hmem _ c i).mpr ⟨hinv.subset g c i hi, hout⟩

theorem tableInv_merge (hinv : d.TableInv) (hplaced : (Call.merge s dgroup overwrite).Placed d)
    : (d.merge s dgroup overwrite).TableInv := by
  obtain ⟨hmoved, htogether⟩ := hplaced
  have hmem := fun g c i => @mem_merge d dgroup g s overwrite c i (hinv.disjoint g)
  constructor
  . intro c c' i h h'
    rw [hmem] at h h'
    split at h <;> split at h'
    . omega
    . next hc _ =>
      -- what is filed under the successor and elsewhere was under the successor before
      rcases h with h | h
      . exact hinv.all_disjoint c c' i h h'.1
      . exact absurd h h'.2
    . rcases h' with h' | h'
      . exact hinv.all_disjoint c c' i h.1 h'
      . exact absurd h' h.2
    . exact hinv.all_disjoint c c' i h.1 h'.1
  . intro g c i hi
    rw [hmem] at hi ⊢
    split at hi
    . next hc =>
      rw [if_pos hc]
      rcases hi with hi | hi
      . exact Or.inl (hinv.subset g c i hi)
      . rw [hc]
        exact hmoved g i hi
    . next hc =>
      rw [if_neg hc]
      refine ⟨hinv.subset g c i hi.1, ?_⟩
      intro hall
      rcases htogether g c i hi.1 hall with h | h
      . exact hc h
      . exact hi.2 h

theorem parts_remove (hremove : d.remove g = some d') (hne : g ≠ h) : d'.parts h = d.parts h := by
  simp only [remove, bind_eq_bind, bind_eq_some_iff, pure_def,
    some.injEq] at hremove
  obtain ⟨-, -, rfl⟩ := hremove
  simp [parts, ExtTreeMap.getD_erase, hne]

theorem parts_remove_self (hremove : d.remove g = some d') : d'.parts g = ∅ := by
  simp only [remove, bind_eq_bind, bind_eq_some_iff, pure_def,
    some.injEq] at hremove
  obtain ⟨-, -, rfl⟩ := hremove
  simp [parts]

theorem exec_operate_eq_some {call : Call}
    {res : Option (DistributedGroup × SciRc)} (hcall : call.exec d = res.map Prod.fst)
    (hres : ∀ r, res = some r → ∃ d2, SameTables d d2 ∧ r = d2.finish g stored (hasMember op stored))
    (h : call.exec d = some d')
    : ∃ d2, SameTables d d2 ∧ d' = (d2.finish g stored (hasMember op stored)).1 := by
  rw [hcall, map_eq_some_iff] at h
  obtain ⟨r, hr, rfl⟩ := h
  obtain ⟨d2, hsame, rfl⟩ := hres r hr
  exact ⟨d2, hsame, rfl⟩

theorem exec_operate {g1 g2 new : Int} {op : SciOp} (h : (Call.operate g1 g2 op new).exec d = some d')
    : ∃ d2, SameTables d d2 ∧
        d' = (d2.finish new (operateParts (d.parts g1) (d.parts g2) op)
          (hasMember op (operateParts (d.parts g1) (d.parts g2) op))).1 :=
  exec_operate_eq_some rfl (fun _ hr => operate_eq_some hr) h

theorem exec_operateExt {g new : Int} {be_list : List Int} {op : SciOp}
    (h : (Call.operateExt g be_list op new).exec d = some d')
    : ∃ d2, SameTables d d2 ∧
        d' = (d2.finish new
          (operateExtParts (d.parts SCI_GROUP_ALL) (d.parts g) (Group.ofList be_list) op)
          (hasMember op
            (operateExtParts (d.parts SCI_GROUP_ALL) (d.parts g) (Group.ofList be_list) op))).1 :=
  exec_operate_eq_some rfl (fun _ hr => operateExt_eq_some hr) h

theorem tableInv_step (hinv : d.TableInv) {call : Call} (hplaced : call.Placed d) (h : call.Step d d')
    : d'.TableInv := by
  cases call with
  | initSubGroup c s e =>
    obtain ⟨grp, hgrp, -, rfl⟩ := initSubGroup_eq_some h
    apply tableInv_enter hinv hplaced.1
    intro c' i hi
    rw [hgrp]
    exact hplaced.2 c' i hi
  | create be_list g =>
    rw [create_eq_some h]
    apply hinv.of_other hplaced
    . intro h hne
      rw [parts_reset, parts_store_of_ne hne]
    . intro c i hi
      rw [parts_reset] at hi
      rcases mem_store.mp hi with h | ⟨-, h⟩
      . exact (mem_restrictParts.mp h).1
      . exact hinv.subset g c i h
  | operate g1 g2 op new =>
    obtain ⟨d2, hsame, rfl⟩ := exec_operate h
    apply tableInv_finish hinv hsame hplaced
    intro c i hi
    rw [mem_operateParts] at hi
    have h1 := hinv.subset g1 c i
    have h2 := hinv.subset g2 c i
    cases op <;> simp only [SciOp.Holds] at hi <;> tauto
  | operateExt g be_list op new =>
    obtain ⟨d2, hsame, rfl⟩ := exec_operateExt h
    exact tableInv_finish hinv hsame hplaced (fun c i => mem_all_of_mem_operateExtParts hinv)
  | remove g =>
    apply hinv.of_other hplaced
    . exact fun h' hne => parts_remove h hne
    . intro c i hi
      rw [parts_remove_self h] at hi
      exact absurd hi (not_mem_empty c i)
  | addBE g c b =>
    rw [← some.inj h]
    exact tableInv_addBE hinv hplaced
  | removeBE b =>
    rw [← some.inj h]
    exact hinv.of_filter (fun g c i => by rw [parts_removeBE, mem_prune])
  | dropSuccessor s =>
    rw [← some.inj h]
    exact hinv.of_filter (fun g c i => by rw [parts_dropSuccessor, mem_dropParts])
  | merge s dgroup overwrite =>
    rw [← some.inj h]
    exact tableInv_merge hinv hplaced

theorem cachesOk_step (hok : d.CachesOk) {call : Call} (hplaced : call.Placed d) (h : call.Step d d')
    : d'.CachesOk := by
  cases call with
  | initSubGroup c s e =>
    obtain ⟨grp, -, -, rfl⟩ := initSubGroup_eq_some h
    exact cachesOk_enter hplaced.1 hok
  | create be_list g =>
    rw [create_eq_some h]
    exact cachesOk_store_reset hok
  | operate g1 g2 op new =>
    obtain ⟨d2, hsame, rfl⟩ := exec_operate h
    exact cachesOk_finish (hsame.cachesOk hok)
  | operateExt g be_list op new =>
    obtain ⟨d2, hsame, rfl⟩ := exec_operateExt h
    exact cachesOk_finish (hsame.cachesOk hok)
  | remove g => exact cachesOk_remove h hok
  | addBE g c b =>
    rw [← some.inj h]
    exact cachesOk_addBE hok
  | removeBE b =>
    rw [← some.inj h]
    exact cachesOk_removeBE hok
  | dropSuccessor s =>
    rw [← some.inj h]
    exact cachesOk_dropSuccessor hok
  | merge s dgroup overwrite =>
    rw [← some.inj h]
    exact cachesOk_merge hok

theorem occupied_insertEach
    (hf : ∀ c grp grp', p[c]? = some grp → f c grp = some grp' → ∃ i, i ∈ grp')
    : Occupied (insertEach f p ∅) := by
  intro c grp' h
  simp only [getElem?_insertEach, ExtTreeMap.getElem?_empty, or_none,
    bind_eq_some_iff] at h
  obtain ⟨grp, hgrp, h⟩ := h
  exact hf c grp grp' hgrp h

theorem exists_mem_of_unlessEmpty (h : unlessEmpty grp = some grp') : ∃ i, i ∈ grp' := by
  unfold unlessEmpty at h
  split at h
  . contradiction
  . next he =>
    rw [← some.inj h]
    exact Group.isEmpty_eq_false_iff.mp (by simpa using he)

theorem occupied_restrictParts : (restrictParts p total).Occupied :=
  occupied_insertEach (fun _ _ _ _ h => exists_mem_of_unlessEmpty h)

theorem occupied_operateParts_of_ne (hop : op ≠ .union) : (operateParts p1 p2 op).Occupied := by
  cases op with
  | union => exact absurd rfl hop
  | intersection =>
    apply occupied_insertEach
    intro c grp grp' _ h
    obtain ⟨other, -, h⟩ := bind_eq_some_iff.mp h
    exact exists_mem_of_unlessEmpty h
  | difference =>
    apply occupied_insertEach
    intro c grp grp' _ h
    split at h <;> exact exists_mem_of_unlessEmpty h

theorem occupied_operateParts (h1 : p1.Occupied) (h2 : p2.Occupied)
    : (operateParts p1 p2 op).Occupied := by
  by_cases hop : op = .union
  . subst hop
    intro c grp h
    -- a part of the union is a copy of a part of one of the two, possibly grown
    have hmem : ∀ i, i ∈ grp ↔ p1.Mem c i ∨ p2.Mem c i := by
      intro i
      rw [← mem_unionParts]
      exact (mem_of_getElem? h).symm
    simp only [operateParts, unionParts, getElem?_insertEach, ExtTreeMap.getElem?_empty,
      or_none] at h
    cases hc1 : p1[c]? with
    | some grp1 =>
      obtain ⟨i, hi⟩ := h1 c grp1 hc1
      exact ⟨i, (hmem i).mpr (Or.inl ⟨grp1, hc1, hi⟩)⟩
    | none =>
      cases hc2 : p2[c]? with
      | some grp2 =>
        obtain ⟨i, hi⟩ := h2 c grp2 hc2
        exact ⟨i, (hmem i).mpr (Or.inr ⟨grp2, hc2, hi⟩)⟩
      | none => simp [hc1, hc2] at h
  . exact occupied_operateParts_of_ne hop

theorem occupied_operateExtParts_of_ne (hop : op ≠ .union) : (operateExtParts all p total op).Occupied := by
  cases op with
  | union => exact absurd rfl hop
  | intersection => exact occupied_restrictParts
  | difference => exact occupied_insertEach (fun _ _ _ _ h => exists_mem_of_unlessEmpty h)

theorem occupied_operateExtParts (hall : all.Occupied)
    : (operateExtParts all p total op).Occupied := by
  by_cases hop : op = .union
  . subst hop
    apply occupied_insertEach
    intro c grp grp' hgrp h
    obtain ⟨i, hi⟩ := hall c grp hgrp
    dsimp only at h
    split at h
    . split at h <;> rw [← some.inj h] <;> exact ⟨i, by simp [hi]⟩
    . split at h
      . contradiction
      . next he =>
        obtain ⟨j, hj⟩ := Group.isEmpty_eq_false_iff.mp (by simpa using he)
        rw [← some.inj h]
        exact ⟨j, by simpa using hj⟩
  . exact occupied_operateExtParts_of_ne hop

theorem isEmpty_iff_of_occupied {p : Parts} (hp : p.Occupied) : p.isEmpty = true ↔ ∀ c i, ¬p.Mem c i := by
  rw [isEmpty_iff_forall_getElem?]
  constructor
  . exact fun h c i => not_mem_of_getElem? (h c)
  . intro h c
    cases hc : p[c]? with
    | none => rfl
    | some grp =>
      obtain ⟨i, hi⟩ := hp c grp hc
      exact absurd ⟨grp, hc, hi⟩ (h c i)

theorem occupied_store (hstored : stored.Occupied) (hg : (d.parts g).Occupied)
    : ((d.store g stored).parts g).Occupied := by
  unfold store
  split
  . exact hg
  . intro c grp h
    rw [parts_setParts_self, getElem?_insertEach] at h
    cases hc : stored[c]? with
    | some grp' =>
      simp only [hc, bind_some, some_or, some.injEq] at h
      exact hstored c grp (h ▸ hc)
    | none =>
      simp only [hc, bind_none, none_or] at h
      exact hg c grp h

theorem occupied_finish (hsame : SameTables d d2)
    (hstored : stored.Occupied) (hd : ∀ g, (d.parts g).Occupied)
    : ∀ h, ((d2.finish g stored b).1.parts h).Occupied := by
  intro h
  by_cases hgh : g = h
  . subst hgh
    have hstore := occupied_store hstored (hsame.parts_eq g ▸ hd g)
    unfold finish
    cases b
    . exact hstore
    . simpa using hstore
  . rw [parts_finish_of_ne hgh, hsame.parts_eq]
    exact hd h

theorem occupied_prune
    (h : g = SCI_GROUP_ALL → ∀ (c : Int) (grp : Group), p[c]? = some grp → ∃ i, i ∈ grp ∧ i ≠ b)
    : (prune b g p).Occupied := by
  apply occupied_insertEach
  intro c grp grp' hgrp hf
  simp only [ite_none_left_eq_some, some.injEq] at hf
  obtain ⟨hkeep, rfl⟩ := hf
  by_cases hg : g = SCI_GROUP_ALL
  . obtain ⟨i, hi, hib⟩ := h hg c grp hgrp
    exact ⟨i, by simp [hi, hib]⟩
  . by_contra hnone
    push Not at hnone
    exact hkeep ⟨Group.size_eq_zero_iff.mpr hnone, Or.inl hg⟩

theorem occupied_dropParts (hp : p.Occupied)
    (h : 0 ≤ s → ∀ grp, p[VALIDBACKENDIDS]? = some grp → ∃ i, i ∈ grp ∧ i ≠ s)
    : ((dropParts s p).getD p).Occupied := by
  unfold dropParts
  split
  . next hs =>
    cases hv : p[VALIDBACKENDIDS]? with
    | none => exact hp
    | some grp =>
      intro c grp' hc
      simp only [map_some, getD_some] at hc
      by_cases hcv : VALIDBACKENDIDS = c
      . subst hcv
        obtain ⟨i, hi, his⟩ := h hs grp hv
        rw [ExtTreeMap.getElem?_insert_self] at hc
        rw [← some.inj hc]
        exact ⟨i, by simp [hi, his]⟩
      . rw [getElem?_insert_of_ne hcv] at hc
        exact hp c grp' hc
  . split
    . intro c grp hc
      rw [getD_some, ExtTreeMap.getElem?_erase] at hc
      split at hc
      . contradiction
      . exact hp c grp hc
    . exact hp

theorem occupied_merge (hinv : d.TableInv)
    (hkeep : (Call.merge s dgroup overwrite).KeepsMembers d) (hd : ∀ g, (d.parts g).Occupied)
    : ∀ g, ((d.merge s dgroup overwrite).parts g).Occupied := by
  intro g c grp hc
  have hmem := fun i => @mem_merge d dgroup g s overwrite c i (hinv.disjoint g)
  simp only [mem_of_getElem? hc] at hmem
  rw [parts_merge] at hc
  cases hdg : dgroup.generalInfo[g]? with
  | none =>
    rw [hdg, bind_none, getD_none] at hc
    exact hd g c grp hc
  | some dparts =>
    rw [hdg, bind_some] at hc
    cases hq : mergeParts s overwrite dparts d.generalInfo[g]? with
    | none =>
      rw [hq, getD_none] at hc
      exact hd g c grp hc
    | some q =>
      rw [hq, getD_some] at hc
      by_cases hchild : c = mergeChild s
      . -- the part of the successor has at least what was moved into it
        have hin : g ∈ dgroup.generalInfo := by
          rw [ExtTreeMap.mem_iff_isSome_getElem?, hdg]
          rfl
        obtain ⟨i, hi⟩ := hkeep.1 g hin (merges_of_mergeParts hq)
        refine ⟨i, (hmem i).mpr ?_⟩
        rw [if_pos hchild]
        exact Or.inr hi
      . cases hgrp' : (d.parts g)[c]? with
        | none =>
          rw [parts, ExtTreeMap.getD_eq_getD_getElem?] at hgrp'
          rw [getElem?_mergeParts_of_none hq hchild hgrp'] at hc
          contradiction
        | some grp' =>
          obtain ⟨i, hi, hnot⟩ := hkeep.2 g c grp' hchild hgrp'
          refine ⟨i, (hmem i).mpr ?_⟩
          rw [if_neg hchild]
          exact ⟨⟨grp', hgrp', hi⟩, hnot⟩

theorem occupied_insert {p : Parts} (hp : p.Occupied) (hgrp : ∃ i, i ∈ grp) : Occupied (p.insert c grp) := by
  intro c' grp' h
  by_cases hc : c = c'
  . subst hc
    rw [ExtTreeMap.getElem?_insert_self] at h
    rw [← some.inj h]
    exact hgrp
  . rw [getElem?_insert_of_ne hc] at h
    exact hp c' grp' h

theorem occupied_step (hinv : d.TableInv) (hd : ∀ g, (d.parts g).Occupied) {call : Call}
    (hkeep : call.KeepsMembers d) (h : call.Step d d')
    : ∀ g, (d'.parts g).Occupied := by
  cases call with
  | initSubGroup c s e =>
    obtain ⟨grp, hgrp, hse, rfl⟩ := initSubGroup_eq_some h
    intro g
    rw [parts_enter]
    split
    . exact occupied_insert (hd _) ⟨s, (hgrp s).mpr ⟨le_refl s, hse⟩⟩
    . exact hd g
  | create be_list g =>
    rw [create_eq_some h]
    intro h
    rw [parts_reset]
    by_cases hgh : g = h
    . subst hgh
      exact occupied_store occupied_restrictParts (hd g)
    . rw [parts_store_of_ne hgh]
      exact hd h
  | operate g1 g2 op new =>
    obtain ⟨d2, hsame, rfl⟩ := exec_operate h
    exact occupied_finish hsame (occupied_operateParts (hd g1) (hd g2)) hd
  | operateExt g be_list op new =>
    obtain ⟨d2, hsame, rfl⟩ := exec_operateExt h
    exact occupied_finish hsame (occupied_operateExtParts (hd _)) hd
  | remove g =>
    intro g'
    by_cases hg : g = g'
    . subst hg
      rw [parts_remove_self h]
      intro c grp hc
      simp at hc
    . rw [parts_remove h hg]
      exact hd g'
  | addBE g c b =>
    rw [← some.inj h]
    intro g'
    rw [parts_addBE]
    split
    . exact occupied_insert (hd g) ⟨b, by simp⟩
    . exact hd g'
  | removeBE b =>
    rw [← some.inj h]
    intro g
    rw [parts_removeBE]
    apply occupied_prune
    rintro rfl
    exact hkeep
  | dropSuccessor s =>
    rw [← some.inj h]
    intro g
    rw [parts_dropSuccessor]
    exact occupied_dropParts (hd g) (fun hs => hkeep hs g)
  | merge s dgroup overwrite =>
    rw [← some.inj h]
    exact occupied_merge hinv hkeep hd

@[simp]
theorem parts_new (g : Int) : new.parts g = ∅ := by
  simp [parts, new]

theorem tableInv_new : new.TableInv := by
  constructor <;> simp

theorem cachesOk_new : new.CachesOk := by
  intro g
  apply CacheOk.of_eq <;>
    simp [new, parts, retrieveBEList, numOfBE, retrieveSuccessorList, numOfSuccessor, beList_empty,
      successorList_empty]

theorem occupied_new (g : Int) : (new.parts g).Occupied := by
  intro c grp h
  simp at h

theorem tableInv_run (h : Run (Guarded Call.Fits Call.Step) new calls d) : d.TableInv :=
  h.invariant TableInv (fun _ _ _ hinv hstep => tableInv_step hinv hstep.1.1 hstep.2) tableInv_new

theorem cachesOk_run (h : Run (Guarded Call.Fits Call.Step) new calls d) : d.CachesOk :=
  h.invariant CachesOk (fun _ _ _ hok hstep => cachesOk_step hok hstep.1.1 hstep.2) cachesOk_new

theorem occupied_run (h : Run (Guarded (fun d call => call.Fits d ∧ call.KeepsMembers d) Call.Step) new calls d)
    : d.TableInv ∧ ∀ g, (d.parts g).Occupied := by
  refine h.invariant (fun d => d.TableInv ∧ ∀ g, (d.parts g).Occupied) ?_ ?_
  . intro d call d' hd hstep
    exact ⟨tableInv_step hd.1 hstep.1.1.1 hstep.2, occupied_step hd.1 hd.2 hstep.1.2 hstep.2⟩
  . exact ⟨tableInv_new, occupied_new⟩

theorem table_invariant {calls : List Call} (h : Run (Guarded Call.Fits Call.Step) new calls d)
    : (∀ g c c' i, (d.parts g).Mem c i → (d.parts g).Mem c' i → c = c') ∧
      (∀ g c i, (d.parts g).Mem c i → (d.parts SCI_GROUP_ALL).Mem c i) ∧
      (Run (Guarded (fun d call => call.Fits d ∧ call.KeepsMembers d) Call.Step) new calls d →
        ∀ g, (d.parts g).Occupied) ∧
      (∀ g, d.CacheOk g) :=
  ⟨(tableInv_run h).disjoint, (tableInv_run h).subset, fun hkeep => (occupied_run hkeep).2,
    cachesOk_run h⟩

theorem exists_fitting_run {calls : List Call} {q : DistributedGroup → Prop} (p : DistributedGroup → Prop)
    [DecidablePred p] (hrange : IsInt (e + 1)) (hcalls : ∀ d, ∀ call ∈ calls, call.Fits d)
    (h : ((.initSubGroup c s e :: calls).foldlM (fun d call => Call.exec d call) new).any (fun d => p d) = true)
    (hp : ∀ d, Run (Guarded Call.Fits Call.Step) new (.initSubGroup c s e :: calls) d → p d → q d)
    : ∃ d, Run (Guarded Call.Fits Call.Step) new (.initSubGroup c s e :: calls) d ∧ q d := by
  have ⟨d, hrun, hd⟩ := Run.exists_of_foldlM p h (fun _ _ => id)
  cases hrun with
  | cons hfirst hrest =>
    have hfits : (Call.initSubGroup c s e).Fits new := ⟨by simp [Call.Placed], hrange⟩
    have hrun := Run.cons ⟨hfits, hfirst⟩ (hrest.guard hcalls)
    exact ⟨d, hrun, hp d hrun hd⟩

theorem table_invariant_sample
    : ∃ d, Run (Guarded Call.Fits Call.Step) new
        [.initSubGroup (-2) 0 3, .create [0, 2] (-2), .operate (-1) (-2) .difference (-3),
          .removeBE 0, .remove (-2)] d ∧
        (d.parts (-3)).Mem (-2) 1 ∧
        (∀ g c i, (d.parts g).Mem c i → (d.parts SCI_GROUP_ALL).Mem c i) ∧
        (∀ g, d.CacheOk g) := by
  refine exists_fitting_run (fun d => 1 ∈ (d.parts (-3)).getD (-2) ∅) (by decide)
    (by simp [Call.Fits, Call.Placed, Call.InRange, IsInt]) (by decide +kernel) ?_
  exact fun d hrun hmem => ⟨mem_getD.mp hmem, (table_invariant hrun).2.1, (table_invariant hrun).2.2.2⟩

theorem table_invariant_limits
    : (∃ d, Run Call.Step new [.initSubGroup (-2) 0 0, .removeBE 0] d ∧
        (d.parts SCI_GROUP_ALL)[(-2 : Int)]? = some ∅) ∧
      (∃ d, Run Call.Step new [.initSubGroup (-2) 0 0, .initSubGroup (-3) 1 1] d ∧
        d.retrieveSuccessorList SCI_GROUP_ALL ≠ (d.parts SCI_GROUP_ALL).successorList) ∧
      (∃ d, Run Call.Step new [.addBE SCI_GROUP_ALL (-2) 0, .addBE SCI_GROUP_ALL (-3) 0] d ∧
        (d.parts SCI_GROUP_ALL).Mem (-2) 0 ∧ (d.parts SCI_GROUP_ALL).Mem (-3) 0) := by
  refine ⟨?_, ?_, ?_⟩
  . exact Run.exists_of_foldlM _ (by decide +kernel) (fun _ _ h => h)
  . exact Run.exists_of_foldlM _ (by decide +kernel) (fun _ _ h => h)
  . exact Run.exists_of_foldlM (fun d => 0 ∈ (d.parts SCI_GROUP_ALL).getD (-2) ∅ ∧
      0 ∈ (d.parts SCI_GROUP_ALL).getD (-3) ∅) (by decide +kernel) (fun _ _ h => h.imp mem_getD.mp mem_getD.mp)

end DistributedGroup
end Sci
