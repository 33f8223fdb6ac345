import Cloudland.Lib.Relay
import Cloudland.Sci.DGroup.Algebra
import Cloudland.Sci.Routing.Shape

/-!
One node of the tree as a relay.
-/

namespace Sci

open OrdMap List Function
open Std (ExtTreeMap)

abbrev Sets := Int → Set Int

def SciOp.set (op : SciOp) (A B : Set Int) : Set Int := {i | op.Holds (i ∈ A) (i ∈ B)}

namespace Message

def target (S : Sets) : Message → Set Int
  | .config _ => ∅
  | .command g _ => S g
  | .groupCreate _ be_list => {i | i ∈ be_list}
  | .groupFree g => S g
  | .groupOperate _ op g1 g2 => op.set (S g1) (S g2)
  | .groupOperateExt _ op g be_list => op.set (S g) {i | i ∈ be_list}
  | .beAdd _ _ _ => ∅
  | .beRemove _ => ∅

def after (S : Sets) : Message → Sets
  | .config _ => S
  | .command _ _ => S
  | .groupCreate new be_list => update S new {i | i ∈ be_list}
  | .groupFree g => update S g ∅
  | .groupOperate new op g1 g2 => update S new (op.set (S g1) (S g2))
  | .groupOperateExt new op g be_list => update S new (op.set (S g) {i | i ∈ be_list})
  | .beAdd _ _ _ => S
  | .beRemove _ => S

def Admissible (part : Int → Set Int) (S : Sets) : Message → Prop
  | .config _ => False
  | .command g _ => g ≤ SCI_GROUP_ALL
  | .groupCreate new _ => new < SCI_GROUP_ALL ∧ S new = ∅
  | .groupFree g => g < SCI_GROUP_ALL
  | .groupOperate new _ _ _ => new < SCI_GROUP_ALL ∧ S new = ∅
  | .groupOperateExt new op g be_list =>
    new < SCI_GROUP_ALL ∧ S new = ∅ ∧
      (op = .union → ∀ c, (S g ∩ part c).Nonempty → part c ⊆ S g ∪ {i | i ∈ be_list})
  | .beAdd _ _ _ => False
  | .beRemove _ => False

end Message

namespace Child

def part (cs : List Child) (c : Int) : Set Int := {i | ∃ ch ∈ cs, ch.key = c ∧ i ∈ ch.ids}

def range (cs : List Child) (k : Int) : Set Int := {i | ∃ ch ∈ cs, ch.handle = k ∧ i ∈ ch.ids}

def all (cs : List Child) : Set Int := {i | ∃ ch ∈ cs, i ∈ ch.ids}

theorem range_subset_all (cs : List Child) (k : Int) : range cs k ⊆ all cs := by
  intro i hi
  have ⟨ch, hch, _, hi⟩ := hi
  exact ⟨ch, hch, hi⟩

end Child

structure ChildrenOk (cs : List Child) : Prop where
  nonempty : (Child.all cs).Nonempty
  backEnd : ∀ e, .backEnd e ∈ cs → 0 ≤ e.1
  agent : ∀ t, .agent t ∈ cs → t.agentID < 0 ∧ t.agentID ≠ VALIDBACKENDIDS
  length_le : cs.length ≤ MAX_SUCCESSOR_NUM

structure TableOk (cs : List Child) (S : Sets) (d : DistributedGroup) : Prop where
  all : ∀ c i, (d.parts SCI_GROUP_ALL).Mem c i ↔ i ∈ Child.part cs c
  part : ∀ g c i, (d.parts g).Mem c i ↔ i ∈ S g ∧ i ∈ Child.part cs c
  tableInv : d.TableInv
  cachesOk : d.CachesOk
  occupied : ∀ g, (d.parts g).Occupied

namespace DistributedGroup

theorem mem_generalInfo_of_mem {d : DistributedGroup} (h : (d.parts g).Mem c i) : g ∈ d.generalInfo := by
  by_contra hg
  rw [parts_eq_empty (ExtTreeMap.getElem?_eq_none hg)] at h
  exact Parts.not_mem_empty c i h

theorem mem_iff_exists_mem {p : Parts} (hp : p.Occupied) : c ∈ p ↔ ∃ i, p.Mem c i := by
  rw [ExtTreeMap.mem_iff_isSome_getElem?]
  constructor
  . intro h
    have ⟨grp, hgrp⟩ := Option.isSome_iff_exists.mp h
    have ⟨i, hi⟩ := hp c grp hgrp
    exact ⟨i, grp, hgrp, hi⟩
  . intro ⟨i, grp, hgrp, hi⟩
    rw [hgrp]
    rfl

theorem not_mem_of_finish_ne_success {d : DistributedGroup} {new : Int} {stored : Parts} {op : SciOp}
    (h : (d.finish new stored (hasMember op stored)).2 ≠ .success) (c i : Int)
    : ¬stored.Mem c i := by
  cases hempty : stored.isEmpty with
  | true => exact Parts.not_mem_of_getElem? (isEmpty_iff_forall_getElem?.mp hempty c)
  | false => simp [finish, hasMember, hempty] at h

end DistributedGroup

namespace TableOk

open DistributedGroup

variable {cs : List Child} {S : Sets} {d d' : DistributedGroup}

section TableOk

variable (h : TableOk cs S d)

include h

theorem mem_generalInfo (hg : i ∈ S g) (hi : i ∈ Child.all cs) : g ∈ d.generalInfo := by
  have ⟨ch, hch, hi⟩ := hi
  exact mem_generalInfo_of_mem ((h.part g ch.key i).mpr ⟨hg, ch, hch, rfl, hi⟩)

theorem all_mem_generalInfo (hcs : ChildrenOk cs) : SCI_GROUP_ALL ∈ d.generalInfo := by
  have ⟨i, ch, hch, hi⟩ := hcs.nonempty
  exact mem_generalInfo_of_mem ((h.all ch.key i).mpr ⟨ch, hch, rfl, hi⟩)

theorem step (call : Call) (hplaced : call.Placed d) (hkeep : call.KeepsMembers d)
    (hstep : call.Step d d') (hg : g ≠ SCI_GROUP_ALL) (hother : ∀ g', g ≠ g' → d'.parts g' = d.parts g')
    (hnew : ∀ c i, (d'.parts g).Mem c i ↔ i ∈ T ∧ i ∈ Child.part cs c)
    : TableOk cs (update S g T) d' := by
  constructor
  . intro c i
    rw [hother _ hg, h.all]
  . intro g' c i
    by_cases heq : g = g'
    . subst heq
      rw [hnew, update_self]
    . rw [hother _ heq, h.part, update_of_ne (Ne.symm heq)]
  . exact tableInv_step h.tableInv hplaced hstep
  . exact cachesOk_step h.cachesOk hplaced hstep
  . exact occupied_step h.tableInv h.occupied hkeep hstep

theorem not_mem_new (hg : S g = ∅) (c i : Int) : ¬(d.parts g).Mem c i := by
  rw [h.part, hg]
  exact fun hi => hi.1

theorem create (hcs : ChildrenOk cs) {new : Int} (hnew : new < SCI_GROUP_ALL)
    (hS : S new = ∅) (be_list : List Int)
    : ∃ d', d.create be_list new = some d' ∧
        TableOk cs (update S new {i | i ∈ be_list}) d' := by
  have ⟨all, hall⟩ := exists_getElem? (h.all_mem_generalInfo hcs)
  have ⟨d', hd'⟩ : ∃ d', d.create be_list new = some d' :=
    ⟨_, by simp only [DistributedGroup.create, hall]; rfl⟩
  have hne := Int.ne_of_lt hnew
  refine ⟨d', hd', h.step (.create be_list new) hne trivial hd' hne ?_ ?_⟩
  . intro g' hg'
    rw [create_eq_some hd', parts_reset, parts_store_of_ne hg']
  . intro c i
    rw [create_eq_some hd', parts_reset, mem_store, mem_restrictParts, h.all, Group.mem_ofList]
    have := h.not_mem_new hS c i
    simp only [this, and_false, or_false]
    exact and_comm

theorem remove (hg : g < SCI_GROUP_ALL) (hmem : g ∈ d.generalInfo)
    : ∃ d', d.remove g = some d' ∧ TableOk cs (update S g ∅) d' := by
  have ⟨p, hp⟩ := exists_getElem? hmem
  have ⟨d', hd'⟩ : ∃ d', d.remove g = some d' := ⟨_, by simp only [DistributedGroup.remove, hp]; rfl⟩
  have hne := Int.ne_of_lt hg
  refine ⟨d', hd', h.step (.remove g) hne trivial hd' hne (fun _ => parts_remove hd') ?_⟩
  intro c i
  rw [parts_remove_self hd']
  simp

end TableOk

theorem inter_all_eq_empty (h : ∀ c i, ¬(i ∈ T ∧ i ∈ Child.part cs c)) : T ∩ Child.all cs = ∅ := by
  rw [Set.eq_empty_iff_forall_notMem]
  intro i hi
  have ⟨hT, ch, hch, hi⟩ := hi
  exact h ch.key i ⟨hT, ch, hch, rfl, hi⟩

theorem finish (h : TableOk cs S d) (call : Call) (hplaced : call.Placed d)
    (hkeep : call.KeepsMembers d) {res : DistributedGroup × SciRc} (hstep : call.Step d res.1)
    {new : Int} {T : Set Int} (hne : new ≠ SCI_GROUP_ALL) (hS : S new = ∅) {d2 : DistributedGroup}
    (hsame : SameTables d d2) {stored : Parts} {op : SciOp}
    (heq : res = d2.finish new stored (hasMember op stored))
    (hstored : ∀ c i, stored.Mem c i ↔ i ∈ T ∧ i ∈ Child.part cs c)
    : TableOk cs (update S new T) res.1 ∧
        (res.2 ≠ .success → T ∩ Child.all cs = ∅) := by
  refine ⟨h.step call hplaced hkeep hstep hne ?_ ?_, ?_⟩
  . intro g' hg'
    rw [heq, parts_finish_of_ne hg', hsame.parts_eq]
  . intro c i
    have := h.not_mem_new hS c i
    rw [heq, mem_finish, hsame.parts_eq, hstored]
    simp only [this, and_false, or_false]
  . intro hrc
    rw [heq] at hrc
    apply inter_all_eq_empty
    intro c i
    rw [← hstored]
    exact not_mem_of_finish_ne_success hrc c i

theorem operate (h : TableOk cs S d) {new g1 g2 : Int} {op : SciOp} (hnew : new < SCI_GROUP_ALL)
    (hS : S new = ∅) (hg1 : op ≠ .union → g1 ∈ d.generalInfo)
    : ∃ res, d.operate g1 g2 op new = some res ∧
        TableOk cs (update S new (op.set (S g1) (S g2))) res.1 ∧
        (res.2 ≠ .success → op.set (S g1) (S g2) ∩ Child.all cs = ∅) := by
  have ⟨res, hres⟩ : ∃ res, d.operate g1 g2 op new = some res := by
    cases op with
    | union => exact ⟨_, rfl⟩
    | intersection => exact operate_total (hg1 (by simp)) _ _ _
    | difference => exact operate_total (hg1 (by simp)) _ _ _
  have ⟨d2, hsame, heq⟩ := operate_eq_some hres
  have hne := Int.ne_of_lt hnew
  have hstored : ∀ c i, (operateParts (d.parts g1) (d.parts g2) op).Mem c i
      ↔ i ∈ op.set (S g1) (S g2) ∧ i ∈ Child.part cs c := by
    intro c i
    rw [mem_operateParts, h.part, h.part]
    cases op <;> simp only [SciOp.set, SciOp.Holds, Set.mem_ofPred_eq] <;> tauto
  exact ⟨res, hres, h.finish (.operate g1 g2 op new) hne trivial
    (by simp [Call.Step, Call.exec, hres]) hne hS hsame heq hstored⟩

theorem operateExt (h : TableOk cs S d) (hcs : ChildrenOk cs) {new g : Int} {op : SciOp}
    {be_list : List Int} (hnew : new < SCI_GROUP_ALL) (hS : S new = ∅) (hg : op ≠ .union → g ∈ d.generalInfo)
    (hunion : op = .union →
      ∀ c, (S g ∩ Child.part cs c).Nonempty → Child.part cs c ⊆ S g ∪ {i | i ∈ be_list})
    : ∃ res, d.operateExt g be_list op new = some res ∧
        TableOk cs (update S new (op.set (S g) {i | i ∈ be_list})) res.1 ∧
        (res.2 ≠ .success → op.set (S g) {i | i ∈ be_list} ∩ Child.all cs = ∅) := by
  obtain ⟨res, hres⟩ : ∃ res, d.operateExt g be_list op new = some res := by
    obtain ⟨all, hall⟩ := exists_getElem? (h.all_mem_generalInfo hcs)
    cases op with
    | union => exact ⟨_, by simp only [DistributedGroup.operateExt, hall]; rfl⟩
    | intersection => exact operateExt_total (hg (by simp)) (h.all_mem_generalInfo hcs) _ _ _
    | difference => exact operateExt_total (hg (by simp)) (h.all_mem_generalInfo hcs) _ _ _
  obtain ⟨d2, hsame, heq⟩ := operateExt_eq_some hres
  have hne := Int.ne_of_lt hnew
  have hstored : ∀ c i,
      (operateExtParts (d.parts SCI_GROUP_ALL) (d.parts g) (Group.ofList be_list) op).Mem c i
        ↔ i ∈ op.set (S g) {i | i ∈ be_list} ∧ i ∈ Child.part cs c := by
    intro c i
    cases op with
    | union =>
      -- the parts with an entry are filled up to all of the child's back ends
      have hkey : c ∈ d.parts g ↔ (S g ∩ Child.part cs c).Nonempty := by
        rw [mem_iff_exists_mem (h.occupied g)]
        simp only [h.part]
        rfl
      simp only [operateExtParts, mem_unionExtParts, h.all, hkey, Group.mem_ofList, SciOp.set,
        SciOp.Holds, Set.mem_ofPred_eq]
      constructor
      . rintro ⟨hpart, hi⟩
        obtain hmeet | hlist := hi
        . exact ⟨hunion rfl c hmeet hpart, hpart⟩
        . exact ⟨.inr hlist, hpart⟩
      . rintro ⟨hi, hpart⟩
        obtain hi | hlist := hi
        . exact ⟨hpart, .inl ⟨i, hi, hpart⟩⟩
        . exact ⟨hpart, .inr hlist⟩
    | intersection =>
      simp only [operateExtParts, mem_restrictParts, h.part, Group.mem_ofList, SciOp.set,
        SciOp.Holds, Set.mem_ofPred_eq]
      tauto
    | difference =>
      simp only [operateExtParts, mem_differenceExtParts, h.part, Group.mem_ofList, SciOp.set,
        SciOp.Holds, Set.mem_ofPred_eq]
      tauto
  exact ⟨res, hres, h.finish (.operateExt g be_list op new) hne trivial
    (by simp [Call.Step, Call.exec, hres]) hne hS hsame heq hstored⟩

end TableOk

namespace Parts

theorem mem_successorList {p : Parts}
    : k ∈ p.successorList ↔ (k ≠ VALIDBACKENDIDS ∧ k ∈ p) ∨ p.Mem VALIDBACKENDIDS k := by
  simp only [successorList, mem_flatMap, Prod.exists,
    ExtTreeMap.mem_toList_iff_getElem?_eq_some, ExtTreeMap.mem_iff_isSome_getElem?,
    Option.isSome_iff_exists]
  constructor
  . rintro ⟨c, grp, hgrp, hk⟩
    split at hk
    . next hc =>
      rw [mem_singleton] at hk
      exact .inl (hk ▸ ⟨hc, grp, hgrp⟩)
    . next hc => exact .inr ⟨grp, not_not.mp hc ▸ hgrp, Group.mem_members.mp hk⟩
  . intro h
    obtain ⟨hne, grp, hgrp⟩ | ⟨grp, hgrp, hk⟩ := h
    . exact ⟨k, grp, hgrp, by simp [hne]⟩
    . exact ⟨VALIDBACKENDIDS, grp, hgrp, by simpa using Group.mem_members.mpr hk⟩

theorem nodup_successorList {p : Parts} (hkey : ∀ c ∈ p, c ≠ VALIDBACKENDIDS → c < 0)
    (hid : ∀ i, p.Mem VALIDBACKENDIDS i → 0 ≤ i)
    : p.successorList.Nodup := by
  have hget : ∀ e ∈ p.toList, p[e.1]? = some e.2 :=
    fun e he => ExtTreeMap.mem_toList_iff_getElem?_eq_some.mp he
  have hneg : ∀ e ∈ p.toList, e.1 ≠ VALIDBACKENDIDS → e.1 < 0 := by
    intro e he
    apply hkey
    rw [ExtTreeMap.mem_iff_isSome_getElem?, hget e he]
    rfl
  have hmembers : ∀ e ∈ p.toList, e.1 = VALIDBACKENDIDS → ∀ i ∈ e.2.members, 0 ≤ i :=
    fun e he hv i hi => hid i ⟨e.2, hv ▸ hget e he, Group.mem_members.mp hi⟩
  rw [successorList, nodup_flatMap]
  refine ⟨?_, List.Pairwise.imp_of_mem ?_ (distinct_keys p)⟩
  . intro e he
    split
    . exact nodup_singleton e.1
    . exact Group.members_nodup e.2
  . intro e e' he he' hne
    rw [onFun, disjoint_left]
    intro k hk hk'
    -- agents have negative ids, back ends do not
    split at hk <;> split at hk'
    . rw [mem_singleton] at hk hk'
      exact hne (hk.symm.trans hk')
    . next hv hv' =>
      rw [mem_singleton] at hk
      have := hneg e he hv
      have := hmembers e' he' (not_not.mp hv') k hk'
      omega
    . next hv hv' =>
      rw [mem_singleton] at hk'
      have := hneg e' he' hv'
      have := hmembers e he (not_not.mp hv) k hk
      omega
    . next hv hv' => exact hne ((not_not.mp hv).trans (not_not.mp hv').symm)

end Parts

namespace TableOk

variable {cs : List Child} {S : Sets} {d : DistributedGroup}

section TableOk

variable (h : TableOk cs S d) (hcs : ChildrenOk cs)

include h hcs

theorem mem_successorList : k ∈ (d.parts g).successorList ↔ (S g ∩ Child.range cs k).Nonempty := by
  rw [Parts.mem_successorList, DistributedGroup.mem_iff_exists_mem (h.occupied g)]
  simp only [h.part]
  constructor
  . intro hk
    obtain ⟨hne, i, hi, ch, hch, hkey, hid⟩ | ⟨hi, ch, hch, hkey, hid⟩ := hk
    . cases ch with
      | backEnd e => exact absurd hkey.symm hne
      | agent t => exact ⟨i, hi, .agent t, hch, hkey, hid⟩
    . cases ch with
      | backEnd e => exact ⟨k, hi, .backEnd e, hch, (mem_singleton.mp hid).symm, hid⟩
      | agent t => exact absurd hkey (hcs.agent t hch).2
  . intro ⟨i, hi, ch, hch, hhandle, hid⟩
    cases ch with
    | backEnd e =>
      rw [Child.ids, mem_singleton] at hid
      rw [Child.handle] at hhandle
      rw [hid, hhandle] at hi
      exact .inr ⟨hi, .backEnd e, hch, rfl, by simp [Child.ids, hhandle]⟩
    | agent t =>
      rw [Child.handle] at hhandle
      exact .inl ⟨hhandle ▸ (hcs.agent t hch).2, i, hi, .agent t, hch, hhandle, hid⟩

theorem nodup_successorList (g : Int) : (d.parts g).successorList.Nodup := by
  apply Parts.nodup_successorList
  . intro c hc hne
    rw [DistributedGroup.mem_iff_exists_mem (h.occupied g)] at hc
    have ⟨i, hi⟩ := hc
    have ⟨_, ch, hch, hkey, _⟩ := (h.part g c i).mp hi
    cases ch with
    | backEnd e => exact absurd hkey.symm hne
    | agent t => exact hkey ▸ (hcs.agent t hch).1
  . intro i hi
    have ⟨_, ch, hch, hkey, hid⟩ := (h.part g _ i).mp hi
    cases ch with
    | backEnd e => exact mem_singleton.mp hid ▸ hcs.backEnd e hch
    | agent t => exact absurd hkey (hcs.agent t hch).2

theorem length_successorList_le (g : Int) : (d.parts g).successorList.length ≤ MAX_SUCCESSOR_NUM := by
  have hsub : (d.parts g).successorList ⊆ cs.map Child.handle := by
    intro k hk
    have ⟨i, _, ch, hch, hhandle, _⟩ := (h.mem_successorList hcs).mp hk
    exact mem_map.mpr ⟨ch, hch, hhandle⟩
  have := ((h.nodup_successorList hcs g).subperm hsub).length_le
  have := hcs.length_le
  rw [length_map] at *
  omega

end TableOk

end TableOk

namespace RoutingList

def queue (k : Int) (rl : RoutingList) : List Message := rl.queueInfo.getD k []

theorem mcast_spec {rl : RoutingList} (msg : Message) {l : List Int} (hl : l.Nodup)
    (hqueue : ∀ k ∈ l, k ∈ rl.queueInfo)
    : ∃ rl', rl.mcast msg l = some rl' ∧ rl'.myDistriGroup = rl.myDistriGroup ∧
        (∀ k, k ∈ rl'.queueInfo ↔ k ∈ rl.queueInfo) ∧
        ∀ k, rl'.queue k = rl.queue k ++ if k ∈ l then [msg] else [] := by
  induction l generalizing rl with
  | nil => exact ⟨rl, rfl, rfl, fun _ => .rfl, by simp⟩
  | cons c l ih =>
    rw [nodup_cons] at hl
    rw [forall_mem_cons] at hqueue
    obtain ⟨q, hq⟩ := DistributedGroup.exists_getElem? hqueue.1
    have hproduce : rl.produce c msg
        = some { rl with queueInfo := rl.queueInfo.insert c (q ++ [msg]) } := by
      simp [produce, hq]
    have hkeys : ∀ k, k ∈ rl.queueInfo.insert c (q ++ [msg]) ↔ k ∈ rl.queueInfo := by
      intro k
      simp only [ExtTreeMap.mem_insert, compare_eq_iff_eq, or_iff_right_iff_imp]
      exact fun hck => hck ▸ hqueue.1
    obtain ⟨rl', hmcast, hgroup, hkeys', hqueues⟩ :=
      @ih { rl with queueInfo := rl.queueInfo.insert c (q ++ [msg]) } hl.2
        (fun k hk => (hkeys k).mpr (hqueue.2 k hk))
    refine ⟨rl', ?_, hgroup, fun k => (hkeys' k).trans (hkeys k), ?_⟩
    . simp only [mcast, foldlM_cons, hproduce]
      exact hmcast
    . intro k
      rw [hqueues]
      by_cases hck : c = k
      . subst hck
        simp [queue, ExtTreeMap.getD_eq_getD_getElem?, hq, hl.1]
      . simp [queue, ExtTreeMap.getD_insert, hck, Ne.symm hck]

end RoutingList

structure NodeInv (cs : List Child) (S : Sets) (rl : RoutingList) : Prop where
  table : TableOk cs S rl.myDistriGroup
  queues : ∀ k, k ∈ rl.queueInfo ↔ ∃ ch ∈ cs, ch.handle = k

namespace NodeInv

open RoutingList Relay

variable {cs : List Child} {S : Sets} {rl : RoutingList}

theorem setTable (h : NodeInv cs S rl) (hd : TableOk cs S' d)
    : NodeInv cs S' { rl with myDistriGroup := d } :=
  ⟨hd, h.queues⟩

theorem bcast (h : NodeInv cs S rl) (hcs : ChildrenOk cs) (hg : g ≤ SCI_GROUP_ALL)
    {msg : Message} (htarget : msg.target S₀ = S g)
    : ∃ rl' rc, rl.bcast g msg = some (rl', rc) ∧ rl'.myDistriGroup = rl.myDistriGroup ∧
        NodeInv cs S rl' ∧
        ∀ k, rl'.queue k = rl.queue k ++ passed Message.target (Child.range cs k) S₀ msg := by
  have hmeets : ∀ k, k ∈ (rl.myDistriGroup.parts g).successorList
      ↔ Meets Message.target (Child.range cs k) S₀ msg := by
    intro k
    rw [h.table.mem_successorList hcs, Meets, htarget]
  have hpassed : ∀ (k : Int) (l : List Int), (∀ c, c ∈ l ↔ c ∈ (rl.myDistriGroup.parts g).successorList) →
      (if k ∈ l then [msg] else []) = passed Message.target (Child.range cs k) S₀ msg := by
    intro k l hl
    split
    . next hk => rw [passed_of_meets ((hmeets k).mp ((hl k).mp hk))]
    . next hk => rw [passed_of_not_meets (fun hm => hk ((hl k).mpr ((hmeets k).mpr hm)))]
  have hle : ¬g > SCI_GROUP_ALL := by omega
  unfold RoutingList.bcast
  rw [if_neg hle]
  split
  . -- the cached list of successors is the list of the children with a member
    have hcache := h.table.cachesOk g
    have hperm := hcache.successorList_perm
    have hlen := hperm.length_eq
    have hmem : ∀ c, c ∈ rl.myDistriGroup.retrieveSuccessorList g
        ↔ c ∈ (rl.myDistriGroup.parts g).successorList := fun c => hperm.mem_iff
    have hqueue : ∀ k ∈ rl.myDistriGroup.retrieveSuccessorList g, k ∈ rl.queueInfo := by
      intro k hk
      have ⟨i, _, ch, hch, hhandle, _⟩ :=
        (h.table.mem_successorList hcs).mp ((hmem k).mp hk)
      exact (h.queues k).mpr ⟨ch, hch, hhandle⟩
    have ⟨rl', hmcast, hgroup, hkeys, hqueues⟩ := mcast_spec msg
      (hperm.nodup_iff.mpr (h.table.nodup_successorList hcs g)) hqueue
    have hsplit : rl.splitBcast g msg = some rl' := by
      have hmax := h.table.length_successorList_le hcs g
      unfold splitBcast
      rw [if_pos ⟨by omega, by rw [hcache.numOfSuccessor_eq]; omega⟩, hcache.numOfSuccessor_eq, ← hlen,
        Int.toNat_natCast, take_length, hmcast]
    refine ⟨rl', .success, by rw [hsplit]; rfl, hgroup, ⟨hgroup ▸ h.table, ?_⟩, ?_⟩
    . intro k
      rw [hkeys, h.queues]
    . intro k
      rw [hqueues, hpassed k _ hmem]
  . next hex =>
    refine ⟨rl, .groupNotFound, rfl, rfl, h, ?_⟩
    intro k
    have hnil : (rl.myDistriGroup.parts g).successorList = [] := by
      rw [DistributedGroup.parts_eq_empty (ExtTreeMap.getElem?_eq_none _)]
      . exact DistributedGroup.successorList_empty
      . simpa [DistributedGroup.isGroupExist, ExtTreeMap.contains_iff_mem] using hex
    rw [← hpassed k [] (by simp [hnil])]
    simp

end NodeInv

namespace Message

def Ready (d : DistributedGroup) : Message → Prop
  | .groupFree g => g ∈ d.generalInfo
  | .groupOperate _ op g1 _ => op ≠ .union → g1 ∈ d.generalInfo
  | .groupOperateExt _ op g _ => op ≠ .union → g ∈ d.generalInfo
  | _ => True

def Applies (d d' : DistributedGroup) (rc : SciRc) : Message → Prop
  | .groupCreate new be_list => d.create be_list new = some d' ∧ rc = .success
  | .groupFree g => d.remove g = some d' ∧ rc = .success
  | .groupOperate new op g1 g2 => d.operate g1 g2 op new = some (d', rc)
  | .groupOperateExt new op g be_list => d.operateExt g be_list op new = some (d', rc)
  | .config _ => False
  | .command _ _ => False
  | .beAdd _ _ _ => False
  | .beRemove _ => False

end Message

namespace NodeInv

open RoutingList Relay

variable {cs : List Child} {S : Sets} {rl : RoutingList}

section NodeInv

variable (h : NodeInv cs S rl)

include h

theorem relay (hcs : ChildrenOk cs) (msg : Message) {new : Int}
    (hnew : new < SCI_GROUP_ALL) {res : DistributedGroup × SciRc}
    (htable : TableOk cs (update S new (msg.target S)) res.1)
    (hrc : res.2 ≠ .success → msg.target S ∩ Child.all cs = ∅)
    : ∃ rl', RoutingList.parseCmd.relay msg { rl with myDistriGroup := res.1 } new res.2
          = some (rl', res.2) ∧
        rl'.myDistriGroup = res.1 ∧
        NodeInv cs (update S new (msg.target S)) rl' ∧
        ∀ k, rl'.queue k = rl.queue k ++ passed Message.target (Child.range cs k) S msg := by
  have hinv := h.setTable htable
  unfold RoutingList.parseCmd.relay
  by_cases hsuccess : res.2 = .success
  . have htarget : msg.target S = update S new (msg.target S) new := by
      rw [update_self]
    have ⟨rl', _, hbcast, hgroup, hinv', hqueues⟩ := hinv.bcast hcs (Int.le_of_lt hnew) htarget
    refine ⟨rl', ?_, hgroup, hinv', hqueues⟩
    rw [if_pos hsuccess, hbcast]
    rfl
  . refine ⟨_, if_neg hsuccess, rfl, hinv, ?_⟩
    intro k
    rw [passed_of_not_meets, append_nil]
    . rfl
    . intro hmeets
      have hall := hmeets.mono (Child.range_subset_all cs k)
      rw [Meets, hrc hsuccess] at hall
      exact Set.not_nonempty_empty hall

theorem parseCmd (hcs : ChildrenOk cs) {msg : Message}
    (hok : msg.Admissible (Child.part cs) S) (hready : msg.Ready rl.myDistriGroup)
    (hgroup : ∀ g content, msg ≠ .command g content)
    : ∃ rl' rc, rl.parseCmd msg = some (rl', rc) ∧
        msg.Applies rl.myDistriGroup rl'.myDistriGroup rc ∧
        NodeInv cs (msg.after S) rl' ∧
        ∀ k, rl'.queue k = rl.queue k ++ passed Message.target (Child.range cs k) S msg := by
  cases msg with
  | config topo => exact absurd hok not_false
  | command g content => exact absurd rfl (hgroup g content)
  | groupCreate new be_list =>
    have ⟨d', hcreate, htable⟩ := h.table.create hcs hok.1 hok.2 be_list
    have hinv := h.setTable htable
    have htarget : (Message.groupCreate new be_list).target S
        = update S new {i | i ∈ be_list} new := by
      rw [update_self]
      rfl
    have ⟨rl', rc, hbcast, hd, hinv', hqueues⟩ := hinv.bcast hcs (Int.le_of_lt hok.1) htarget
    refine ⟨rl', .success, ?_, ⟨by rw [hd]; exact hcreate, rfl⟩, hinv', hqueues⟩
    simp [RoutingList.parseCmd, hcreate, hbcast]
  | groupFree g =>
    have htarget : (Message.groupFree g).target S = S g := rfl
    have ⟨rl', rc, hbcast, hd, hinv', hqueues⟩ := h.bcast hcs (Int.le_of_lt hok) htarget
    have ⟨d', hremove, htable⟩ := hinv'.table.remove hok (hd ▸ hready)
    refine ⟨_, .success, ?_, ⟨by rw [← hd]; exact hremove, rfl⟩, hinv'.setTable htable, hqueues⟩
    simp [RoutingList.parseCmd, hbcast, hremove]
  | groupOperate new op g1 g2 =>
    have ⟨res, hres, htable, hrc⟩ := @TableOk.operate _ _ _ h.table new g1 g2 op hok.1 hok.2 hready
    have ⟨rl', hrelay, hd, hinv', hqueues⟩ :=
      h.relay hcs (.groupOperate new op g1 g2) hok.1 htable hrc
    refine ⟨rl', res.2, ?_, by rw [hd]; exact hres, hinv', hqueues⟩
    simp [RoutingList.parseCmd, hres, hrelay]
  | groupOperateExt new op g be_list =>
    have ⟨res, hres, htable, hrc⟩ := h.table.operateExt hcs hok.1 hok.2.1 hready hok.2.2
    have ⟨rl', hrelay, hd, hinv', hqueues⟩ :=
      h.relay hcs (.groupOperateExt new op g be_list) hok.1 htable hrc
    refine ⟨rl', res.2, ?_, by rw [hd]; exact hres, hinv', hqueues⟩
    simp [RoutingList.parseCmd, hres, hrelay]
  | beAdd be_id host lev => exact absurd hok not_false
  | beRemove be_id => exact absurd hok not_false

theorem process (hcs : ChildrenOk cs)
    (hok : msg.Admissible (Child.part cs) S) (hready : msg.Ready rl.myDistriGroup)
    : ∃ rl', rl.process msg = some rl' ∧ NodeInv cs (msg.after S) rl' ∧
        ∀ k, rl'.queue k = rl.queue k ++ passed Message.target (Child.range cs k) S msg := by
  by_cases hgroup : ∀ g content, msg ≠ .command g content
  . have ⟨rl', rc, hparse, _, hinv, hqueues⟩ := h.parseCmd hcs hok hready hgroup
    refine ⟨rl', ?_, hinv, hqueues⟩
    cases msg with
    | config topo => exact absurd hok not_false
    | command g content => exact absurd rfl (hgroup g content)
    | beAdd be_id host lev => exact absurd hok not_false
    | beRemove be_id => exact absurd hok not_false
    | _ => simp [RoutingList.process, hparse]
  . simp only [not_forall, not_not] at hgroup
    obtain ⟨g, content, rfl⟩ := hgroup
    have htarget : (Message.command g content).target S = S g := rfl
    have ⟨rl', rc, hbcast, _, hinv, hqueues⟩ := h.bcast hcs hok htarget
    exact ⟨rl', by simp [RoutingList.process, hbcast], hinv, hqueues⟩

theorem ready_of_meets (hmeets : Meets Message.target (Child.all cs) S msg)
    : msg.Ready rl.myDistriGroup := by
  have ⟨i, hi, hall⟩ := hmeets
  cases msg with
  | groupFree g => exact h.table.mem_generalInfo hi hall
  | groupOperate new op g1 g2 =>
    intro hop
    cases op with
    | union => exact absurd rfl hop
    | intersection | difference => exact h.table.mem_generalInfo hi.1 hall
  | groupOperateExt new op g be_list =>
    intro hop
    cases op with
    | union => exact absurd rfl hop
    | intersection | difference => exact h.table.mem_generalInfo hi.1 hall
  | _ => trivial

theorem skip (hok : msg.Admissible (Child.part cs) S)
    (hmeets : ¬Meets Message.target (Child.all cs) S msg)
    : NodeInv cs (msg.after S) rl := by
  have hnone : ∀ i ∈ msg.target S, ∀ c, i ∉ Child.part cs c := by
    intro i hi c hpart
    have ⟨ch, hch, _, hid⟩ := hpart
    exact hmeets ⟨i, hi, ch, hch, hid⟩
  have hupdate : ∀ g T, (∀ i ∈ S g, ∀ c, i ∉ Child.part cs c) → (∀ i ∈ T, ∀ c, i ∉ Child.part cs c) →
      NodeInv cs (update S g T) rl := by
    intro g T hS hT
    refine ⟨⟨h.table.all, ?_, h.table.tableInv, h.table.cachesOk, h.table.occupied⟩, h.queues⟩
    intro g' c i
    rw [h.table.part]
    by_cases heq : g' = g
    . subst heq
      rw [update_self]
      exact ⟨fun hi => absurd hi.2 (hS i hi.1 c), fun hi => absurd hi.2 (hT i hi.1 c)⟩
    . rw [update_of_ne heq]
  cases msg with
  | config topo => exact h
  | command g content => exact h
  | groupFree g => exact hupdate g ∅ hnone (by simp)
  | groupCreate new be_list => exact hupdate new _ (by simp [hok.2]) hnone
  | groupOperate new op g1 g2 => exact hupdate new _ (by simp [hok.2]) hnone
  | groupOperateExt new op g be_list => exact hupdate new _ (by simp [hok.2.1]) hnone
  | beAdd be_id host lev => exact h
  | beRemove be_id => exact h

theorem processAll (hcs : ChildrenOk cs)
    (hok : Admits Message.after (Message.Admissible (Child.part cs)) S hist)
    : ∃ rl',
        rl.processAll (relevant Message.after Message.target (Child.all cs) S hist) = some rl' ∧
        NodeInv cs (hist.foldl Message.after S) rl' ∧
        ∀ k, rl'.queue k
          = rl.queue k ++ relevant Message.after Message.target (Child.range cs k) S hist := by
  apply foldlM_relevant _ _ (Child.range_subset_all cs) h hok
  . intro S rl msg h hok hmeets
    exact h.process hcs hok (h.ready_of_meets hmeets)
  . intro S rl msg h hok hmeets
    exact h.skip hok hmeets

end NodeInv

end NodeInv

end Sci
