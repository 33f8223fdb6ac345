import Cloudland.Sci.Routing.Multicast

/-!
The group calls and the broadcast of the front end (`libsci/api.cpp`) on top of the tree.
-/

namespace Sci

open OrdMap Relay Option Function
open Std (ExtTreeMap)

structure FrontEnd where
  topology : Topology
  routingList : RoutingList
  nextGroupID : Int
  -- everything ever produced into the router's queue
  routerIn : List Message

namespace FrontEnd

def init (topo : Topology) : Option FrontEnd := do
  let rl ← RoutingList.new.process (.config topo)
  return ⟨topo, rl, SCI_GROUP_ALL - 1, [.config topo]⟩

def isGroupExist (fe : FrontEnd) (group : Int) : Bool := fe.routingList.myDistriGroup.isGroupExist group

variable (fe : FrontEnd)

def submit (msg : Message) : Option (FrontEnd × SciRc) := do
  let res ← fe.routingList.parseCmd msg
  return ({ fe with routingList := res.1, routerIn := fe.routerIn ++ [msg] }, res.2)

def submitNew (msg : Int → Message) : Option (FrontEnd × SciRc) :=
  { fe with nextGroupID := fe.nextGroupID - 1 }.submit (msg fe.nextGroupID)

def bcast (group : Int) (content : String) : Option (FrontEnd × SciRc) :=
  let found :=
    if group > SCI_GROUP_ALL then fe.topology.hasBE group else fe.isGroupExist group
  if found then do
    let rl ← fe.routingList.process (.command group content)
    return ({ fe with routingList := rl, routerIn := fe.routerIn ++ [.command group content] },
      .success)
  else
    some (fe, .groupNotFound)

def groupCreate (fe : FrontEnd) (be_list : List Int) : Option (FrontEnd × SciRc) :=
  if be_list.all fe.topology.hasBE then
    fe.submitNew (.groupCreate · be_list)
  else
    some (fe, .backendNotFound)

def groupFree (fe : FrontEnd) (group : Int) : Option (FrontEnd × SciRc) :=
  if group ≥ SCI_GROUP_ALL then
    some (fe, .groupPredefined)
  else if fe.isGroupExist group then
    fe.submit (.groupFree group)
  else
    some (fe, .groupNotFound)

def groupOperate (fe : FrontEnd) (group1 group2 : Int) (op : SciOp) : Option (FrontEnd × SciRc) :=
  if fe.isGroupExist group1 && fe.isGroupExist group2 then
    fe.submitNew (.groupOperate · op group1 group2)
  else
    some (fe, .groupNotFound)

def groupOperateExt (fe : FrontEnd) (group : Int) (be_list : List Int) (op : SciOp)
    : Option (FrontEnd × SciRc) :=
  if fe.isGroupExist group then
    if be_list.all fe.topology.hasBE then
      fe.submitNew (.groupOperateExt · op group be_list)
    else
      some (fe, .backendNotFound)
  else
    some (fe, .groupNotFound)

end FrontEnd

namespace DistributedGroup

variable {d d' : DistributedGroup} {g : Int}

theorem touch_of_mem (h : g ∈ d.generalInfo) : d.touch g = d := by
  have : d.generalInfo.insertIfNew g ∅ = d.generalInfo := by
    apply ExtTreeMap.ext_getElem?
    intro k
    rw [ExtTreeMap.getElem?_insertIfNew]
    split
    . next hk =>
      obtain rfl : g = k := by simpa using hk.1
      exact absurd h hk.2
    . rfl
  unfold touch
  rw [this]

theorem mem_touch : h ∈ (d.touch g).generalInfo ↔ h = g ∨ h ∈ d.generalInfo := by
  simp [touch, ExtTreeMap.mem_insertIfNew, @eq_comm _ h g]

theorem mem_reset : h ∈ (d.reset g).generalInfo ↔ h = g ∨ h ∈ d.generalInfo :=
  mem_touch

theorem mem_store_generalInfo
    : h ∈ (d.store g stored).generalInfo ↔ (h = g ∧ stored.isEmpty = false) ∨ h ∈ d.generalInfo := by
  unfold store
  split
  . next he => simp [he]
  . next he => simp [he, setParts, ExtTreeMap.mem_insert, @eq_comm _ h g]

theorem mem_create (hcreate : d.create be_list g = some d')
    : h ∈ d'.generalInfo ↔ h = g ∨ h ∈ d.generalInfo := by
  rw [create_eq_some hcreate, mem_reset, mem_store_generalInfo]
  tauto

theorem mem_remove (hremove : d.remove g = some d') : h ∈ d'.generalInfo ↔ h ≠ g ∧ h ∈ d.generalInfo := by
  simp only [remove, bind_eq_bind, bind_eq_some_iff, pure_def,
    some.injEq] at hremove
  obtain ⟨_, _, rfl⟩ := hremove
  simp [ExtTreeMap.mem_erase, @eq_comm _ h g]

theorem mem_finish_generalInfo
    : h ∈ (d.finish g stored (hasMember op stored)).1.generalInfo
        ↔
      (h = g ∧ (d.finish g stored (hasMember op stored)).2 = .success) ∨ h ∈ d.generalInfo := by
  unfold finish
  split
  . rw [mem_reset, mem_store_generalInfo]
    simp
    tauto
  . next hb =>
    have he : stored.isEmpty = true := by
      simp only [hasMember, Bool.or_eq_true, not_or, Bool.not_eq_true, Bool.not_eq_false'] at hb
      exact hb.2
    rw [mem_store_generalInfo]
    simp [he]

theorem mem_operate {g1 g2 new h : Int} {op : SciOp} {res : DistributedGroup × SciRc}
    (hg1 : g1 ∈ d.generalInfo) (hg2 : g2 ∈ d.generalInfo) (hres : d.operate g1 g2 op new = some res)
    : h ∈ res.1.generalInfo ↔ (h = new ∧ res.2 = .success) ∨ h ∈ d.generalInfo := by
  have hfinish : res = d.finish new (operateParts (d.parts g1) (d.parts g2) op)
      (hasMember op (operateParts (d.parts g1) (d.parts g2) op)) := by
    have ⟨p, hp⟩ := exists_getElem? hg1
    have hparts := parts_eq_of_getElem? hp
    cases op <;>
      simp only [operate, hp, touch_of_mem hg1, touch_of_mem hg2, ite_self, ← hparts] at hres <;>
      exact (some.inj hres).symm
  rw [hfinish]
  exact mem_finish_generalInfo

theorem mem_operateExt {g1 new h : Int} {be_list : List Int} {op : SciOp}
    {res : DistributedGroup × SciRc} (hg : g1 ∈ d.generalInfo) (hall : SCI_GROUP_ALL ∈ d.generalInfo)
    (hres : d.operateExt g1 be_list op new = some res)
    : h ∈ res.1.generalInfo ↔ (h = new ∧ res.2 = .success) ∨ h ∈ d.generalInfo := by
  have hfinish : res = d.finish new
      (operateExtParts (d.parts SCI_GROUP_ALL) (d.parts g1) (Group.ofList be_list) op)
      (hasMember op
        (operateExtParts (d.parts SCI_GROUP_ALL) (d.parts g1) (Group.ofList be_list) op)) := by
    have ⟨p, hp⟩ := exists_getElem? hg
    have ⟨all, hpall⟩ := exists_getElem? hall
    have hparts := parts_eq_of_getElem? hp
    have hpartsAll := parts_eq_of_getElem? hpall
    cases op <;>
      simp only [operateExt, hp, hpall, touch_of_mem hg, ite_self, ← hparts, ← hpartsAll] at hres <;>
      exact (some.inj hres).symm
  rw [hfinish]
  exact mem_finish_generalInfo

end DistributedGroup

namespace FrontEnd

inductive Call where
  | groupCreate (be_list : List Int)
  | groupFree (group : Int)
  | groupOperate (group1 group2 : Int) (op : SciOp)
  | groupOperateExt (group : Int) (be_list : List Int) (op : SciOp)
  | bcast (group : Int) (content : String)

def Call.exec (fe : FrontEnd) : Call → Option (FrontEnd × SciRc)
  | .groupCreate be_list => fe.groupCreate be_list
  | .groupFree group => fe.groupFree group
  | .groupOperate group1 group2 op => fe.groupOperate group1 group2 op
  | .groupOperateExt group be_list op => fe.groupOperateExt group be_list op
  | .bcast group content => fe.bcast group content

-- the message that a call submits; `g` is the id that a new group gets
def Call.message (g : Int) : Call → Message
  | .groupCreate be_list => .groupCreate g be_list
  | .groupFree group => .groupFree group
  | .groupOperate group1 group2 op => .groupOperate g op group1 group2
  | .groupOperateExt group be_list op => .groupOperateExt g op group be_list
  | .bcast group content => .command group content

def Call.Short (maxSegmentSize : Nat) (fe : FrontEnd) (call : Call) : Prop :=
  (call.message fe.nextGroupID).contentLen ≤ maxSegmentSize ∧ CInt.IsInt (fe.nextGroupID - 1)

theorem routerIn_submit {fe : FrontEnd} (h : fe.submit msg = some (fe', rc)) : fe'.routerIn = fe.routerIn ++ [msg] := by
  simp only [submit, bind_eq_bind, bind_eq_some_iff, pure_def, some.injEq, Prod.mk.injEq] at h
  obtain ⟨_, _, rfl, _⟩ := h
  rfl

theorem routerIn_exec {fe : FrontEnd} (call : Call) (h : call.exec fe = some (fe', rc))
    : fe'.routerIn = fe.routerIn ∨ fe'.routerIn = fe.routerIn ++ [call.message fe.nextGroupID] := by
  cases call with
  | bcast g content =>
    simp only [Call.exec, FrontEnd.bcast] at h
    generalize (if g > SCI_GROUP_ALL then _ else _ : Bool) = found at h
    cases found with
    | true =>
      simp only [if_true, bind_eq_bind, bind_eq_some_iff, pure_def, some.injEq, Prod.mk.injEq] at h
      obtain ⟨_, _, rfl, _⟩ := h
      exact .inr rfl
    | false =>
      cases h
      exact .inl rfl
  | _ =>
    simp only [Call.exec, groupCreate, groupFree, groupOperate, groupOperateExt, submitNew] at h
    split at h
    all_goals try split at h
    all_goals first
      | cases h; exact .inl rfl
      | have hrouter := routerIn_submit h; exact .inr hrouter

def Call.Completes (fe : FrontEnd) : Call → Prop
  | .groupOperateExt group be_list .union =>
    ∀ c i, (∃ j, (fe.routingList.myDistriGroup.parts group).Mem c j) →
      (fe.routingList.myDistriGroup.parts SCI_GROUP_ALL).Mem c i →
      (fe.routingList.myDistriGroup.parts group).Mem c i ∨ i ∈ be_list
  | .bcast group _ => group ≤ SCI_GROUP_ALL
  | _ => True

end FrontEnd

structure Session where
  fe : FrontEnd
  groups : Int → Option (Set Int)

namespace Session

def sets (s : Session) : Sets := fun g => (s.groups g).getD ∅

def start (topo : Topology) (fe : FrontEnd) : Session :=
  ⟨fe, update (fun _ => none) SCI_GROUP_ALL (some {i | i ∈ topo.ids})⟩

def record (s : Session) : FrontEnd.Call → Int → Option (Set Int)
  | .groupCreate be_list => update s.groups s.fe.nextGroupID (some {i | i ∈ be_list})
  | .groupFree group => update s.groups group none
  | .groupOperate group1 group2 op =>
    update s.groups s.fe.nextGroupID (some (op.set (s.sets group1) (s.sets group2)))
  | .groupOperateExt group be_list op =>
    update s.groups s.fe.nextGroupID (some (op.set (s.sets group) {i | i ∈ be_list}))
  | .bcast _ _ => s.groups

def Step (s : Session) (call : FrontEnd.Call) (s' : Session) : Prop :=
  ∃ rc, call.exec s.fe = some (s'.fe, rc) ∧
    s'.groups = if rc = .success then s.record call else s.groups

end Session

structure Logged (topo : Topology) (hist : List Message) (S : Sets) (fe : FrontEnd) : Prop where
  routerIn : fe.routerIn = .config topo :: hist
  processed : RoutingList.new.processAll fe.routerIn = some fe.routingList
  admits : Admits Message.after (Message.Admissible (Child.part topo.children))
    (.initial topo.ids) hist
  sets : hist.foldl Message.after (.initial topo.ids) = S
  node : NodeInv topo.children S fe.routingList
  queue : ∀ ch ∈ topo.children, fe.routingList.queue ch.handle
    = ch.queue ++ relevant Message.after Message.target {i | i ∈ ch.ids} (.initial topo.ids) hist

namespace Logged

variable {topo : Topology} {a : Int} {hist : List Message} {S : Sets} {fe : FrontEnd}

section Logged

variable (h : Logged topo hist S fe) (hd : topo.Deployable a)

include h hd

theorem append (hok : msg.Admissible (Child.part topo.children) S)
    (hprocess : fe.routingList.process msg = some rl) (hnode : NodeInv topo.children (msg.after S) rl)
    (hqueues : ∀ k, rl.queue k
      = fe.routingList.queue k ++ passed Message.target (Child.range topo.children k) S msg)
    : Logged topo (hist ++ [msg]) (msg.after S) ⟨fe.topology, rl, next, fe.routerIn ++ [msg]⟩ := by
  constructor
  . rw [h.routerIn]
    rfl
  . have := h.processed
    simp only [RoutingList.processAll, List.foldlM_append, List.foldlM_cons, List.foldlM_nil] at *
    simp [this, hprocess]
  . exact admits_append.mpr ⟨h.admits, h.sets ▸ hok⟩
  . rw [List.foldl_append, h.sets]
    rfl
  . exact hnode
  . intro ch hch
    rw [hqueues, h.queue ch hch, relevant_append, h.sets, Topology.range_handle hd hch,
      List.append_assoc]

theorem submit (hcs : ChildrenOk topo.children) (next : Int)
    (hok : msg.Admissible (Child.part topo.children) S) (hready : msg.Ready fe.routingList.myDistriGroup)
    (hgroup : ∀ g content, msg ≠ .command g content)
    : ∃ fe' rc, { fe with nextGroupID := next }.submit msg = some (fe', rc) ∧
        fe'.topology = fe.topology ∧ fe'.nextGroupID = next ∧
        msg.Applies fe.routingList.myDistriGroup fe'.routingList.myDistriGroup rc ∧
        Logged topo (hist ++ [msg]) (msg.after S) fe' := by
  have ⟨rl, rc, hparse, happlies, hnode, hqueues⟩ := h.node.parseCmd hcs hok hready hgroup
  have hprocess : fe.routingList.process msg = some rl := by
    cases msg with
    | config topo => exact absurd hok not_false
    | command g content => exact absurd rfl (hgroup g content)
    | _ => simp [RoutingList.process, hparse]
  refine ⟨⟨fe.topology, rl, next, fe.routerIn ++ [msg]⟩, rc, ?_, rfl, rfl, happlies,
    h.append hd hok hprocess hnode hqueues⟩
  simp [FrontEnd.submit, hparse]

theorem bcast (hcs : ChildrenOk topo.children) (hg : g ≤ SCI_GROUP_ALL) (content : String)
    (hex : g ∈ fe.routingList.myDistriGroup.generalInfo)
    : ∃ fe', fe.bcast g content = some (fe', .success) ∧
        fe'.topology = fe.topology ∧ fe'.nextGroupID = fe.nextGroupID ∧
        fe'.routingList.myDistriGroup = fe.routingList.myDistriGroup ∧
        Logged topo (hist ++ [.command g content]) S fe' := by
  have htarget : (Message.command g content).target S = S g := rfl
  have ⟨rl, rc, hbcast, htable, hnode, hqueues⟩ := h.node.bcast hcs hg htarget
  have hprocess : fe.routingList.process (.command g content) = some rl := by
    simp [RoutingList.process, hbcast]
  have hok : (Message.command g content).Admissible (Child.part topo.children) S := hg
  have hfound : fe.isGroupExist g = true := ExtTreeMap.contains_iff_mem.mpr hex
  have hle : ¬g > SCI_GROUP_ALL := by omega
  have happend : Logged topo (hist ++ [.command g content]) S
      ⟨fe.topology, rl, fe.nextGroupID, fe.routerIn ++ [.command g content]⟩ :=
    h.append hd hok hprocess hnode hqueues
  refine ⟨{ fe with routingList := rl, routerIn := fe.routerIn ++ [.command g content] }, ?_, rfl, rfl,
    htable, happend⟩
  simp [FrontEnd.bcast, hle, hfound, hprocess]

end Logged

end Logged

namespace Session

structure Inv (topo : Topology) (s : Session) : Prop where
  logged : ∃ hist, Logged topo hist s.sets s.fe
  topology_eq : s.fe.topology = topo
  exist : ∀ g, g ∈ s.fe.routingList.myDistriGroup.generalInfo ↔ (s.groups g).isSome
  next_lt : s.fe.nextGroupID < SCI_GROUP_ALL
  fresh : ∀ g, g ≤ s.fe.nextGroupID → s.groups g = none
  group_le : ∀ g, (s.groups g).isSome → g ≤ SCI_GROUP_ALL
  bounded : ∀ g i, i ∈ s.sets g → i ∈ topo.ids

variable {topo : Topology} {a : Int} {s : Session}

theorem sets_update (s : Session) (fe : FrontEnd) (g : Int) (G : Option (Set Int))
    : sets ⟨fe, update s.groups g G⟩ = update s.sets g (G.getD ∅) := by
  funext g'
  unfold sets
  by_cases h : g' = g
  . subst h
    simp
  . simp [update_of_ne h]

theorem Inv.sets_next (h : Inv topo s) : s.sets s.fe.nextGroupID = ∅ := by
  simp [sets, h.fresh _ (Int.le_refl _)]

theorem bounded_update (h : ∀ g i, i ∈ s.sets g → i ∈ topo.ids) (hT : ∀ i ∈ T, i ∈ topo.ids)
    : ∀ g' i, i ∈ update s.sets g T g' → i ∈ topo.ids := by
  intro g' i hi
  by_cases hg : g' = g
  . subst hg
    rw [update_self] at hi
    exact hT i hi
  . rw [update_of_ne hg] at hi
    exact h g' i hi

theorem Inv.new (h : Inv topo s) (hd : topo.Deployable a) {rc : SciRc}
    {hist : List Message} {T : Set Int} (htopo : fe'.topology = s.fe.topology)
    (hnext : fe'.nextGroupID = s.fe.nextGroupID - 1)
    (hlogged : Logged topo hist (update s.sets s.fe.nextGroupID T) fe')
    (hmem : ∀ g, g ∈ fe'.routingList.myDistriGroup.generalInfo
      ↔ (g = s.fe.nextGroupID ∧ rc = .success) ∨ g ∈ s.fe.routingList.myDistriGroup.generalInfo)
    (hT : ∀ i ∈ T, i ∈ topo.ids)
    : Inv topo
        ⟨fe', if rc = .success then update s.groups s.fe.nextGroupID (some T) else s.groups⟩ := by
  have hlt := h.next_lt
  have hnone := h.fresh s.fe.nextGroupID (Int.le_refl _)
  by_cases hrc : rc = .success
  . rw [if_pos hrc]
    refine ⟨⟨hist, ?_⟩, htopo.trans h.topology_eq, ?_, ?_, ?_, ?_, ?_⟩
    . rw [sets_update]
      exact hlogged
    . intro g
      rw [hmem, h.exist]
      by_cases hg : g = s.fe.nextGroupID
      . simp [hg, hrc]
      . simp [hg]
    . dsimp only
      omega
    . intro g hg
      dsimp only at hg ⊢
      rw [update_of_ne (by omega)]
      exact h.fresh g (by omega)
    . intro g hg
      by_cases hnew : g = s.fe.nextGroupID
      . omega
      . dsimp only at hg
        rw [update_of_ne hnew] at hg
        exact h.group_le g hg
    . rw [sets_update]
      exact bounded_update h.bounded hT
  . -- the new group was not entered, so the front end filed none of its members
    have hempty : T = ∅ := by
      rw [Set.eq_empty_iff_forall_notMem]
      intro i hi
      have hi' : i ∈ update s.sets s.fe.nextGroupID T s.fe.nextGroupID := by
        rwa [update_self]
      have hex := hlogged.node.table.mem_generalInfo hi'
        ((Topology.mem_all_children hd).mpr (hT i hi))
      simp [hmem, hrc, h.exist, hnone] at hex
    rw [if_neg hrc]
    refine ⟨⟨hist, ?_⟩, htopo.trans h.topology_eq, ?_, ?_, ?_, h.group_le, h.bounded⟩
    . rw [hempty, ← h.sets_next, update_eq_self] at hlogged
      exact hlogged
    . intro g
      rw [hmem, h.exist]
      simp [hrc]
    . dsimp only
      omega
    . exact fun g hg => h.fresh g (by dsimp only at hg; omega)

theorem Inv.free (h : Inv topo s) (htopo : fe'.topology = s.fe.topology)
    (hnext : fe'.nextGroupID = s.fe.nextGroupID) (hlogged : Logged topo hist (update s.sets g ∅) fe')
    (hmem : ∀ g', g' ∈ fe'.routingList.myDistriGroup.generalInfo
      ↔ g' ≠ g ∧ g' ∈ s.fe.routingList.myDistriGroup.generalInfo)
    : Inv topo ⟨fe', update s.groups g none⟩ := by
  have hfreed : ∀ g', (update s.groups g none g').isSome → (s.groups g').isSome := by
    intro g' hg'
    by_cases heq : g' = g
    . simp [heq] at hg'
    . rwa [update_of_ne heq] at hg'
  refine ⟨⟨hist, ?_⟩, htopo.trans h.topology_eq, ?_, ?_, ?_, ?_, ?_⟩
  . rw [sets_update]
    exact hlogged
  . intro g'
    rw [hmem, h.exist]
    by_cases heq : g' = g
    . simp [heq]
    . simp [heq]
  . rw [hnext]
    exact h.next_lt
  . intro g' hg'
    rw [hnext] at hg'
    have := h.fresh g' hg'
    by_contra hne
    have := hfreed g' (ne_none_iff_isSome.mp hne)
    simp_all
  . exact fun g' hg' => h.group_le g' (hfreed g' hg')
  . rw [sets_update]
    exact bounded_update h.bounded (by simp)

theorem Inv.isGroupExist (h : Inv topo s) : s.fe.isGroupExist g = true ↔ (s.groups g).isSome := by
  rw [← h.exist]
  exact ExtTreeMap.contains_iff_mem

theorem all_hasBE {be_list : List Int} : be_list.all topo.hasBE = true ↔ ∀ i ∈ be_list, i ∈ topo.ids := by
  simp [Topology.hasBE, Topology.ids]

section Calls

variable (h : Inv topo s) (hd : topo.Deployable a) (hcs : ChildrenOk topo.children)
include h hd hcs

theorem Inv.groupCreate_of_known {be_list : List Int} (hlist : be_list.all topo.hasBE = true)
    : ∃ fe', s.fe.groupCreate be_list = some (fe', .success) ∧
        fe'.routerIn = s.fe.routerIn ++ [.groupCreate s.fe.nextGroupID be_list] ∧
        Inv topo ⟨fe', s.record (.groupCreate be_list)⟩ := by
  have ⟨hist, hlogged⟩ := h.logged
  have hnew := And.intro h.next_lt h.sets_next
  have ⟨fe', rc, hsubmit, htopo, hnext, happlies, hlogged'⟩ :=
    hlogged.submit hd hcs (s.fe.nextGroupID - 1)
      (show (Message.groupCreate s.fe.nextGroupID be_list).Admissible _ _ from hnew) trivial
      (by simp)
  have hinv : Inv topo ⟨fe', if rc = .success then s.record (.groupCreate be_list) else s.groups⟩ := by
    refine h.new hd htopo hnext hlogged' ?_ (all_hasBE.mp hlist)
    intro g
    rw [DistributedGroup.mem_create happlies.1]
    simp [happlies.2]
  rw [if_pos happlies.2] at hinv
  refine ⟨fe', ?_, ?_, hinv⟩
  . rw [FrontEnd.groupCreate, h.topology_eq, if_pos hlist, ← happlies.2]
    exact hsubmit
  . rw [hlogged'.routerIn, hlogged.routerIn]
    rfl

theorem Inv.groupCreate (be_list : List Int)
    : ∃ fe' rc, s.fe.groupCreate be_list = some (fe', rc) ∧
        Inv topo ⟨fe', if rc = .success then s.record (.groupCreate be_list) else s.groups⟩ := by
  by_cases hlist : be_list.all topo.hasBE = true
  . have ⟨fe', hcreate, _, hinv⟩ := h.groupCreate_of_known hd hcs hlist
    exact ⟨fe', .success, hcreate, hinv⟩
  . rw [FrontEnd.groupCreate, h.topology_eq, if_neg hlist]
    exact ⟨s.fe, .backendNotFound, rfl, h⟩

theorem Inv.groupFree_of_exist (hg : g < SCI_GROUP_ALL) (hex : s.fe.isGroupExist g = true)
    : ∃ fe', s.fe.groupFree g = some (fe', .success) ∧
        fe'.routerIn = s.fe.routerIn ++ [.groupFree g] ∧
        fe'.nextGroupID = s.fe.nextGroupID ∧
        Inv topo ⟨fe', s.record (.groupFree g)⟩ := by
  have ⟨hist, hlogged⟩ := h.logged
  have ⟨fe', rc, hsubmit, htopo, hnext, happlies, hlogged'⟩ :=
    hlogged.submit hd hcs s.fe.nextGroupID
      (show (Message.groupFree g).Admissible _ _ from hg)
      (show (Message.groupFree g).Ready _ from ExtTreeMap.contains_iff_mem.mp hex) (by simp)
  refine ⟨fe', ?_, ?_, hnext, ?_⟩
  . rw [FrontEnd.groupFree, if_neg (Int.not_le.mpr hg), if_pos hex, ← happlies.2]
    exact hsubmit
  . rw [hlogged'.routerIn, hlogged.routerIn]
    rfl
  . exact h.free htopo hnext hlogged' (fun g' => DistributedGroup.mem_remove happlies.1)

theorem Inv.groupFree (g : Int)
    : ∃ fe' rc, s.fe.groupFree g = some (fe', rc) ∧
        Inv topo ⟨fe', if rc = .success then s.record (.groupFree g) else s.groups⟩ := by
  by_cases hg : g ≥ SCI_GROUP_ALL
  . rw [FrontEnd.groupFree, if_pos hg]
    exact ⟨s.fe, .groupPredefined, rfl, h⟩
  . by_cases hex : s.fe.isGroupExist g = true
    . have ⟨fe', hfree, _, _, hinv⟩ := h.groupFree_of_exist hd hcs (Int.not_le.mp hg) hex
      exact ⟨fe', .success, hfree, hinv⟩
    . rw [FrontEnd.groupFree, if_neg hg, if_neg hex]
      exact ⟨s.fe, .groupNotFound, rfl, h⟩

theorem Inv.groupOperate (g1 g2 : Int) (op : SciOp)
    : ∃ fe' rc, s.fe.groupOperate g1 g2 op = some (fe', rc) ∧
        Inv topo ⟨fe', if rc = .success then s.record (.groupOperate g1 g2 op) else s.groups⟩ := by
  have ⟨hist, hlogged⟩ := h.logged
  have hnew := And.intro h.next_lt h.sets_next
  unfold FrontEnd.groupOperate
  by_cases hex : (s.fe.isGroupExist g1 && s.fe.isGroupExist g2) = true
  . rw [if_pos hex]
    rw [Bool.and_eq_true] at hex
    have hg1 := ExtTreeMap.contains_iff_mem.mp hex.1
    have hg2 := ExtTreeMap.contains_iff_mem.mp hex.2
    have ⟨fe', rc, hsubmit, htopo, hnext, happlies, hlogged'⟩ :=
      hlogged.submit hd hcs (s.fe.nextGroupID - 1)
        (show (Message.groupOperate s.fe.nextGroupID op g1 g2).Admissible _ _ from hnew)
        (show (Message.groupOperate _ _ _ _).Ready _ from fun _ => hg1) (by simp)
    refine ⟨fe', rc, hsubmit, h.new hd htopo hnext hlogged' ?_ ?_⟩
    . exact fun g => DistributedGroup.mem_operate hg1 hg2 happlies
    . intro i hi
      have h1 := h.bounded g1 i
      have h2 := h.bounded g2 i
      cases op <;> simp only [SciOp.set, SciOp.Holds, Set.mem_ofPred_eq] at hi <;> tauto
  . rw [if_neg hex]
    exact ⟨s.fe, .groupNotFound, rfl, h⟩

theorem Inv.groupOperateExt (g : Int) (be_list : List Int) (op : SciOp)
    (hok : (FrontEnd.Call.groupOperateExt g be_list op).Completes s.fe)
    : ∃ fe' rc, s.fe.groupOperateExt g be_list op = some (fe', rc) ∧
        Inv topo ⟨fe', if rc = .success then s.record (.groupOperateExt g be_list op) else s.groups⟩ := by
  have ⟨hist, hlogged⟩ := h.logged
  have hnew := And.intro h.next_lt h.sets_next
  unfold FrontEnd.groupOperateExt
  rw [h.topology_eq]
  by_cases hex : s.fe.isGroupExist g = true
  . rw [if_pos hex]
    by_cases hlist : be_list.all topo.hasBE = true
    . rw [if_pos hlist]
      have hg := ExtTreeMap.contains_iff_mem.mp hex
      have hunion : op = .union → ∀ c, (s.sets g ∩ Child.part topo.children c).Nonempty →
          Child.part topo.children c ⊆ s.sets g ∪ {i | i ∈ be_list} := by
        rintro rfl c ⟨j, hj⟩ i hi
        have hcomplete := hok c i ⟨j, (hlogged.node.table.part g c j).mpr hj⟩
          ((hlogged.node.table.all c i).mpr hi)
        rw [hlogged.node.table.part] at hcomplete
        exact hcomplete.imp (fun h => h.1) id
      have ⟨fe', rc, hsubmit, htopo, hnext, happlies, hlogged'⟩ :=
        hlogged.submit hd hcs (s.fe.nextGroupID - 1)
          (show (Message.groupOperateExt s.fe.nextGroupID op g be_list).Admissible _ _ from
            ⟨hnew.1, hnew.2, hunion⟩)
          (show (Message.groupOperateExt _ _ _ _).Ready _ from fun _ => hg) (by simp)
      refine ⟨fe', rc, hsubmit, h.new hd htopo hnext hlogged' ?_ ?_⟩
      . exact fun g' => DistributedGroup.mem_operateExt hg
          (hlogged.node.table.all_mem_generalInfo hcs) happlies
      . intro i hi
        have h1 := h.bounded g i
        have h2 := all_hasBE.mp hlist i
        cases op <;> simp only [SciOp.set, SciOp.Holds, Set.mem_ofPred_eq] at hi <;> tauto
    . rw [if_neg hlist]
      exact ⟨s.fe, .backendNotFound, rfl, h⟩
  . rw [if_neg hex]
    exact ⟨s.fe, .groupNotFound, rfl, h⟩

theorem Inv.bcast_of_exist (hok : g ≤ SCI_GROUP_ALL) (content : String)
    (hex : g ∈ s.fe.routingList.myDistriGroup.generalInfo)
    : ∃ fe', s.fe.bcast g content = some (fe', .success) ∧
        fe'.routerIn = s.fe.routerIn ++ [.command g content] ∧
        fe'.nextGroupID = s.fe.nextGroupID ∧
        Inv topo ⟨fe', s.groups⟩ := by
  have ⟨hist, hlogged⟩ := h.logged
  have ⟨fe', hbcast, htopo, hnext, htable, hlogged'⟩ := hlogged.bcast hd hcs hok content hex
  refine ⟨fe', hbcast, ?_, hnext, ⟨_, hlogged'⟩, htopo.trans h.topology_eq, ?_, hnext ▸ h.next_lt, ?_,
    h.group_le, h.bounded⟩
  . rw [hlogged'.routerIn, hlogged.routerIn]
    rfl
  . intro g'
    rw [htable, h.exist]
  . intro g' hg'
    exact h.fresh g' (hnext ▸ hg')

theorem Inv.bcast (g : Int) (hok : g ≤ SCI_GROUP_ALL) (content : String)
    : ∃ fe' rc, s.fe.bcast g content = some (fe', rc) ∧
        Inv topo ⟨fe', if rc = .success then s.record (.bcast g content) else s.groups⟩ := by
  by_cases hex : g ∈ s.fe.routingList.myDistriGroup.generalInfo
  . have ⟨fe', hbcast, _, _, hinv⟩ := h.bcast_of_exist hd hcs hok content hex
    exact ⟨fe', .success, hbcast, hinv⟩
  . have hle := Int.not_lt.mpr hok
    have hfound : s.fe.isGroupExist g = false := by
      rw [← Bool.not_eq_true]
      exact fun hc => hex (ExtTreeMap.contains_iff_mem.mp hc)
    refine ⟨s.fe, .groupNotFound, ?_, h⟩
    simp [FrontEnd.bcast, hle, hfound]

theorem Inv.step (call : FrontEnd.Call) (hok : call.Completes s.fe)
    : ∃ fe' rc, call.exec s.fe = some (fe', rc) ∧
        Inv topo ⟨fe', if rc = .success then s.record call else s.groups⟩ := by
  cases call with
  | groupCreate be_list => exact h.groupCreate hd hcs be_list
  | groupFree g => exact h.groupFree hd hcs g
  | groupOperate g1 g2 op => exact h.groupOperate hd hcs g1 g2 op
  | groupOperateExt g be_list op => exact h.groupOperateExt hd hcs g be_list op hok
  | bcast g content => exact h.bcast hd hcs g hok content

end Calls

theorem Inv.start (hd : topo.Deployable a)
    (hvalid : ∀ t, .agent t ∈ topo.children → t.agentID ≠ VALIDBACKENDIDS)
    : ∃ fe, FrontEnd.init topo = some fe ∧ Inv topo (Session.start topo fe) := by
  have ⟨st, hdeploy, hst⟩ := Topology.deploy_spec hd hvalid
  have hsets : ∀ fe, (Session.start topo fe).sets = .initial topo.ids := by
    intro fe
    rw [Session.start]
    apply (sets_update ⟨fe, fun _ => none⟩ fe _ _).trans
    rfl
  have hnode : NodeInv topo.children (.initial topo.ids) st.routingList := by
    apply hst.nodeInv
    . intro i hi
      rw [Sets.initial, update_self]
      exact (Topology.mem_all_children hd).mp hi
    . intro g hg
      rw [Sets.initial, update_of_ne hg]
  refine ⟨⟨topo, st.routingList, SCI_GROUP_ALL - 1, [.config topo]⟩, ?_, ⟨[], ?_⟩, rfl, ?_, ?_, ?_, ?_, ?_⟩
  . simp [FrontEnd.init, RoutingList.process, hdeploy]
  . rw [hsets]
    refine ⟨rfl, processAll_config hdeploy [], trivial, rfl, hnode, ?_⟩
    intro ch hch
    rw [relevant, List.append_nil]
    exact hst.queue_handle hch
  . intro g
    by_cases hg : g = SCI_GROUP_ALL
    . have hne : topo.children ≠ [] := by
        intro hnil
        have hids := Topology.children_ids hd
        rw [hnil] at hids
        exact hd.nonempty (List.map_eq_nil_iff.mp hids.symm)
      simp [Session.start, hg, hst.all hne]
    . simp [Session.start, hg, ExtTreeMap.mem_iff_isSome_getElem?, hst.other g hg]
  . show SCI_GROUP_ALL - 1 < SCI_GROUP_ALL
    omega
  . intro g hg
    dsimp only [Session.start] at hg ⊢
    rw [update_of_ne (by omega)]
  . intro g hg
    by_cases heq : g = SCI_GROUP_ALL
    . omega
    . simp [Session.start, heq] at hg
  . rw [hsets]
    intro g i hi
    by_cases hg : g = SCI_GROUP_ALL
    . subst hg
      rw [Sets.initial, update_self] at hi
      exact hi
    . rw [Sets.initial, update_of_ne hg] at hi
      exact absurd hi (Set.notMem_empty i)

theorem Inv.run (hd : topo.Deployable a) (hcs : ChildrenOk topo.children)
    (hrun : Run (Guarded (fun s call => call.Completes s.fe) Step) s calls s') (h : Inv topo s)
    : Inv topo s' := by
  refine hrun.invariant (Inv topo) ?_ h
  intro s call s' h ⟨hok, rc, hexec, hgroups⟩
  have ⟨fe', rc', hexec', hinv⟩ := h.step hd hcs call hok
  rw [hexec, some.injEq, Prod.mk.injEq] at hexec'
  rw [← hexec'.1, ← hexec'.2, ← hgroups] at hinv
  exact hinv

end Session

theorem Logged.deliverBy {read : Bool → List Message → List Message} (h : Logged topo hist S fe)
    (hread : ∀ root l, (∀ msg ∈ l, (∃ t, msg = .config t) ∨ msg ∈ hist) → read root l = l) (hd : topo.Deployable a)
    (hvalid : ∀ t, Deployed topo t → t.agentID ≠ VALIDBACKENDIDS) (hfits : topo.FitsBuffer)
    : Delivers read (.initial topo.ids) hist true topo fe.routerIn := by
  apply deliver_queues hread true hd h.processed h.node.queues h.queue
  intro t ht
  have ⟨b, _, _, htd, _⟩ := Topology.agent_mem_children hd ht
  apply deliver_spec hread _ t b htd rfl
  . exact fun t' ht' => hvalid t' (ht'.trans ht)
  . exact hfits.child hd ht
  . intro i hi
    rw [Sets.initial, update_self]
    exact mem_ids_of_agent hd ht hi
  . intro g hg
    rw [Sets.initial, update_of_ne hg]
  . exact h.admits.mono (fun S msg h => h.refine (fun c' => ⟨t.agentID, part_agent_subset hd ht c'⟩)) _

theorem Session.short_run
    (hrun : Run (Guarded (fun s call => call.Completes s.fe ∧ call.Short maxSegmentSize s.fe) Step) s calls s')
    (h : ∀ msg ∈ s.fe.routerIn, msg.contentLen ≤ maxSegmentSize)
    : ∀ msg ∈ s'.fe.routerIn, msg.contentLen ≤ maxSegmentSize := by
  refine hrun.invariant (fun s => ∀ msg ∈ s.fe.routerIn, msg.contentLen ≤ maxSegmentSize) ?_ h
  intro s call s' h ⟨⟨_, hshort, _⟩, rc, hexec, _⟩ msg hmsg
  obtain hsame | happend := FrontEnd.routerIn_exec call hexec
  . exact h msg (hsame ▸ hmsg)
  . rw [happend, List.mem_append, List.mem_singleton] at hmsg
    obtain hold | rfl := hmsg
    . exact h msg hold
    . exact hshort

theorem multicast_exact (topo : Topology) (maxSegmentSize : Nat) (hroot : topo.agentID = -1)
    (hids : Consecutive 0 topo.beMap) (hn : topo.beMap ≠ []) (hf : 2 ≤ topo.fanOut)
    (hvalid : ∀ t, Deployed topo t → t.agentID ≠ VALIDBACKENDIDS) (hrange : ∀ t, Deployed topo t → t.InRange)
    (hfits : topo.FitsBuffer)
    : ∃ nodes fe, deployTree topo.beMap.length topo = some nodes ∧ FrontEnd.init topo = some fe ∧
        ∀ calls s,
          Run (Guarded (fun s call => call.Completes s.fe ∧ call.Short maxSegmentSize s.fe) Session.Step)
              (.start topo fe) calls s →
            (∀ call : FrontEnd.Call, call.Completes s.fe → ∃ res, call.exec s.fe = some res)
              ∧
            ∀ g G content, s.groups g = some G → content.utf8ByteSize ≤ maxSegmentSize →
              ∃ fe' before after,
                s.fe.bcast g content = some (fe', .success)
                  ∧
                (∀ fuel, topo.beMap.length ≤ fuel →
                  deliverPieces maxSegmentSize fuel s.fe.routerIn = some before ∧
                  deliverPieces maxSegmentSize fuel fe'.routerIn = some after)
                  ∧
                (before.map (fun e => e.1)).Perm topo.ids
                  ∧
                (after.map (fun e => e.1)).Perm topo.ids
                  ∧
                (∀ b q, (b, q) ∈ before → b ∈ G → (b, q ++ [.command g content]) ∈ after)
                  ∧
                (∀ b q, (b, q) ∈ before → b ∉ G → (b, q) ∈ after) := by
  have hd : topo.Deployable 0 := ⟨hf, by omega, le_rfl, hn, hids⟩
  have hvalid' : ∀ t, .agent t ∈ topo.children → t.agentID ≠ VALIDBACKENDIDS :=
    fun t ht => hvalid t (.child .root ht)
  have hcs := Topology.childrenOk hd hvalid' hfits
  have ⟨fe, hinit, hstart⟩ := Session.Inv.start hd hvalid'
  have ⟨nodes, hdeploy, _⟩ := deployTree_spec hd hvalid hrange
  refine ⟨nodes, fe, hdeploy _ le_rfl, hinit, ?_⟩
  intro calls s hrun
  have hinv := Session.Inv.run hd hcs (hrun.mono (fun _ _ _ h => ⟨h.1.1, h.2⟩)) hstart
  refine ⟨?_, ?_⟩
  . intro call hok
    have ⟨fe', rc, hexec, _⟩ := hinv.step hd hcs call hok
    exact ⟨_, hexec⟩
  . intro g G content hg hcontent
    have hshort := Session.short_run hrun (by
      simp only [FrontEnd.init, bind_eq_bind, bind_eq_some_iff, pure_def, some.injEq] at hinit
      obtain ⟨_, _, rfl⟩ := hinit
      simp [Session.start, Message.contentLen])
    have hsome : (s.groups g).isSome := by rw [hg]; rfl
    have ⟨hist, hlogged⟩ := hinv.logged
    have ⟨fe', hbcast, _, _, _, hlogged'⟩ :=
      hlogged.bcast hd hcs (hinv.group_le g hsome) content ((hinv.exist g).mpr hsome)
    have hread : ∀ hist : List Message, (∀ msg ∈ hist, msg.contentLen ≤ maxSegmentSize) → ∀ root l,
        (∀ msg ∈ l, (∃ t, msg = .config t) ∨ msg ∈ hist) → read maxSegmentSize root l = l := by
      intro hist hhist root l hl
      apply read_of_short
      intro msg hmsg
      obtain ⟨t, rfl⟩ | hmem := hl msg hmsg
      . exact Nat.zero_le _
      . exact hhist msg hmem
    rw [hlogged.routerIn, List.forall_mem_cons] at hshort
    have ⟨before, hbefore, hdelivered⟩ := hlogged.deliverBy (hread hist hshort.2) hd hvalid hfits
    have ⟨after, hafter, hdelivered'⟩ := hlogged'.deliverBy (hread _ (List.forall_mem_append.mpr
      ⟨hshort.2, by simpa [Message.contentLen] using hcontent⟩)) hd hvalid hfits
    have hqueue : ∀ b q, (b, q) ∈ before → (b, q ++ passed Message.target {b} s.sets (.command g content)) ∈ after := by
      intro b q hq
      have hb : b ∈ after.map (fun e => e.1) :=
        (hdelivered.once.trans hdelivered'.once.symm).mem_iff.mp (List.mem_map_of_mem hq)
      have ⟨e, he, heb⟩ := List.mem_map.mp hb
      have hcontent := hdelivered'.exact e he
      rw [relevant_append, hlogged.sets, heb, ← hdelivered.exact (b, q) hq] at hcontent
      rw [← hcontent, ← heb]
      exact he
    have htarget : (Message.command g content).target s.sets = G := by
      simp [Message.target, Session.sets, hg]
    refine ⟨fe', before, after, hbcast, fun fuel hfuel => ⟨hbefore fuel hfuel, hafter fuel hfuel⟩,
      hdelivered.once, hdelivered'.once, ?_, ?_⟩
    . intro b q hq hb
      have := hqueue b q hq
      rwa [passed_of_meets (meets_singleton.mpr (htarget ▸ hb))] at this
    . intro b q hq hb
      have := hqueue b q hq
      rwa [passed_of_not_meets (fun hm => hb (htarget ▸ meets_singleton.mp hm)), List.append_nil] at this

theorem Session.step_of_exec {s : Session} {call : FrontEnd.Call} {res : FrontEnd × SciRc}
    (h : call.exec s.fe = some res) (hrc : res.2 = .success)
    : Step s call ⟨res.1, s.record call⟩ :=
  ⟨.success, by rw [h, ← hrc], by simp⟩

theorem multicast_exact_five
    : ∃ fe s fe' before after,
        FrontEnd.init fiveBackEnds = some fe
          ∧
        Run Session.Step (.start fiveBackEnds fe) [.groupCreate [0, 3]] s
          ∧
        s.fe.bcast (-2) "uptime" = some (fe', .success)
          ∧
        deliverPieces 11680 5 s.fe.routerIn = some before
          ∧
        deliverPieces 11680 5 fe'.routerIn = some after
          ∧
        (after.map (fun e => e.1)).Perm [0, 1, 2, 3, 4]
          ∧
        (∀ b q, (b, q) ∈ before → b ∈ [0, 3] → (b, q ++ [.command (-2) "uptime"]) ∈ after)
          ∧
        (∀ b q, (b, q) ∈ before → b ∉ [0, 3] → (b, q) ∈ after) := by
  have hd : fiveBackEnds.Deployable 0 := by
    constructor <;> simp [fiveBackEnds, Consecutive]
  obtain ⟨_, fe, _, hinit, hexact⟩ := multicast_exact fiveBackEnds 11680 rfl hd.consecutive hd.nonempty hd.fanOut
    (fun _ ht => (fiveBackEnds_deployed ht).1) (fun _ ht => (fiveBackEnds_deployed ht).2) (.inl (by decide))
  have hcreate : (FrontEnd.init fiveBackEnds).any (fun fe => fe.nextGroupID = -2 &&
      (fe.groupCreate [0, 3]).any (fun res => res.2 = .success)) = true := by
    decide +kernel
  simp only [hinit, any_some, Bool.and_eq_true, decide_eq_true_eq, any_eq_true] at hcreate
  obtain ⟨hnext, res, hres, hrc⟩ := hcreate
  have hstep := @Session.step_of_exec (.start fiveBackEnds fe) (.groupCreate [0, 3]) res hres hrc
  have hcompletes : (FrontEnd.Call.groupCreate [0, 3]).Completes fe := trivial
  have hshort : (FrontEnd.Call.groupCreate [0, 3]).Short 11680 fe := by
    simp [FrontEnd.Call.Short, FrontEnd.Call.message, Message.contentLen, hnext, CInt.IsInt]
  obtain ⟨_, hlive⟩ := hexact _ _ (.cons ⟨⟨hcompletes, hshort⟩, hstep⟩ (.nil _))
  have hgroup : (Session.start fiveBackEnds fe).record (.groupCreate [0, 3]) (-2)
      = some {i | i ∈ [0, 3]} := by
    simp [Session.record, Session.start, hnext]
  obtain ⟨fe', before, after, hbcast, hdeliver, _, hperm, hin, hout⟩ := hlive (-2) _ "uptime" hgroup (by decide +kernel)
  obtain ⟨hbefore, hafter⟩ := hdeliver 5 (by decide)
  exact ⟨fe, _, fe', before, after, hinit, .cons hstep (.nil _), hbcast, hbefore, hafter, hperm, hin, hout⟩

theorem multicast_reaches_outsider
    : ∃ fe s G fe' out,
        FrontEnd.init fiveBackEnds = some fe
          ∧
        Run Session.Step (.start fiveBackEnds fe)
          [.groupCreate [0], .groupOperateExt (-2) [] .union] s
          ∧
        s.groups (-3) = some G
          ∧
        1 ∉ G
          ∧
        s.fe.bcast (-3) "uptime" = some (fe', .success)
          ∧
        deliverPieces 11680 5 fe'.routerIn = some out
          ∧
        ∃ q, (1, q) ∈ out ∧ .command (-3) "uptime" ∈ q := by
  have h : (FrontEnd.init fiveBackEnds).any (fun fe => fe.nextGroupID = -2 &&
      (fe.groupCreate [0]).any (fun res => res.2 = .success && (res.1.nextGroupID = -3 &&
        (res.1.groupOperateExt (-2) [] .union).any (fun res => res.2 = .success &&
          (res.1.bcast (-3) "uptime").any (fun res => res.2 = .success &&
            (deliverPieces 11680 5 res.1.routerIn).any (fun out =>
              out.any (fun e => e.1 = 1 && e.2.contains (.command (-3) "uptime")))))))) = true := by
    decide +kernel
  simp only [any_eq_true, Bool.and_eq_true, decide_eq_true_eq, List.any_eq_true,
    List.contains_iff_mem] at h
  have ⟨fe, hinit, hnext, r1, hcreate, hrc1, hnext1, r2, hoperate, hrc2, r3, hbcast, hrc3, out, hout,
    e, he, hid, hmem⟩ := h
  have hstep1 := @Session.step_of_exec (.start fiveBackEnds fe) (.groupCreate [0]) r1 hcreate hrc1
  have hstep2 := @Session.step_of_exec
    ⟨r1.1, (Session.start fiveBackEnds fe).record (.groupCreate [0])⟩
    (.groupOperateExt (-2) [] .union) r2 hoperate hrc2
  refine ⟨fe, _, SciOp.union.set {i | i ∈ [0]} {i | i ∈ []}, r3.1, out, hinit, .cons hstep1 (.cons hstep2 (.nil _)),
    ?_, ?_, ?_, hout, e.2, ?_, hmem⟩
  . simp [Session.record, Session.sets, Session.start, hnext, hnext1]
  . simp [SciOp.set, SciOp.Holds]
  . rw [hbcast, ← hrc3]
  . rw [← hid]
    exact he

end Sci
