import Cloudland.Sci.Membership.Impl

/-!
What one addition or removal of a back end does to a node.
-/

namespace Sci

open OrdMap Option
open Std (ExtTreeMap)

namespace RoutingList

theorem produce_eq_some {rl : RoutingList} (h : rl.produce hndl msg = some rl')
    : ∃ q, rl.queueInfo[hndl]? = some q ∧
        rl' = { rl with queueInfo := rl.queueInfo.insert hndl (q ++ [msg]) } := by
  simp only [produce, bind_eq_bind, bind_eq_some_iff, pure_def,
    some.injEq] at h
  obtain ⟨q, hq, hrl'⟩ := h
  exact ⟨q, hq, hrl'.symm⟩

theorem ucast_eq (rl : RoutingList) (hndl : Int) (msg : Message)
    : rl.ucast hndl msg = rl.produce hndl msg := by
  simp [ucast, mcast]

end RoutingList

theorem DistributedGroup.mem_querySuccessorId {d : DistributedGroup}
    (h : d.querySuccessorId b = c) (hc : c ≠ INVLIDSUCCESSORID)
    : (d.parts SCI_GROUP_ALL).Mem c b := by
  unfold querySuccessorId at h
  split at h
  . exact absurd h.symm hc
  . next all hall =>
    split at h
    . next e he =>
      rw [parts_eq_of_getElem? hall, ← h]
      have hmem := ExtTreeMap.mem_toList_iff_getElem?_eq_some.mp (List.mem_of_find?_eq_some he)
      rw [Parts.mem_of_getElem? hmem]
      simpa using List.find?_some he
    . exact absurd h.symm hc

namespace Node

def all (n : Node) : Parts := n.st.routingList.myDistriGroup.parts SCI_GROUP_ALL

def routed (n : Node) (c : Int) : List Int := (n.all.getD c ∅).members

theorem mem_routed {n : Node} : i ∈ n.routed c ↔ n.all.Mem c i := by
  rw [routed, Group.mem_members, Parts.mem_getD]

inductive Op where
  | add (be_id : Int) (host : String) (lev : Int) (launch : Launch)
  | remove (be_id : Int)
  deriving DecidableEq

def Op.exec (n : Node) : Op → Option (Node × SciRc)
  | .add be_id host lev launch => n.addBE be_id host lev launch
  | .remove be_id => n.removeBE be_id

def Op.Step (n : Node) (op : Op) (n' : Node) : Prop := ∃ rc, op.exec n = some (n', rc)

variable {n n' : Node} {be_id lev : Int} {host : String} {launch : Launch} {rc : SciRc}

inductive Added (n : Node) (be_id : Int) (host : String) (lev : Int) (launch : Launch)
    : Node → SciRc → Prop where
  | backEnd (hplace : n.place lev = some .backEnd) (hstarted : launch.started = true)
      (hrouted : launch.routed = true)
    : Added n be_id host lev launch ((n.launchBE be_id host launch).1.setHost be_id host) .success
  | givenUp (hplace : n.place lev = some .backEnd) (hstarted : launch.started = true)
      (hrouted : launch.routed = false)
    : Added n be_id host lev launch (n.launchBE be_id host launch).1 .launchFailed
  | backEndFailed (hplace : n.place lev = some .backEnd) (hstarted : launch.started = false)
    : Added n be_id host lev launch (n.launchBE be_id host launch).1 .launchFailed
  | agent {n' : Node} (hplace : n.place lev = some .agent) (hstarted : launch.started = true)
      (h : n.launchAgent be_id host launch = some (n', .success))
    : Added n be_id host lev launch (n'.setHost be_id host) .success
  | agentFailed {n' : Node} (hplace : n.place lev = some .agent) (hstarted : launch.started = false)
      (h : n.launchAgent be_id host launch = some (n', .launchFailed))
    : Added n be_id host lev launch n' .launchFailed
  | child {n' : Node} {aID : Int} (hplace : n.place lev = some (.child aID))
      (h : n.delegate aID be_id host lev = some (n', .success))
    : Added n be_id host lev launch (n'.setHost be_id host) .success

theorem launchAgent_rc (h : n.launchAgent be_id host launch = some (n', rc))
    : (launch.started = true ∧ rc = .success) ∨ (launch.started = false ∧ rc = .launchFailed) := by
  unfold launchAgent at h
  split at h
  . next hstarted =>
    simp only [bind_eq_bind, bind_eq_some_iff, pure_def, some.injEq,
      Prod.mk.injEq] at h
    have ⟨_, _, _, hrc⟩ := h
    exact .inl ⟨hstarted, hrc.symm⟩
  . next hstarted =>
    simp only [some.injEq, Prod.mk.injEq] at h
    exact .inr ⟨by simpa using hstarted, h.2.symm⟩

theorem delegate_rc (h : n.delegate aID be_id host lev = some (n', rc)) : rc = .success := by
  simp only [delegate, bind_eq_bind, bind_eq_some_iff, pure_def,
    some.injEq, Prod.mk.injEq] at h
  have ⟨_, _, _, hrc⟩ := h
  exact hrc.symm

theorem addBE_added (h : n.addBE be_id host lev launch = some (n', rc))
    : Added n be_id host lev launch n' rc := by
  simp only [addBE, bind_eq_bind, bind_eq_some_iff, pure_def,
    some.injEq, Prod.mk.injEq] at h
  have ⟨p, hplace, res, hres, hn', hrc⟩ := h
  have ⟨n1, rc1⟩ := res
  subst hrc
  subst hn'
  cases p with
  | backEnd =>
    simp only [launchAt, some.injEq] at hres
    have hn1 : n1 = (n.launchBE be_id host launch).1 := by rw [hres]
    have hrc1 : rc1 = (n.launchBE be_id host launch).2 := by rw [hres]
    subst hn1
    cases hstarted : launch.started with
    | false =>
      simp only [launchBE, hstarted, Bool.false_eq_true, if_false] at hrc1
      subst hrc1
      exact .backEndFailed hplace hstarted
    | true =>
      cases hrouted : launch.routed with
      | false =>
        simp only [launchBE, hstarted, hrouted, Bool.false_eq_true, if_false, if_true] at hrc1
        subst hrc1
        exact .givenUp hplace hstarted hrouted
      | true =>
        simp only [launchBE, hstarted, hrouted, if_true] at hrc1
        subst hrc1
        exact .backEnd hplace hstarted hrouted
  | agent =>
    obtain hrc | hrc := launchAgent_rc hres
    . obtain ⟨hstarted, rfl⟩ := hrc
      exact .agent hplace hstarted hres
    . obtain ⟨hstarted, rfl⟩ := hrc
      exact .agentFailed hplace hstarted hres
  | child aID =>
    have hrc := delegate_rc hres
    subst hrc
    exact .child hplace hres

theorem launchAgent_started (hstarted : launch.started = true)
    (h : n.launchAgent be_id host launch = some (n', rc))
    : ∃ q,
        (n.st.routingList.addBE SCI_GROUP_ALL n.st.nextAgentID be_id true).queueInfo[n.st.nextAgentID]?
          = some q ∧
        n' = { n with st := {
          routingList := {
            myDistriGroup := n.st.routingList.myDistriGroup.addBE SCI_GROUP_ALL n.st.nextAgentID be_id
            queueInfo :=
              (n.st.routingList.addBE SCI_GROUP_ALL n.st.nextAgentID be_id true).queueInfo.insert
                n.st.nextAgentID (q ++ [.config (n.newChild be_id host)]) }
          nextAgentID := n.st.nextAgentID - 1
          weightMap := n.st.weightMap.insert n.st.nextAgentID (n.st.weightMap.getD n.st.nextAgentID 0 + 1)
          clients := n.st.clients ++ [⟨n.st.nextAgentID, n.topo.agentPath, host⟩] } } := by
  simp only [launchAgent, hstarted, if_true, bind_eq_bind, bind_eq_some_iff,
    pure_def, some.injEq, Prod.mk.injEq] at h
  have ⟨rl, hrl, hn', _⟩ := h
  have ⟨q, hq, hrl'⟩ := RoutingList.produce_eq_some hrl
  refine ⟨q, hq, ?_⟩
  rw [← hn', hrl']
  rfl

theorem launchAgent_failed (hstarted : launch.started = false)
    (h : n.launchAgent be_id host launch = some (n', rc))
    : n' = { n with st := { n.st with
        routingList :=
          (n.st.routingList.addBE SCI_GROUP_ALL n.st.nextAgentID be_id true).removeBE be_id
        nextAgentID := n.st.nextAgentID - 1 } } := by
  simp only [launchAgent, hstarted, Bool.false_eq_true, if_false, some.injEq,
    Prod.mk.injEq] at h
  rw [← h.1]
  rfl

theorem delegate_eq_some (h : n.delegate aID be_id host lev = some (n', rc))
    : ∃ q, n.st.routingList.queueInfo[aID]? = some q ∧
        n' = { n with st := { n.st with
          routingList := {
            myDistriGroup := n.st.routingList.myDistriGroup.addBE SCI_GROUP_ALL aID be_id
            queueInfo := n.st.routingList.queueInfo.insert aID (q ++ [.beAdd be_id host lev]) }
          weightMap := n.st.weightMap.insert aID (n.st.weightMap.getD aID 0 + 1) } } := by
  simp only [delegate, RoutingList.ucast_eq, bind_eq_bind, bind_eq_some_iff,
    pure_def, some.injEq, Prod.mk.injEq] at h
  have ⟨rl, hrl, hn', _⟩ := h
  have ⟨q, hq, hrl'⟩ := RoutingList.produce_eq_some hrl
  refine ⟨q, hq, ?_⟩
  rw [← hn', hrl']
  rfl

theorem place_child (h : n.place lev = some (.child aID)) : ∃ w : Int, n.st.weightMap[aID]? = some w := by
  unfold place at h
  split at h
  . next e he =>
    simp only [some.injEq, Placement.child.injEq] at h
    have := List.mem_of_find?_eq_some he
    rw [← h]
    exact ⟨e.2, ExtTreeMap.mem_toList_iff_getElem?_eq_some.mp this⟩
  . split at h
    . simp only [some.injEq] at h
      split at h <;> contradiction
    . simp only [map_eq_some_iff, Placement.child.injEq] at h
      obtain ⟨e, he, rfl⟩ := h
      exact ⟨e.2, ExtTreeMap.mem_toList_iff_getElem?_eq_some.mp (List.mem_of_mem_head? he)⟩

inductive Removed (n : Node) (be_id : Int) : Node → SciRc → Prop where
  | unknown (hbe : n.topo.hasBE be_id = false) : Removed n be_id n .backendNotFound
  | backEnd {q : List Message} (hbe : n.topo.hasBE be_id = true)
      (hquery : n.st.routingList.myDistriGroup.querySuccessorId be_id = VALIDBACKENDIDS)
      (hq : n.st.routingList.queueInfo[be_id]? = some q)
    : Removed n be_id
        ⟨{ n.topo with beMap := BEMap.erase be_id n.topo.beMap },
          { n.st with routingList := {
              myDistriGroup := n.st.routingList.myDistriGroup.removeBE be_id
              queueInfo := (n.st.routingList.queueInfo.insert be_id (q ++ [.beRemove be_id])).erase be_id } }⟩
        .success
  | child {aID : Int} {q : List Message} {w : Int} (hbe : n.topo.hasBE be_id = true)
      (hquery : n.st.routingList.myDistriGroup.querySuccessorId be_id = aID)
      (hne : aID ≠ INVLIDSUCCESSORID) (hvalid : aID ≠ VALIDBACKENDIDS)
      (hq : n.st.routingList.queueInfo[aID]? = some q) (hw : n.st.weightMap[aID]? = some w)
    : Removed n be_id
        ⟨{ n.topo with beMap := BEMap.erase be_id n.topo.beMap },
          { n.st with
            routingList := {
              myDistriGroup := n.st.routingList.myDistriGroup.removeBE be_id
              queueInfo := n.st.routingList.queueInfo.insert aID (q ++ [.beRemove be_id]) }
            weightMap :=
              if w - 1 = 0 then n.st.weightMap.erase aID else n.st.weightMap.insert aID (w - 1) }⟩
        .success

theorem removeBE_removed (h : n.removeBE be_id = some (n', rc)) : Removed n be_id n' rc := by
  unfold removeBE at h
  split at h
  . next hbe =>
    dsimp only at h
    split at h
    . contradiction
    . next hne =>
      simp only [bind_eq_bind, bind_eq_some_iff, pure_def, some.injEq,
        Prod.mk.injEq] at h
      obtain ⟨st, hst, hn', rfl⟩ := h
      subst hn'
      simp only [dropBE, RoutingList.ucast_eq, bind_eq_bind] at hst
      split at hst
      . next hvalid =>
        simp only [bind_eq_some_iff, pure_def, some.injEq] at hst
        have ⟨rl, hrl, hst⟩ := hst
        have ⟨q, hq, hrl'⟩ := RoutingList.produce_eq_some hrl
        subst hrl'
        subst hst
        exact .backEnd hbe hvalid hq
      . next hvalid =>
        simp only [bind_eq_some_iff, Launcher.decWeight, bind_eq_bind, pure_def,
          some.injEq] at hst
        have ⟨rl, hrl, w, hw, hst⟩ := hst
        have ⟨q, hq, hrl'⟩ := RoutingList.produce_eq_some hrl
        subst hrl'
        subst hst
        exact .child hbe rfl hne hvalid hq hw
  . next hbe =>
    simp only [some.injEq, Prod.mk.injEq] at h
    rw [← h.1, ← h.2]
    exact .unknown (by simpa using hbe)

end Node

def eightBackEnds : Topology :=
  ⟨-1, 2, 0, 3, "be", "agent",
    [(0, "a"), (1, "b"), (2, "c"), (3, "d"), (4, "e"), (5, "f"), (6, "g"), (7, "h")]⟩

end Sci
