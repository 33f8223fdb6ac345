import Cloudland.Sci.Membership.Step

/-!
The deployment of a rescued agent: when its nodes register what they delegate.
-/

namespace Sci

open OrdMap
open Std (ExtTreeMap)

namespace Consecutive

theorem append
    : Consecutive a (l ++ l') ↔ Consecutive a l ∧ Consecutive (a + l.length) l' := by
  induction l generalizing a with
  | nil => simp [Consecutive]
  | cons e l ih =>
    simp only [List.cons_append, Consecutive, ih, List.length_cons, and_assoc]
    rw [show a + 1 + (l.length : Int) = a + ((l.length + 1 : Nat) : Int) by omega]

theorem of_mem_iff {a : Int} {l : List (Int × String)} (hl : l.Pairwise (fun e e' => e.1 < e'.1))
    (h : ∀ i, (a ≤ i ∧ i < a + l.length) ↔ i ∈ l.map (fun e => e.1))
    : Consecutive a l := by
  induction l generalizing a with
  | nil => trivial
  | cons e l ih =>
    rw [List.pairwise_cons] at hl
    simp only [List.length_cons, List.map_cons, List.mem_cons] at h
    have hlow : ∀ i ∈ l.map (fun e => e.1), e.1 < i := by
      intro i hi
      obtain ⟨e', he', rfl⟩ := List.mem_map.mp hi
      exact hl.1 e' he'
    have hhead : e.1 = a := by
      have hge := (h e.1).mpr (.inl rfl)
      obtain heq | hmem := (h a).mp ⟨le_rfl, by omega⟩
      . exact heq.symm
      . have := hlow a hmem
        omega
    refine ⟨hhead, ih hl.2 ?_⟩
    intro i
    have hi := h i
    constructor
    . intro hrange
      exact (hi.mp (by omega)).resolve_left (by omega)
    . intro hmem
      have := hlow i hmem
      have := hi.mpr (.inr hmem)
      omega

end Consecutive

namespace Topology

variable {topo : Topology}

theorem placedFrom_agent_le
    (hx : x ∈ topo.placedFrom next size cs) (ht : x.2 = .agent t)
    : t.agentID ≤ next := by
  have hmem : .agent t ∈ topo.childrenFrom next cs := by
    rw [← map_placedFrom, List.mem_map]
    exact ⟨x, hx, ht⟩
  obtain ⟨_, _, j, _, _, rfl⟩ := agent_mem_childrenFrom hmem
  simp only [Launcher.childTopo]
  omega

theorem placedFrom_agent_unique (hx : x ∈ topo.placedFrom next size cs)
    (hy : y ∈ topo.placedFrom next size cs) (ht : x.2 = .agent t) (ht' : y.2 = .agent t')
    (hid : t.agentID = t'.agentID)
    : x = y := by
  induction cs generalizing next size with
  | nil => simp [placedFrom] at hx
  | cons c cs ih =>
    by_cases hc : c.length = 1
    . obtain ⟨e, rfl⟩ := List.length_eq_one_iff.mp hc
      rw [placedFrom_one, List.mem_cons] at hx hy
      have hx := hx.resolve_left (fun h => by rw [h] at ht; simp at ht)
      have hy := hy.resolve_left (fun h => by rw [h] at ht'; simp at ht')
      exact ih hx hy
    . rw [placedFrom_many _ _ _ _ hc, List.mem_cons] at hx hy
      have hfirst : ∀ {z : Nat × Child} {u : Topology},
          z = (size, .agent (Launcher.childTopo topo next c)) → z.2 = .agent u → u.agentID = next := by
        intro z u hz hu
        rw [hz] at hu
        simp only [Child.agent.injEq] at hu
        rw [← hu]
        rfl
      obtain hx | hx := hx
      . obtain hy | hy := hy
        . rw [hx, hy]
        . have := hfirst hx ht
          have := placedFrom_agent_le hy ht'
          omega
      . obtain hy | hy := hy
        . have := hfirst hy ht'
          have := placedFrom_agent_le hx ht
          omega
        . exact ih hx hy

theorem consecutive_placedFrom {initID next : Int} {out size : Nat} {l : List (Int × String)}
    (hout : l ≠ [] → 0 < out)
    : (∀ x ∈ topo.placedFrom next size (Split.split out l), ∀ t, x.2 = .agent t →
          Consecutive (initID + x.1) t.beMap)
        ↔
      Consecutive (initID + size) (l.take (Split.grouped out l.length)) := by
  induction out generalizing next size l with
  | zero =>
    cases l with
    | nil => simp [Split.split, placedFrom, Consecutive]
    | cons e l => simp at hout
  | succ out ih =>
    cases l with
    | nil => simp [Split.split, placedFrom, Consecutive]
    | cons e l =>
      have hle := Split.step_le out (l.length + 1) (by omega)
      have hbounds := Split.step_bounds out (l.length + 1) (by omega)
      have hone := Split.step_eq_one_iff out (l.length + 1) (by omega)
      have hlast : (e :: l).drop (Split.step (out + 1) (l.length + 1)) ≠ [] → 0 < out := by
        intro hne
        rw [ne_eq, List.drop_eq_nil_iff, List.length_cons] at hne
        by_contra hzero
        obtain rfl : out = 0 := by omega
        omega
      rw [Split.split]
      by_cases hs : Split.step (out + 1) (l.length + 1) = 1
      . -- from here on every back end is launched on its own
        have hlen := hone.mp hs
        rw [hs] at hlast ⊢
        rw [List.take_succ_cons, List.take_zero, placedFrom_one, List.forall_mem_cons, ih hlast,
          Split.grouped_of_le (by simpa using hlen), Split.grouped_of_le (by simpa using hlen)]
        simp [Consecutive]
      . have hlen : out + 1 < l.length + 1 := by
          by_contra hlen
          exact hs (hone.mpr (by omega))
        have hgrouped := Split.grouped_step out (l.length + 1) hlen
        generalize Split.step (out + 1) (l.length + 1) = s at *
        have htake : ((e :: l).take s).length = s := by
          rw [List.length_take, List.length_cons]
          omega
        rw [placedFrom_many _ _ _ _ (by omega), List.forall_mem_cons, ih hlast, htake,
          List.length_drop, List.length_cons, hgrouped, List.take_add, Consecutive.append, htake,
          Nat.cast_add, ← Int.add_assoc]
        simp [Launcher.childTopo]

end Topology

namespace Spread

variable {initID : Int} {cs : List (Nat × Child)} {st : Launcher}

theorem mem_sent (h : Spread initID cs st) : t ∈ st.sent ↔ ∃ x ∈ cs, x.2 = .agent t := by
  simp only [Launcher.sent, List.mem_filterMap, Prod.exists,
    ExtTreeMap.mem_toList_iff_getElem?_eq_some, h.queue]
  constructor
  . rintro ⟨k, q, ⟨s, ch, hx, _, hqueue⟩, hq⟩
    rw [← hqueue] at hq
    cases ch with
    | backEnd e => simp [Child.queue] at hq
    | agent t' =>
      simp only [Child.queue, Option.some.injEq] at hq
      exact ⟨s, .agent t', hx, by rw [hq]⟩
  . rintro ⟨s, ch, hx, hch⟩
    subst hch
    exact ⟨t.agentID, [.config t], ⟨s, .agent t, hx, rfl, rfl⟩, rfl⟩

theorem mem_backEnds (h : Spread initID cs st) (hbefore : ∀ x ∈ cs, x.2.Before next [])
    : i ∈ st.backEnds ↔ ∃ x ∈ cs, ∃ e, x.2 = .backEnd e ∧ i = e.1 := by
  simp only [Launcher.backEnds, h.handles, List.mem_filter, List.mem_map, decide_eq_true_eq]
  constructor
  . rintro ⟨⟨x, hx, hi⟩, hnonneg⟩
    have hbx := hbefore x hx
    cases hch : x.2 with
    | backEnd e =>
      rw [hch] at hi
      exact ⟨x, hx, e, hch, hi.symm⟩
    | agent t =>
      rw [hch] at hi hbx
      have := hbx.2.1
      simp only [Child.handle] at hi
      omega
  . rintro ⟨x, hx, e, hch, hi⟩
    have hbx := hbefore x hx
    rw [hch] at hbx
    exact ⟨⟨x, hx, by rw [hch, hi]; rfl⟩, by rw [hi]; exact hbx.1⟩

end Spread

def RoutesExactly (nodes : List (Topology × Launcher)) : Prop :=
  ∀ x ∈ nodes,
    (∀ t ∈ x.2.sent, ∀ i,
      (x.2.routingList.myDistriGroup.parts SCI_GROUP_ALL).Mem t.agentID i ↔ i ∈ t.ids) ∧
    (∀ i,
      (x.2.routingList.myDistriGroup.parts SCI_GROUP_ALL).Mem VALIDBACKENDIDS i ↔ i ∈ x.2.backEnds)

namespace Topology

variable {topo : Topology} {st : Launcher}

section Spread

variable (hspread : Spread topo.initID topo.placed st) (hbefore : ∀ x ∈ topo.placed, x.2.Before st.nextAgentID [])

include hspread hbefore

theorem registered_iff (hx : x ∈ topo.placed) (ht : x.2 = .agent t) (i : Int)
    : (st.routingList.myDistriGroup.parts SCI_GROUP_ALL).Mem t.agentID i
        ↔
      topo.initID + x.1 ≤ i ∧ i < topo.initID + x.1 + t.beMap.length := by
  rw [hspread.mem]
  constructor
  . intro ⟨y, hy, hkey, hreg⟩
    have hbx := hbefore x hx
    rw [ht] at hbx
    cases hch : y.2 with
    | backEnd e =>
      rw [hch] at hkey
      exact absurd hkey.symm hbx.2.2
    | agent t' =>
      rw [hch] at hkey
      have hxy := placedFrom_agent_unique hy hx hch ht hkey
      rw [hxy, ht] at hreg
      exact hreg
  . intro hrange
    refine ⟨x, hx, by rw [ht]; rfl, ?_⟩
    rw [ht]
    exact hrange

theorem direct_iff (i : Int)
    : (st.routingList.myDistriGroup.parts SCI_GROUP_ALL).Mem VALIDBACKENDIDS i ↔ i ∈ st.backEnds := by
  rw [hspread.mem, hspread.mem_backEnds hbefore]
  constructor
  . intro ⟨x, hx, hkey, hreg⟩
    have hbx := hbefore x hx
    cases hch : x.2 with
    | backEnd e =>
      rw [hch] at hreg
      exact ⟨x, hx, e, hch, hreg⟩
    | agent t =>
      rw [hch] at hkey hbx
      exact absurd hkey hbx.2.2
  . intro ⟨x, hx, e, hch, hi⟩
    exact ⟨x, hx, by rw [hch]; rfl, by rw [hch]; exact hi⟩

end Spread

structure Ready (topo : Topology) : Prop where
  fanOut : 2 ≤ topo.fanOut
  agentID : topo.agentID < 0
  ordered : BEMap.Ordered topo.beMap
  nonempty : topo.beMap ≠ []

theorem Ready.child (h : topo.Ready) {t : Topology} (ht : .agent t ∈ topo.children)
    : t.Ready ∧ t.beMap.length < topo.beMap.length := by
  have ⟨c, hc, j, _, hone, heq⟩ := agent_mem_childrenFrom ht
  have ⟨hne, hsub⟩ := Split.mem_split hc
  have hbound := Split.length_chunk_bound hc
  have hpos : 0 < c.length := List.length_pos_iff.mpr hne
  have hmul : 2 * (c.length - 1) ≤ topo.fanOut * (c.length - 1) := Nat.mul_le_mul_right _ h.fanOut
  have hneg := firstAgentID_neg h.agentID
  subst heq
  refine ⟨⟨h.fanOut, ?_, ?_, hne⟩, ?_⟩
  . simp only [Launcher.childTopo]
    unfold firstAgentID at hneg
    omega
  . exact ⟨h.ordered.sorted.sublist hsub, fun e he => h.ordered.nonneg e (hsub.subset he)⟩
  . simp only [Launcher.childTopo]
    omega

theorem Ready.deploy (h : topo.Ready) (hvalid : ∀ t, .agent t ∈ topo.children → t.agentID ≠ VALIDBACKENDIDS)
    : ∃ st, topo.deploy .new = some st ∧ Spread topo.initID topo.placed st ∧
        ∀ x ∈ topo.placed, x.2.Before st.nextAgentID [] := by
  have ⟨st, hdeploy, hspread, hbefore, _⟩ :=
    deploy_spread h.agentID (by have := h.fanOut; omega) h.ordered hvalid
  exact ⟨st, hdeploy, hspread, hbefore⟩

theorem exact_iff (h : topo.Ready) (hspread : Spread topo.initID topo.placed st)
    (hbefore : ∀ x ∈ topo.placed, x.2.Before st.nextAgentID [])
    : (∀ t ∈ st.sent, ∀ i,
        (st.routingList.myDistriGroup.parts SCI_GROUP_ALL).Mem t.agentID i ↔ i ∈ t.ids)
        ↔
      ∀ x ∈ topo.placed, ∀ t, x.2 = .agent t → Consecutive (topo.initID + x.1) t.beMap := by
  constructor
  . intro hexact x hx t ht
    have hchild := (h.child (exists_placed.mpr ⟨x, hx, ht⟩)).1
    apply Consecutive.of_mem_iff hchild.ordered.sorted
    intro i
    rw [← registered_iff hspread hbefore hx ht]
    exact hexact t (hspread.mem_sent.mpr ⟨x, hx, ht⟩) i
  . intro hcons t ht i
    have ⟨x, hx, hxt⟩ := hspread.mem_sent.mp ht
    rw [registered_iff hspread hbefore hx hxt, ← (hcons x hx t hxt).mem_iff]
    rfl

end Topology

theorem routesExactly_cons : RoutesExactly (x :: nodes) ↔ RoutesExactly [x] ∧ RoutesExactly nodes := by
  simp [RoutesExactly]

theorem routesExactly_flatten {l : List (List (Topology × Launcher))}
    : RoutesExactly l.flatten ↔ ∀ nodes ∈ l, RoutesExactly nodes := by
  constructor
  . intro h nodes hnodes x hx
    exact h x (List.mem_flatten.mpr ⟨nodes, hnodes, hx⟩)
  . intro h x hx
    have ⟨nodes, hnodes, hx⟩ := List.mem_flatten.mp hx
    exact h nodes hnodes x hx

def Topology.Unbroken (topo : Topology) : Prop :=
  Consecutive topo.initID (topo.beMap.take (Split.grouped topo.fanOut topo.beMap.length))

theorem deployAll_exact (topo : Topology) (h : topo.Ready)
    (hvalid : ∀ t, Deployed topo t → t.agentID ≠ VALIDBACKENDIDS)
    : ∃ nodes,
        (∀ fuel, topo.beMap.length ≤ fuel → deployAll fuel topo = some nodes) ∧
        (RoutesExactly nodes ↔ topo.Unbroken) := by
  apply deployAll_induct (P := fun topo =>
    topo.Ready ∧ ∀ t, Deployed topo t → t.agentID ≠ VALIDBACKENDIDS) _ topo ⟨h, hvalid⟩
  intro topo ⟨h, hvalid⟩
  have ⟨st, hdeploy, hspread, hbefore⟩ := h.deploy (fun t ht => hvalid t (.child .root ht))
  have hchild : ∀ t ∈ st.sent, .agent t ∈ topo.children :=
    fun t ht => Topology.exists_placed.mpr (hspread.mem_sent.mp ht)
  refine ⟨h.nonempty, st, hdeploy, ?_, ?_⟩
  . intro t ht
    have ⟨hready, hlt⟩ := h.child (hchild t ht)
    exact ⟨⟨hready, fun t' ht' => hvalid t' (ht'.trans (hchild t ht))⟩, hlt⟩
  . intro N hN
    have hroot : RoutesExactly [(topo, st)] ↔
        ∀ x ∈ topo.placed, ∀ t, x.2 = .agent t → Consecutive (topo.initID + x.1) t.beMap := by
      rw [← Topology.exact_iff h hspread hbefore]
      simp [RoutesExactly, Topology.direct_iff hspread hbefore]
    have hfirst := @Topology.consecutive_placedFrom topo topo.initID topo.firstAgentID topo.fanOut 0
      topo.beMap (fun _ => by have := h.fanOut; omega)
    rw [Nat.cast_zero, Int.add_zero] at hfirst
    rw [routesExactly_cons, hroot]
    constructor
    . intro hexact
      exact hfirst.mp hexact.1
    . intro hunbroken
      have hcons := hfirst.mpr hunbroken
      refine ⟨hcons, routesExactly_flatten.mpr ?_⟩
      intro nodes hnodes
      have ⟨t, ht, heq⟩ := List.mem_map.mp hnodes
      have ⟨x, hx, hxt⟩ := hspread.mem_sent.mp ht
      have htcons := hcons x hx t hxt
      rw [← heq, hN t ht, Topology.Unbroken, htcons.initID (h.child (hchild t ht)).1.nonempty]
      exact htcons.take _

namespace Node

variable {n n' : Node}

def Op.Succeeds (n : Node) (op : Op) (n' : Node) : Prop := op.exec n = some (n', .success)

def Op.Named (_ : Node) : Op → Prop
  | .add be_id _ _ _ => 0 ≤ be_id
  | .remove _ => True

instance (n : Node) (op : Op) : Decidable (op.Named n) :=
  match op with
  | .add be_id _ _ _ => inferInstanceAs (Decidable (0 ≤ be_id))
  | .remove _ => inferInstanceAs (Decidable True)

theorem Added.frame (h : Added n b host lev launch n' .success)
    : n'.topo.fanOut = n.topo.fanOut ∧ ∀ c i, n'.all.Mem c i → n.all.Mem c i ∨ i = b := by
  have hadd : ∀ {c0 c i : Int},
      ((n.st.routingList.myDistriGroup.addBE SCI_GROUP_ALL c0 b).parts SCI_GROUP_ALL).Mem c i →
        n.all.Mem c i ∨ i = b := by
    intro c0 c i hmem
    exact (DistributedGroup.mem_addBE.mp hmem).imp_right And.right
  cases h with
  | backEnd hplace hstarted hrouted =>
    simp only [launchBE, hstarted, if_true]
    exact ⟨rfl, fun c i => hadd⟩
  | agent hplace hstarted h =>
    obtain ⟨q, _, rfl⟩ := launchAgent_started hstarted h
    exact ⟨rfl, fun c i => hadd⟩
  | child hplace h =>
    obtain ⟨q, _, rfl⟩ := delegate_eq_some h
    exact ⟨rfl, fun c i => hadd⟩

theorem Removed.frame (h : Removed n b n' rc)
    : n'.topo.fanOut = n.topo.fanOut ∧ ∀ c i, n'.all.Mem c i → n.all.Mem c i := by
  have hremove : ∀ {c i : Int},
      ((n.st.routingList.myDistriGroup.removeBE b).parts SCI_GROUP_ALL).Mem c i → n.all.Mem c i := by
    intro c i hmem
    rw [DistributedGroup.parts_removeBE, DistributedGroup.mem_prune] at hmem
    exact hmem.1
  cases h with
  | unknown => exact ⟨rfl, fun c i => id⟩
  | backEnd => exact ⟨rfl, fun c i => hremove⟩
  | child => exact ⟨rfl, fun c i => hremove⟩

structure Rescuer (n : Node) : Prop where
  fanOut : 2 ≤ n.topo.fanOut
  nonneg : ∀ c i, n.all.Mem c i → 0 ≤ i

theorem Rescuer.step (h : n.Rescuer) (hstep : Guarded Op.Named Op.Succeeds n op n') : n'.Rescuer := by
  have ⟨hnamed, hexec⟩ := hstep
  cases op with
  | add be_id host lev launch =>
    have ⟨hfan, hmem⟩ := (addBE_added hexec).frame
    refine ⟨hfan ▸ h.fanOut, ?_⟩
    intro c i hi
    obtain hi | hi := hmem c i hi
    . exact h.nonneg c i hi
    . exact hi ▸ hnamed
  | remove be_id =>
    have ⟨hfan, hmem⟩ := (removeBE_removed hexec).frame
    exact ⟨hfan ▸ h.fanOut, fun c i hi => h.nonneg c i (hmem c i hi)⟩

theorem Rescuer.start {topo : Topology} {st : Launcher} (h : topo.Ready)
    (hspread : Spread topo.initID topo.placed st) (hbefore : ∀ x ∈ topo.placed, x.2.Before st.nextAgentID [])
    : Rescuer ⟨topo, st⟩ := by
  have hinit : 0 ≤ topo.initID := by
    unfold Topology.initID Topology.ids
    cases hl : topo.beMap with
    | nil => exact absurd hl h.nonempty
    | cons e l => exact h.ordered.nonneg e (by rw [hl]; exact List.mem_cons_self ..)
  refine ⟨h.fanOut, ?_⟩
  intro c i hi
  have ⟨x, hx, _, hreg⟩ := (hspread.mem c i).mp hi
  have hbx := hbefore x hx
  cases hch : x.2 with
  | backEnd e =>
    rw [hch] at hreg hbx
    exact hreg ▸ hbx.1
  | agent t =>
    rw [hch] at hreg
    have := hreg.1
    omega

theorem rescueTopo_ids (n : Node) (sID : Int) : (n.rescueTopo sID).ids = n.routed sID := by
  simp only [rescueTopo, Launcher.childTopo, Topology.ids, List.map_map]
  exact List.map_id _

theorem Rescuer.ready (h : n.Rescuer) (hneg : sID < 0) (hne : n.routed sID ≠ [])
    : (n.rescueTopo sID).Ready := by
  have hids := n.rescueTopo_ids sID
  refine ⟨h.fanOut, hneg, ⟨?_, ?_⟩, ?_⟩
  . have hsorted : (n.rescueTopo sID).ids.Pairwise (fun i j => i < j) := by
      rw [hids]
      exact RangeList.members_pairwise (n.all.getD sID ∅).wf
    exact List.pairwise_map.mp hsorted
  . intro e he
    have hmem : e.1 ∈ (n.rescueTopo sID).ids := List.mem_map_of_mem he
    rw [hids, mem_routed] at hmem
    exact h.nonneg sID e.1 hmem
  . intro hnil
    rw [Topology.ids, hnil] at hids
    exact hne hids.symm

theorem rescue_exact {topo : Topology} (h : topo.Ready)
    (hvalid : ∀ t, .agent t ∈ topo.children → t.agentID ≠ VALIDBACKENDIDS)
    : ∃ n, Node.deploy topo = some n ∧
        ∀ ops n' sID, Run (Guarded Op.Named Op.Succeeds) n ops n' → sID < 0 → n'.routed sID ≠ [] →
          (∀ t, Deployed (n'.rescueTopo sID) t → t.agentID ≠ VALIDBACKENDIDS) →
          (n'.rescueTopo sID).ids = n'.routed sID
            ∧
          ∃ nodes,
            (∀ fuel, (n'.routed sID).length ≤ fuel →
              deployAll fuel (n'.rescueTopo sID) = some nodes)
              ∧
            (RoutesExactly nodes ↔ (n'.rescueTopo sID).Unbroken) := by
  have ⟨st, hdeploy, hspread, hbefore⟩ := h.deploy hvalid
  refine ⟨⟨topo, st⟩, by simp [Node.deploy, hdeploy], ?_⟩
  intro ops n' sID hrun hneg hne hvalid'
  have hrescuer := hrun.invariant Rescuer (fun _ _ _ h hstep => h.step hstep)
    (Rescuer.start h hspread hbefore)
  have hids := n'.rescueTopo_ids sID
  have hlen : (n'.routed sID).length = (n'.rescueTopo sID).beMap.length := by
    rw [← hids, Topology.ids, List.length_map]
  rw [hlen]
  exact ⟨hids, deployAll_exact _ (hrescuer.ready hneg hne) hvalid'⟩

section Example

-- what the child -2 is launched again with when back end 0 has left, and its own agent
def leftChild : Topology := ⟨-2, 2, 1, 3, "be", "agent", [(1, "b"), (2, "c"), (3, "d")]⟩

def leftGrandchild : Topology := ⟨-4, 2, 2, 3, "be", "agent", [(1, "b"), (2, "c")]⟩

theorem rescue_exact_without_first
    : ∃ n n' nodes, Node.deploy eightBackEnds = some n ∧
        Run (Guarded Op.Named Op.Succeeds) n [.remove 0] n' ∧
        deployAll 3 (n'.rescueTopo (-2)) = some nodes ∧ RoutesExactly nodes := by
  have hready : eightBackEnds.Ready := by
    constructor
    . decide
    . decide
    . exact Consecutive.ordered (a := 0) (by simp [eightBackEnds, Consecutive]) le_rfl
    . decide
  have hagents : ∀ t ∈ Child.agents eightBackEnds.children, t.agentID ≠ VALIDBACKENDIDS := by decide +kernel
  have hvalid : ∀ t, .agent t ∈ eightBackEnds.children → t.agentID ≠ VALIDBACKENDIDS :=
    fun t ht => hagents t (Child.mem_agents.mpr ht)
  obtain ⟨n, hdeploy, hruns⟩ := rescue_exact hready hvalid
  have hcheck : (Node.deploy eightBackEnds).any (fun n =>
      ((Op.remove 0).exec n).any (fun res => res.2 = .success ∧ res.1.rescueTopo (-2) = leftChild)) = true := by
    decide +kernel
  rw [hdeploy, Option.any_some, Option.any_eq_true] at hcheck
  obtain ⟨⟨n', _⟩, hremove, hres⟩ := hcheck
  obtain ⟨rfl, htopo⟩ := of_decide_eq_true hres
  have hrun : Run (Guarded Op.Named Op.Succeeds) n [.remove 0] n' := .cons ⟨trivial, hremove⟩ (.nil _)
  have hrouted : n'.routed (-2) = [1, 2, 3] := by
    rw [← rescueTopo_ids, htopo]
    rfl
  have hbelow : ∀ t, Deployed leftChild t → t.agentID ≠ VALIDBACKENDIDS := by
    intro t ht
    apply ht.of_closed [leftChild, leftGrandchild]
    . simp
    . decide +kernel
  obtain ⟨_, nodes, hnodes, hexact⟩ := hruns _ n' (-2) hrun (by decide) (by rw [hrouted]; simp)
    (by rwa [htopo])
  refine ⟨n, n', nodes, hdeploy, hrun, hnodes 3 (by rw [hrouted]; decide), hexact.mpr ?_⟩
  rw [htopo]
  exact ⟨rfl, rfl, trivial⟩

theorem rescue_registers_wrong_back_end
    : (Node.deploy eightBackEnds).any (fun n =>
        (n.removeBE 1).any (fun res =>
          res.2 = .success ∧
          (deployAll 3 (res.1.rescueTopo (-2))).any (fun nodes =>
            nodes.any (fun x =>
              x.2.sent.any (fun t => t.agentID = -4 ∧ t.ids = [0, 2]) ∧
              ((x.2.routingList.myDistriGroup.parts SCI_GROUP_ALL).getD (-4) ∅).members = [0, 1])))) := by
  decide +kernel

end Example

end Node

end Sci
