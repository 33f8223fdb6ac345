import Cloudland.Lib.Heap
import Cloudland.Sci.Routing.Launch

/-!
The shape of the tree that the recursive deployment builds: every agent deploys the topology it
finds in its queue.
-/

namespace Sci

open OrdMap
open Std (ExtTreeMap)

namespace Launcher

def sent (st : Launcher) : List Topology :=
  st.routingList.queueInfo.toList.filterMap (fun e =>
    match e.2 with
    | .config topo :: _ => some topo
    | _ => none)

def backEnds (st : Launcher) : List Int := (st.clients.map (fun c => c.id)).filter (fun id => decide (0 ≤ id))

end Launcher

def deployAll : Nat → Topology → Option (List (Topology × Launcher))
  | 0, _ => none
  | fuel + 1, topo => do
    let st ← topo.deploy .new
    let below ← st.sent.mapM (deployAll fuel)
    return (topo, st) :: below.flatten

inductive Deployed (root : Topology) : Topology → Prop where
  | root : Deployed root root
  | child {topo t : Topology} (h : Deployed root topo) (ht : .agent t ∈ topo.children)
    : Deployed root t

namespace Child

def agents (cs : List Child) : List Topology :=
  cs.filterMap (fun ch =>
    match ch with
    | .backEnd _ => none
    | .agent t => some t)

def backEnds (cs : List Child) : List Int :=
  cs.filterMap (fun ch =>
    match ch with
    | .backEnd e => some e.1
    | .agent _ => none)

theorem mem_agents : t ∈ agents cs ↔ .agent t ∈ cs := by
  simp only [agents, List.mem_filterMap]
  constructor
  . rintro ⟨ch, hch, h⟩
    cases ch with
    | backEnd e => simp at h
    | agent t' =>
      simp only [Option.some.injEq] at h
      rw [← h]
      exact hch
  . intro h
    exact ⟨.agent t, h, rfl⟩

theorem mem_backEnds : i ∈ backEnds cs ↔ ∃ e, .backEnd e ∈ cs ∧ e.1 = i := by
  simp only [backEnds, List.mem_filterMap]
  constructor
  . rintro ⟨ch, hch, h⟩
    cases ch with
    | backEnd e => exact ⟨e, hch, by simpa using h⟩
    | agent t => simp at h
  . rintro ⟨e, he, rfl⟩
    exact ⟨.backEnd e, he, rfl⟩

theorem flatMap_ids_perm (cs : List Child)
    : (cs.flatMap ids).Perm (backEnds cs ++ (agents cs).flatMap Topology.ids) := by
  induction cs with
  | nil => exact .nil
  | cons ch cs ih =>
    cases ch with
    | backEnd e =>
      exact ih.cons e.1
    | agent t =>
      apply (ih.append_left t.ids).trans
      rw [← List.append_assoc]
      apply (List.perm_append_comm.append_right _).trans
      rw [List.append_assoc]
      rfl

end Child

namespace Topology

theorem length_childrenFrom (topo : Topology) (next : Int) (cs : List (List (Int × String)))
    : (topo.childrenFrom next cs).length = cs.length := by
  induction cs generalizing next with
  | nil => rfl
  | cons c cs ih =>
    unfold childrenFrom
    split <;> simp [ih]

theorem flatMap_ids_childrenFrom (topo : Topology) (next : Int) (cs : List (List (Int × String)))
    : (topo.childrenFrom next cs).flatMap Child.ids = cs.flatten.map (fun e => e.1) := by
  induction cs generalizing next with
  | nil => rfl
  | cons c cs ih =>
    by_cases hc : c.length = 1
    . obtain ⟨e, rfl⟩ := List.length_eq_one_iff.mp hc
      rw [childrenFrom_one, List.flatMap_cons, ih]
      rfl
    . rw [childrenFrom_many _ _ _ hc, List.flatMap_cons, ih, List.flatten_cons, List.map_append]
      rfl

theorem agent_mem_childrenFrom {topo : Topology} {cs : List (List (Int × String))}
    (h : .agent t ∈ topo.childrenFrom next cs)
    : ∃ c ∈ cs, ∃ j, j < cs.length ∧ c.length ≠ 1 ∧ t = Launcher.childTopo topo (next - j) c := by
  induction cs generalizing next with
  | nil => simp [childrenFrom] at h
  | cons c cs ih =>
    by_cases hc : c.length = 1
    . obtain ⟨e, rfl⟩ := List.length_eq_one_iff.mp hc
      rw [childrenFrom_one, List.mem_cons] at h
      simp only [reduceCtorEq, false_or] at h
      obtain ⟨c', hc', j, hj, hlen, ht⟩ := ih h
      exact ⟨c', List.mem_cons_of_mem _ hc', j, by simp only [List.length_cons]; omega, hlen, ht⟩
    . rw [childrenFrom_many _ _ _ hc, List.mem_cons] at h
      obtain h | h := h
      . exact ⟨c, by simp, 0, by simp, hc, by simpa using h⟩
      . obtain ⟨c', hc', j, hj, hlen, ht⟩ := ih h
        refine ⟨c', List.mem_cons_of_mem _ hc', j + 1, by simpa using hj, hlen, ?_⟩
        rw [ht]
        congr 1
        omega

theorem agents_childrenFrom_nodup (topo : Topology) (next : Int) (cs : List (List (Int × String)))
    : ((Child.agents (topo.childrenFrom next cs)).map (fun t => t.agentID)).Nodup := by
  induction cs generalizing next with
  | nil => exact .nil
  | cons c cs ih =>
    by_cases hc : c.length = 1
    . obtain ⟨e, rfl⟩ := List.length_eq_one_iff.mp hc
      exact ih next
    . rw [childrenFrom_many _ _ _ hc]
      apply List.nodup_cons.mpr
      refine ⟨?_, ih (next - 1)⟩
      -- the agents of the other chunks have lower ids
      intro hmem
      have ⟨t, ht, heq⟩ := List.mem_map.mp hmem
      have ⟨_, _, j, _, _, htopo⟩ := agent_mem_childrenFrom (Child.mem_agents.mp ht)
      rw [htopo] at heq
      simp only [Launcher.childTopo] at heq
      omega

theorem consecutive_of_mem_split (hl : Consecutive a l) (hc : c ∈ Split.split out l)
    : ∃ b, a ≤ b ∧ Consecutive b c := by
  induction out generalizing a l with
  | zero => simp [Split.split] at hc
  | succ out ih =>
    cases l with
    | nil => simp [Split.split] at hc
    | cons e l =>
      rw [Split.split, List.mem_cons] at hc
      obtain hc | hc := hc
      . rw [hc]
        exact ⟨a, le_refl a, hl.take _⟩
      . have hle := Split.step_le out (l.length + 1) (by omega)
        obtain ⟨b, hb, hcons⟩ := ih (hl.drop _ hle) hc
        exact ⟨b, by omega, hcons⟩

def pos (topo : Topology) : Nat := (-topo.agentID - 1).toNat

theorem agentID_eq {topo : Topology} (h : topo.agentID < 0) : topo.agentID = -(topo.pos + 1 : Int) := by
  unfold pos
  omega

structure ChildSpec (topo t : Topology) (j : Nat) : Prop where
  fanOut_eq : t.fanOut = topo.fanOut
  slot : j < topo.fanOut
  pos_eq : t.pos = Heap.child topo.fanOut topo.pos j
  two_le : 2 ≤ t.beMap.length
  bound : topo.fanOut * (t.beMap.length - 1) < topo.beMap.length

theorem agent_mem_children {topo t : Topology} (h : topo.Deployable a) (ht : .agent t ∈ topo.children)
    : ∃ b j, a ≤ b ∧ t.Deployable b ∧ topo.ChildSpec t j := by
  have ⟨c, hc, j, hj, hlen, heq⟩ := agent_mem_childrenFrom ht
  have ⟨b, hb, hcons⟩ := consecutive_of_mem_split h.consecutive hc
  have hne := (Split.mem_split hc).1
  have hslots := Split.length_split_le topo.fanOut topo.beMap
  have hpos := List.length_pos_iff.mpr hne
  have hid : t.agentID = topo.firstAgentID - j := by rw [heq]; rfl
  have hneg := firstAgentID_neg h.agentID
  refine ⟨b, j, hb, ?_, ?_⟩
  . rw [heq]
    exact ⟨h.fanOut, by simp only [Launcher.childTopo]; unfold firstAgentID at hneg; omega,
      le_trans h.nonneg hb, hne, hcons⟩
  . have hmap : t.beMap = c := by rw [heq]; rfl
    refine ⟨by rw [heq]; rfl, by omega, ?_, by rw [hmap]; omega, ?_⟩
    . have hmul : (-(topo.pos + 1 : Int) + 1) * topo.fanOut
          = -((topo.pos * topo.fanOut : Nat) : Int) := by
        push_cast
        ring
      rw [firstAgentID, agentID_eq h.agentID, hmul] at hid
      show (-t.agentID - 1).toNat = _
      rw [hid, Heap.child]
      generalize topo.pos * topo.fanOut = x
      omega
    . rw [hmap]
      exact Split.length_chunk_bound hc

/--
What `deploy` and `launch_tree2` compute at a node stays within `int`: the sum `totalSize + out - 1`, the ids of the
agents and the ends of the ranges.
-/
def InRange (topo : Topology) : Prop :=
  topo.beMap.length + topo.fanOut ≤ 2 ^ 31 ∧
    -2 ^ 31 ≤ topo.firstAgentID - (Child.agents topo.children).length ∧ ∀ i ∈ topo.ids, CInt.IsInt (i + 1)

instance (topo : Topology) : Decidable topo.InRange := inferInstanceAs (Decidable (_ ∧ _))

theorem ChildSpec.length_lt {topo t : Topology} (h : topo.ChildSpec t j) (hf : 2 ≤ topo.fanOut)
    : t.beMap.length < topo.beMap.length := by
  have hbound := h.bound
  have htwo := h.two_le
  have : 2 * (t.beMap.length - 1) ≤ topo.fanOut * (t.beMap.length - 1) := Nat.mul_le_mul_right _ hf
  omega

theorem children_ids {topo : Topology} (h : topo.Deployable a)
    : topo.children.flatMap Child.ids = topo.ids := by
  unfold children
  rw [flatMap_ids_childrenFrom, Split.flatten_split (by have := h.fanOut; omega)]
  rfl

theorem length_children_le (topo : Topology) : topo.children.length ≤ topo.fanOut := by
  unfold children
  rw [length_childrenFrom]
  apply Split.length_split_le

end Topology

namespace Entered

variable {cs : List Child} {st : Launcher}

theorem mem_sent (h : Entered cs st) : t ∈ st.sent ↔ .agent t ∈ cs := by
  simp only [Launcher.sent, List.mem_filterMap, Prod.exists,
    ExtTreeMap.mem_toList_iff_getElem?_eq_some, h.queue]
  constructor
  . rintro ⟨k, q, ⟨ch, hch, -, rfl⟩, hq⟩
    cases ch with
    | backEnd e => simp [Child.queue] at hq
    | agent t' =>
      simp only [Child.queue, Option.some.injEq] at hq
      rw [← hq]
      exact hch
  . intro ht
    exact ⟨t.agentID, [.config t], ⟨.agent t, ht, rfl, rfl⟩, rfl⟩

theorem sent_nodup (h : Entered cs st) : st.sent.Nodup := by
  unfold Launcher.sent
  rw [List.nodup_iff_pairwise_ne, List.pairwise_filterMap]
  -- the queue of a topology is filed under the topology's own id
  have hkey : ∀ e ∈ st.routingList.queueInfo.toList, ∀ t, (match e.2 with
      | .config topo :: _ => some topo
      | _ => none) = some t → e.1 = t.agentID := by
    intro e he t ht
    have ⟨ch, hch, hk, hq⟩ := (h.queue e.1 e.2).mp (ExtTreeMap.mem_toList_iff_getElem?_eq_some.mp he)
    rw [← hq] at ht
    cases ch with
    | backEnd e' => simp [Child.queue] at ht
    | agent t' =>
      simp only [Child.queue, Option.some.injEq] at ht
      rw [← hk, ← ht]
      rfl
  refine (distinct_keys st.routingList.queueInfo).imp_of_mem ?_
  intro e e' he he' hne t ht t' ht' heq
  apply hne
  rw [hkey e he t ht, hkey e' he' t' ht', heq]

theorem sent_perm (h : Entered cs st) (hcs : (Child.agents cs).Nodup) : st.sent.Perm (Child.agents cs) := by
  rw [List.perm_ext_iff_of_nodup h.sent_nodup hcs]
  intro t
  rw [h.mem_sent, Child.mem_agents]

theorem backEnds_eq (h : Entered cs st) (hneg : ∀ t, .agent t ∈ cs → t.agentID < 0)
    (hpos : ∀ e, .backEnd e ∈ cs → 0 ≤ e.1)
    : st.backEnds = Child.backEnds cs := by
  unfold Launcher.backEnds
  rw [h.handles]
  clear h
  induction cs with
  | nil => rfl
  | cons ch cs ih =>
    have hrec := ih (fun t ht => hneg t (List.mem_cons_of_mem _ ht))
      (fun e he => hpos e (List.mem_cons_of_mem _ he))
    cases ch with
    | backEnd e =>
      have := hpos e (by simp)
      rw [List.map_cons, List.filter_cons_of_pos (by
        rw [decide_eq_true_eq]
        exact this), hrec]
      rfl
    | agent t =>
      have := hneg t (by simp)
      rw [List.map_cons, List.filter_cons_of_neg (by
        rw [decide_eq_true_eq]
        exact Int.not_le.mpr this), hrec]
      rfl

end Entered

/-- The deployment in the arithmetic of `int`, where an overflow has no result. -/
def deployTree (fuel : Nat) (topo : Topology) : Option (List (Topology × Launcher)) :=
  (deployAll fuel topo).filter (fun nodes => nodes.all (fun x => x.1.InRange))

structure TreeSpec (topo : Topology) (nodes : List (Topology × Launcher)) : Prop where
  successors : ∀ x ∈ nodes, x.2.clients.length ≤ topo.fanOut
  launched : (nodes.flatMap (fun x => x.2.backEnds)).Perm topo.ids
  distinct : (nodes.map (fun x => x.1.pos)).Nodup
  deployed : ∀ x ∈ nodes, Deployed topo x.1
  descends : ∀ x ∈ nodes, x.1.agentID < 0 ∧ Heap.Descends topo.fanOut topo.pos x.1.pos
  registered : ∀ x ∈ nodes, ∀ t ∈ x.2.sent, ∀ i,
    (x.2.routingList.myDistriGroup.parts SCI_GROUP_ALL).Mem t.agentID i ↔ i ∈ t.ids
  direct : ∀ x ∈ nodes, ∀ i,
    (x.2.routingList.myDistriGroup.parts SCI_GROUP_ALL).Mem VALIDBACKENDIDS i ↔ i ∈ x.2.backEnds

namespace Entered

variable {topo : Topology} {st : Launcher} {a : Int}

theorem backEnds_nonneg (hd : topo.Deployable a) {e : Int × String} (he : .backEnd e ∈ topo.children)
    : 0 ≤ e.1 := by
  have hmem : e.1 ∈ topo.ids := by
    rw [← Topology.children_ids hd, List.mem_flatMap]
    exact ⟨.backEnd e, he, by simp [Child.ids]⟩
  have := (hd.consecutive.mem_iff e.1).mp hmem
  have := hd.nonneg
  omega

theorem agents_nodup (topo : Topology) : (Child.agents topo.children).Nodup :=
  .of_map _ (Topology.agents_childrenFrom_nodup topo _ _)

theorem registered (h : Entered topo.children st)
    (hvalid : ∀ t, .agent t ∈ topo.children → t.agentID ≠ VALIDBACKENDIDS) {t : Topology}
    (ht : t ∈ st.sent) (i : Int)
    : (st.routingList.myDistriGroup.parts SCI_GROUP_ALL).Mem t.agentID i ↔ i ∈ t.ids := by
  rw [h.mem_sent] at ht
  rw [h.mem]
  constructor
  . rintro ⟨ch, hch, hkey, hi⟩
    cases ch with
    | backEnd e => exact absurd hkey.symm (hvalid t ht)
    | agent t' =>
      -- agents with one id are one agent
      have heq := List.inj_on_of_nodup_map (Topology.agents_childrenFrom_nodup topo _ _)
        (Child.mem_agents.mpr hch) (Child.mem_agents.mpr ht) hkey
      rw [← heq]
      exact hi
  . intro hi
    exact ⟨.agent t, ht, rfl, hi⟩

theorem direct (h : Entered topo.children st) (hd : topo.Deployable a)
    (hvalid : ∀ t, .agent t ∈ topo.children → t.agentID ≠ VALIDBACKENDIDS)
    (hneg : ∀ t, .agent t ∈ topo.children → t.agentID < 0) (i : Int)
    : (st.routingList.myDistriGroup.parts SCI_GROUP_ALL).Mem VALIDBACKENDIDS i ↔ i ∈ st.backEnds := by
  rw [h.backEnds_eq hneg (fun e he => backEnds_nonneg hd he), h.mem, Child.mem_backEnds]
  constructor
  . rintro ⟨ch, hch, hkey, hi⟩
    cases ch with
    | backEnd e => exact ⟨e, hch, (List.mem_singleton.mp hi).symm⟩
    | agent t => exact absurd hkey (hvalid t hch)
  . rintro ⟨e, he, rfl⟩
    exact ⟨.backEnd e, he, rfl, by simp [Child.ids]⟩

end Entered

theorem Deployed.trans {topo : Topology} (h : .agent t ∈ topo.children) (h' : Deployed t t')
    : Deployed topo t' := by
  induction h' with
  | root => exact .child .root h
  | child _ ht ih => exact .child ih ht

theorem mapM_eq_some_map {α β : Type} {f : α → Option β} {g : α → β} {l : List α}
    (h : ∀ x ∈ l, f x = some (g x))
    : l.mapM f = some (l.map g) := by
  induction l with
  | nil => rfl
  | cons x l ih =>
    rw [List.forall_mem_cons] at h
    simp [List.mapM_cons, h.1, ih h.2]

theorem mapM_eq_none_of_mem {α β : Type} {f : α → Option β} {l : List α} {x : α} (hx : x ∈ l) (h : f x = none)
    : l.mapM f = none := by
  induction l with
  | nil => simp at hx
  | cons y l ih =>
    rw [List.mapM_cons]
    obtain heq | hmem := List.mem_cons.mp hx
    . rw [← heq, h]; rfl
    . cases f y <;> simp [ih hmem]

section Node

variable {topo : Topology} {st : Launcher} {a : Int} {N : Topology → List (Topology × Launcher)}

theorem treeSpec_node (hd : topo.Deployable a) (hst : Entered topo.children st)
    (hvalid : ∀ t, .agent t ∈ topo.children → t.agentID ≠ VALIDBACKENDIDS)
    (hN : ∀ t ∈ st.sent, TreeSpec t (N t))
    : TreeSpec topo ((topo, st) :: (st.sent.map N).flatten) := by
  have hchild : ∀ t ∈ st.sent, ∃ b j, a ≤ b ∧ t.Deployable b ∧ topo.ChildSpec t j :=
    fun t ht => Topology.agent_mem_children hd (hst.mem_sent.mp ht)
  have hneg : ∀ t, .agent t ∈ topo.children → t.agentID < 0 := by
    intro t ht
    have ⟨_, _, _, htd, _⟩ := Topology.agent_mem_children hd ht
    exact htd.agentID
  have hbelow : ∀ {P : Topology × Launcher → Prop}, P (topo, st) →
      (∀ t ∈ st.sent, ∀ x ∈ N t, P x) → ∀ x ∈ (topo, st) :: (st.sent.map N).flatten, P x := by
    intro P hroot hP
    rw [List.forall_mem_cons]
    refine ⟨hroot, ?_⟩
    intro x hx
    rw [← List.flatMap_def, List.mem_flatMap] at hx
    have ⟨t, ht, hx⟩ := hx
    exact hP t ht x hx
  constructor
  . apply hbelow
    . have hlen := congrArg List.length hst.handles
      simp only [List.length_map] at hlen
      have := topo.length_children_le
      dsimp only
      omega
    . intro t ht x hx
      have ⟨_, _, _, _, hspec⟩ := hchild t ht
      rw [← hspec.fanOut_eq]
      exact (hN t ht).successors x hx
  . rw [List.flatMap_cons, ← List.flatMap_def, List.flatMap_assoc,
      hst.backEnds_eq hneg (fun e he => Entered.backEnds_nonneg hd he)]
    rw [← Topology.children_ids hd]
    refine List.Perm.trans ?_ (Child.flatMap_ids_perm _).symm
    apply List.Perm.append_left
    refine List.Perm.trans (List.Perm.flatMap_left _ (fun t ht => (hN t ht).launched)) ?_
    exact (hst.sent_perm (Entered.agents_nodup topo)).flatMap_right _
  . rw [List.map_cons, ← List.flatMap_def, List.map_flatMap, List.nodup_cons]
    have hpos : ∀ t ∈ st.sent, ∃ j, j < topo.fanOut ∧
        t.pos = Heap.child topo.fanOut topo.pos j ∧
        ∀ x ∈ N t, Heap.Descends topo.fanOut (Heap.child topo.fanOut topo.pos j) x.1.pos := by
      intro t ht
      have ⟨_, j, _, _, hspec⟩ := hchild t ht
      refine ⟨j, hspec.slot, hspec.pos_eq, ?_⟩
      intro x hx
      rw [← hspec.pos_eq, ← hspec.fanOut_eq]
      exact ((hN t ht).descends x hx).2
    refine ⟨?_, ?_⟩
    . intro hmem
      have ⟨t, ht, hx⟩ := List.mem_flatMap.mp hmem
      have ⟨x, hx, heq⟩ := List.mem_map.mp hx
      have ⟨j, hj, _, hdesc⟩ := hpos t ht
      have := (hdesc x hx).le
      dsimp only at heq
      have := Heap.lt_child (by omega : 0 < topo.fanOut) topo.pos j
      omega
    . rw [List.nodup_flatMap]
      refine ⟨fun t ht => (hN t ht).distinct, ?_⟩
      refine List.Pairwise.imp_of_mem ?_ hst.sent_nodup
      intro t t' ht ht' hne
      -- a common position would lie below two children of this node
      rw [Function.onFun, List.disjoint_left]
      intro p hp hp'
      have ⟨x, hx, hxp⟩ := List.mem_map.mp hp
      have ⟨x', hx', hxp'⟩ := List.mem_map.mp hp'
      have ⟨j, hj, htj, hdesc⟩ := hpos t ht
      have ⟨j', hj', htj', hdesc'⟩ := hpos t' ht'
      have hjj := Heap.Descends.child_unique hj hj' (hxp ▸ hdesc x hx) (hxp' ▸ hdesc' x' hx')
      apply hne
      apply List.inj_on_of_nodup_map (Topology.agents_childrenFrom_nodup topo _ _)
        (Child.mem_agents.mpr (hst.mem_sent.mp ht)) (Child.mem_agents.mpr (hst.mem_sent.mp ht'))
      rw [Topology.agentID_eq (hneg t (hst.mem_sent.mp ht)),
        Topology.agentID_eq (hneg t' (hst.mem_sent.mp ht')), htj, htj', hjj]
  . exact hbelow .root (fun t ht x hx => ((hN t ht).deployed x hx).trans (hst.mem_sent.mp ht))
  . apply hbelow
    . exact ⟨hd.agentID, .refl _⟩
    . intro t ht x hx
      have ⟨_, j, _, _, hspec⟩ := hchild t ht
      have hdesc := (hN t ht).descends x hx
      refine ⟨hdesc.1, Heap.Descends.of_child hspec.slot ?_⟩
      rw [← hspec.pos_eq, ← hspec.fanOut_eq]
      exact hdesc.2
  . apply hbelow
    . exact fun t ht => hst.registered hvalid ht
    . exact fun t ht x hx => (hN t ht).registered x hx
  . apply hbelow
    . exact hst.direct hd hvalid hneg
    . exact fun t ht x hx => (hN t ht).direct x hx

end Node

-- what holds of the nodes below an agent follows from the agents that it launches, whose maps are shorter
theorem deployAll_induct {P : Topology → Prop} {Q : Topology → List (Topology × Launcher) → Prop}
    (hstep : ∀ topo, P topo → topo.beMap ≠ [] ∧ ∃ st, topo.deploy .new = some st ∧
      (∀ t ∈ st.sent, P t ∧ t.beMap.length < topo.beMap.length) ∧
      ∀ N, (∀ t ∈ st.sent, Q t (N t)) → Q topo ((topo, st) :: (st.sent.map N).flatten))
    (topo : Topology) (h : P topo)
    : ∃ nodes, (∀ fuel, topo.beMap.length ≤ fuel → deployAll fuel topo = some nodes) ∧ Q topo nodes := by
  generalize hn : topo.beMap.length = n
  induction n using Nat.strongRecOn generalizing topo with
  | ind n ih =>
    have ⟨hne, st, hdeploy, hchild, hQ⟩ := hstep topo h
    have hsent : ∀ t ∈ st.sent, ∃ nodes,
        (∀ fuel, t.beMap.length ≤ fuel → deployAll fuel t = some nodes) ∧ Q t nodes :=
      fun t ht => ih _ (hn ▸ (hchild t ht).2) t (hchild t ht).1 rfl
    choose! N hN using hsent
    refine ⟨(topo, st) :: (st.sent.map N).flatten, ?_, hQ N (fun t ht => (hN t ht).2)⟩
    intro fuel hfuel
    have hpos := List.length_pos_iff.mpr hne
    cases fuel with
    | zero => omega
    | succ fuel =>
      have hmap : st.sent.mapM (deployAll fuel) = some (st.sent.map N) := by
        apply mapM_eq_some_map
        intro t ht
        have := (hchild t ht).2
        exact (hN t ht).1 fuel (by omega)
      simp [deployAll, hdeploy, hmap]

theorem deployAll_spec (topo : Topology) (hd : topo.Deployable a)
    (hvalid : ∀ t, Deployed topo t → t.agentID ≠ VALIDBACKENDIDS)
    : ∃ nodes,
        (∀ fuel, topo.beMap.length ≤ fuel → deployAll fuel topo = some nodes) ∧
        TreeSpec topo nodes := by
  apply deployAll_induct (P := fun topo =>
    (∃ a, topo.Deployable a) ∧ ∀ t, Deployed topo t → t.agentID ≠ VALIDBACKENDIDS) _ topo ⟨⟨a, hd⟩, hvalid⟩
  intro topo ⟨⟨a, hd⟩, hvalid⟩
  have hvalid' : ∀ t, .agent t ∈ topo.children → t.agentID ≠ VALIDBACKENDIDS :=
    fun t ht => hvalid t (.child .root ht)
  have ⟨st, hdeploy, hst⟩ := Topology.deploy_spec hd hvalid'
  refine ⟨hd.nonempty, st, hdeploy, ?_, fun N hN => treeSpec_node hd hst hvalid' hN⟩
  intro t ht
  have ht := hst.mem_sent.mp ht
  have ⟨b, _, _, htd, hspec⟩ := Topology.agent_mem_children hd ht
  exact ⟨⟨⟨b, htd⟩, fun t' ht' => hvalid t' (ht'.trans ht)⟩, hspec.length_lt hd.fanOut⟩

theorem deployTree_spec {topo : Topology} (hd : topo.Deployable a)
    (hvalid : ∀ t, Deployed topo t → t.agentID ≠ VALIDBACKENDIDS) (hrange : ∀ t, Deployed topo t → t.InRange)
    : ∃ nodes,
        (∀ fuel, topo.beMap.length ≤ fuel → deployTree fuel topo = some nodes) ∧
        TreeSpec topo nodes := by
  have ⟨nodes, hdeploy, hspec⟩ := deployAll_spec topo hd hvalid
  refine ⟨nodes, fun fuel hfuel => ?_, hspec⟩
  have hall : nodes.all (fun x => x.1.InRange) = true := by
    simpa using fun t st hx => hrange t (hspec.deployed (t, st) hx)
  simp [deployTree, hdeploy fuel hfuel, hall]

theorem launch_tree_shape (topo : Topology) (hroot : topo.agentID = -1)
    (hids : Consecutive 0 topo.beMap) (hn : topo.beMap ≠ []) (hf : 2 ≤ topo.fanOut)
    (hvalid : ∀ t, Deployed topo t → t.agentID ≠ VALIDBACKENDIDS) (hrange : ∀ t, Deployed topo t → t.InRange)
    : ∃ nodes,
        (∀ fuel, topo.beMap.length ≤ fuel → deployTree fuel topo = some nodes)
          ∧
        (∀ x ∈ nodes, x.2.clients.length ≤ topo.fanOut)
          ∧
        (nodes.flatMap (fun x => x.2.backEnds)).Perm topo.ids
          ∧
        (nodes.map (fun x => x.1.agentID)).Nodup
          ∧
        (∀ x ∈ nodes, ∀ t ∈ x.2.sent, ∀ i,
          (x.2.routingList.myDistriGroup.parts SCI_GROUP_ALL).Mem t.agentID i ↔ i ∈ t.ids)
          ∧
        (∀ x ∈ nodes, ∀ i,
          (x.2.routingList.myDistriGroup.parts SCI_GROUP_ALL).Mem VALIDBACKENDIDS i
            ↔
          i ∈ x.2.backEnds) := by
  have hd : topo.Deployable 0 := ⟨hf, by omega, le_rfl, hn, hids⟩
  have ⟨nodes, hdeploy, hspec⟩ := deployTree_spec hd hvalid hrange
  have hdistinct : (nodes.map (fun x => x.1.agentID)).Nodup := by
    apply List.Nodup.of_map (fun id : Int => (-id - 1).toNat)
    rw [List.map_map]
    exact hspec.distinct
  exact ⟨nodes, hdeploy, hspec.successors, hspec.launched, hdistinct, hspec.registered, hspec.direct⟩

theorem exists_consecutive (a : Int) (n : Nat)
    : ∃ l : List (Int × String), Consecutive a l ∧ l.length = n := by
  induction n generalizing a with
  | zero => exact ⟨[], trivial, rfl⟩
  | succ n ih =>
    have ⟨l, hl, hlen⟩ := ih (a + 1)
    exact ⟨(a, "") :: l, ⟨rfl, hl⟩, by rw [List.length_cons, hlen]⟩

def fiveBackEnds : Topology := ⟨-1, 2, 0, 3, "", "", [(0, "a"), (1, "b"), (2, "c"), (3, "d"), (4, "e")]⟩

theorem Deployed.of_closed {root t : Topology} {P : Topology → Prop} (h : Deployed root t)
    (l : List Topology) (hroot : root ∈ l) (hclosed : ∀ t ∈ l, P t ∧ ∀ t' ∈ Child.agents t.children, t' ∈ l)
    : P t := by
  have hmem : t ∈ l := by
    induction h with
    | root => exact hroot
    | child _ ht ih => exact (hclosed _ ih).2 _ (Child.mem_agents.mpr ht)
  exact (hclosed t hmem).1

theorem fiveBackEnds_deployed (h : Deployed fiveBackEnds t) : t.agentID ≠ VALIDBACKENDIDS ∧ t.InRange := by
  let below (t : Topology) := Child.agents t.children
  apply h.of_closed (fiveBackEnds :: (below fiveBackEnds ++ (below fiveBackEnds).flatMap below))
  . simp
  . decide +kernel

theorem launch_tree_shape_five
    : ∃ nodes,
        (∀ fuel, 5 ≤ fuel → deployTree fuel fiveBackEnds = some nodes)
          ∧
        (∀ x ∈ nodes, x.2.clients.length ≤ 2)
          ∧
        (nodes.flatMap (fun x => x.2.backEnds)).Perm [0, 1, 2, 3, 4] := by
  have hd : fiveBackEnds.Deployable 0 := by
    constructor <;> simp [fiveBackEnds, Consecutive]
  have ⟨nodes, hdeploy, hsucc, hlaunched, _⟩ :=
    launch_tree_shape fiveBackEnds rfl hd.consecutive hd.nonempty hd.fanOut
      (fun _ ht => (fiveBackEnds_deployed ht).1) (fun _ ht => (fiveBackEnds_deployed ht).2)
  exact ⟨nodes, hdeploy, hsucc, hlaunched⟩

theorem RoutingList.queueInfo_foldl_mapQueue (l : List Nat) (rl : RoutingList)
    (hk : k < start) (h : rl.queueInfo[k]? = none)
    : (l.foldl (fun rl j => rl.mapQueue (start + j)) rl).queueInfo[k]? = none := by
  induction l generalizing rl with
  | nil => exact h
  | cons j l ih =>
    apply ih
    exact (getElem?_insert_of_ne (by omega)).trans h

theorem Launcher.enterAgent_reserved {st : Launcher} (topo : Topology)
    (endID : Int) (entries : List (Int × String)) (hostname : String)
    (hnext : st.nextAgentID = VALIDBACKENDIDS) (hstart : 0 ≤ startID)
    (hqueue : st.routingList.queueInfo[VALIDBACKENDIDS]? = none)
    : st.enterAgent topo startID endID entries hostname = none := by
  have hfold := RoutingList.queueInfo_foldl_mapQueue
    (List.range (endID - startID + 1).toNat) st.routingList
    (by unfold VALIDBACKENDIDS; omega : VALIDBACKENDIDS < startID) hqueue
  unfold enterAgent RoutingList.initSubGroup childTopo
  simp only [hnext, ne_eq, not_true_eq_false, if_false]
  cases DistributedGroup.initSubGroup _ VALIDBACKENDIDS startID endID with
  | none => rfl
  | some d => simp [RoutingList.produce, hfold]

theorem Topology.deploy_reserved {topo : Topology} (hd : topo.Deployable a)
    (hf : topo.fanOut = 2) (hlen : topo.beMap.length = 3) (hid : topo.agentID = -2 ^ 29)
    : topo.deploy .new = none := by
  have hcons := hd.consecutive
  have hnonneg := hd.nonneg
  unfold deploy Launcher.launchTree2
  cases hmap : topo.beMap with
  | nil => rw [hmap] at hlen; simp at hlen
  | cons e rest =>
    rw [hmap] at hlen hcons
    have hrest : rest.length + 1 = 3 := by simpa using hlen
    have he := hcons.1
    simp only [hf, Launcher.launchTree2.loop, hrest]
    rw [if_neg (by decide), Launcher.enterAgent_reserved]
    . rfl
    . simp only [hid]; decide
    . omega
    . simp [RoutingList.new]

-- The leftmost agents have the ids `-1, -2, -4, ...` and the sizes `2 ^ k + 1, 2 ^ (k - 1) + 1, ...`.
theorem deployAll_leftmost (k fuel : Nat) (topo : Topology) {a : Int} (D : Nat)
    (hd : topo.Deployable a) (hf : topo.fanOut = 2) (hlen : topo.beMap.length = 2 ^ (k + 1) + 1)
    (hid : topo.agentID = -D) (hD : D * 2 ^ (k + 1) = 2 ^ 30)
    : deployAll fuel topo = none := by
  induction k generalizing fuel topo a D with
  | zero =>
    cases fuel with
    | zero => rfl
    | succ fuel =>
      have hid : topo.agentID = -2 ^ 29 := by omega
      rw [deployAll, Topology.deploy_reserved hd hf hlen hid]
      rfl
  | succ k ih =>
    have hpow : 2 ≤ 2 ^ (k + 1) := by
      rw [Nat.pow_succ]
      have := Nat.two_pow_pos k
      omega
    have hD' : (2 * D) * 2 ^ (k + 1) = 2 ^ 30 := by
      rw [← hD]
      ring
    have hsmall : (2 * D) * 2 ≤ 2 ^ 30 := by
      rw [← hD']
      exact Nat.mul_le_mul_left _ hpow
    have hvalid : ∀ t, .agent t ∈ topo.children → t.agentID ≠ VALIDBACKENDIDS := by
      intro t ht
      obtain ⟨_, j, _, htd, hspec⟩ := Topology.agent_mem_children hd ht
      have hpos := hspec.pos_eq
      have hslot := hspec.slot
      have := Topology.agentID_eq htd.agentID
      have := Topology.agentID_eq hd.agentID
      rw [hf] at hpos hslot
      unfold Heap.child at hpos
      unfold VALIDBACKENDIDS
      omega
    cases fuel with
    | zero => rfl
    | succ fuel =>
      obtain ⟨st, hdeploy, hst⟩ := Topology.deploy_spec hd hvalid
      obtain ⟨t, ht, htid, htlen⟩ : ∃ t, .agent t ∈ topo.children ∧ t.agentID = -((2 * D : Nat) : Int) ∧
          t.beMap.length = 2 ^ (k + 1) + 1 := by
        unfold Topology.children
        rw [hf]
        cases hmap : topo.beMap with
        | nil => exact absurd hmap hd.nonempty
        | cons e rest =>
          rw [hmap, List.length_cons] at hlen
          have hstep : Split.step 2 (rest.length + 1) = 2 ^ (k + 1) + 1 := by
            rw [hlen, Split.step, Nat.pow_succ]
            omega
          have htake : ((e :: rest).take (2 ^ (k + 1) + 1)).length = 2 ^ (k + 1) + 1 := by
            rw [List.length_take, List.length_cons, hlen, Nat.pow_succ 2 (k + 1)]
            omega
          rw [Split.split, hstep, Topology.childrenFrom_many _ _ _ (by omega)]
          refine ⟨_, List.mem_cons_self, ?_, htake⟩
          simp only [Launcher.childTopo, hid]
          push_cast
          ring
      obtain ⟨b, _, _, htd, hspec⟩ := Topology.agent_mem_children hd ht
      have hnone := ih fuel t (2 * D) htd (by rw [hspec.fanOut_eq, hf]) htlen htid hD'
      have hmap := mapM_eq_none_of_mem (hst.mem_sent.mpr ht) hnone
      simp [deployAll, hdeploy, hmap]

theorem launch_tree_reserved_id
    : ∃ topo : Topology,
        topo.agentID = -1
          ∧
        Consecutive 0 topo.beMap
          ∧
        topo.beMap.length = 2 ^ 30 + 1
          ∧
        topo.fanOut = 2
          ∧
        ∀ fuel, deployAll fuel topo = none := by
  have ⟨l, hl, hlen⟩ := exists_consecutive 0 (2 ^ 30 + 1)
  refine ⟨⟨-1, 2, 0, 31, "", "", l⟩, rfl, hl, hlen, rfl, ?_⟩
  intro fuel
  refine deployAll_leftmost 29 fuel _ (a := 0) 1 ⟨le_rfl, Int.negSucc_lt_zero 0, le_rfl, ?_, hl⟩ rfl hlen rfl
    (by norm_num)
  rintro rfl
  simp at hlen

end Sci
