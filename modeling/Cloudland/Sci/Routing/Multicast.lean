import Cloudland.Sci.Routing.Node

/-!
The whole tree: every agent consumes the queue its parent fills, and what is left are the queues of
the back ends.
-/

namespace Sci

open OrdMap Relay List
open Std (ExtTreeMap)

section Pieces

variable (maxSegmentSize : Nat)

-- an agent passes the pieces of a command on one by one, and joins any other message before it pushes it again
def posts (root : Bool) (msg : Message) : Nat :=
  match root, msg with
  | false, .command _ _ => msg.pieces maxSegmentSize
  | _, _ => 1

/-- The reader takes one piece for a post, and waits for the others of a message whose header it has. -/
def received : Nat → List Message → List Message
  | _, [] => []
  | credits, msg :: l =>
    if msg.pieces maxSegmentSize ≤ credits then
      msg :: received (credits - msg.pieces maxSegmentSize) l
    else
      []

def read (root : Bool) (l : List Message) : List Message :=
  received maxSegmentSize (l.map (posts maxSegmentSize root)).sum l

theorem read_of_short (root : Bool) (h : ∀ msg ∈ l, msg.contentLen ≤ maxSegmentSize)
    : read maxSegmentSize root l = l := by
  have hone : ∀ msg ∈ l, msg.pieces maxSegmentSize = 1 := fun msg hmsg => if_pos (h msg hmsg)
  unfold read
  induction l with
  | nil => rfl
  | cons msg l ih =>
    rw [forall_mem_cons] at h hone
    have hpost : posts maxSegmentSize root msg = 1 := by
      unfold posts
      split
      . exact hone.1
      . rfl
    rw [map_cons, sum_cons, hpost, received, hone.1, if_pos (Nat.le_add_right _ _), Nat.add_sub_cancel_left,
      ih h.2 hone.2]

end Pieces

/-- Every agent consumes what is read of its queue, and the back ends are left with what is read of theirs. -/
def deliverBy (read : Bool → List Message → List Message)
    : Bool → Nat → List Message → Option (List (Int × List Message))
  | _, 0, _ => none
  | root, fuel + 1, input => do
    let rl ← RoutingList.new.processAll input
    let below ← rl.queueInfo.toList.mapM (fun e =>
      if 0 ≤ e.1 then some [(e.1, read root e.2)] else deliverBy read false fuel (read root e.2))
    return below.flatten

def deliver : Nat → List Message → Option (List (Int × List Message)) := deliverBy (fun _ l => l) true

def deliverPieces (maxSegmentSize : Nat) : Nat → List Message → Option (List (Int × List Message)) :=
  deliverBy (read maxSegmentSize) true

def Sets.initial (ids : List Int) : Sets := Function.update (fun _ => ∅) SCI_GROUP_ALL {i | i ∈ ids}

structure Delivered (S : Sets) (hist : List Message) (ids : List Int)
    (out : List (Int × List Message)) : Prop where
  once : (out.map (fun e => e.1)).Perm ids
  exact : ∀ e ∈ out, e.2 = relevant Message.after Message.target {e.1} S hist

abbrev Delivers (read : Bool → List Message → List Message) (S : Sets) (hist : List Message) (root : Bool)
    (topo : Topology) (input : List Message) : Prop :=
  ∃ out, (∀ fuel, topo.beMap.length ≤ fuel → deliverBy read root fuel input = some out) ∧
    Delivered S hist topo.ids out

theorem Consecutive.nodup (h : Consecutive a l) : (l.map (fun e => e.1)).Nodup := by
  induction l generalizing a with
  | nil => exact .nil
  | cons e l ih =>
    rw [map_cons, nodup_cons, h.2.mem_iff, h.1]
    exact ⟨by omega, ih h.2⟩

namespace Child

theorem map_handle_perm (cs : List Child)
    : (cs.map handle).Perm (backEnds cs ++ (agents cs).map (fun t => t.agentID)) := by
  induction cs with
  | nil => exact .nil
  | cons ch cs ih =>
    cases ch with
    | backEnd e => exact ih.cons e.1
    | agent t => exact (ih.cons t.agentID).trans perm_middle.symm

theorem length_le_of_ids {cs : List Child} (h : ∀ ch ∈ cs, ch.ids ≠ [])
    : cs.length ≤ (cs.flatMap ids).length := by
  induction cs with
  | nil => simp
  | cons ch cs ih =>
    rw [forall_mem_cons] at h
    have := ih h.2
    have := length_pos_iff.mpr h.1
    rw [flatMap_cons, length_append, length_cons]
    omega

end Child

namespace Topology

def FitsBuffer (topo : Topology) : Prop :=
  topo.fanOut ≤ MAX_SUCCESSOR_NUM ∨ topo.beMap.length ≤ MAX_SUCCESSOR_NUM

variable {topo : Topology} {a : Int}

theorem mem_all_children (hd : topo.Deployable a) : i ∈ Child.all topo.children ↔ i ∈ topo.ids := by
  rw [← children_ids hd, mem_flatMap]
  rfl

theorem ids_ne_nil (hd : topo.Deployable a) (hch : ch ∈ topo.children) : ch.ids ≠ [] := by
  cases ch with
  | backEnd e => simp [Child.ids]
  | agent t =>
    obtain ⟨_, _, _, htd, _⟩ := agent_mem_children hd hch
    simp [Child.ids, Topology.ids, htd.nonempty]

theorem childrenOk (hd : topo.Deployable a)
    (hvalid : ∀ t, .agent t ∈ topo.children → t.agentID ≠ VALIDBACKENDIDS) (hfits : topo.FitsBuffer)
    : ChildrenOk topo.children := by
  constructor
  . have ⟨e, he⟩ := exists_mem_of_ne_nil _ hd.nonempty
    exact ⟨e.1, (mem_all_children hd).mpr (mem_map_of_mem he)⟩
  . exact fun e he => Entered.backEnds_nonneg hd he
  . intro t ht
    have ⟨_, _, _, htd, _⟩ := agent_mem_children hd ht
    exact ⟨htd.agentID, hvalid t ht⟩
  . have hle := Child.length_le_of_ids (fun _ hch => ids_ne_nil hd hch)
    rw [children_ids hd, ids, length_map] at hle
    have := length_children_le topo
    obtain h | h := hfits
    . omega
    . omega

theorem FitsBuffer.child (hfits : topo.FitsBuffer) (hd : topo.Deployable a) {t : Topology}
    (ht : .agent t ∈ topo.children)
    : t.FitsBuffer := by
  have ⟨_, _, _, _, hspec⟩ := agent_mem_children hd ht
  have := hspec.length_lt hd.fanOut
  unfold FitsBuffer at *
  rw [hspec.fanOut_eq]
  omega

theorem handles_nodup (hd : topo.Deployable a) : (topo.children.map Child.handle).Nodup := by
  rw [(Child.map_handle_perm _).nodup_iff, nodup_append]
  refine ⟨?_, agents_childrenFrom_nodup topo _ _, ?_⟩
  . have hperm := Child.flatMap_ids_perm topo.children
    rw [children_ids hd] at hperm
    exact (hperm.nodup_iff.mp hd.consecutive.nodup).of_append_left
  . intro i hi k hk
    have ⟨e, he, hei⟩ := Child.mem_backEnds.mp hi
    have ⟨t, ht, htk⟩ := mem_map.mp hk
    have := Entered.backEnds_nonneg hd he
    have ⟨_, _, _, htd, _⟩ := agent_mem_children hd (Child.mem_agents.mp ht)
    have := htd.agentID
    omega

theorem range_handle (hd : topo.Deployable a) (hch : ch ∈ topo.children)
    : Child.range topo.children ch.handle = {i | i ∈ ch.ids} := by
  ext i
  constructor
  . intro ⟨ch', hch', hhandle, hi⟩
    rw [inj_on_of_nodup_map (handles_nodup hd) hch' hch hhandle] at hi
    exact hi
  . exact fun hi => ⟨ch, hch, rfl, hi⟩

end Topology

theorem Entered.nodeInv {topo : Topology} {st : Launcher} (h : Entered topo.children st)
    (hall : Child.all topo.children ⊆ S SCI_GROUP_ALL) (hother : ∀ g, g ≠ SCI_GROUP_ALL → S g = ∅)
    : NodeInv topo.children S st.routingList := by
  refine ⟨⟨h.mem, ?_, h.tableInv, h.cachesOk, h.occupied⟩, ?_⟩
  . intro g c i
    by_cases hg : g = SCI_GROUP_ALL
    . subst hg
      rw [h.mem]
      constructor
      . intro ⟨ch, hch, hkey, hi⟩
        exact ⟨hall ⟨ch, hch, hi⟩, ch, hch, hkey, hi⟩
      . exact fun hi => hi.2
    . rw [DistributedGroup.parts_eq_empty (h.other g hg), hother g hg]
      simp
  . intro k
    rw [ExtTreeMap.mem_iff_isSome_getElem?, Option.isSome_iff_exists]
    simp only [h.queue]
    constructor
    . intro ⟨q, ch, hch, hhandle, _⟩
      exact ⟨ch, hch, hhandle⟩
    . intro ⟨ch, hch, hhandle⟩
      exact ⟨_, ch, hch, hhandle, rfl⟩

theorem Entered.queue_handle (h : Entered cs st) (hch : ch ∈ cs)
    : st.routingList.queue ch.handle = ch.queue := by
  have := (h.queue ch.handle ch.queue).mpr ⟨ch, hch, rfl, rfl⟩
  simp [RoutingList.queue, ExtTreeMap.getD_eq_getD_getElem?, this]

section Tree

variable {topo : Topology} {a : Int} {S : Sets} {hist : List Message} {rl : RoutingList}
  {read : Bool → List Message → List Message}
  (hread : ∀ root l, (∀ msg ∈ l, (∃ t, msg = .config t) ∨ msg ∈ hist) → read root l = l)

include hread

theorem deliver_queues (root : Bool) (hd : topo.Deployable a) (hprocess : RoutingList.new.processAll input = some rl)
    (hkeys : ∀ k, k ∈ rl.queueInfo ↔ ∃ ch ∈ topo.children, ch.handle = k)
    (hqueue : ∀ ch ∈ topo.children, rl.queue ch.handle
      = ch.queue ++ relevant Message.after Message.target {i | i ∈ ch.ids} S hist)
    (hagent : ∀ t, .agent t ∈ topo.children →
      Delivers read S hist false t (.config t :: relevant Message.after Message.target {i | i ∈ t.ids} S hist))
    : Delivers read S hist root topo input := by
  have hchild : ∀ e ∈ rl.queueInfo.toList, ∃ ch ∈ topo.children, ch.handle = e.1 ∧
      e.2 = ch.queue ++ relevant Message.after Message.target {i | i ∈ ch.ids} S hist := by
    intro e he
    rw [ExtTreeMap.mem_toList_iff_getElem?_eq_some] at he
    have hmem : e.1 ∈ rl.queueInfo := by
      rw [ExtTreeMap.mem_iff_isSome_getElem?, he]
      rfl
    obtain ⟨ch, hch, hhandle⟩ := (hkeys e.1).mp hmem
    refine ⟨ch, hch, hhandle, ?_⟩
    rw [← hqueue ch hch, hhandle, RoutingList.queue, ExtTreeMap.getD_eq_getD_getElem?, he]
    rfl
  have : Nonempty Child := ⟨.backEnd (0, "")⟩
  choose! C hC hhandle hcontent using hchild
  have hout : ∀ e ∈ rl.queueInfo.toList, ∃ out,
      (∀ fuel, topo.beMap.length ≤ fuel + 1 →
        (if 0 ≤ e.1 then some [(e.1, read root e.2)] else deliverBy read false fuel (read root e.2)) = some out) ∧
      Delivered S hist (C e).ids out := by
    intro e he
    have hmem := hC e he
    have hid := hhandle e he
    have hq := hcontent e he
    have hsame : read root e.2 = e.2 := by
      apply hread
      intro msg hmsg
      rw [hq] at hmsg
      obtain hown | hmsg := mem_append.mp hmsg
      . cases hce : C e with
        | backEnd b => simp [hce, Child.queue] at hown
        | agent t => exact .inl ⟨t, by simpa [hce, Child.queue] using hown⟩
      . exact .inr (mem_of_mem_relevant hmsg)
    rw [hsame]
    cases hce : C e with
    | backEnd b =>
      rw [hce] at hmem hid hq
      have hpos := Entered.backEnds_nonneg hd hmem
      refine ⟨[e], fun fuel _ => if_pos (hid ▸ hpos), ?_, ?_⟩
      . simp [Child.ids, ← hid, Child.handle]
      . intro x hx
        have hset : {i | i ∈ (Child.backEnd b).ids} = ({e.1} : Set Int) := by
          ext i
          simp [Child.ids, ← hid, Child.handle]
        rw [mem_singleton.mp hx, hq, hset]
        rfl
    | agent t =>
      rw [hce] at hmem hid hq
      obtain ⟨_, _, _, htd, hspec⟩ := Topology.agent_mem_children hd hmem
      have hlt := hspec.length_lt hd.fanOut
      have hneg : ¬0 ≤ e.1 := by
        have := htd.agentID
        rw [← hid, Child.handle]
        omega
      obtain ⟨out, hdeliver, hdelivered⟩ := hagent t hmem
      refine ⟨out, ?_, hdelivered⟩
      intro fuel hfuel
      rw [if_neg hneg, hq]
      exact hdeliver fuel (by omega)
  choose! N hN hdelivered using hout
  refine ⟨(rl.queueInfo.toList.map N).flatten, ?_, ?_, ?_⟩
  . intro fuel hfuel
    have hpos : 0 < topo.beMap.length := length_pos_iff.mpr hd.nonempty
    cases fuel with
    | zero => omega
    | succ fuel => simp [deliverBy, hprocess, mapM_eq_some_map (fun e he => hN e he fuel hfuel)]
  . have hperm : (rl.queueInfo.toList.map C).Perm topo.children := by
      have hmap : (rl.queueInfo.toList.map C).map Child.handle = rl.queueInfo.toList.map (fun e => e.1) := by
        rw [map_map]
        exact map_congr_left hhandle
      have hnodup : (rl.queueInfo.toList.map C).Nodup := by
        apply List.Nodup.of_map Child.handle
        rw [hmap]
        exact pairwise_map.mpr (distinct_keys _)
      rw [perm_ext_iff_of_nodup hnodup (.of_map _ (Topology.handles_nodup hd))]
      intro ch
      constructor
      . intro hch
        obtain ⟨e, he, heq⟩ := mem_map.mp hch
        exact heq ▸ hC e he
      . intro hch
        obtain ⟨q, hq⟩ := DistributedGroup.exists_getElem? ((hkeys ch.handle).mpr ⟨ch, hch, rfl⟩)
        have he :=
          ExtTreeMap.mem_toList_iff_getElem?_eq_some.mpr hq
        have heq := inj_on_of_nodup_map (Topology.handles_nodup hd) (hC _ he) hch (hhandle _ he)
        exact mem_map.mpr ⟨_, he, heq⟩
    rw [← flatMap_def, map_flatMap, ← Topology.children_ids hd]
    refine List.Perm.trans (List.Perm.flatMap_left _ (fun e he => (hdelivered e he).once)) ?_
    rw [← flatMap_map C Child.ids]
    exact hperm.flatMap_right _
  . intro x hx
    rw [← flatMap_def, mem_flatMap] at hx
    obtain ⟨e, he, hx⟩ := hx
    exact (hdelivered e he).exact x hx

omit hread

theorem Message.Admissible.refine (h : ∀ c', ∃ c, part' c' ⊆ part c)
    {msg : Message} (hok : msg.Admissible part S)
    : msg.Admissible part' S := by
  cases msg with
  | groupOperateExt new op g be_list =>
    refine ⟨hok.1, hok.2.1, ?_⟩
    intro hop c' hmeets
    have ⟨c, hc⟩ := h c'
    exact hc.trans (hok.2.2 hop c (hmeets.mono (Set.inter_subset_inter_right _ hc)))
  | _ => exact hok

section Deployable

variable (hd : topo.Deployable a) {t : Topology} (ht : .agent t ∈ topo.children)

include hd ht

theorem part_agent_subset (c : Int) : Child.part t.children c ⊆ Child.part topo.children t.agentID := by
  have ⟨_, _, _, htd, _⟩ := Topology.agent_mem_children hd ht
  intro i ⟨ch, hch, _, hi⟩
  exact ⟨.agent t, ht, rfl, (Topology.mem_all_children htd).mp ⟨ch, hch, hi⟩⟩

theorem mem_ids_of_agent (hi : i ∈ t.ids) : i ∈ topo.ids :=
  (Topology.mem_all_children hd).mp ⟨.agent t, ht, hi⟩

end Deployable

theorem processAll_config (hdeploy : topo.deploy .new = some st) (msgs : List Message)
    : RoutingList.new.processAll (.config topo :: msgs) = st.routingList.processAll msgs := by
  simp [RoutingList.processAll, RoutingList.process, hdeploy]

include hread

theorem deliver_spec (n : Nat) (topo : Topology) (a : Int) (hd : topo.Deployable a)
    (hn : topo.beMap.length = n) (hvalid : ∀ t, Deployed topo t → t.agentID ≠ VALIDBACKENDIDS)
    (hfits : topo.FitsBuffer) (hall : {i | i ∈ topo.ids} ⊆ S SCI_GROUP_ALL)
    (hother : ∀ g, g ≠ SCI_GROUP_ALL → S g = ∅)
    (hok : Admits Message.after (Message.Admissible (Child.part topo.children)) S hist)
    : Delivers read S hist false topo
        (.config topo :: relevant Message.after Message.target {i | i ∈ topo.ids} S hist) := by
  induction n using Nat.strongRecOn generalizing topo a with
  | ind n ih =>
    have hvalid' : ∀ t, .agent t ∈ topo.children → t.agentID ≠ VALIDBACKENDIDS :=
      fun t ht => hvalid t (.child .root ht)
    have hset : Child.all topo.children = {i | i ∈ topo.ids} :=
      Set.ext (fun i => Topology.mem_all_children hd)
    have ⟨st, hdeploy, hst⟩ := Topology.deploy_spec hd hvalid'
    have hinv := hst.nodeInv (hset ▸ hall) hother
    have ⟨rl, hprocess, hinv', hqueues⟩ :=
      hinv.processAll (Topology.childrenOk hd hvalid' hfits) hok
    have hqueue : ∀ ch ∈ topo.children, rl.queue ch.handle
        = ch.queue ++ relevant Message.after Message.target {i | i ∈ ch.ids} S hist := by
      intro ch hch
      rw [hqueues, hst.queue_handle hch, Topology.range_handle hd hch]
    rw [hset, ← processAll_config hdeploy] at hprocess
    apply deliver_queues hread false hd hprocess hinv'.queues hqueue
    intro t ht
    have ⟨b, _, _, htd, hspec⟩ := Topology.agent_mem_children hd ht
    apply ih _ (hn ▸ hspec.length_lt hd.fanOut) t b htd rfl
    . exact fun t' ht' => hvalid t' (ht'.trans ht)
    . exact hfits.child hd ht
    . exact fun i hi => hall (mem_ids_of_agent hd ht hi)
    . exact hok.mono (fun S msg h => h.refine (fun c' => ⟨t.agentID, part_agent_subset hd ht c'⟩)) _

end Tree

end Sci
