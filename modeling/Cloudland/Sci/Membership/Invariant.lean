import Cloudland.Sci.Membership.Step

/-!
The back end map, the table of SCI_GROUP_ALL and the weights of a node agree.
-/

namespace Sci

open OrdMap List
open Std (ExtTreeMap)

theorem BEMap.mem_set {id i : Int} {host : String} {l : List (Int × String)}
    : i ∈ (BEMap.set id host l).map (fun e => e.1) ↔ i ∈ l.map (fun e => e.1) ∨ i = id := by
  induction l with
  | nil => simp [BEMap.set]
  | cons e l ih =>
    unfold BEMap.set
    split
    . simp [or_comm]
    . split
      . next heq => simp [heq, or_comm]
      . rw [map_cons, mem_cons, ih, map_cons, mem_cons, or_assoc]

theorem BEMap.mem_erase {id i : Int} {l : List (Int × String)}
    : i ∈ (BEMap.erase id l).map (fun e => e.1) ↔ i ∈ l.map (fun e => e.1) ∧ i ≠ id := by
  simp only [BEMap.erase, mem_map, mem_filter, decide_eq_true_eq]
  constructor
  . intro ⟨e, ⟨he, hne⟩, hi⟩
    exact ⟨⟨e, he, hi⟩, hi ▸ hne⟩
  . intro ⟨⟨e, he, hi⟩, hne⟩
    exact ⟨e, ⟨he, hi ▸ hne⟩, hi⟩

namespace DistributedGroup

theorem getD_parts_addBE (d : DistributedGroup) (c0 b c : Int)
    : ((d.addBE SCI_GROUP_ALL c0 b).parts SCI_GROUP_ALL).getD c ∅
        =
      if c0 = c then ((d.parts SCI_GROUP_ALL).getD c0 ∅).add b
      else (d.parts SCI_GROUP_ALL).getD c ∅ := by
  rw [parts_addBE, if_pos rfl]
  split
  . next h => rw [← h, ExtTreeMap.getD_insert_self]
  . next h =>
    rw [ExtTreeMap.getD_eq_getD_getElem?, getElem?_insert_of_ne h, ExtTreeMap.getD_eq_getD_getElem?]

theorem getD_parts_removeBE (d : DistributedGroup) (b c : Int)
    : ((d.removeBE b).parts SCI_GROUP_ALL).getD c ∅ = ((d.parts SCI_GROUP_ALL).getD c ∅).delete b := by
  apply Group.ext_mem
  intro i
  rw [Parts.mem_getD, parts_removeBE, mem_prune, Group.mem_delete, Parts.mem_getD]

end DistributedGroup

namespace Node

variable {n n' : Node}

structure Consistent (n : Node) : Prop where
  keys : ∀ i, i ∈ n.topo.ids ↔ ∃ c, i ∈ n.routed c
  weights : ∀ c, c ≠ VALIDBACKENDIDS → n.st.weightMap.getD c 0 = (n.routed c).length

structure Inv (n : Node) : Prop where
  consistent : n.Consistent
  disjoint : ∀ c c' i, n.all.Mem c i → n.all.Mem c' i → c = c'
  fresh : ∀ c i, n.all.Mem c i → c = VALIDBACKENDIDS ∨ n.st.nextAgentID < c
  weighed : ∀ c ∈ n.st.weightMap, n.st.nextAgentID < c
  reserved : n.st.weightMap[VALIDBACKENDIDS]? = none
  unmapped : n.st.routingList.queueInfo[VALIDBACKENDIDS]? = none

theorem Inv.grow (h : n.Inv) (c0 : Int) (hb : b ∉ n.topo.ids)
    (hids : ∀ i, i ∈ n'.topo.ids ↔ i ∈ n.topo.ids ∨ i = b)
    (hall : ∀ c, n'.all.getD c ∅ = if c0 = c then (n.all.getD c0 ∅).add b else n.all.getD c ∅)
    (hweight : ∀ c, c ≠ VALIDBACKENDIDS →
      n'.st.weightMap.getD c 0 = n.st.weightMap.getD c 0 + if c0 = c then 1 else 0)
    (hnext : n'.st.nextAgentID ≤ n.st.nextAgentID) (hc0 : c0 = VALIDBACKENDIDS ∨ n'.st.nextAgentID < c0)
    (hweighed : ∀ c ∈ n'.st.weightMap, n'.st.nextAgentID < c)
    (hreserved : n'.st.weightMap[VALIDBACKENDIDS]? = none)
    (hunmapped : n'.st.routingList.queueInfo[VALIDBACKENDIDS]? = none)
    : n'.Inv := by
  have hnew : ∀ c, ¬n.all.Mem c b := by
    intro c hmem
    exact hb ((h.consistent.keys b).mpr ⟨c, mem_routed.mpr hmem⟩)
  have hmem : ∀ c i, n'.all.Mem c i ↔ n.all.Mem c i ∨ (c0 = c ∧ i = b) := by
    intro c i
    rw [← Parts.mem_getD, hall]
    split
    . next heq => rw [Group.mem_add, Parts.mem_getD, heq]; simp
    . next hne => rw [Parts.mem_getD]; simp [hne]
  refine ⟨⟨?_, ?_⟩, ?_, ?_, hweighed, hreserved, hunmapped⟩
  . intro i
    simp only [mem_routed, hmem, exists_or, exists_eq_left', hids, h.consistent.keys]
  . intro c hc
    rw [hweight c hc, h.consistent.weights c hc, routed, routed, hall]
    split
    . next heq =>
      subst heq
      rw [Group.length_members_add (by rw [Parts.mem_getD]; exact hnew c0)]
      simp
    . simp
  . intro c c' i hi hi'
    rw [hmem] at hi hi'
    obtain hi | hi := hi
    . obtain hi' | hi' := hi'
      . exact h.disjoint c c' i hi hi'
      . exact absurd (hi'.2 ▸ hi) (hnew c)
    . obtain hi' | hi' := hi'
      . exact absurd (hi.2 ▸ hi') (hnew c')
      . exact hi.1.symm.trans hi'.1
  . intro c i hi
    obtain hi | hi := (hmem c i).mp hi
    . exact (h.fresh c i hi).imp_right (lt_of_le_of_lt hnext)
    . exact hi.1 ▸ hc0

theorem Inv.shrink (h : n.Inv) (hb : n.all.Mem c0 b) (hids : ∀ i, i ∈ n'.topo.ids ↔ i ∈ n.topo.ids ∧ i ≠ b)
    (hall : ∀ c, n'.all.getD c ∅ = (n.all.getD c ∅).delete b) (hweight : ∀ c, c ≠ VALIDBACKENDIDS →
      n'.st.weightMap.getD c 0 = n.st.weightMap.getD c 0 - if c0 = c then 1 else 0)
    (hnext : n'.st.nextAgentID = n.st.nextAgentID) (hweighed : ∀ c ∈ n'.st.weightMap, n'.st.nextAgentID < c)
    (hreserved : n'.st.weightMap[VALIDBACKENDIDS]? = none)
    (hunmapped : n'.st.routingList.queueInfo[VALIDBACKENDIDS]? = none)
    : n'.Inv := by
  have hmem : ∀ c i, n'.all.Mem c i ↔ n.all.Mem c i ∧ i ≠ b := by
    intro c i
    rw [← Parts.mem_getD, hall, Group.mem_delete, Parts.mem_getD]
  refine ⟨⟨?_, ?_⟩, ?_, ?_, hweighed, hreserved, hunmapped⟩
  . intro i
    simp only [mem_routed, hmem, exists_and_right, hids, h.consistent.keys]
  . intro c hc
    rw [hweight c hc, h.consistent.weights c hc, routed, routed, hall]
    split
    . next heq =>
      subst heq
      rw [Group.length_members_delete (i := b) (by rw [Parts.mem_getD]; exact hb)]
      omega
    . next hne =>
      have hnot : ¬b ∈ n.all.getD c ∅ := by
        rw [Parts.mem_getD]
        exact fun hmem => hne (h.disjoint c0 c b hb hmem)
      have hsame : (n.all.getD c ∅).delete b = n.all.getD c ∅ := by
        apply Group.ext_mem
        intro i
        rw [Group.mem_delete]
        exact ⟨fun hi => hi.1, fun hi => ⟨hi, fun heq => hnot (heq ▸ hi)⟩⟩
      rw [hsame, Int.sub_zero]
  . intro c c' i hi hi'
    exact h.disjoint c c' i ((hmem c i).mp hi).1 ((hmem c' i).mp hi').1
  . intro c i hi
    rw [hnext]
    exact h.fresh c i ((hmem c i).mp hi).1

structure Unchanged (n n' : Node) : Prop where
  beMap : n'.topo.beMap = n.topo.beMap
  routed : ∀ c, n'.routed c = n.routed c
  weightMap : n'.st.weightMap = n.st.weightMap
  queueInfo : n'.st.routingList.queueInfo = n.st.routingList.queueInfo

theorem Inv.of_unchanged (h : n.Inv) (hsame : n.Unchanged n') (hnext : n'.st.nextAgentID = n.st.nextAgentID)
    : n'.Inv := by
  have hmem : ∀ c i, n'.all.Mem c i ↔ n.all.Mem c i := by
    intro c i
    rw [← mem_routed, hsame.routed, mem_routed]
  refine ⟨⟨?_, ?_⟩, ?_, ?_, ?_, ?_, ?_⟩
  . intro i
    rw [Topology.ids, hsame.beMap]
    simp only [hsame.routed]
    exact h.consistent.keys i
  . intro c hc
    rw [hsame.weightMap, hsame.routed]
    exact h.consistent.weights c hc
  . intro c c' i
    rw [hmem, hmem]
    exact h.disjoint c c' i
  . intro c i
    rw [hmem, hnext]
    exact h.fresh c i
  . rw [hsame.weightMap, hnext]
    exact h.weighed
  . rw [hsame.weightMap]
    exact h.reserved
  . rw [hsame.queueInfo]
    exact h.unmapped

def Op.Clean (n : Node) : Op → Prop
  | .add be_id _ lev launch =>
    (0 ≤ be_id ∧ CInt.IsInt (be_id + 1) ∧ CInt.IsInt (n.st.nextAgentID - 1)) ∧ be_id ∉ n.topo.ids ∧
      (launch.started = true → launch.routed = true) ∧
      (launch.started = false → n.place lev ≠ some .agent ∧
        (n.place lev = some .backEnd → n.st.routingList.queueInfo[be_id]? = some []))
  | .remove _ => True

instance (n : Node) (op : Op) : Decidable (op.Clean n) :=
  match op with
  | .add _ _ _ _ => inferInstanceAs (Decidable (_ ∧ _))
  | .remove _ => inferInstanceAs (Decidable True)

theorem mem_setHost_ids {n : Node} {b i : Int} {host : String}
    : i ∈ (n.setHost b host).topo.ids ↔ i ∈ n.topo.ids ∨ i = b :=
  BEMap.mem_set

theorem getD_insert_add_one {m : IntMap Int}
    : (m.insert k (m.getD k 0 + 1)).getD c 0 = m.getD c 0 + if k = c then 1 else 0 := by
  rw [ExtTreeMap.getD_eq_getD_getElem?, ExtTreeMap.getD_eq_getD_getElem?,
    ExtTreeMap.getD_eq_getD_getElem?]
  by_cases h : k = c
  . subst h
    simp
  . rw [getElem?_insert_of_ne h, if_neg h, Int.add_zero]

section Add

variable {b lev : Int} {host : String} {launch : Launch} {rc : SciRc}

theorem Inv.launchBE (h : n.Inv) (hnonneg : 0 ≤ b) (hnew : b ∉ n.topo.ids) (hstarted : launch.started = true)
    : ((n.launchBE b host launch).1.setHost b host).Inv := by
  have heq : (n.launchBE b host launch).1 = { n with st := { n.st with
      routingList := n.st.routingList.addBE SCI_GROUP_ALL VALIDBACKENDIDS b true
      clients := n.st.clients ++ [⟨b, n.topo.bePath, host⟩] } } := by
    simp [Node.launchBE, hstarted]
  rw [heq]
  apply h.grow VALIDBACKENDIDS hnew
  . intro i
    exact mem_setHost_ids
  . exact DistributedGroup.getD_parts_addBE _ _ _
  . intro c hc
    rw [if_neg hc.symm, Int.add_zero]
    rfl
  . exact le_rfl
  . exact .inl rfl
  . exact h.weighed
  . exact h.reserved
  . have hb : b ≠ VALIDBACKENDIDS := by
      unfold VALIDBACKENDIDS
      omega
    exact (getElem?_insert_of_ne hb).trans h.unmapped

theorem unchanged_launchBE (hnew : ∀ c, ¬n.all.Mem c b) (hstarted : launch.started = false)
    (hqueue : n.st.routingList.queueInfo[b]? = some [])
    : n.Unchanged (n.launchBE b host launch).1 := by
  have heq : (n.launchBE b host launch).1 = { n with st := { n.st with
      routingList := (n.st.routingList.addBE SCI_GROUP_ALL VALIDBACKENDIDS b true).removeBE b } } := by
    simp [Node.launchBE, hstarted]
  rw [heq]
  constructor
  . rfl
  . intro c
    have hall : ∀ i, i ∈ (((n.st.routingList.myDistriGroup.addBE SCI_GROUP_ALL VALIDBACKENDIDS
        b).removeBE b).parts SCI_GROUP_ALL).getD c ∅ ↔ i ∈ n.all.getD c ∅ := by
      intro i
      rw [DistributedGroup.getD_parts_removeBE, Group.mem_delete, Parts.mem_getD,
        DistributedGroup.mem_addBE, Parts.mem_getD]
      constructor
      . rintro ⟨hi, hne⟩
        exact hi.resolve_right (fun hi => hne hi.2)
      . intro hi
        exact ⟨.inl hi, fun heq => hnew c (heq ▸ hi)⟩
    exact congrArg Group.members (Group.ext_mem hall)
  . rfl
  . -- the new queue replaces one that looks the same
    apply ExtTreeMap.ext_getElem?
    intro k
    by_cases hk : b = k
    . subst hk
      exact ExtTreeMap.getElem?_insert_self.trans hqueue.symm
    . exact getElem?_insert_of_ne hk

theorem Inv.launchAgent (h : n.Inv) (hnonneg : 0 ≤ b) (hnew : b ∉ n.topo.ids)
    (hstarted : launch.started = true) (hn' : n.launchAgent b host launch = some (n', rc))
    : (n'.setHost b host).Inv := by
  have ⟨q, hq, heq⟩ := launchAgent_started hstarted hn'
  have hb : b ≠ VALIDBACKENDIDS := by
    unfold VALIDBACKENDIDS
    omega
  -- there is no queue for an agent with the reserved id
  have hvalid : n.st.nextAgentID ≠ VALIDBACKENDIDS := by
    intro hreserved
    rw [hreserved] at hq
    simp only [RoutingList.addBE, if_true, RoutingList.mapQueue] at hq
    rw [getElem?_insert_of_ne hb, h.unmapped] at hq
    contradiction
  subst heq
  apply h.grow n.st.nextAgentID hnew
  . intro i
    exact mem_setHost_ids
  . exact DistributedGroup.getD_parts_addBE _ _ _
  . intro c _
    exact getD_insert_add_one
  . exact Int.sub_le_self _ (by decide)
  . exact .inr (Int.pred_self_lt _)
  . intro c hc
    simp only [setHost, ExtTreeMap.mem_insert, compare_eq_iff_eq] at hc ⊢
    obtain hc | hc := hc
    . omega
    . have := h.weighed c hc
      omega
  . exact (getElem?_insert_of_ne hvalid).trans h.reserved
  . refine (getElem?_insert_of_ne hvalid).trans ?_
    simp only [RoutingList.addBE, if_true, if_neg hvalid]
    exact (getElem?_insert_of_ne hvalid).trans h.unmapped

theorem Inv.delegate (h : n.Inv) (hnew : b ∉ n.topo.ids)
    (hplace : n.place lev = some (.child aID)) (hn' : n.delegate aID b host lev = some (n', rc))
    : (n'.setHost b host).Inv := by
  have ⟨q, hq, heq⟩ := delegate_eq_some hn'
  have ⟨w, hw⟩ := place_child hplace
  have hvalid : aID ≠ VALIDBACKENDIDS := by
    intro hreserved
    rw [hreserved, h.reserved] at hw
    contradiction
  have hlt := h.weighed aID (ExtTreeMap.mem_iff_isSome_getElem?.mpr (by rw [hw]; rfl))
  subst heq
  apply h.grow aID hnew
  . intro i
    exact mem_setHost_ids
  . exact DistributedGroup.getD_parts_addBE _ _ _
  . intro c _
    exact getD_insert_add_one
  . exact le_rfl
  . exact .inr hlt
  . intro c hc
    simp only [setHost, ExtTreeMap.mem_insert, compare_eq_iff_eq] at hc ⊢
    obtain hc | hc := hc
    . exact hc ▸ hlt
    . exact h.weighed c hc
  . exact (getElem?_insert_of_ne hvalid).trans h.reserved
  . exact (getElem?_insert_of_ne hvalid).trans h.unmapped

theorem Inv.added (h : n.Inv) (hclean : (Op.add b host lev launch).Clean n)
    (hadd : Added n b host lev launch n' rc)
    : n'.Inv ∧ (rc ≠ .success → n.Unchanged n') := by
  have ⟨⟨hnonneg, _⟩, hnew, hkept, hfailed⟩ := hclean
  cases hadd with
  | backEnd hplace hstarted hrouted =>
    exact ⟨h.launchBE hnonneg hnew hstarted, fun hrc => absurd rfl hrc⟩
  | givenUp hplace hstarted hrouted =>
    rw [hkept hstarted] at hrouted
    contradiction
  | backEndFailed hplace hstarted =>
    have hsame : n.Unchanged (n.launchBE b host launch).1 := by
      apply unchanged_launchBE _ hstarted ((hfailed hstarted).2 hplace)
      intro c hmem
      exact hnew ((h.consistent.keys b).mpr ⟨c, mem_routed.mpr hmem⟩)
    exact ⟨h.of_unchanged hsame (by simp [Node.launchBE, hstarted]), fun _ => hsame⟩
  | agent hplace hstarted hn' =>
    exact ⟨h.launchAgent hnonneg hnew hstarted hn', fun hrc => absurd rfl hrc⟩
  | agentFailed hplace hstarted hn' => exact absurd hplace (hfailed hstarted).1
  | child hplace hn' => exact ⟨h.delegate hnew hplace hn', fun hrc => absurd rfl hrc⟩

end Add

theorem getD_decrement {m : IntMap Int} (hw : m[k]? = some w)
    : (if w - 1 = 0 then m.erase k else m.insert k (w - 1)).getD c 0
        =
      m.getD c 0 - if k = c then 1 else 0 := by
  rw [ExtTreeMap.getD_eq_getD_getElem?, ExtTreeMap.getD_eq_getD_getElem?]
  by_cases h : k = c
  . subst h
    rw [hw, if_pos rfl]
    split
    . next hone => simp [hone]
    . simp
  . rw [if_neg h, Int.sub_zero]
    split
    . rw [getElem?_erase_of_ne h]
    . rw [getElem?_insert_of_ne h]

theorem Inv.removed (h : n.Inv) {b : Int} {rc : SciRc} (hremove : Removed n b n' rc) : n'.Inv := by
  cases hremove with
  | unknown => exact h
  | backEnd hbe hquery hq =>
    have hmem := DistributedGroup.mem_querySuccessorId hquery (by decide)
    apply h.shrink hmem
    . intro i
      exact BEMap.mem_erase
    . exact DistributedGroup.getD_parts_removeBE _ _
    . intro c hc
      rw [if_neg hc.symm, Int.sub_zero]
    . rfl
    . exact h.weighed
    . exact h.reserved
    . rw [ExtTreeMap.getElem?_erase]
      split
      . rfl
      . next hb =>
        rw [compare_eq_iff_eq] at hb
        exact (getElem?_insert_of_ne hb).trans h.unmapped
  | @child aID q w hbe hquery hne hvalid hq hw =>
    have hmem := DistributedGroup.mem_querySuccessorId hquery hne
    have hlt := h.weighed aID (ExtTreeMap.mem_iff_isSome_getElem?.mpr (by rw [hw]; rfl))
    apply h.shrink hmem
    . intro i
      exact BEMap.mem_erase
    . exact DistributedGroup.getD_parts_removeBE _ _
    . intro c _
      exact getD_decrement hw
    . rfl
    . intro c hc
      split at hc
      . rw [ExtTreeMap.mem_erase] at hc
        exact h.weighed c hc.2
      . rw [ExtTreeMap.mem_insert, compare_eq_iff_eq] at hc
        obtain hc | hc := hc
        . exact hc ▸ hlt
        . exact h.weighed c hc
    . dsimp only
      split
      . rw [getElem?_erase_of_ne hvalid, h.reserved]
      . rw [getElem?_insert_of_ne hvalid, h.reserved]
    . exact (getElem?_insert_of_ne hvalid).trans h.unmapped

theorem Inv.step (h : n.Inv) (hstep : Guarded Op.Clean Op.Step n op n') : n'.Inv := by
  have ⟨hclean, rc, hexec⟩ := hstep
  cases op with
  | add be_id host lev launch => exact (h.added hclean (addBE_added hexec)).1
  | remove be_id => exact h.removed (removeBE_removed hexec)

section Start

variable {topo : Topology} {a : Int} {st : Launcher}

section Deployable

variable (hd : topo.Deployable a) (hst : Entered topo.children st) (hspread : Spread topo.initID topo.placed st)

include hd hst hspread

theorem weight_start
    (hvalid : ∀ t, .agent t ∈ topo.children → t.agentID ≠ VALIDBACKENDIDS) (hc : c ≠ VALIDBACKENDIDS)
    : st.weightMap.getD c 0 = (routed ⟨topo, st⟩ c).length := by
  rw [ExtTreeMap.getD_eq_getD_getElem?]
  cases hw : st.weightMap[c]? with
  | some w =>
    obtain ⟨x, hx, t, ht, hid, hlen⟩ := (hspread.weight c w).mp hw
    have hmem := Topology.exists_placed.mpr ⟨x, hx, ht⟩
    obtain ⟨b, _, _, htd, _⟩ := Topology.agent_mem_children hd hmem
    have hperm : (routed ⟨topo, st⟩ c).Perm t.ids := by
      apply (perm_ext_iff_of_nodup (Group.members_nodup _)
        (htd.consecutive.ordered htd.nonneg).nodup).mpr
      intro i
      show i ∈ routed ⟨topo, st⟩ c ↔ i ∈ t.ids
      rw [mem_routed, ← hid]
      exact hst.registered hvalid (hst.mem_sent.mpr hmem) i
    rw [hperm.length_eq, Option.getD_some, hlen, Topology.ids, length_map]
  | none =>
    have hnil : routed ⟨topo, st⟩ c = [] := by
      rw [eq_nil_iff_forall_not_mem]
      intro i hi
      obtain ⟨ch, hch, hkey, _⟩ := (hst.mem c i).mp (mem_routed.mp hi)
      cases ch with
      | backEnd e => exact hc hkey.symm
      | agent t =>
        obtain ⟨x, hx, hxt⟩ := Topology.exists_placed.mp hch
        have := (hspread.weight c t.beMap.length).mpr ⟨x, hx, t, hxt, hkey, rfl⟩
        rw [hw] at this
        contradiction
    rw [hnil]
    rfl

theorem Inv.start (hbefore : ∀ x ∈ topo.placed, x.2.Before st.nextAgentID [])
    (hvalid : ∀ t, .agent t ∈ topo.children → t.agentID ≠ VALIDBACKENDIDS)
    : Inv ⟨topo, st⟩ := by
  refine ⟨⟨?_, fun c hc => weight_start hd hst hspread hvalid hc⟩, ?_, ?_, ?_, ?_, ?_⟩
  . intro i
    simp only [mem_routed, all, hst.mem]
    rw [← Topology.children_ids hd, mem_flatMap]
    constructor
    . intro ⟨ch, hch, hi⟩
      exact ⟨ch.key, ch, hch, rfl, hi⟩
    . intro ⟨_, ch, hch, _, hi⟩
      exact ⟨ch, hch, hi⟩
  . exact hst.tableInv.all_disjoint
  . intro c i hi
    have ⟨x, hx, hkey, _⟩ := (hspread.mem c i).mp hi
    have hx := hbefore x hx
    cases hch : x.2 with
    | backEnd e =>
      rw [hch] at hkey
      exact .inl hkey.symm
    | agent t =>
      rw [hch] at hkey hx
      exact .inr (hkey ▸ hx.1)
  . intro c hc
    rw [ExtTreeMap.mem_iff_isSome_getElem?, Option.isSome_iff_exists] at hc
    have ⟨w, hw⟩ := hc
    have ⟨x, hx, t, ht, hid, _⟩ := (hspread.weight c w).mp hw
    have hx := hbefore x hx
    rw [ht] at hx
    exact hid ▸ hx.1
  . cases hw : st.weightMap[VALIDBACKENDIDS]? with
    | none => rfl
    | some w =>
      have ⟨x, hx, t, ht, hid, _⟩ := (hspread.weight _ w).mp hw
      have hx := hbefore x hx
      rw [ht] at hx
      exact absurd hid hx.2.2
  . cases hq : st.routingList.queueInfo[VALIDBACKENDIDS]? with
    | none => rfl
    | some q =>
      have ⟨x, hx, hh, _⟩ := (hspread.queue _ q).mp hq
      have hx := hbefore x hx
      cases hch : x.2 with
      | backEnd e =>
        rw [hch] at hh hx
        have := hx.1
        simp only [Child.handle] at hh
        unfold VALIDBACKENDIDS at hh
        omega
      | agent t =>
        rw [hch] at hh hx
        exact absurd hh hx.2.2

end Deployable

end Start

-- the deployment in the arithmetic of `int`
def deployInt (topo : Topology) : Option Node := if topo.InRange then Node.deploy topo else none

theorem membership_consistent {topo : Topology} {a : Int} (hd : topo.Deployable a)
    (hvalid : ∀ t, .agent t ∈ topo.children → t.agentID ≠ VALIDBACKENDIDS) (hrange : topo.InRange)
    : ∃ n, Node.deployInt topo = some n ∧
        ∀ ops n', Run (Guarded Op.Clean Op.Step) n ops n' →
          n'.Consistent
            ∧
          ∀ be_id host lev launch n'' rc, (Op.add be_id host lev launch).Clean n' →
            n'.addBE be_id host lev launch = some (n'', rc) → rc ≠ .success → n'.Unchanged n'' := by
  have ⟨st, hdeploy, hst⟩ := Topology.deploy_spec hd hvalid
  have ⟨st', hdeploy', hspread, hbefore, _⟩ := Topology.deploy_spread hd.agentID
    (by have := hd.fanOut; omega) (hd.consecutive.ordered hd.nonneg) hvalid
  rw [hdeploy, Option.some.injEq] at hdeploy'
  subst hdeploy'
  have hstart := Inv.start hd hst hspread hbefore hvalid
  refine ⟨⟨topo, st⟩, by simp [Node.deployInt, Node.deploy, hdeploy, hrange], ?_⟩
  intro ops n' hrun
  have hinv := hrun.invariant Inv (fun _ _ _ h hstep => h.step hstep) hstart
  refine ⟨hinv.consistent, ?_⟩
  intro be_id host lev launch n'' rc hclean hadd hrc
  exact (hinv.added hclean (addBE_added hadd)).2 hrc

section Example

def oneBackEnd : Topology := ⟨-1, 2, 0, 0, "be", "agent", [(0, "a")]⟩

def swap : List Op := [.add 1 "b" 0 ⟨true, true⟩, .remove 0]

theorem membership_consistent_swap
    : ∃ n n', Node.deployInt oneBackEnd = some n ∧ Run (Guarded Op.Clean Op.Step) n swap n' ∧
        n'.topo.ids = [1] ∧ n'.Consistent := by
  have hd : oneBackEnd.Deployable 0 := by
    constructor <;> simp [oneBackEnd, Consecutive]
  have hchildren : oneBackEnd.children = [.backEnd (0, "a")] := rfl
  obtain ⟨n, hdeploy, hruns⟩ := membership_consistent hd (by simp [hchildren]) (by decide +kernel)
  have hcheck : (Node.deployInt oneBackEnd).any (fun n =>
      (swap.foldlM
        (fun (n : Node) (op : Op) => if op.Clean n then (op.exec n).map Prod.fst else none) n).any
        (fun n : Node => n.topo.ids = [1])) = true := by
    decide +kernel
  rw [hdeploy, Option.any_some] at hcheck
  have hstep : ∀ n op n', (if Op.Clean n op then (op.exec n).map Prod.fst else none) = some n' →
      Guarded Op.Clean Op.Step n op n' := by
    intro n op n' h
    obtain ⟨hclean, hexec⟩ := Option.ite_none_right_eq_some.mp h
    obtain ⟨res, hres, heq⟩ := Option.map_eq_some_iff.mp hexec
    exact ⟨hclean, res.2, by rw [hres, ← heq]⟩
  obtain ⟨n', hrun, hids⟩ := Run.exists_of_steps _ hstep hcheck (fun _ _ h => h)
  exact ⟨n, n', hdeploy, hrun, hids, (hruns _ _ hrun).1⟩

theorem failed_addition_leaves_traces
    : (Node.deploy oneBackEnd).any (fun n =>
        (n.addBE 1 "b" 0 ⟨false, false⟩).any (fun res =>
          res.2 = .launchFailed ∧
          n.st.routingList.queueInfo[(1 : Int)]? = none ∧
          res.1.st.routingList.queueInfo[(1 : Int)]? = some []) ∧
        (n.addBE 1 "b" 0 ⟨true, false⟩).any (fun res =>
          res.2 = .launchFailed ∧ res.1.topo.ids = [0] ∧ res.1.routed VALIDBACKENDIDS = [0, 1])) := by
  decide +kernel

end Example

end Node
end Sci
