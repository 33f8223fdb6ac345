import Cloudland.Sci.DGroup.Invariant
import Cloudland.Sci.Routing.Impl

/-!
What a node has registered once `launchTree2` has launched its children.
-/

namespace Sci

open OrdMap Option
open Std (ExtTreeMap)

def Consecutive (a : Int) : List (Int × String) → Prop
  | [] => True
  | e :: l => e.1 = a ∧ Consecutive (a + 1) l

namespace Consecutive

section List

variable {l : List (Int × String)} (h : Consecutive a l)

include h

theorem mem_iff (i : Int) : i ∈ l.map (fun e => e.1) ↔ a ≤ i ∧ i < a + l.length := by
  induction l generalizing a with
  | nil => simp
  | cons e l ih =>
    rw [List.map_cons, List.mem_cons, ih h.2, h.1, List.length_cons]
    omega

theorem drop (k : Nat) (hk : k ≤ l.length) : Consecutive (a + k) (l.drop k) := by
  induction k generalizing a l with
  | zero => simpa using h
  | succ k ih =>
    cases l with
    | nil => simp at hk
    | cons e l =>
      have := ih h.2 (by simpa using hk)
      rw [show a + 1 + (k : Int) = a + (k + 1 : Nat) by omega] at this
      exact this

theorem take (k : Nat) : Consecutive a (l.take k) := by
  induction k generalizing a l with
  | zero => trivial
  | succ k ih =>
    cases l with
    | nil => trivial
    | cons e l => exact ⟨h.1, ih h.2⟩

end List

end Consecutive

inductive Child where
  | backEnd (e : Int × String)
  | agent (topo : Topology)

namespace Child

def key : Child → Int
  | .backEnd _ => VALIDBACKENDIDS
  | .agent t => t.agentID

def ids : Child → List Int
  | .backEnd e => [e.1]
  | .agent t => t.ids

def handle : Child → Int
  | .backEnd e => e.1
  | .agent t => t.agentID

def queue : Child → List Message
  | .backEnd _ => []
  | .agent t => [.config t]

end Child

namespace Topology

def childrenFrom (topo : Topology) (next : Int) : List (List (Int × String)) → List Child
  | [] => []
  | c :: cs =>
    match c with
    | [e] => .backEnd e :: topo.childrenFrom next cs
    | c => .agent (Launcher.childTopo topo next c) :: topo.childrenFrom (next - 1) cs

variable (topo : Topology)

theorem childrenFrom_one (next : Int) (e : Int × String) (cs : List (List (Int × String)))
    : topo.childrenFrom next ([e] :: cs) = .backEnd e :: topo.childrenFrom next cs := rfl

theorem childrenFrom_many (next : Int)
    (cs : List (List (Int × String))) (h : c.length ≠ 1)
    : topo.childrenFrom next (c :: cs)
        =
      .agent (Launcher.childTopo topo next c) :: topo.childrenFrom (next - 1) cs := by
  rw [childrenFrom]
  rintro e rfl
  simp at h

def children : List Child :=
  topo.childrenFrom ((topo.agentID + 1) * topo.fanOut - 2) (Split.split topo.fanOut topo.beMap)

end Topology

@[simp]
theorem RoutingList.mapQueue_myDistriGroup (rl : RoutingList) (k : Int)
    : (rl.mapQueue k).myDistriGroup = rl.myDistriGroup := rfl

structure Entered (cs : List Child) (st : Launcher) : Prop where
  mem : ∀ c i, (st.routingList.myDistriGroup.parts SCI_GROUP_ALL).Mem c i
    ↔ ∃ ch ∈ cs, ch.key = c ∧ i ∈ ch.ids
  queue : ∀ k q, st.routingList.queueInfo[k]? = some q ↔ ∃ ch ∈ cs, ch.handle = k ∧ ch.queue = q
  other : ∀ g, g ≠ SCI_GROUP_ALL → st.routingList.myDistriGroup.generalInfo[g]? = none
  all : cs ≠ [] → SCI_GROUP_ALL ∈ st.routingList.myDistriGroup.generalInfo
  handles : st.clients.map (fun c => c.id) = cs.map (fun ch => ch.handle)
  tableInv : st.routingList.myDistriGroup.TableInv
  cachesOk : st.routingList.myDistriGroup.CachesOk
  occupied : ∀ g, (st.routingList.myDistriGroup.parts g).Occupied

theorem DistributedGroup.initSubGroup_total (d : DistributedGroup) (c : Int) (h : s ≤ e)
    : ∃ d', d.initSubGroup c s e = some d' := by
  have hne : (⟨s, e + 1⟩ : Range).NonEmpty := Int.lt_add_one_iff.mpr h
  simp [DistributedGroup.initSubGroup, hne]

def Child.Registers (initID : Int) (size : Nat) (i : Int) : Child → Prop
  | .backEnd e => i = e.1
  | .agent t => initID + size ≤ i ∧ i < initID + size + t.beMap.length

def Topology.placedFrom (topo : Topology) (next : Int) (size : Nat)
    : List (List (Int × String)) → List (Nat × Child)
  | [] => []
  | c :: cs =>
    match c with
    | [e] => (size, .backEnd e) :: topo.placedFrom next (size + 1) cs
    | c => (size, .agent (Launcher.childTopo topo next c)) ::
        topo.placedFrom (next - 1) (size + c.length) cs

namespace Topology

section Topology

variable (topo : Topology) (next : Int) (size : Nat)

include topo next size

theorem placedFrom_one (e : Int × String) (cs : List (List (Int × String)))
    : topo.placedFrom next size ([e] :: cs)
        =
      (size, .backEnd e) :: topo.placedFrom next (size + 1) cs := rfl

theorem placedFrom_many (cs : List (List (Int × String))) (h : c.length ≠ 1)
    : topo.placedFrom next size (c :: cs)
        =
      (size, .agent (Launcher.childTopo topo next c)) ::
        topo.placedFrom (next - 1) (size + c.length) cs := by
  rw [placedFrom]
  intro e he
  subst he
  simp at h

theorem map_placedFrom (cs : List (List (Int × String)))
    : (topo.placedFrom next size cs).map Prod.snd = topo.childrenFrom next cs := by
  induction cs generalizing next size with
  | nil => rfl
  | cons c cs ih =>
    by_cases hc : c.length = 1
    . obtain ⟨e, rfl⟩ := List.length_eq_one_iff.mp hc
      rw [placedFrom_one, childrenFrom_one, List.map_cons, ih]
    . rw [placedFrom_many _ _ _ _ hc, childrenFrom_many _ _ _ hc, List.map_cons, ih]

end Topology

end Topology

structure Spread (initID : Int) (cs : List (Nat × Child)) (st : Launcher) : Prop where
  mem : ∀ c i, (st.routingList.myDistriGroup.parts SCI_GROUP_ALL).Mem c i
    ↔ ∃ x ∈ cs, x.2.key = c ∧ x.2.Registers initID x.1 i
  queue : ∀ (k : Int) q, st.routingList.queueInfo[k]? = some q
    ↔ ∃ x ∈ cs, x.2.handle = k ∧ x.2.queue = q
  weight : ∀ k w : Int, st.weightMap[k]? = some w
    ↔ ∃ x ∈ cs, ∃ t, x.2 = .agent t ∧ t.agentID = k ∧ w = t.beMap.length
  handles : st.clients.map (fun c => c.id) = cs.map (fun x => x.2.handle)

def Child.Before (next : Int) (rest : List (Int × String)) : Child → Prop
  | .backEnd e => 0 ≤ e.1 ∧ ∀ e' ∈ rest, e.1 < e'.1
  | .agent t => next < t.agentID ∧ t.agentID < 0 ∧ t.agentID ≠ VALIDBACKENDIDS

theorem Child.Before.mono {ch : Child}
    (h : ch.Before next rest) (hnext : next' ≤ next) (hrest : ∀ e ∈ rest', e ∈ rest)
    : ch.Before next' rest' := by
  cases ch with
  | backEnd e => exact ⟨h.1, fun e' he' => h.2 e' (hrest e' he')⟩
  | agent t => exact ⟨lt_of_le_of_lt hnext h.1, h.2⟩

theorem Child.Before.handle_ne
    {ch : Child} (h : ch.Before next rest) (he : e ∈ rest) (hnonneg : 0 ≤ e.1)
    : ch.handle ≠ e.1 := by
  cases ch with
  | backEnd e' =>
    have := h.2 e he
    exact Int.ne_of_lt this
  | agent t =>
    have := h.2.1
    simp only [handle]
    omega

theorem Child.Before.handle_ne_next {ch : Child} (h : ch.Before next rest) (hnext : next < 0)
    : ch.handle ≠ next := by
  cases ch with
  | backEnd e =>
    have := h.1
    simp only [handle]
    omega
  | agent t => exact Int.ne_of_gt h.1

theorem Child.Before.key_ne_next {ch : Child} (h : ch.Before next rest) (hvalid : next ≠ VALIDBACKENDIDS)
    : ch.key ≠ next := by
  cases ch with
  | backEnd e => exact hvalid.symm
  | agent t => exact Int.ne_of_gt h.1

namespace Spread

variable {initID : Int} {cs : List (Nat × Child)} {st : Launcher} {topo : Topology}

theorem new : Spread initID [] ⟨.new, next, ∅, []⟩ := by
  constructor
  . simp [RoutingList.new]
  . simp [RoutingList.new]
  . simp
  . rfl

theorem exists_append {p : Nat × Child → Prop} : (∃ y ∈ cs ++ [x], p y) ↔ (∃ y ∈ cs, p y) ∨ p x := by
  simp [or_and_right, exists_or]

theorem queue_none (h : Spread initID cs st) (hk : ∀ x ∈ cs, x.2.handle ≠ k) (q : List Message)
    : ¬st.routingList.queueInfo[k]? = some q := by
  intro hq
  have ⟨x, hx, hh, _⟩ := (h.queue k q).mp hq
  exact hk x hx hh

theorem enterBE (h : Spread initID cs st) {e : Int × String} (size : Nat) (hhandle : ∀ x ∈ cs, x.2.handle ≠ e.1)
    : Spread initID (cs ++ [(size, .backEnd e)]) (st.enterBE topo e) := by
  constructor
  . intro c i
    rw [exists_append, ← h.mem]
    apply DistributedGroup.mem_addBE.trans
    simp [Child.key, Child.Registers]
  . intro k q
    rw [exists_append, ← h.queue]
    show (st.routingList.queueInfo.insert e.1 [])[k]? = some q ↔ _
    by_cases hk : e.1 = k
    . subst hk
      simp [h.queue_none hhandle, Child.handle, Child.queue]
    . rw [getElem?_insert_of_ne hk]
      simp [Child.handle, hk]
  . intro k w
    rw [exists_append, ← h.weight]
    simp [Launcher.enterBE]
  . simp [Launcher.enterBE, h.handles, Child.handle]

end Spread

theorem Launcher.weight_foldl_incWeight (hne : entries ≠ []) (id : Int)
    (st : Launcher)
    : entries.foldl (fun st _ => st.incWeight id) st
        =
      { st with weightMap := st.weightMap.insert id (st.weightMap.getD id 0 + entries.length) } := by
  induction entries generalizing st with
  | nil => contradiction
  | cons e entries ih =>
    rw [List.foldl_cons]
    cases entries with
    | nil => rfl
    | cons e' entries =>
      rw [ih (by simp)]
      simp only [Launcher.incWeight, Launcher.mk.injEq, true_and, and_true]
      apply ExtTreeMap.ext_getElem?
      intro k
      by_cases hk : id = k
      . subst hk
        simp only [ExtTreeMap.getElem?_insert_self, ExtTreeMap.getD_insert_self, List.length_cons,
          some.injEq]
        omega
      . rw [getElem?_insert_of_ne hk, getElem?_insert_of_ne hk, getElem?_insert_of_ne hk]

theorem Launcher.enterAgent_eq_some {st : Launcher}
      (hne : entries ≠ [])
    (hvalid : st.nextAgentID ≠ VALIDBACKENDIDS)
    (hd' : st.routingList.myDistriGroup.initSubGroup st.nextAgentID startID endID = some d')
    : st.enterAgent topo startID endID entries hostname
        =
      some {
        routingList := {
          myDistriGroup := d'
          queueInfo :=
            (st.routingList.queueInfo.insert st.nextAgentID []).insert st.nextAgentID
              [.config (childTopo topo st.nextAgentID entries)] }
        nextAgentID := st.nextAgentID - 1
        weightMap := st.weightMap.insert st.nextAgentID
          (st.weightMap.getD st.nextAgentID 0 + entries.length)
        clients := st.clients ++ [⟨st.nextAgentID, topo.agentPath, hostname⟩] } := by
  simp [enterAgent, childTopo, RoutingList.initSubGroup, hvalid, hd', RoutingList.produce,
    RoutingList.mapQueue, weight_foldl_incWeight hne]

namespace Spread

variable {initID : Int} {cs : List (Nat × Child)} {st : Launcher} {topo : Topology}

theorem weight_none (h : Spread initID cs st) (hk : ∀ x ∈ cs, x.2.handle ≠ k) : st.weightMap[k]? = none := by
  cases hw : st.weightMap[k]? with
  | none => rfl
  | some w =>
    have ⟨x, hx, t, ht, hid, _⟩ := (h.weight k w).mp hw
    have := hk x hx
    rw [ht] at this
    exact absurd hid this

theorem not_mem (h : Spread initID cs st) (hkey : ∀ x ∈ cs, x.2.key ≠ c) (i : Int)
    : ¬(st.routingList.myDistriGroup.parts SCI_GROUP_ALL).Mem c i := by
  intro hmem
  have ⟨x, hx, hk, _⟩ := (h.mem c i).mp hmem
  exact hkey x hx hk

theorem enterAgent (h : Spread initID cs st) {size : Nat} {entries : List (Int × String)}
    {hostname : String} (hne : entries ≠ []) (hvalid : st.nextAgentID ≠ VALIDBACKENDIDS)
    (hkey : ∀ x ∈ cs, x.2.key ≠ st.nextAgentID) (hhandle : ∀ x ∈ cs, x.2.handle ≠ st.nextAgentID)
    : ∃ st',
        st.enterAgent topo (initID + size) (initID + size + entries.length - 1) entries hostname
          = some st' ∧
        st'.nextAgentID = st.nextAgentID - 1 ∧
        st.routingList.myDistriGroup.initSubGroup st.nextAgentID (initID + size) (initID + size + entries.length - 1)
          = some st'.routingList.myDistriGroup ∧
        Spread initID
          (cs ++ [(size, .agent (Launcher.childTopo topo st.nextAgentID entries))]) st' := by
  have hpos := List.length_pos_iff.mpr hne
  have ⟨d', hd'⟩ := DistributedGroup.initSubGroup_total st.routingList.myDistriGroup st.nextAgentID
    (show initID + size ≤ initID + size + entries.length - 1 by omega)
  refine ⟨_, Launcher.enterAgent_eq_some hne hvalid hd', rfl, hd', ?_⟩
  have ⟨grp, hgrp, _, henter⟩ := DistributedGroup.initSubGroup_eq_some hd'
  constructor
  . intro c i
    rw [exists_append, ← h.mem]
    rw [henter, DistributedGroup.parts_enter, if_pos rfl, Parts.mem_insert]
    simp only [Child.key, Child.Registers, Launcher.childTopo]
    split
    . next hc =>
      subst hc
      rw [hgrp]
      simp only [h.not_mem hkey i, false_or, true_and]
      omega
    . next hc => simp [hc]
  . intro k q
    rw [exists_append, ← h.queue]
    by_cases hk : st.nextAgentID = k
    . subst hk
      simp [h.queue_none hhandle, Child.handle, Child.queue, Launcher.childTopo]
    . rw [getElem?_insert_of_ne hk, getElem?_insert_of_ne hk]
      simp [Child.handle, Launcher.childTopo, hk]
  . intro k w
    rw [exists_append, ← h.weight]
    have hnone := h.weight_none hhandle
    by_cases hk : st.nextAgentID = k
    . subst hk
      simp [hnone, Launcher.childTopo, ExtTreeMap.getD_eq_getD_getElem?, eq_comm]
    . rw [getElem?_insert_of_ne hk]
      simp [Launcher.childTopo, hk]
  . simp [h.handles, Child.handle, Launcher.childTopo]

end Spread

structure BEMap.Ordered (l : List (Int × String)) : Prop where
  sorted : l.Pairwise (fun e e' => e.1 < e'.1)
  nonneg : ∀ e ∈ l, 0 ≤ e.1

namespace BEMap.Ordered

variable {l : List (Int × String)}

theorem drop (h : Ordered l) (k : Nat) : Ordered (l.drop k) :=
  ⟨h.sorted.sublist (List.drop_sublist k l), fun e he => h.nonneg e (List.mem_of_mem_drop he)⟩

end BEMap.Ordered

theorem Consecutive.ordered (h : Consecutive a l) (ha : 0 ≤ a) : BEMap.Ordered l := by
  induction l generalizing a with
  | nil => exact ⟨.nil, by simp⟩
  | cons e l ih =>
    have hl := ih h.2 (by omega)
    have hlt : ∀ e' ∈ l, e.1 < e'.1 := by
      intro e' he'
      have := (h.2.mem_iff e'.1).mp (List.mem_map_of_mem he')
      have := h.1
      omega
    refine ⟨List.pairwise_cons.mpr ⟨hlt, hl.sorted⟩, ?_⟩
    intro e' he'
    obtain heq | hmem := List.mem_cons.mp he'
    . rw [heq, h.1]; exact ha
    . exact hl.nonneg e' hmem

theorem BEMap.Ordered.nodup (h : BEMap.Ordered l)
    : (l.map (fun e => e.1)).Nodup := by
  rw [List.nodup_iff_pairwise_ne, List.pairwise_map]
  exact h.sorted.imp ne_of_lt

theorem forall_before_append {next next' : Int} {rest : List (Int × String)} {k size : Nat}
    {cs : List (Nat × Child)} {ch : Child} (hcs : ∀ x ∈ cs, x.2.Before next rest)
    (hnext : next' ≤ next) (hch : ch.Before next' (rest.drop k))
    : ∀ x ∈ cs ++ [(size, ch)], x.2.Before next' (rest.drop k) := by
  intro x hx
  obtain hx | hx := List.mem_append.mp hx
  . exact (hcs x hx).mono hnext (fun e he => List.mem_of_mem_drop he)
  . rw [List.mem_singleton.mp hx]
    exact hch

structure Tabled (cs : List (Nat × Child)) (bound : Int) (d : DistributedGroup) : Prop where
  other : ∀ g, g ≠ SCI_GROUP_ALL → d.generalInfo[g]? = none
  all : cs ≠ [] → SCI_GROUP_ALL ∈ d.generalInfo
  below : ∀ c i, (d.parts SCI_GROUP_ALL).Mem c i → i < bound
  tableInv : d.TableInv
  cachesOk : d.CachesOk
  occupied : ∀ g, (d.parts g).Occupied

namespace Tabled

variable {cs cs' : List (Nat × Child)} {bound : Int} {d d' : DistributedGroup}

theorem new : Tabled [] bound .new := by
  constructor
  . simp [DistributedGroup.new]
  . simp
  . simp
  . exact DistributedGroup.tableInv_new
  . exact DistributedGroup.cachesOk_new
  . exact DistributedGroup.occupied_new

theorem addBE (h : Tabled cs bound d)
    : Tabled cs' (bound + 1) (d.addBE SCI_GROUP_ALL VALIDBACKENDIDS bound) := by
  have hplaced : (DistributedGroup.Call.addBE SCI_GROUP_ALL VALIDBACKENDIDS bound).Placed d :=
    fun c hc => absurd (h.below c bound hc) (Int.lt_irrefl _)
  constructor
  . intro g hg
    rw [← h.other g hg]
    exact DistributedGroup.getElem?_generalInfo_setParts_reset_of_ne (Ne.symm hg)
  . intro _
    rw [ExtTreeMap.mem_iff_isSome_getElem?]
    show isSome (((DistributedGroup.setParts _ _ _).reset SCI_GROUP_ALL).generalInfo[_]?) = true
    rw [DistributedGroup.getElem?_generalInfo_setParts_reset]
    rfl
  . intro c i hi
    obtain hold | hnew := DistributedGroup.mem_addBE.mp hi
    . have := h.below c i hold
      omega
    . omega
  . exact DistributedGroup.tableInv_addBE h.tableInv hplaced
  . exact DistributedGroup.cachesOk_addBE h.cachesOk
  . exact @DistributedGroup.occupied_step _ _ h.tableInv h.occupied (.addBE _ _ _) trivial rfl

theorem initSubGroup (h : Tabled cs bound d) (hkey : ∀ i, ¬(d.parts SCI_GROUP_ALL).Mem c i)
    (hd' : d.initSubGroup c bound e = some d')
    : Tabled cs' (e + 1) d' := by
  have hnone : (d.parts SCI_GROUP_ALL)[c]? = none := by
    cases hp : (d.parts SCI_GROUP_ALL)[c]? with
    | none => rfl
    | some grp =>
      have ⟨i, hi⟩ := h.occupied _ _ _ hp
      exact absurd ⟨grp, hp, hi⟩ (hkey i)
  have hplaced : (DistributedGroup.Call.initSubGroup c bound e).Placed d := by
    refine ⟨hnone, ?_⟩
    intro c' i hi
    have := h.below c' i hi
    omega
  have ⟨grp, hgrp, hle, henter⟩ := DistributedGroup.initSubGroup_eq_some hd'
  constructor
  . intro g hg
    rw [← h.other g hg, henter]
    exact getElem?_insert_of_ne (Ne.symm hg)
  . intro _
    rw [henter]
    simp [DistributedGroup.initSubGroup.enter]
  . intro c' i
    rw [henter, DistributedGroup.parts_enter, if_pos rfl, Parts.mem_insert, hgrp]
    split
    . omega
    . intro hi
      have := h.below c' i hi
      omega
  . exact DistributedGroup.tableInv_step h.tableInv hplaced hd'
  . exact DistributedGroup.cachesOk_step h.cachesOk hplaced hd'
  . exact @DistributedGroup.occupied_step _ _ h.tableInv h.occupied (.initSubGroup _ _ _) trivial hd'

end Tabled

theorem Launcher.launchTree2.loop_spread {topo : Topology} {initID : Int} (out size : Nat)
    (rest : List (Int × String)) (st : Launcher) (cs : List (Nat × Child)) (hst : Spread initID cs st)
    (hrest : BEMap.Ordered rest) (hout : rest ≠ [] → 0 < out) (hnext : st.nextAgentID < 0)
    (hcs : ∀ x ∈ cs, x.2.Before st.nextAgentID rest)
    (hvalid : ∀ t, .agent t ∈ topo.childrenFrom st.nextAgentID (Split.split out rest) →
      t.agentID ≠ VALIDBACKENDIDS)
    : ∃ st',
        Launcher.launchTree2.loop topo initID out size rest st = some st' ∧
        Spread initID (cs ++ topo.placedFrom st.nextAgentID size (Split.split out rest)) st' ∧
        (∀ x ∈ cs ++ topo.placedFrom st.nextAgentID size (Split.split out rest),
          x.2.Before st'.nextAgentID []) ∧
        (st.nextAgentID - out ≤ st'.nextAgentID ∧ st'.nextAgentID ≤ st.nextAgentID) ∧
        (Consecutive (initID + size) rest → Tabled cs (initID + size) st.routingList.myDistriGroup →
          ∃ bound, Tabled (cs ++ topo.placedFrom st.nextAgentID size (Split.split out rest)) bound
            st'.routingList.myDistriGroup) := by
  induction out generalizing size rest st cs with
  | zero =>
    cases rest with
    | nil =>
      simp only [Split.split, Topology.placedFrom, List.append_nil]
      exact ⟨st, rfl, hst, hcs, by omega, fun _ h => ⟨_, h⟩⟩
    | cons e rest => simp at hout
  | succ out ih =>
    cases rest with
    | nil =>
      simp only [Split.split, Topology.placedFrom, List.append_nil]
      exact ⟨st, rfl, hst, hcs, by omega, fun _ h => ⟨_, h⟩⟩
    | cons e rest =>
      have hbounds := Split.step_bounds out (rest.length + 1) (by omega)
      have hle := Split.step_le out (rest.length + 1) (by omega)
      -- the last slot takes all that is left
      have hlast : (e :: rest).drop (Split.step (out + 1) (rest.length + 1)) ≠ [] → 0 < out := by
        intro hne
        rw [ne_eq, List.drop_eq_nil_iff, List.length_cons] at hne
        by_contra hzero
        obtain rfl : out = 0 := by omega
        omega
      unfold Launcher.launchTree2.loop
      unfold Split.split at hvalid ⊢
      dsimp only at hvalid ⊢
      generalize hs : Split.step (out + 1) (rest.length + 1) = s at *
      have hdrop := hrest.drop s
      split
      . next hone =>
        subst hone
        rw [List.take_succ_cons, List.take_zero, Topology.childrenFrom_one] at hvalid
        rw [List.take_succ_cons, List.take_zero, Topology.placedFrom_one]
        have hhead := hrest.nonneg e (List.mem_cons_self ..)
        have hnew := @Spread.enterBE initID cs st topo hst e size
          (fun x hx => (hcs x hx).handle_ne (List.mem_cons_self ..) hhead)
        have hbefore : (Child.backEnd e).Before st.nextAgentID ((e :: rest).drop 1) :=
          ⟨hhead, (List.pairwise_cons.mp hrest.sorted).1⟩
        have hall := @forall_before_append _ _ _ 1 size cs _ hcs le_rfl hbefore
        obtain ⟨st', hloop, hst', hbefore', hids, htabled⟩ := ih (size + 1) _ (st.enterBE topo e)
          (cs ++ [(size, .backEnd e)]) hnew hdrop hlast hnext hall
          (fun t ht => hvalid t (List.mem_cons_of_mem _ ht))
        rw [List.append_assoc] at hst' hbefore' htabled
        have hsame : (st.enterBE topo e).nextAgentID = st.nextAgentID := rfl
        refine ⟨st', hloop, hst', hbefore', by omega, ?_⟩
        intro hcons h
        rw [Nat.cast_add, Nat.cast_one, ← Int.add_assoc] at htabled
        have htable : Tabled (cs ++ [(size, .backEnd e)]) (initID + size + 1) _ := h.addBE
        rw [← hcons.1] at htable
        rw [← hcons.1] at htabled
        exact htabled (hcons.1 ▸ hcons.2) htable
      . next hone =>
        have hlen : ((e :: rest).take s).length = s := by
          rw [List.length_take, List.length_cons]
          omega
        rw [Topology.childrenFrom_many _ _ _ (by omega)] at hvalid
        rw [Topology.placedFrom_many _ _ _ _ (by omega)]
        have hself := hvalid _ (List.mem_cons_self ..)
        have hkey := fun x hx => (hcs x hx).key_ne_next hself
        obtain ⟨st1, hst1, hnext1, hgroup, hnew⟩ := @Spread.enterAgent initID cs st topo hst size
          ((e :: rest).take s) e.2 (by simp; omega) hself hkey
          (fun x hx => (hcs x hx).handle_ne_next hnext)
        rw [hlen] at hst1 hgroup
        rw [hst1, bind_eq_bind, bind_some]
        have hbefore : (Child.agent (Launcher.childTopo topo st.nextAgentID ((e :: rest).take s))).Before
            st1.nextAgentID ((e :: rest).drop s) :=
          ⟨by rw [hnext1]; exact Int.pred_self_lt _, hnext, hself⟩
        have hall := @forall_before_append _ _ _ s size cs _ hcs (by omega) hbefore
        obtain ⟨st', hloop, hst', hbefore', hids, htabled⟩ := ih (size + s) _ st1 _ hnew hdrop hlast
          (by omega) hall (fun t ht => hvalid t (List.mem_cons_of_mem _ (hnext1 ▸ ht)))
        rw [List.append_assoc, hnext1] at hst' hbefore' htabled
        rw [hlen]
        refine ⟨st', hloop, hst', hbefore', by omega, ?_⟩
        intro hcons h
        have hbound : initID + (size : Int) + s - 1 + 1 = initID + (size + s : Nat) := by omega
        have hrest := hcons.drop s hle
        rw [Int.add_assoc, ← Nat.cast_add] at hrest
        exact htabled hrest (hbound ▸ h.initSubGroup (hst.not_mem hkey) hgroup)

namespace Topology

variable (topo : Topology)

structure Deployable (a : Int) : Prop where
  fanOut : 2 ≤ topo.fanOut
  agentID : topo.agentID < 0
  nonneg : 0 ≤ a
  nonempty : topo.beMap ≠ []
  consecutive : Consecutive a topo.beMap

def firstAgentID : Int := (topo.agentID + 1) * topo.fanOut - 2

theorem firstAgentID_neg {topo : Topology} (h : topo.agentID < 0) : topo.firstAgentID < 0 := by
  have : (topo.agentID + 1) * topo.fanOut ≤ 0 :=
    Int.mul_nonpos_of_nonpos_of_nonneg (by omega) (by omega)
  unfold firstAgentID
  omega

def placed : List (Nat × Child) :=
  topo.placedFrom topo.firstAgentID 0 (Split.split topo.fanOut topo.beMap)

theorem map_placed : topo.placed.map Prod.snd = topo.children :=
  topo.map_placedFrom _ _ _

theorem exists_placed {topo : Topology} : ch ∈ topo.children ↔ ∃ x ∈ topo.placed, x.2 = ch := by
  rw [← map_placed, List.mem_map]

theorem exists_children {topo : Topology} {p : Child → Prop}
    : (∃ ch ∈ topo.children, p ch) ↔ ∃ x ∈ topo.placed, p x.2 := by
  constructor
  . intro ⟨ch, hch, hp⟩
    have ⟨x, hx, heq⟩ := exists_placed.mp hch
    exact ⟨x, hx, heq ▸ hp⟩
  . intro ⟨x, hx, hp⟩
    exact ⟨x.2, exists_placed.mpr ⟨x, hx, rfl⟩, hp⟩

-- the id from which the back ends of the agents are counted on
def initID : Int := (topo.ids.head?).getD 0

theorem deploy_spread {topo : Topology} (hagent : topo.agentID < 0) (hfan : 0 < topo.fanOut)
    (hord : BEMap.Ordered topo.beMap) (hvalid : ∀ t, .agent t ∈ topo.children → t.agentID ≠ VALIDBACKENDIDS)
    : ∃ st, topo.deploy .new = some st ∧ Spread topo.initID topo.placed st ∧
        (∀ x ∈ topo.placed, x.2.Before st.nextAgentID []) ∧
        (topo.firstAgentID - topo.fanOut ≤ st.nextAgentID ∧ st.nextAgentID ≤ topo.firstAgentID) ∧
        (Consecutive topo.initID topo.beMap →
          ∃ bound, Tabled topo.placed bound st.routingList.myDistriGroup) := by
  have ⟨st, hloop, hspread, hbefore, hids, htabled⟩ := @Launcher.launchTree2.loop_spread topo topo.initID
    topo.fanOut 0 topo.beMap ⟨.new, topo.firstAgentID, ∅, []⟩ [] Spread.new hord (fun _ => hfan)
    (firstAgentID_neg hagent) (by simp) hvalid
  rw [List.nil_append] at hspread hbefore htabled
  rw [Nat.cast_zero, Int.add_zero] at htabled
  refine ⟨st, ?_, hspread, hbefore, hids, fun hcons => htabled hcons .new⟩
  unfold deploy Launcher.launchTree2
  split
  . next hnil =>
    simp only [hnil, Launcher.launchTree2.loop, some.injEq] at hloop
    rw [← hloop]
    rfl
  . next e l hl =>
    have hinit : topo.initID = e.1 := by simp [initID, ids, hl]
    rw [hinit] at hloop
    exact hloop

end Topology

theorem Consecutive.initID {t : Topology} (h : Consecutive a t.beMap) (hne : t.beMap ≠ [])
    : t.initID = a := by
  unfold Topology.initID Topology.ids
  cases hl : t.beMap with
  | nil => exact absurd hl hne
  | cons e l =>
    rw [hl] at h
    exact h.1

namespace Topology

theorem registers_iff {topo : Topology} {initID next : Int} {size : Nat} {cs : List (List (Int × String))}
    (hcons : Consecutive (initID + size) cs.flatten)
    : ∀ x ∈ topo.placedFrom next size cs, ∀ i, x.2.Registers initID x.1 i ↔ i ∈ x.2.ids := by
  induction cs generalizing next size with
  | nil => simp [placedFrom]
  | cons c cs ih =>
    rw [List.flatten_cons] at hcons
    have hdrop := hcons.drop c.length (by simp)
    rw [List.drop_left, Int.add_assoc, ← Nat.cast_add] at hdrop
    by_cases hc : c.length = 1
    . obtain ⟨e, rfl⟩ := List.length_eq_one_iff.mp hc
      rw [placedFrom_one, List.forall_mem_cons]
      exact ⟨by simp [Child.Registers, Child.ids], ih hdrop⟩
    . rw [placedFrom_many _ _ _ _ hc, List.forall_mem_cons]
      refine ⟨?_, ih hdrop⟩
      intro i
      have htake := hcons.take c.length
      rw [List.take_left] at htake
      exact (htake.mem_iff i).symm

theorem deploy_spec {topo : Topology} (h : topo.Deployable a)
    (hvalid : ∀ t, .agent t ∈ topo.children → t.agentID ≠ VALIDBACKENDIDS)
    : ∃ st, topo.deploy .new = some st ∧ Entered topo.children st := by
  have hfan := h.fanOut
  have hcons : Consecutive topo.initID topo.beMap := by
    rw [h.consecutive.initID h.nonempty]
    exact h.consecutive
  have ⟨st, hdeploy, hspread, _, _, htabled⟩ :=
    deploy_spread h.agentID (by omega) (h.consecutive.ordered h.nonneg) hvalid
  have ⟨bound, htable⟩ := htabled hcons
  have hregisters : ∀ x ∈ topo.placed, ∀ i, x.2.Registers topo.initID x.1 i ↔ i ∈ x.2.ids := by
    apply registers_iff
    rw [Split.flatten_split (by omega)]
    simpa using hcons
  refine ⟨st, hdeploy, ?_, ?_, htable.other, ?_, ?_, htable.tableInv, htable.cachesOk, htable.occupied⟩
  . intro c i
    rw [hspread.mem, exists_children]
    apply exists_congr
    intro x
    rw [and_congr_right_iff]
    intro hx
    rw [hregisters x hx]
  . intro k q
    rw [hspread.queue, exists_children]
  . intro hne
    apply htable.all
    intro hnil
    rw [← map_placed, hnil] at hne
    exact hne rfl
  . rw [hspread.handles, ← map_placed, List.map_map]
    rfl

end Topology
end Sci
