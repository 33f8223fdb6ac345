import Cloudland.Sci.Membership.Step

/-!
The agents of the whole tree while back ends are added and removed. Every agent reads its queue in order and
at its own pace.
-/

namespace Sci

open OrdMap List Option
open Std (ExtTreeMap)

def Launcher.agents (st : Launcher) : List Int :=
  (st.clients.map (fun c => c.id)).filter (fun id => decide (id < 0))

structure Agent where
  parent : Option Nat
  agentID : Int
  read : Nat
  node : Option Node

namespace Agent

def agents (a : Agent) : List Int :=
  match a.node with
  | none => []
  | some n => n.st.agents

def process (a : Agent) (launch : Launch) (msg : Message) : Option Agent :=
  (handle a.node msg).map (fun n => { a with read := a.read + 1, node := some n })
where
  handle : Option Node → Message → Option Node
    | none, .config topo => Node.deploy topo
    | some n, .beAdd be_id host lev => (n.addBE be_id host lev launch).map Prod.fst
    | some n, .beRemove be_id => (n.removeBE be_id).map Prod.fst
    | _, _ => none

end Agent

abbrev Tree := List Agent

namespace Tree

def inbox (tree : Tree) (a : Agent) : Option Message := do
  let parent ← tree[← a.parent]?
  let n ← parent.node
  let queue ← n.st.routingList.queueInfo[a.agentID]?
  queue[a.read]?

def update (tree : Tree) (i : Nat) (a a' : Agent) : Tree :=
  tree.set i a' ++ (a'.agents.drop a.agents.length).map (fun id => ⟨some i, id, 0, none⟩)

inductive Event where
  | call (msg : Message) (launch : Launch)
  | consume (i : Nat) (launch : Launch)

def Event.exec (tree : Tree) : Event → Option Tree
  | .call msg launch => do
    let a ← tree[0]?
    let a' ← a.process launch msg
    return tree.update 0 a a'
  | .consume i launch => do
    let a ← tree[i]?
    let msg ← tree.inbox a
    let a' ← a.process launch msg
    return tree.update i a a'

def start (topo : Topology) : Option Tree := do
  let n ← Node.deploy topo
  return update [⟨none, topo.agentID, 0, none⟩] 0 ⟨none, topo.agentID, 0, none⟩
    ⟨none, topo.agentID, 0, some n⟩

end Tree

def Message.Fits (f : Nat) (k : Int) : Message → Prop
  | .config topo => topo.agentID = k ∧ topo.fanOut = f ∧ ∀ e ∈ topo.beMap, 0 ≤ e.1
  | .beAdd be_id _ _ => 0 ≤ be_id
  | _ => True

def QueuesFit (f : Nat) (queueInfo : IntMap (List Message)) : Prop :=
  ∀ (k : Int) q, queueInfo[k]? = some q → ∀ msg ∈ q, msg.Fits f k

namespace QueuesFit

variable {f : Nat} {queueInfo : IntMap (List Message)}

theorem insert (h : QueuesFit f queueInfo) (hq : ∀ msg ∈ q, msg.Fits f k)
    : QueuesFit f (queueInfo.insert k q) := by
  intro k' q' hq'
  by_cases hk : k = k'
  . subst hk
    rw [ExtTreeMap.getElem?_insert_self, some.injEq] at hq'
    exact hq' ▸ hq
  . rw [getElem?_insert_of_ne hk] at hq'
    exact h k' q' hq'

theorem erase (h : QueuesFit f queueInfo) (k : Int) : QueuesFit f (queueInfo.erase k) := by
  intro k' q' hq'
  by_cases hk : k = k'
  . subst hk
    simp at hq'
  . rw [getElem?_erase_of_ne hk] at hq'
    exact h k' q' hq'

theorem append (h : QueuesFit f queueInfo) (hq : queueInfo[k]? = some q) (hmsg : msg.Fits f k)
    : QueuesFit f (queueInfo.insert k (q ++ [msg])) := by
  apply h.insert
  intro m hm
  obtain hm | hm := mem_append.mp hm
  . exact h k q hq m hm
  . rw [mem_singleton.mp hm]
    exact hmsg

end QueuesFit

structure Launcher.Counted (topo : Topology) (st : Launcher) : Prop where
  nodup : st.agents.Nodup
  block : ∀ id ∈ st.agents, topo.firstAgentID - topo.fanOut < id ∧ id ≤ topo.firstAgentID
  unused : ∀ id ∈ st.agents, st.nextAgentID < id
  next : st.nextAgentID ≤ topo.firstAgentID
  queues : QueuesFit topo.fanOut st.routingList.queueInfo

namespace Launcher

variable {topo : Topology} {st st' : Launcher}

theorem agents_append_backEnd (h : 0 ≤ c.id) (hst' : st'.clients = st.clients ++ [c])
    : st'.agents = st.agents := by
  simp [agents, hst', h]

theorem agents_append_agent (h : c.id < 0) (hst' : st'.clients = st.clients ++ [c])
    : st'.agents = st.agents ++ [c.id] := by
  simp [agents, hst', h]

theorem Counted.of_topo {topo' : Topology} (h : st.Counted topo) (hagent : topo'.agentID = topo.agentID)
    (hfan : topo'.fanOut = topo.fanOut)
    : st.Counted topo' := by
  have hfirst : topo'.firstAgentID = topo.firstAgentID := by
    rw [Topology.firstAgentID, hagent, hfan]
    rfl
  constructor
  . exact h.nodup
  . rw [hfirst, hfan]
    exact h.block
  . exact h.unused
  . rw [hfirst]
    exact h.next
  . rw [hfan]
    exact h.queues

theorem Counted.of_agents (h : st.Counted topo) (hagents : st'.agents = st.agents)
    (hnext : st'.nextAgentID ≤ st.nextAgentID) (hqueues : QueuesFit topo.fanOut st'.routingList.queueInfo)
    : st'.Counted topo := by
  refine ⟨hagents ▸ h.nodup, hagents ▸ h.block, ?_, le_trans hnext h.next, hqueues⟩
  intro id hid
  exact lt_of_le_of_lt hnext (h.unused id (hagents ▸ hid))

theorem Counted.launch (h : st.Counted topo) (hagents : st'.agents = st.agents ++ [st.nextAgentID])
    (hroom : topo.firstAgentID - topo.fanOut < st.nextAgentID) (hnext : st'.nextAgentID = st.nextAgentID - 1)
    (hqueues : QueuesFit topo.fanOut st'.routingList.queueInfo)
    : st'.Counted topo := by
  have hmem : ∀ id, id ∈ st'.agents ↔ id ∈ st.agents ∨ id = st.nextAgentID := by
    intro id
    rw [hagents, mem_append, mem_singleton]
  have hlow := h.next
  refine ⟨?_, ?_, ?_, by omega, hqueues⟩
  . rw [hagents, nodup_append]
    refine ⟨h.nodup, nodup_singleton _, ?_⟩
    intro id hid id' hid'
    rw [mem_singleton.mp hid']
    exact Int.ne_of_gt (h.unused id hid)
  . intro id hid
    obtain hid | hid := (hmem id).mp hid
    . exact h.block id hid
    . exact hid ▸ ⟨hroom, h.next⟩
  . intro id hid
    obtain hid | hid := (hmem id).mp hid
    . have := h.unused id hid
      omega
    . omega

theorem queuesFit_foldl_mapQueue (l : List Nat) {rl : RoutingList} (h : QueuesFit f rl.queueInfo)
    : QueuesFit f (l.foldl (fun rl k => rl.mapQueue (start + k)) rl).queueInfo := by
  induction l generalizing rl with
  | nil => exact h
  | cons k l ih => exact ih (h.insert (by simp))

theorem incWeight_foldl {entries : List (Int × String)} {id : Int} (st : Launcher)
    : (entries.foldl (fun st _ => st.incWeight id) st).nextAgentID = st.nextAgentID ∧
        (entries.foldl (fun st _ => st.incWeight id) st).clients = st.clients := by
  induction entries generalizing st with
  | nil => exact ⟨rfl, rfl⟩
  | cons e entries ih => exact ih (st.incWeight id)

theorem enterAgent_launches
    (hqueues : QueuesFit topo.fanOut st.routingList.queueInfo) (hentries : ∀ e ∈ entries, 0 ≤ e.1)
    (h : st.enterAgent topo startID endID entries hostname = some st')
    : st'.clients = st.clients ++ [⟨st.nextAgentID, topo.agentPath, hostname⟩] ∧
        st'.nextAgentID = st.nextAgentID - 1 ∧
        QueuesFit topo.fanOut st'.routingList.queueInfo := by
  simp only [enterAgent, bind_eq_bind, bind_eq_some_iff, Option.pure_def,
    Option.some.injEq, RoutingList.initSubGroup] at h
  obtain ⟨rl1, ⟨d, _, hrl1⟩, rl2, hrl2, hst'⟩ := h
  obtain ⟨hnext, hclients⟩ := @incWeight_foldl entries (childTopo topo st.nextAgentID entries).agentID st
  subst hst'
  refine ⟨by rw [hclients]; rfl, by rw [hnext], ?_⟩
  have hfits1 : QueuesFit topo.fanOut rl1.queueInfo := by
    rw [← hrl1]
    split
    . exact hqueues.insert (by simp)
    . exact queuesFit_foldl_mapQueue _ hqueues
  obtain ⟨q, hq, hrl2'⟩ := RoutingList.produce_eq_some hrl2
  rw [hrl2']
  exact hfits1.append hq ⟨rfl, rfl, hentries⟩

theorem launchTree2.loop_counted (out size : Nat) (rest : List (Int × String))
    (st : Launcher) (h : st.Counted topo) (hneg : st.nextAgentID < 0)
    (hroom : topo.firstAgentID - topo.fanOut + out ≤ st.nextAgentID) (hrest : ∀ e ∈ rest, 0 ≤ e.1)
    (hloop : launchTree2.loop topo initID out size rest st = some st')
    : st'.Counted topo := by
  induction out generalizing size rest st with
  | zero =>
    cases rest with
    | nil =>
      simp only [launchTree2.loop, some.injEq] at hloop
      exact hloop ▸ h
    | cons e rest => simp [launchTree2.loop] at hloop
  | succ out ih =>
    cases rest with
    | nil =>
      simp only [launchTree2.loop, some.injEq] at hloop
      exact hloop ▸ h
    | cons e rest =>
      unfold launchTree2.loop at hloop
      dsimp only at hloop
      have hdrop : ∀ k, ∀ e' ∈ (e :: rest).drop k, 0 ≤ e'.1 :=
        fun k e' he' => hrest e' (mem_of_mem_drop he')
      split at hloop
      . have hagents : (st.enterBE topo e).agents = st.agents :=
          agents_append_backEnd (c := ⟨e.1, topo.bePath, e.2⟩) (hrest e (mem_cons_self ..)) rfl
        have hcounted :=
          h.of_agents hagents le_rfl (h.queues.insert (by simp))
        have hsame : (st.enterBE topo e).nextAgentID = st.nextAgentID := rfl
        exact ih _ _ _ hcounted hneg (by omega) (hdrop _) hloop
      . obtain ⟨st1, hst1, hloop⟩ := bind_eq_some_iff.mp hloop
        obtain ⟨hclients, hnext, hqueues⟩ := enterAgent_launches h.queues
          (fun e' he' => hrest e' (mem_of_mem_take he')) hst1
        have hagents := agents_append_agent hneg hclients
        have hcounted := h.launch hagents (by omega) hnext hqueues
        exact ih _ _ _ hcounted (by omega) (by omega) (hdrop _) hloop

end Launcher

theorem Node.deploy_counted {topo : Topology} {n : Node} (hagent : topo.agentID < 0)
    (hids : ∀ e ∈ topo.beMap, 0 ≤ e.1) (h : Node.deploy topo = some n)
    : n.topo = topo ∧ n.st.Counted topo := by
  have hneg := Topology.firstAgentID_neg hagent
  have hnew : Launcher.Counted topo ⟨.new, topo.firstAgentID, ∅, []⟩ :=
    ⟨.nil, by simp [Launcher.agents], by simp [Launcher.agents], le_rfl,
      by simp [QueuesFit, RoutingList.new]⟩
  rw [Node.deploy, map_eq_some_iff] at h
  obtain ⟨st, hst, rfl⟩ := h
  refine ⟨rfl, ?_⟩
  unfold Topology.deploy Launcher.launchTree2 at hst
  split at hst
  . rw [some.injEq] at hst
    exact hst ▸ hnew
  . exact Launcher.launchTree2.loop_counted topo.fanOut 0 topo.beMap _ hnew hneg (by simp) hids hst

namespace Node

variable {n n' : Node} {b lev : Int} {host : String} {launch : Launch} {rc : SciRc}

structure Extends (n n' : Node) : Prop where
  agentID : n'.topo.agentID = n.topo.agentID
  fanOut : n'.topo.fanOut = n.topo.fanOut
  agents : ∃ new, n'.st.agents = n.st.agents ++ new

def Counted (n : Node) : Prop := n.st.Counted n.topo

def Room (n : Node) (lev : Int) (launch : Launch) : Prop :=
  n.place lev = some .agent → launch.started = true →
    n.topo.firstAgentID - n.topo.fanOut < n.st.nextAgentID

instance : Decidable (n.Room lev launch) := inferInstanceAs (Decidable (_ → _ → _))

section Counted

variable (h : n.Counted)

include h

theorem Counted.launchBE (hb : 0 ≤ b)
    : n.Extends (n.launchBE b host launch).1 ∧ (n.launchBE b host launch).1.Counted := by
  have hqueues : QueuesFit n.topo.fanOut (n.st.routingList.queueInfo.insert b []) :=
    h.queues.insert (by simp)
  unfold Node.launchBE
  dsimp only
  split
  . have hagents : Launcher.agents { n.st with
        routingList := n.st.routingList.addBE SCI_GROUP_ALL VALIDBACKENDIDS b true
        clients := n.st.clients ++ [⟨b, n.topo.bePath, host⟩] } = n.st.agents :=
      Launcher.agents_append_backEnd (c := ⟨b, n.topo.bePath, host⟩) hb rfl
    exact ⟨⟨rfl, rfl, [], by rw [append_nil]; exact hagents⟩,
      Launcher.Counted.of_agents h hagents le_rfl hqueues⟩
  . exact ⟨⟨rfl, rfl, [], by rw [append_nil]; rfl⟩,
      Launcher.Counted.of_agents h rfl le_rfl hqueues⟩

theorem Counted.launchAgent (hagent : n.topo.agentID < 0) (hb : 0 ≤ b)
    (hroom : launch.started = true → n.topo.firstAgentID - n.topo.fanOut < n.st.nextAgentID)
    (hn' : n.launchAgent b host launch = some (n', rc))
    : n.Extends n' ∧ n'.Counted := by
  have hnext := h.next
  have hneg := Topology.firstAgentID_neg hagent
  have hmapped : QueuesFit n.topo.fanOut
      (n.st.routingList.addBE SCI_GROUP_ALL n.st.nextAgentID b true).queueInfo :=
    h.queues.insert (by simp)
  cases hstarted : launch.started with
  | true =>
    obtain ⟨q, hq, rfl⟩ := launchAgent_started hstarted hn'
    have hfits : (Message.config (n.newChild b host)).Fits n.topo.fanOut n.st.nextAgentID :=
      ⟨rfl, rfl, by simp [newChild, Launcher.childTopo, hb]⟩
    refine ⟨⟨rfl, rfl, [n.st.nextAgentID], ?_⟩, ?_⟩
    . exact Launcher.agents_append_agent (c := ⟨n.st.nextAgentID, n.topo.agentPath, host⟩)
        (lt_of_le_of_lt hnext hneg) rfl
    . apply Launcher.Counted.launch h _ (hroom hstarted) rfl (hmapped.append hq hfits)
      exact Launcher.agents_append_agent (c := ⟨n.st.nextAgentID, n.topo.agentPath, host⟩)
        (lt_of_le_of_lt hnext hneg) rfl
  | false =>
    have heq := launchAgent_failed hstarted hn'
    subst heq
    refine ⟨⟨rfl, rfl, [], by rw [append_nil]; rfl⟩, ?_⟩
    exact Launcher.Counted.of_agents h rfl (Int.sub_le_self _ (by decide)) hmapped

theorem Counted.delegate (hb : 0 ≤ b) (hn' : n.delegate aID b host lev = some (n', rc))
    : n.Extends n' ∧ n'.Counted := by
  obtain ⟨q, hq, rfl⟩ := delegate_eq_some hn'
  refine ⟨⟨rfl, rfl, [], by rw [append_nil]; rfl⟩, ?_⟩
  exact Launcher.Counted.of_agents h rfl le_rfl (h.queues.append hq hb)

theorem Counted.added (hagent : n.topo.agentID < 0) (hb : 0 ≤ b)
    (hroom : n.Room lev launch) (hadd : n.addBE b host lev launch = some (n', rc))
    : n.Extends n' ∧ n'.Counted := by
  have hset : ∀ {n1 : Node}, n.Extends n1 ∧ n1.Counted →
      n.Extends (n1.setHost b host) ∧ (n1.setHost b host).Counted :=
    fun hn1 => ⟨⟨hn1.1.agentID, hn1.1.fanOut, hn1.1.agents⟩, hn1.2.of_topo rfl rfl⟩
  cases addBE_added hadd with
  | backEnd => exact hset (h.launchBE hb)
  | givenUp => exact h.launchBE hb
  | backEndFailed => exact h.launchBE hb
  | agent hplace hstarted hn' => exact hset (h.launchAgent hagent hb (hroom hplace) hn')
  | agentFailed hplace hstarted hn' => exact h.launchAgent hagent hb (hroom hplace) hn'
  | child hplace hn' => exact hset (h.delegate hb hn')

theorem Counted.removed (hremove : n.removeBE b = some (n', rc)) : n.Extends n' ∧ n'.Counted := by
  cases removeBE_removed hremove with
  | unknown => exact ⟨⟨rfl, rfl, [], by rw [append_nil]⟩, h⟩
  | backEnd hbe hquery hq =>
    refine ⟨⟨rfl, rfl, [], by rw [append_nil]; rfl⟩, ?_⟩
    have hqueues := h.queues.append hq (show (Message.beRemove b).Fits n.topo.fanOut b from trivial)
    refine @Launcher.Counted.of_topo n.topo _ _ ?_ rfl rfl
    exact Launcher.Counted.of_agents h rfl le_rfl (hqueues.erase b)
  | @child aID q w hbe hquery hne hvalid hq hw =>
    refine ⟨⟨rfl, rfl, [], by rw [append_nil]; rfl⟩, ?_⟩
    have hqueues := h.queues.append hq (show (Message.beRemove b).Fits n.topo.fanOut aID from trivial)
    refine @Launcher.Counted.of_topo n.topo _ _ ?_ rfl rfl
    exact Launcher.Counted.of_agents h rfl le_rfl hqueues

end Counted

end Node

theorem Topology.firstAgentID_le {t : Topology} (h : t.agentID < 0) : t.firstAgentID ≤ -2 := by
  have : (t.agentID + 1) * t.fanOut ≤ 0 :=
    Int.mul_nonpos_of_nonpos_of_nonneg (by omega) (by omega)
  unfold firstAgentID
  omega

theorem Topology.agentID_of_block {t t' : Topology} {id : Int} (hfan : t.fanOut = t'.fanOut)
    (h : t.firstAgentID - t.fanOut < id ∧ id ≤ t.firstAgentID)
    (h' : t'.firstAgentID - t'.fanOut < id ∧ id ≤ t'.firstAgentID)
    : t.agentID = t'.agentID := by
  have hmul : ∀ {a b : Int}, a < b → (a + 1) * t'.fanOut ≤ b * t'.fanOut :=
    fun hab => Int.mul_le_mul_of_nonneg_right hab (by omega)
  simp only [firstAgentID, hfan, Int.add_mul] at h h'
  rcases lt_trichotomy t.agentID t'.agentID with hlt | heq | hgt
  . have := hmul hlt
    rw [Int.add_mul] at this
    omega
  . exact heq
  . have := hmul hgt
    rw [Int.add_mul] at this
    omega

namespace Agent

def Counted (f : Nat) (a : Agent) : Prop :=
  ∀ n, a.node = some n → n.topo.agentID = a.agentID ∧ n.topo.fanOut = f ∧ n.Counted

theorem mem_agents {a : Agent} {id : Int} (h : id ∈ a.agents) : ∃ n, a.node = some n ∧ id ∈ n.st.agents := by
  unfold agents at h
  cases hn : a.node with
  | none => simp [hn] at h
  | some n => exact ⟨n, rfl, by simpa [hn] using h⟩

theorem Counted.nodup {a : Agent} (h : a.Counted f) : a.agents.Nodup := by
  unfold agents
  split
  . exact .nil
  . next n hn => exact (h n hn).2.2.nodup

theorem agents_neg {a : Agent} {id : Int} (h : id ∈ a.agents) : id < 0 := by
  have ⟨n, _, hid⟩ := mem_agents h
  simp only [Launcher.agents, mem_filter, decide_eq_true_eq] at hid
  exact hid.2

def Room (a : Agent) (launch : Launch) : Message → Prop
  | .beAdd _ _ lev => (a.node.all (fun n => n.Room lev launch)) = true
  | _ => True

instance {a : Agent} {launch : Launch} {msg : Message} : Decidable (a.Room launch msg) := by
  unfold Room
  split <;> infer_instance

structure Grows (f : Nat) (a a' : Agent) : Prop where
  parent : a'.parent = a.parent
  agentID : a'.agentID = a.agentID
  counted : a'.Counted f
  agents : ∃ new, a'.agents = a.agents ++ new

theorem Grows.of_node {a : Agent} {n' : Node} {k : Nat} (hid : n'.topo.agentID = a.agentID)
    (hfan : n'.topo.fanOut = f) (hcounted : n'.Counted) (hagents : ∃ new, n'.st.agents = a.agents ++ new)
    : a.Grows f { a with read := k, node := some n' } := by
  refine ⟨rfl, rfl, ?_, hagents⟩
  intro n hn
  rw [some.injEq] at hn
  exact hn ▸ ⟨hid, hfan, hcounted⟩

theorem Grows.of_extends {a : Agent} {n n' : Node} {k : Nat} (ha : a.Counted f)
    (hn : a.node = some n) (h : n.Extends n' ∧ n'.Counted)
    : a.Grows f { a with read := k, node := some n' } := by
  have ⟨hid, hfan, _⟩ := ha n hn
  apply Grows.of_node (h.1.agentID.trans hid) (h.1.fanOut.trans hfan) h.2
  have ⟨new, hnew⟩ := h.1.agents
  exact ⟨new, by rw [hnew, Agent.agents, hn]⟩

theorem process_grows {a : Agent} {msg : Message} (ha : a.Counted f)
    (hneg : a.agentID < 0) (hmsg : msg.Fits f a.agentID) (hroom : a.Room launch msg)
    (h : a.process launch msg = some a')
    : a.Grows f a' := by
  have ⟨n', hn', heq⟩ := map_eq_some_iff.mp h
  subst heq
  unfold process.handle at hn'
  split at hn'
  . next topo hnode =>
    have ⟨hid, hfan, hids⟩ := hmsg
    have ⟨htopo, hst⟩ := Node.deploy_counted (hid ▸ hneg) hids hn'
    have hcounted : n'.Counted := by
      rw [Node.Counted, htopo]
      exact hst
    apply Grows.of_node (htopo ▸ hid) (htopo ▸ hfan) hcounted
    exact ⟨n'.st.agents, by rw [Agent.agents, hnode]; rfl⟩
  . next n be_id host lev hnode =>
    have ⟨hid, _, hcounted⟩ := ha n hnode
    obtain ⟨res, hres, rfl⟩ := map_eq_some_iff.mp hn'
    simp only [Room, hnode, all_some, decide_eq_true_eq] at hroom
    exact Grows.of_extends ha hnode (hcounted.added (hid ▸ hneg) hmsg hroom hres)
  . next n be_id hnode =>
    have ⟨_, _, hcounted⟩ := ha n hnode
    obtain ⟨res, hres, rfl⟩ := map_eq_some_iff.mp hn'
    exact Grows.of_extends ha hnode (hcounted.removed hres)
  . contradiction

end Agent

namespace Tree

variable {f : Nat} {tree tree' : Tree}

structure Inv (f : Nat) (tree : Tree) : Prop where
  nodup : (tree.map (fun a => a.agentID)).Nodup
  counted : ∀ a ∈ tree, a.agentID < 0 ∧ a.Counted f
  parent : ∀ a ∈ tree, (a.agentID = -1 ∧ a.parent = none) ∨
    ∃ (p : Nat) (b : Agent), a.parent = some p ∧ tree[p]? = some b ∧ a.agentID ∈ b.agents

theorem Inv.index (h : tree.Inv f) {i j : Nat} {a b : Agent} (hi : tree[i]? = some a)
    (hj : tree[j]? = some b) (hid : a.agentID = b.agentID)
    : i = j := by
  have hlt := (List.getElem?_eq_some_iff.mp hi).1
  apply (getElem?_inj (by rw [length_map]; exact hlt) h.nodup).mp
  rw [getElem?_map, getElem?_map, hi, hj, map_some, map_some, hid]

theorem Inv.fresh (h : tree.Inv f) {i : Nat} {a a' : Agent} (ha : tree[i]? = some a)
    (hgrows : a.Grows f a') {new : List Int} (hnew : a'.agents = a.agents ++ new) {id : Int}
    (hid : id ∈ new) {b : Agent} (hb : b ∈ tree)
    : b.agentID ≠ id := by
  intro heq
  have hmem : id ∈ a'.agents := by
    rw [hnew]
    exact mem_append_right _ hid
  have ⟨n', hn', hmem'⟩ := Agent.mem_agents hmem
  have ⟨hid', hfan', hcounted'⟩ := hgrows.counted n' hn'
  have hblock' := hcounted'.block id hmem'
  obtain hroot | ⟨p, c, _, hc, hbc⟩ := h.parent b hb
  . have hneg := (h.counted a (mem_of_getElem? ha)).1
    have := Topology.firstAgentID_le (t := n'.topo) (by rw [hid', hgrows.agentID]; exact hneg)
    omega
  . rw [heq] at hbc
    have ⟨m, hm, hmem⟩ := Agent.mem_agents hbc
    have ⟨hmid, hmfan, hmcounted⟩ := (h.counted c (mem_of_getElem? hc)).2 m hm
    have hsame := Topology.agentID_of_block (hmfan.trans hfan'.symm) (hmcounted.block id hmem) hblock'
    rw [hmid, hid', hgrows.agentID] at hsame
    have hpi := h.index hc ha hsame
    rw [hpi, ha, some.injEq] at hc
    -- the id would be used twice at one node
    have hnodup := hgrows.counted.nodup
    rw [hnew, nodup_append] at hnodup
    exact hnodup.2.2 id (hc ▸ hbc) id hid rfl

section Update

variable {i : Nat} {a a' : Agent} {new : List Int}

theorem update_eq (hnew : a'.agents = a.agents ++ new)
    : tree.update i a a' = tree.set i a' ++ new.map (fun id => ⟨some i, id, 0, none⟩) := by
  rw [update, hnew, drop_left]

theorem getElem?_update (hb : tree[p]? = some b)
    : (tree.update i a a')[p]? = some (if i = p then a' else b) := by
  have hlt := (List.getElem?_eq_some_iff.mp hb).1
  rw [update, getElem?_append_left (by rw [length_set]; exact hlt), getElem?_set]
  split
  . next heq => simp [heq, hlt]
  . exact hb

theorem mem_update (hnew : a'.agents = a.agents ++ new) (hb : b ∈ tree.update i a a')
    : b = a' ∨ b ∈ tree ∨ ∃ id ∈ new, b = ⟨some i, id, 0, none⟩ := by
  rw [update_eq hnew, List.mem_append, List.mem_map] at hb
  obtain hb | ⟨id, hid, heq⟩ := hb
  . obtain hb | hb := mem_or_eq_of_mem_set hb
    . exact .inr (.inl hb)
    . exact .inl hb
  . exact .inr (.inr ⟨id, hid, heq.symm⟩)

theorem map_agentID_update (ha : tree[i]? = some a) (hid : a'.agentID = a.agentID)
    (hnew : a'.agents = a.agents ++ new)
    : (tree.update i a a').map (fun a => a.agentID) = tree.map (fun a => a.agentID) ++ new := by
  have hset : (tree.set i a').map (fun a => a.agentID) = tree.map (fun a => a.agentID) := by
    have hget : (tree.map (fun a => a.agentID))[i]? = some a.agentID := by
      rw [List.getElem?_map, ha]
      rfl
    have ⟨hlt, heq⟩ := List.getElem?_eq_some_iff.mp hget
    rw [List.map_set, hid, ← heq, List.set_getElem_self]
  rw [update_eq hnew, map_append, hset, List.map_map]
  exact congrArg _ (map_id _)

theorem Inv.parent_update (h : tree.Inv f) (ha : tree[i]? = some a) (hgrows : a.Grows f a')
    (hb : b ∈ tree)
    : (b.agentID = -1 ∧ b.parent = none) ∨
        ∃ (p : Nat) (c : Agent), b.parent = some p ∧ (tree.update i a a')[p]? = some c ∧
          b.agentID ∈ c.agents := by
  obtain hroot | ⟨p, c, hp, hc, hbc⟩ := h.parent b hb
  . exact .inl hroot
  . refine .inr ⟨p, _, hp, getElem?_update hc, ?_⟩
    split
    . next heq =>
      have ⟨new, hnew⟩ := hgrows.agents
      rw [← heq, ha, some.injEq] at hc
      rw [hnew, hc]
      exact mem_append_left _ hbc
    . exact hbc

theorem Inv.update (h : tree.Inv f) (ha : tree[i]? = some a) (hgrows : a.Grows f a')
    : (tree.update i a a').Inv f := by
  have hmem := mem_of_getElem? ha
  have ⟨new, hnew⟩ := hgrows.agents
  have hsub : ∀ id ∈ new, id ∈ a'.agents := by
    intro id hid
    rw [hnew]
    exact mem_append_right _ hid
  constructor
  . have hnodup := hgrows.counted.nodup
    rw [hnew, nodup_append] at hnodup
    rw [map_agentID_update ha hgrows.agentID hnew, nodup_append]
    refine ⟨h.nodup, hnodup.2.1, ?_⟩
    intro id hid id' hid'
    obtain ⟨b, hb, rfl⟩ := mem_map.mp hid
    exact h.fresh ha hgrows hnew hid' hb
  . intro b hb
    rcases mem_update hnew hb with hb | hb | hb
    . rw [hb]
      exact ⟨hgrows.agentID ▸ (h.counted a hmem).1, hgrows.counted⟩
    . exact h.counted b hb
    . obtain ⟨id, hid, rfl⟩ := hb
      exact ⟨Agent.agents_neg (hsub id hid), by simp [Agent.Counted]⟩
  . intro b hb
    rcases mem_update hnew hb with hb | hb | hb
    . rw [hb, hgrows.agentID, hgrows.parent]
      exact h.parent_update ha hgrows hmem
    . exact h.parent_update ha hgrows hb
    . obtain ⟨id, hid, rfl⟩ := hb
      have hi := @getElem?_update tree i a a' i a ha
      rw [if_pos rfl] at hi
      exact .inr ⟨i, a', rfl, hi, hsub id hid⟩

end Update

theorem Inv.inbox (h : tree.Inv f) (hmsg : tree.inbox a = some msg)
    : msg.Fits f a.agentID := by
  simp only [Tree.inbox, bind_eq_bind, bind_eq_some_iff] at hmsg
  have ⟨p, _, b, hb, n, hn, q, hq, hread⟩ := hmsg
  have ⟨_, hfan, hcounted⟩ := (h.counted b (mem_of_getElem? hb)).2 n hn
  have hfits := hcounted.queues a.agentID q hq msg (mem_of_getElem? hread)
  exact hfan ▸ hfits

def Event.Allowed (tree : Tree) : Event → Prop
  | .call msg launch =>
    (match msg with
      | .beAdd be_id _ _ => 0 ≤ be_id
      | .beRemove _ => True
      | _ => False) ∧
    tree[0]?.all (fun a => a.Room launch msg) = true
  | .consume i launch =>
    tree[i]?.all (fun a => (tree.inbox a).all (fun msg => a.Room launch msg)) = true

instance (tree : Tree) (e : Event) : Decidable (e.Allowed tree) := by
  unfold Event.Allowed
  cases e with
  | call msg launch => cases msg <;> infer_instance
  | consume i launch => infer_instance

def Event.Step (tree : Tree) (e : Event) (tree' : Tree) : Prop := e.exec tree = some tree'

theorem Inv.step (h : tree.Inv f) (hstep : Guarded Event.Allowed Event.Step tree e tree') : tree'.Inv f := by
  have ⟨hallowed, hexec⟩ := hstep
  cases e with
  | call msg launch =>
    simp only [Event.Step, Event.exec, bind_eq_bind, bind_eq_some_iff, Option.pure_def,
      Option.some.injEq] at hexec
    have ⟨a, ha, a', ha', htree'⟩ := hexec
    have ⟨hneg, hcounted⟩ := h.counted a (mem_of_getElem? ha)
    have hroom := hallowed.2
    rw [ha, all_some, decide_eq_true_eq] at hroom
    have hmsg : msg.Fits f a.agentID := by
      have hkind := hallowed.1
      cases msg with
      | beAdd be_id host lev => exact hkind
      | beRemove be_id => trivial
      | _ => exact absurd hkind id
    rw [← htree']
    exact h.update ha (Agent.process_grows hcounted hneg hmsg hroom ha')
  | consume i launch =>
    simp only [Event.Step, Event.exec, Option.bind_eq_bind, Option.bind_eq_some_iff, Option.pure_def,
      Option.some.injEq] at hexec
    have ⟨a, ha, msg, hmsg, a', ha', htree'⟩ := hexec
    have ⟨hneg, hcounted⟩ := h.counted a (mem_of_getElem? ha)
    simp only [Event.Allowed, ha, hmsg, Option.all_some, decide_eq_true_eq] at hallowed
    rw [← htree']
    exact h.update ha (Agent.process_grows hcounted hneg (h.inbox hmsg) hallowed ha')

theorem Inv.start {topo : Topology} (hroot : topo.agentID = -1) (hids : ∀ e ∈ topo.beMap, 0 ≤ e.1)
    (h : Tree.start topo = some tree)
    : tree.Inv topo.fanOut := by
  simp only [Tree.start, bind_eq_bind, bind_eq_some_iff, Option.pure_def,
    Option.some.injEq] at h
  have ⟨n, hn, htree⟩ := h
  have ⟨htopo, hst⟩ := Node.deploy_counted (by rw [hroot]; decide) hids hn
  have hcounted : n.Counted := by
    rw [Node.Counted, htopo]
    exact hst
  have hbare : Inv topo.fanOut [⟨none, topo.agentID, 0, none⟩] := by
    constructor
    . simp
    . simp [hroot, Agent.Counted]
    . simp [hroot]
  rw [← htree]
  apply hbare.update rfl
  exact Agent.Grows.of_node (congrArg Topology.agentID htopo) (congrArg Topology.fanOut htopo) hcounted
    ⟨n.st.agents, rfl⟩

theorem agent_ids_unique {topo : Topology} (hroot : topo.agentID = -1)
    (hids : ∀ e ∈ topo.beMap, 0 ≤ e.1) (hstart : Tree.start topo = some tree) {events : List Event}
    (hrun : Run (Guarded Event.Allowed Event.Step) tree events tree')
    : (tree'.map (fun a => a.agentID)).Nodup :=
  (hrun.invariant (Inv topo.fanOut) (fun _ _ _ h hstep => h.step hstep)
    (Inv.start hroot hids hstart)).nodup

section Example

def fourBackEnds : Topology := ⟨-1, 3, 0, 1, "be", "agent", [(0, "a"), (1, "b"), (2, "c"), (3, "d")]⟩

def grow : List Event :=
  [.call (.beAdd 4 "e" 0) ⟨true, true⟩, .consume 1 ⟨true, true⟩, .consume 1 ⟨true, true⟩,
    .call (.beAdd 5 "f" 0) ⟨true, true⟩]

theorem agent_ids_unique_grow
    : ∃ tree tree', Tree.start fourBackEnds = some tree ∧
        Run (Guarded Event.Allowed Event.Step) tree grow tree' ∧
        tree'.map (fun a => a.agentID) = [-1, -2, -3] ∧ (tree'.map (fun a => a.agentID)).Nodup := by
  have hcheck : (Tree.start fourBackEnds).any (fun tree =>
      (grow.foldlM
        (fun (tree : Tree) (e : Event) => if e.Allowed tree then e.exec tree else none) tree).any
        (fun tree : Tree => tree.map (fun a => a.agentID) = [-1, -2, -3])) = true := by
    decide +kernel
  have ⟨tree, hstart, hcheck⟩ := (any_eq_true _ _).mp hcheck
  have ⟨tree', hrun, hids⟩ := Run.exists_of_checked _ hcheck (fun _ _ h => h)
  exact ⟨tree, tree', hstart, hrun, hids, agent_ids_unique rfl (by simp [fourBackEnds]) hstart hrun⟩

theorem third_agent_takes_id_of_grandchild
    : (Tree.start eightBackEnds).any (fun tree =>
        ([Event.call (.beAdd 8 "i" 0) ⟨true, true⟩, .consume 1 ⟨true, true⟩].foldlM Event.exec tree).any
          (fun tree : Tree => tree.map (fun a => a.agentID) = [-1, -2, -3, -4, -4, -5])) := by
  decide +kernel

end Example

end Tree

end Sci
