import Cloudland.Lib.Check
import Cloudland.Web.Overlay.Model

/-!
The callbacks that place an interface and that remove an instance (`rpcs/attach_vm_nic.go`, `rpcs/clear_vm.go`).
-/

namespace Web

open List
open SqlM (Triple)
namespace Overlay

namespace OverlayDB

def placeIface (ifaceID : Nat) (hyperID : Int) (db : OverlayDB) : OverlayDB :=
  { db with
    interfaces := db.interfaces.update (fun i => i.id == ifaceID) (fun i => { i with hyper := hyperID }) }

-- the interface of a floating IP stays
def releaseIface (iface : Interface) (db : OverlayDB) : OverlayDB :=
  if iface.floatingIp = 0 then
    { db with interfaces := db.interfaces.delete (fun i => i.id == iface.id) }
  else
    { db with
      interfaces := db.interfaces.update (fun i => i.id == iface.id)
        (fun i => { i with inst := 0, name := "fip" }) }

def deleteInstance (inst : Instance) (db : OverlayDB) : OverlayDB :=
  { db with instances := db.instances.delete (fun i => i.id == inst.id) }

def ifacesOf (db : OverlayDB) (instID : Nat) : List Interface :=
  db.interfaces.filter (fun i => i.inst == instID)

def routerHypers (db : OverlayDB) (routerID : Nat) : List Int :=
  ((db.instances.filter (fun i => i.routerID == routerID)).map Instance.hyper ++
    (db.interfaces.filter (fun i => i.routerID == routerID)).map Interface.hyper).filter (fun h => 0 ≤ h)

end OverlayDB

def attachInterface (instID : Nat) (macAddr : String) (hyperID : Except Failure Int) : RpcM PUnit := do
  let inst ← SqlM.find (fun db => db.instances.take instID) .database
  let iface ← SqlM.find
    (fun db => db.interfaces.find? (fun i => i.inst == instID && i.macAddr == macAddr)) .database
  let hyperID ← SqlM.check hyperID
  SqlM.update (OverlayDB.placeIface iface.id hyperID) .database
  sendFdbRules (some inst) none { iface with hyper := hyperID }

def deleteInterface (routerID : Nat) (hyper : Hyper) (hyperNode : Int) (hyperSet : List Int)
    (iface : Interface) : RpcM PUnit := do
  SqlM.update (OverlayDB.releaseIface iface) .database
  if 0 < routerID ∧ 0 ≤ hyperNode then
    let (address, subnet) ← SqlM.check iface.loaded
    SqlM.send ⟨.toall hyperSet, .delFwrule [fdbRule iface address subnet hyper]⟩ .hyperExecute
  else
    return ⟨⟩

def findRouterHypers (routerID : Nat) : RpcM (List Int) :=
  if 0 < routerID then
    SqlM.query (fun db => db.routerHypers routerID) .database
  else
    return []

def deleteInterfaces (inst : Instance) (hyperNode : Int) (interfaces : List Interface) : RpcM PUnit := do
  let hyper ← SqlM.find (fun db => db.hyperByHostid hyperNode) .database
  let hyperSet ← findRouterHypers inst.routerID
  SqlM.each interfaces (deleteInterface inst.routerID hyper hyperNode hyperSet)

def clearVM (instID : Nat) : RpcM PUnit := do
  let inst ← SqlM.find (fun db => db.instances.take instID) .database
  let interfaces ← SqlM.query (fun db => db.ifacesOf instID) .database
  deleteInterfaces inst inst.hyper interfaces
  SqlM.update (OverlayDB.deleteInstance inst) .database

section Sent

def Control.Reaches (h : Int) : Control → Prop
  | .inter hyper => hyper = h
  | .toall hypers => h ∈ hypers
  | .select _ => False

def Command.Adds (c : Command) (h : Int) (r : FdbRule) : Prop :=
  c.control.Reaches h ∧ ∃ rules, c.script = .addFwrule rules ∧ r ∈ rules

def Command.Deletes (c : Command) (h : Int) (r : FdbRule) : Prop :=
  c.control.Reaches h ∧ ∃ rules, c.script = .delFwrule rules ∧ r ∈ rules

def Command.IsAdd (c : Command) : Prop := ∃ rules, c.script = .addFwrule rules

def Interface.Inner (iface : Interface) (address : Address) (subnet : Subnet) : Prop :=
  iface.loaded = .ok (address, subnet) ∧ subnet.type ≠ .publicSubnet

variable {hyper : Hyper} {rules : List FdbRule}

theorem spreadRules_mem
    (h : spreadRules hyper [iface] = .ok rules) (hinner : iface.Inner address subnet)
    : fdbRule iface address subnet hyper ∈ rules := by
  simp only [spreadRules, hinner.1, bind, Except.bind, if_neg hinner.2, pure, Except.pure,
    Except.ok.injEq] at h
  simp [← h]

variable {hyperSet : List Int}

theorem localRules_cons (h : localRules (p :: peers) = .ok (rules, hyperSet))
    : ∃ address subnet rules' hyperSet', p.1.loaded = .ok (address, subnet) ∧
        localRules peers = .ok (rules', hyperSet') ∧ (∀ r ∈ rules', r ∈ rules) ∧
        (∀ k ∈ hyperSet', k ∈ hyperSet) ∧
        ∀ hyper, p.2 = some hyper → subnet.type ≠ .publicSubnet → 0 ≤ p.1.hyper →
          fdbRule p.1 address subnet hyper ∈ rules ∧ p.1.hyper ∈ hyperSet := by
  obtain ⟨iface, hyper⟩ := p
  simp only [localRules, Check.bind_eq_ok, Prod.exists] at h
  obtain ⟨address, subnet, hload, rules', hyperSet', hrec, h⟩ := h
  refine ⟨address, subnet, rules', hyperSet', hload, hrec, ?_⟩
  split at h
  . next hskip =>
    cases h
    refine ⟨fun _ hr => hr, fun _ hk => hk, ?_⟩
    intro hyper _ hinner hpos
    simp only at hpos
    obtain hpublic | hnone := hskip
    . exact absurd hpublic hinner
    . omega
  . cases hyper with
    | none =>
      cases h
      exact ⟨fun _ hr => hr, fun _ hk => hk, fun hyper hsome => by simp at hsome⟩
    | some hyper =>
      cases h
      refine ⟨fun _ hr => mem_cons_of_mem _ hr, ?_, ?_⟩
      . intro k hk
        split
        . exact mem_insert_of_mem hk
        . exact hk
      . intro hyper' hsome _ hpos
        cases hsome
        simp only at hpos
        rw [if_pos hpos]
        exact ⟨mem_cons_self, mem_insert_self⟩

theorem localRules_mem (h : localRules peers = .ok (rules, hyperSet))
    (hmem : (iface, some hyper) ∈ peers) (hinner : iface.Inner address subnet) (hpos : 0 ≤ iface.hyper)
    : fdbRule iface address subnet hyper ∈ rules ∧ iface.hyper ∈ hyperSet := by
  induction peers generalizing rules hyperSet with
  | nil => simp at hmem
  | cons p peers ih =>
    have ⟨a, t, rules', hyperSet', hload, hrec, hrules, hhypers, hhead⟩ := localRules_cons h
    obtain heq | htail := mem_cons.mp hmem
    . subst heq
      rw [hinner.1] at hload
      cases hload
      exact hhead hyper rfl hinner.2 hpos
    . have ⟨hrule, hhyper⟩ := ih hrec htail
      exact ⟨hrules _ hrule, hhypers _ hhyper⟩

variable {db : OverlayDB} {l : List Command}

structure Spread (db : OverlayDB) (routerID : Nat) (iface : Interface) (cmds : List Command) : Prop where
  adds : ∀ c ∈ cmds, c.IsAdd
  others : ∀ address subnet, iface.Inner address subnet → ∀ hyper, db.hyperByHostid iface.hyper = some hyper →
    0 ≤ iface.hyper → ∀ y ∈ db.interfaces, y.routerID = routerID → y.type ≠ .gateway →
    y.hyper ≠ iface.hyper → 0 ≤ y.hyper → ∀ address' subnet', y.Inner address' subnet' →
    ∀ hyper', db.hyperByHostid y.hyper = some hyper' →
    (∃ c ∈ cmds, c.Adds y.hyper (fdbRule iface address subnet hyper)) ∧
      ∃ c ∈ cmds, c.Adds iface.hyper (fdbRule y address' subnet' hyper')

variable {hyperNode : Int}

theorem mem_peers (hy : y ∈ db.interfaces)
    (hrouter : y.routerID = routerID) (htype : y.type ≠ .gateway) (hne : y.hyper ≠ hyperNode)
    (hhyper : db.hyperByHostid y.hyper = some hyper)
    : (y, some hyper) ∈ db.peers routerID hyperNode := by
  apply mem_map.mpr
  refine ⟨y, Table.mem_filter.mpr ⟨hy, by simp [hrouter, htype, hne]⟩, ?_⟩
  rw [if_neg hne, hhyper]

def spreadCommands (rules : List FdbRule) (hyperSet : List Int) : List Command :=
  if hyperSet ≠ [] ∧ rules ≠ [] then [⟨.toall hyperSet, .addFwrule rules⟩] else []

def localCommands (rules : List FdbRule) (hyperNode : Int) : List Command :=
  if rules ≠ [] then [⟨.inter hyperNode, .addFwrule rules⟩] else []

theorem spread_calm
    : (sendFdbRules.spread rules hyperSet).Triple (Session.Calm db l)
        (fun _ s => s.Calm db (l ++ spreadCommands rules hyperSet)) (fun _ _ => True) := by
  apply Triple.ite
  . intro h
    rw [spreadCommands, if_pos h]
    exact Triple.send_calm
  . intro h
    rw [spreadCommands, if_neg h, append_nil]
    exact Triple.pure (fun _ hs => hs)

theorem local_calm
    : (sendFdbRules.local rules hyperNode).Triple (Session.Calm db l)
        (fun _ s => s.Calm db (l ++ localCommands rules hyperNode)) (fun _ _ => True) := by
  apply Triple.ite
  . intro h
    rw [localCommands, if_pos h]
    exact Triple.send_calm
  . intro h
    rw [localCommands, if_neg h, append_nil]
    exact Triple.pure (fun _ hs => hs)

theorem mem_spreadCommands (hr : r ∈ rules) (hh : h ∈ hyperSet)
    : ∃ c ∈ spreadCommands rules hyperSet, c.Adds h r := by
  rw [spreadCommands, if_pos ⟨ne_nil_of_mem hh, ne_nil_of_mem hr⟩]
  exact ⟨_, mem_singleton_self _, hh, rules, rfl, hr⟩

theorem mem_localCommands {r : FdbRule} (hr : r ∈ rules)
    : ∃ c ∈ localCommands rules hyperNode, c.Adds hyperNode r := by
  rw [localCommands, if_pos (ne_nil_of_mem hr)]
  exact ⟨_, mem_singleton_self _, rfl, rules, rfl, hr⟩

theorem isAdd_commands (hc : c ∈ spreadCommands spread hyperSet ++ localCommands rules hyperNode)
    : c.IsAdd := by
  unfold spreadCommands localCommands at hc
  rw [mem_append] at hc
  obtain hc | hc := hc
  . split at hc
    . exact ⟨spread, by rw [mem_singleton.mp hc]⟩
    . contradiction
  . split at hc
    . exact ⟨rules, by rw [mem_singleton.mp hc]⟩
    . contradiction

theorem sendFdbRules_calm (hrouter : inst.routerID ≠ 0)
    : (sendFdbRules (some inst) none iface).Triple (Session.Calm db l)
        (fun _ s => ∃ cmds, s.Calm db (l ++ cmds) ∧ Spread db inst.routerID iface cmds)
        (fun _ _ => True) := by
  apply Triple.ite
  . intro hcond
    have hunplaced : iface.hyper = -1 := by simpa [hrouter] using hcond
    apply Triple.pure
    intro s hs
    refine ⟨[], by simpa using hs, by simp, ?_⟩
    intro _ _ _ _ _ hpos
    omega
  intro _
  apply Triple.bind_and (Triple.find_calm (fun _ _ => trivial))
  intro hyper hhyper
  apply Triple.ite
  . intro hneg
    have hhostid : hyper.hostid = iface.hyper := by
      simpa using (Table.find?_eq_some hhyper).2
    apply Triple.pure
    intro s hs
    refine ⟨[], by simpa using hs, by simp, ?_⟩
    intro _ _ _ _ _ hpos
    omega
  intro _
  apply Triple.bind_and (Triple.check_and (fun _ _ _ _ => trivial))
  intro spread hspread
  apply Triple.bind_and Triple.query_calm
  intro peers hpeers
  apply Triple.bind_and (Triple.check_and (fun _ _ _ _ => trivial))
  intro (rules, hyperSet) hlocal
  apply Triple.seq spread_calm
  apply local_calm.conseq (fun _ h => h) ?_ (fun _ _ h => h)
  intro _ s hs
  refine ⟨spreadCommands spread hyperSet ++ localCommands rules iface.hyper, by simpa using hs,
    fun c hc => isAdd_commands hc, ?_⟩
  intro address subnet hinner hyper' hhyper' _ y hy hyrouter htype hne hypos address' subnet' hyinner
    hyperY hhyperY
  have hpeer := hpeers ▸ mem_peers hy hyrouter htype hne hhyperY
  have ⟨hrule, hhost⟩ := localRules_mem hlocal hpeer hyinner hypos
  rw [hhyper] at hhyper'
  cases hhyper'
  have ⟨c, hc, hadds⟩ := mem_spreadCommands (spreadRules_mem hspread hinner) hhost
  have ⟨c', hc', hadds'⟩ := @mem_localCommands _ iface.hyper _ hrule
  exact ⟨⟨c, mem_append_left _ hc, hadds⟩, c', mem_append_right _ hc', hadds'⟩

def OverlayDB.ifaceByMac (db : OverlayDB) (instID : Nat) (macAddr : String) : Option Interface :=
  db.interfaces.find? (fun i => i.inst == instID && i.macAddr == macAddr)

theorem attachInterface_calm
    : (attachInterface instID macAddr (.ok hyperID)).Triple (Session.Calm db [])
        (fun _ s => ∃ inst iface cmds, db.instances.take instID = some inst ∧
          db.ifaceByMac instID macAddr = some iface ∧
          s.Calm (db.placeIface iface.id hyperID) cmds ∧
          (inst.routerID ≠ 0 →
            Spread (db.placeIface iface.id hyperID) inst.routerID { iface with hyper := hyperID } cmds))
        (fun _ _ => True) := by
  apply Triple.bind_and (Triple.find_calm (fun _ _ => trivial))
  intro inst hinst
  apply Triple.bind_and (Triple.find_calm (fun _ _ => trivial))
  intro iface hiface
  rw [SqlM.check_ok_bind]
  apply Triple.update_bind
  by_cases hrouter : inst.routerID = 0
  . simp only [sendFdbRules, hrouter, Option.any_some, beq_self_eq_true, Bool.true_or, if_true]
    apply Triple.pure
    intro s hs
    exact ⟨inst, iface, [], hinst, hiface, hs, fun h => absurd hrouter h⟩
  . apply (sendFdbRules_calm hrouter).conseq (fun _ h => h) ?_ (fun _ _ h => h)
    intro _ s ⟨cmds, hs, hspread⟩
    exact ⟨inst, iface, cmds, hinst, hiface, by simpa using hs, fun _ => hspread⟩

def withdraw (hyperSet : List Int) (hyper : Hyper) (iface : Interface) (address : Address)
    (subnet : Subnet) : Command :=
  ⟨.toall hyperSet, .delFwrule [fdbRule iface address subnet hyper]⟩

structure Withdrawn (hyperSet : List Int) (hyper : Hyper) (ifaces : List Interface) (cmds : List Command)
    : Prop where
  all : ∀ i ∈ ifaces, ∃ address subnet, i.loaded = .ok (address, subnet) ∧
    withdraw hyperSet hyper i address subnet ∈ cmds
  only : ∀ c ∈ cmds, ∃ i ∈ ifaces, ∃ address subnet, i.loaded = .ok (address, subnet) ∧
    c = withdraw hyperSet hyper i address subnet

theorem Withdrawn.concat (h : Withdrawn hyperSet hyper ifaces cmds)
    (hload : iface.loaded = .ok (address, subnet))
    : Withdrawn hyperSet hyper (ifaces ++ [iface]) (cmds ++ [withdraw hyperSet hyper iface address subnet]) := by
  constructor
  . intro i hi
    rw [mem_append, mem_singleton] at hi
    obtain hi | hi := hi
    . have ⟨a, t, ha, hc⟩ := h.all i hi
      exact ⟨a, t, ha, mem_append_left _ hc⟩
    . rw [hi]
      exact ⟨address, subnet, hload, by simp⟩
  . intro c hc
    rw [mem_append, mem_singleton] at hc
    obtain hc | hc := hc
    . have ⟨i, hi, hrest⟩ := h.only c hc
      exact ⟨i, mem_append_left _ hi, hrest⟩
    . exact ⟨iface, by simp, address, subnet, hload, hc⟩

def OverlayDB.releaseAll (ifaces : List Interface) (db : OverlayDB) : OverlayDB :=
  ifaces.foldl (fun db i => db.releaseIface i) db

theorem deleteInterface_calm (hrouter : 0 < routerID) (hpos : 0 ≤ hyperNode)
    : (deleteInterface routerID hyper hyperNode hyperSet iface).Triple (Session.Calm db cmds)
        (fun _ s => ∃ address subnet, iface.loaded = .ok (address, subnet) ∧
          s.Calm (db.releaseIface iface) (cmds ++ [withdraw hyperSet hyper iface address subnet]))
        (fun _ _ => True) := by
  apply Triple.update_bind
  rw [if_pos ⟨hrouter, hpos⟩]
  apply Triple.bind_and (Triple.check_and (fun _ _ _ _ => trivial))
  intro (address, subnet) hload
  apply Triple.send_calm.conseq (fun _ h => h) ?_ (fun _ _ h => h)
  intro _ s hs
  exact ⟨address, subnet, hload, hs⟩

theorem deleteEach_calm (hrouter : 0 < routerID) (hpos : 0 ≤ hyperNode)
    : (SqlM.each ifaces (deleteInterface routerID hyper hyperNode hyperSet)).Triple (Session.Calm db [])
        (fun _ s => ∃ cmds, Withdrawn hyperSet hyper ifaces cmds ∧ s.Calm (db.releaseAll ifaces) cmds)
        (fun _ _ => True) := by
  have hloop := @Triple.each _ _ _ _ (fun _ _ => True) ifaces
    (deleteInterface routerID hyper hyperNode hyperSet)
    (fun rest s => ∃ done cmds, (ifaces = done ++ rest ∧ Withdrawn hyperSet hyper done cmds) ∧
      s.Calm (db.releaseAll done) cmds)
  refine (hloop ?_).conseq ?_ ?_ (fun _ _ h => h)
  . intro iface rest
    apply Triple.of_exists
    intro done
    apply Triple.of_exists
    intro cmds
    apply Triple.of_and
    intro ⟨heq, hdone⟩
    apply (deleteInterface_calm hrouter hpos).conseq (fun _ h => h) ?_ (fun _ _ h => h)
    intro _ s ⟨address, subnet, hload, hs⟩
    refine ⟨done ++ [iface], _, ⟨by simpa using heq, hdone.concat hload⟩, ?_⟩
    simpa [OverlayDB.releaseAll] using hs
  . intro s hs
    exact ⟨[], [], ⟨rfl, by simp, by simp⟩, hs⟩
  . intro _ s ⟨done, cmds, ⟨heq, hdone⟩, hs⟩
    rw [append_nil] at heq
    exact ⟨cmds, heq ▸ hdone, heq ▸ hs⟩

theorem clearVM_calm (hok : ∀ inst, db.instances.take instID = some inst →
      0 < inst.routerID ∧ 0 ≤ inst.hyper)
    : (clearVM instID).Triple (Session.Calm db [])
        (fun _ s => ∃ inst hyper cmds, db.instances.take instID = some inst ∧
          Withdrawn (db.routerHypers inst.routerID) hyper (db.ifacesOf instID) cmds ∧
          s.Calm ((db.releaseAll (db.ifacesOf instID)).deleteInstance inst) cmds)
        (fun _ _ => True) := by
  apply Triple.bind_and (Triple.find_calm (fun _ _ => trivial))
  intro inst hinst
  have ⟨hrouter, hpos⟩ := hok inst hinst
  apply Triple.bind_and Triple.query_calm
  intro interfaces hinterfaces
  apply @Triple.bind _ _ _ _ _ _ (fun _ s => ∃ hyper cmds,
    Withdrawn (db.routerHypers inst.routerID) hyper interfaces cmds ∧
      s.Calm (db.releaseAll interfaces) cmds)
  . apply Triple.bind_and (Triple.find_calm (fun _ _ => trivial))
    intro hyper _
    rw [findRouterHypers, if_pos hrouter]
    apply Triple.bind_and Triple.query_calm
    intro hyperSet hhypers
    apply (deleteEach_calm hrouter hpos).conseq (fun _ h => h) ?_ (fun _ _ h => h)
    intro _ s ⟨cmds, hcmds, hs⟩
    exact ⟨hyper, cmds, hhypers ▸ hcmds, hs⟩
  . intro _
    apply Triple.of_exists
    intro hyper
    apply Triple.of_exists
    intro cmds
    apply Triple.of_and
    intro hcmds
    apply Triple.update_calm.conseq (fun _ h => h) ?_ (fun _ _ h => h)
    intro _ s hs
    exact ⟨inst, hyper, cmds, hinst, hinterfaces ▸ hcmds, hinterfaces ▸ hs⟩

end Sent

end Overlay
end Web
