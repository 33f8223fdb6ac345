import Cloudland.Lib.Run
import Cloudland.Web.Common.Context
import Cloudland.Web.Overlay.Model

/-!
The callback that records where the two interfaces of a VRRP instance are (`rpcs/set_vrrp_ip.go`).
-/

namespace Web

open List Table SqlM
namespace Overlay

namespace OverlayDB

def isVrrpIface (vrrpID : Nat) (role : String) (i : Interface) : Bool :=
  i.type == .vrrp && i.name == role && i.device == vrrpID

def vrrpIface (db : OverlayDB) (vrrpID : Nat) (role : String) : Option Interface :=
  db.interfaces.find? (isVrrpIface vrrpID role)

def recordIface (vrrpID : Nat) (role : String) (hyperID : Int) (macAddr : String) (db : OverlayDB)
    : OverlayDB :=
  { db with
    interfaces := db.interfaces.update (isVrrpIface vrrpID role)
      (fun i => { i with hyper := hyperID, macAddr }) }

-- the key zero is no condition, then all rows are changed
def updateVrrp (vrrpID : Nat) (f : VrrpInstance → VrrpInstance) (db : OverlayDB) : OverlayDB :=
  { db with vrrpInstances := db.vrrpInstances.update (fun v => vrrpID == 0 || v.id == vrrpID) f }

def updateLoadBalancerStatus (vrrpID : Nat) (db : OverlayDB) : OverlayDB :=
  { db with
    loadBalancers := db.loadBalancers.update (fun l => l.vrrpInstanceID == vrrpID)
      (fun l => { l with available := true }) }

def hyperGroup (db : OverlayDB) (zoneID : Nat) (skipHyper : Int) : List Int :=
  (db.hypers.filter (fun h => (zoneID == 0 || h.zoneID == zoneID) && h.status == 1 && 0 ≤ h.hostid &&
    h.hostid != skipHyper)).map Hyper.hostid

end OverlayDB

def getHyperGroup (zoneID : Nat) (skipHyper : Int) : RpcM (List Int) := do
  let hypers ← query (fun db => db.hyperGroup zoneID skipHyper) .database
  if hypers = [] then
    throw .database
  else
    return hypers

def updateLoadBalancerStatus (vrrpInstance : VrrpInstance) : RpcM PUnit :=
  update (OverlayDB.updateLoadBalancerStatus vrrpInstance.id) .database

namespace setVrrpIp

variable (vrrpInstance : VrrpInstance)

def clearDuplicate (vrrpID : Nat) (role : String) (vrrpIface : Interface)
    : RpcM PUnit := do
  let role2 := if role = "MASTER" then "BACKUP" else "MASTER"
  let vrrpIface2 ← find (fun db => db.vrrpIface vrrpID role2) .database
  let subnet ← check (orPanic vrrpInstance.vrrpSubnet)
  let address ← check (orPanic vrrpIface.address)
  let address2 ← check (orPanic vrrpIface2.address)
  send ⟨.inter vrrpIface.hyper, .clearVrrpIp vrrpInstance.routerID vrrpInstance.id subnet.vlan
    address.address vrrpIface.macAddr address2.address vrrpIface2.macAddr⟩ .hyperExecute

def startBackup (vrrpIface vrrpIface2 : Interface) (hypers : List Int)
    : RpcM PUnit := do
  let subnet ← check (orPanic vrrpInstance.vrrpSubnet)
  let address2 ← check (orPanic vrrpIface2.address)
  let address ← check (orPanic vrrpIface.address)
  send ⟨.select hypers, .setVrrpIp vrrpInstance.routerID vrrpInstance.id subnet.vlan
    vrrpIface2.macAddr address2.address vrrpIface.macAddr address.address "BACKUP"⟩ .hyperExecute

-- that there is no other hypervisor is no error
def otherHypers (zoneID : Nat) (hyperID : Int) : RpcM (Option (List Int)) :=
  recover
    (do
      let hypers ← getHyperGroup zoneID hyperID
      return some hypers)
    (fun _ => return none)

def recordMaster (vrrpID : Nat) (hyperID : Int) (vrrpIface : Interface)
    : RpcM PUnit := do
  attempt (update (OverlayDB.updateVrrp vrrpID (fun v => { v with hyper := hyperID })) .database)
  let vrrpIface2 ← find (fun db => db.vrrpIface vrrpID "BACKUP") .database
  let hypers ← otherHypers vrrpInstance.zoneID hyperID
  match hypers with
  | some hypers => startBackup vrrpInstance vrrpIface vrrpIface2 hypers
  | none => updateLoadBalancerStatus vrrpInstance

def recordBackup (vrrpID : Nat) (hyperID : Int) : RpcM PUnit := do
  attempt (update (OverlayDB.updateVrrp vrrpID (fun v => { v with peer := hyperID })) .database)
  updateLoadBalancerStatus vrrpInstance

end setVrrpIp

def setVrrpIp (vrrpID : Nat) (hyperID : Int) (role macAddr : Option String) : RpcM PUnit :=
  if hyperID < 0 then
    return ⟨⟩
  else do
    let hyper ← find (fun db => db.hyperByHostid hyperID) .database
    if hyper.hostid < 0 then
      return ⟨⟩
    else
      let role ← check (orPanic role)
      let vrrpInstance ← find (fun db => db.vrrpInstances.take vrrpID) .database
      let macAddr ← check (orPanic macAddr)
      attempt (update (OverlayDB.recordIface vrrpID role hyperID macAddr) .database)
      let vrrpIface ← find (fun db => db.vrrpIface vrrpID role) .database
      if 0 ≤ vrrpIface.hyper ∧ vrrpIface.hyper ≠ hyperID then
        setVrrpIp.clearDuplicate vrrpInstance vrrpID role vrrpIface
      else
        sendFdbRules none (some vrrpInstance) vrrpIface
        if role = "MASTER" then
          setVrrpIp.recordMaster vrrpInstance vrrpID hyperID vrrpIface
        else
          setVrrpIp.recordBackup vrrpInstance vrrpID hyperID

section Reports

inductive VrrpRole where
  | master
  | backup
  deriving DecidableEq

def VrrpRole.toString : VrrpRole → String
  | .master => "MASTER"
  | .backup => "BACKUP"

structure VrrpReport where
  hyperID : Int
  role : VrrpRole
  macAddr : String
  fails : Nat → Bool

structure VrrpSys where
  db : OverlayDB
  sent : List Command
  reports : List (VrrpRole × Int)

def VrrpSys.step (vrrpID : Nat) (s : VrrpSys) (r : VrrpReport) : VrrpSys :=
  match withTransaction (fun e => e != .panic) none
      (setVrrpIp vrrpID r.hyperID (some r.role.toString) (some r.macAddr)) (World.start s.db r.fails) with
  | (.ok _, w) =>
    { db := w.pool
      sent := s.sent ++ w.sent
      reports := if 0 ≤ r.hyperID then (r.role, r.hyperID) :: s.reports else s.reports }
  | (.error _, w) => { s with db := w.pool, sent := s.sent ++ w.sent }

variable (vrrpID : Nat)

def VrrpSys.Recorded (s : VrrpSys) (role : VrrpRole) (h : Int) : Prop :=
  ∃ i ∈ s.db.interfaces, OverlayDB.isVrrpIface vrrpID role.toString i = true ∧ i.hyper = h

def VrrpSys.Cleared (s : VrrpSys) (h : Int) : Prop :=
  ∃ routerID vlan address mac address2 mac2,
    (⟨.inter h, .clearVrrpIp routerID vrrpID vlan address mac address2 mac2⟩ : Command) ∈ s.sent

structure VrrpSys.Exact (s : VrrpSys) : Prop where
  one : ∀ role h, (role, h) ∈ s.reports →
    ∃ h', (role, h') ∈ s.reports ∧ ∀ k, s.Recorded vrrpID role k ↔ k = h'
  cleared : ∀ role h, (role, h) ∈ s.reports → s.Recorded vrrpID role h ∨ s.Cleared vrrpID h
  agree : ∀ v ∈ s.db.vrrpInstances, v.id = vrrpID →
    s.Recorded vrrpID .master v.hyper ∧ s.Recorded vrrpID .backup v.peer

structure Created (db : OverlayDB) : Prop where
  pos : vrrpID ≠ 0
  loaded : ∀ i ∈ db.interfaces, i.Loaded
  inst : ∃ v ∈ db.vrrpInstances, v.id = vrrpID
  fresh : ∀ v ∈ db.vrrpInstances, v.id = vrrpID → v.hyper = -1 ∧ v.peer = -1 ∧ v.vrrpSubnet.isSome = true
  iface : ∀ role : VrrpRole, ∃ i ∈ db.interfaces, OverlayDB.isVrrpIface vrrpID role.toString i = true
  unplaced : ∀ (role : VrrpRole), ∀ i ∈ db.interfaces,
    OverlayDB.isVrrpIface vrrpID role.toString i = true → i.hyper = -1

def NoClear (l : List Command) : Prop :=
  ∀ c ∈ l, ∀ routerID vlan address mac address2 mac2,
    c.script ≠ .clearVrrpIp routerID vrrpID vlan address mac address2 mac2

def Failed (e : Failure) (s : Session OverlayDB Command) : Prop := e ≠ .panic ∧ NoClear vrrpID s.sent

section Callback

variable {vrrpID} {db : OverlayDB} {vrrpInstance : VrrpInstance} {hyperID : Int} {vrrpIface : Interface}

theorem Failed.intro (he : e ≠ .panic) (s : Session OverlayDB Command) (hs : NoClear vrrpID s.sent)
    : Failed vrrpID e s := ⟨he, hs⟩

theorem NoClear.append (h : NoClear vrrpID l) (hc : ∀ routerID vlan address mac address2 mac2,
      c.script ≠ .clearVrrpIp routerID vrrpID vlan address mac address2 mac2)
    : NoClear vrrpID (l ++ [c]) := by
  intro c' hc'
  rw [mem_append, mem_singleton] at hc'
  obtain hmem | heq := hc'
  . exact h c' hmem
  . exact heq ▸ hc

theorem getHyperGroup_spec
    : (getHyperGroup zoneID skipHyper).Triple (Session.In db (NoClear vrrpID))
        (fun _ s => s.In db (NoClear vrrpID)) (fun _ s => s.Weak db (NoClear vrrpID)) := by
  apply Triple.bind_and (Triple.of_weak Triple.query_weak)
  intro hypers _
  apply Triple.ite
  . intro _
    exact Triple.throw (fun _ h => h.toWeak)
  . intro _
    exact Triple.pure (fun _ h => h)

-- without a group the transaction may be lost, and then the update of the load balancer fails
theorem otherHypers_spec
    : (setVrrpIp.otherHypers zoneID hyperID).Triple (Session.In db (NoClear vrrpID))
        (fun hypers s => match hypers with
          | some _ => s.In db (NoClear vrrpID)
          | none => s.Weak db (NoClear vrrpID))
        (Failed vrrpID) := by
  apply Triple.recover (Triple.bind getHyperGroup_spec ?_) ?_
  . intro hypers
    exact Triple.pure (fun _ h => h)
  . intro _
    exact Triple.pure (fun _ h => h)

theorem startBackup_spec
    (hsubnet : vrrpInstance.vrrpSubnet.isSome = true) (hiface : vrrpIface.Loaded) (hiface2 : vrrpIface2.Loaded)
    : (setVrrpIp.startBackup vrrpInstance vrrpIface vrrpIface2 hypers).Triple
        (Session.In db (NoClear vrrpID)) (fun _ s => s.In db (NoClear vrrpID)) (Failed vrrpID) := by
  have ⟨subnet, hsubnet⟩ := Option.isSome_iff_exists.mp hsubnet
  have ⟨address, haddress⟩ := hiface.address
  have ⟨address2, haddress2⟩ := hiface2.address
  unfold setVrrpIp.startBackup
  simp only [hsubnet, haddress, haddress2, orPanic, check_ok_bind]
  apply Triple.send_in
  . intro l hl
    exact hl.append (by simp)
  . exact Failed.intro (by simp)

theorem updateLoadBalancerStatus_spec
    : (updateLoadBalancerStatus vrrpInstance).Triple (Session.Weak db (NoClear vrrpID))
        (fun _ s => s.In (db.updateLoadBalancerStatus vrrpInstance.id) (NoClear vrrpID))
        (Failed vrrpID) :=
  Triple.update_in (Failed.intro (by simp))

theorem recordMaster_spec (hsubnet : vrrpInstance.vrrpSubnet.isSome = true) (hiface : vrrpIface.Loaded)
    (hload : ∀ i ∈ db.interfaces, i.Loaded)
    : (setVrrpIp.recordMaster vrrpInstance vrrpID hyperID vrrpIface).Triple
        (Session.In db (NoClear vrrpID))
        (fun _ s => ∃ loadBalancers, s.In
          { db.updateVrrp vrrpID (fun v => { v with hyper := hyperID }) with loadBalancers }
          (NoClear vrrpID))
        (Failed vrrpID) := by
  apply Triple.seq (Triple.of_weak Triple.attempt_update_in)
  apply Triple.bind_and (Triple.find_in (Failed.intro (by simp)))
  intro vrrpIface2 hfound
  have hiface2 := hload vrrpIface2 (find?_eq_some hfound).1
  apply Triple.bind otherHypers_spec
  intro hypers
  cases hypers with
  | some hypers =>
    apply (startBackup_spec hsubnet hiface hiface2).conseq (fun _ h => h) ?_ (fun _ _ h => h)
    intro _ s hs
    exact ⟨_, hs⟩
  | none =>
    apply updateLoadBalancerStatus_spec.conseq (fun _ h => h) ?_ (fun _ _ h => h)
    intro _ s hs
    exact ⟨_, hs⟩

theorem recordBackup_spec
    : (setVrrpIp.recordBackup vrrpInstance vrrpID hyperID).Triple
        (Session.In db (NoClear vrrpID))
        (fun _ s => ∃ loadBalancers, s.In
          { db.updateVrrp vrrpID (fun v => { v with peer := hyperID }) with loadBalancers }
          (NoClear vrrpID))
        (Failed vrrpID) := by
  apply Triple.seq (Triple.of_weak Triple.attempt_update_in)
  apply updateLoadBalancerStatus_spec.conseq (fun _ h => h) ?_ (fun _ _ h => h)
  intro _ s hs
  exact ⟨_, hs⟩

theorem hyper_of_recordIface (hi : i ∈ (db.recordIface vrrpID role hyperID macAddr).interfaces)
    (his : OverlayDB.isVrrpIface vrrpID role i = true)
    : i.hyper = hyperID := by
  have ⟨j, _, heq⟩ := mem_update.mp hi
  split at heq
  . rw [heq]
    rfl
  . next hnot =>
    rw [heq] at his
    exact absurd his hnot

theorem loaded_recordIface {role macAddr : String} (hload : ∀ i ∈ db.interfaces, i.Loaded)
    : ∀ i ∈ (db.recordIface vrrpID role hyperID macAddr).interfaces, i.Loaded := by
  intro i hi
  obtain ⟨j, hj, rfl⟩ := mem_update.mp hi
  split
  . exact hload j hj
  . exact hload j hj

def setPlace (role : VrrpRole) (hyperID : Int) (v : VrrpInstance) : VrrpInstance :=
  match role with
  | .master => { v with hyper := hyperID }
  | .backup => { v with peer := hyperID }

def Placed (vrrpID : Nat) (role : VrrpRole) (hyperID : Int) (db db' : OverlayDB) : Prop :=
  ∃ macAddr loadBalancers, db' =
    { (db.recordIface vrrpID role.toString hyperID macAddr).updateVrrp vrrpID (setPlace role hyperID) with
      loadBalancers }

theorem setVrrpIp_spec (role : VrrpRole) (macAddr : String) (fails : Nat → Bool)
    (hload : ∀ i ∈ db.interfaces, i.Loaded) (hpos : vrrpID ≠ 0)
    (hsubnet : ∀ v ∈ db.vrrpInstances, v.id = vrrpID → v.vrrpSubnet.isSome = true) (hhyper : 0 ≤ hyperID)
    : (setVrrpIp vrrpID hyperID (some role.toString) (some macAddr)).Triple
        (fun s => s = Session.begin db fails)
        (fun _ s => ∃ db', Placed vrrpID role hyperID db db' ∧ s.In db' (NoClear vrrpID))
        (Failed vrrpID) := by
  have hbegin : ∀ s, s = Session.begin db fails → s.Weak db (NoClear vrrpID) := by
    intro s hs
    rw [hs]
    exact (Session.In.begin (by simp [NoClear])).toWeak
  unfold setVrrpIp
  rw [if_neg (by omega)]
  apply Triple.bind
    ((Triple.find_in (Failed.intro (by simp))).conseq hbegin (fun _ _ h => h) (fun _ _ h => h))
  intro hyper
  apply Triple.of_and
  intro hfound
  have hhostid : hyper.hostid = hyperID := by
    simpa using (find?_eq_some hfound).2
  rw [if_neg (by omega)]
  apply Triple.bind_and (Triple.of_weak (Triple.find_in (Failed.intro (by simp))))
  intro vrrpInstance hinst
  have hinst : vrrpInstance ∈ db.vrrpInstances ∧ vrrpInstance.id = vrrpID := by
    rw [Table.take, if_neg hpos] at hinst
    exact byKey?_eq_some.mp hinst
  apply Triple.seq (Triple.of_weak Triple.attempt_update_in)
  apply Triple.bind_and (Triple.find_in (Failed.intro (by simp)))
  intro vrrpIface hiface
  have ⟨hmem, his⟩ := find?_eq_some hiface
  have hload' := @loaded_recordIface vrrpID db hyperID role.toString macAddr hload
  -- the row has just been written, so it never differs from the report
  have hwritten := hyper_of_recordIface hmem his
  rw [if_neg (by rw [hwritten]; simp)]
  apply Triple.bind
    (sendFdbRules_spec (hload' _ hmem) hload' (fun _ _ _ hl => hl.append (by simp))
      (fun e he => Failed.intro he))
  intro _
  cases role with
  | master =>
    apply (recordMaster_spec (hsubnet _ hinst.1 hinst.2) (hload' _ hmem) hload').conseq (fun _ h => h) ?_
      (fun _ _ h => h)
    intro _ s ⟨loadBalancers, hs⟩
    exact ⟨_, ⟨macAddr, loadBalancers, rfl⟩, hs⟩
  | backup =>
    apply recordBackup_spec.conseq (fun _ h => h) ?_ (fun _ _ h => h)
    intro _ s ⟨loadBalancers, hs⟩
    exact ⟨_, ⟨macAddr, loadBalancers, rfl⟩, hs⟩

end Callback

def lastReport (reports : List (VrrpRole × Int)) (role : VrrpRole) : Int :=
  (reports.find? (fun r => r.1 == role)).elim (-1) Prod.snd

structure VrrpSys.Inv (s : VrrpSys) : Prop where
  loaded : ∀ i ∈ s.db.interfaces, i.Loaded
  subnet : ∀ v ∈ s.db.vrrpInstances, v.id = vrrpID → v.vrrpSubnet.isSome = true
  iface : ∀ role : VrrpRole, ∃ i ∈ s.db.interfaces, OverlayDB.isVrrpIface vrrpID role.toString i = true
  placed : ∀ role : VrrpRole, ∀ i ∈ s.db.interfaces,
    OverlayDB.isVrrpIface vrrpID role.toString i = true → i.hyper = lastReport s.reports role
  inst : ∀ v ∈ s.db.vrrpInstances, v.id = vrrpID →
    v.hyper = lastReport s.reports .master ∧ v.peer = lastReport s.reports .backup
  noClear : NoClear vrrpID s.sent

section Run

variable {vrrpID} {s : VrrpSys}

theorem NoClear.concat (h : NoClear vrrpID l) (h' : NoClear vrrpID l') : NoClear vrrpID (l ++ l') := by
  intro c hc
  obtain hmem | hmem := mem_append.mp hc
  . exact h c hmem
  . exact h' c hmem

variable {role : VrrpRole} {h : Int}

theorem lastReport_cons_self : lastReport ((role, h) :: reports) role = h := by
  simp [lastReport]

theorem lastReport_cons_ne (hne : role' ≠ role)
    : lastReport ((role, h) :: reports) role' = lastReport reports role' := by
  simp [lastReport, hne.symm]

theorem toString_inj (h : role.toString = role'.toString) : role = role' := by
  cases role <;> cases role' <;> simp [VrrpRole.toString] at h ⊢

theorem isVrrpIface_ne (hne : role' ≠ role)
    (h : OverlayDB.isVrrpIface vrrpID role'.toString i = true)
    : OverlayDB.isVrrpIface vrrpID role.toString i = false := by
  simp only [OverlayDB.isVrrpIface, Bool.and_eq_true, beq_iff_eq] at h
  have hname : i.name ≠ role.toString := by
    intro heq
    exact hne (toString_inj (h.1.2.symm.trans heq))
  simp [OverlayDB.isVrrpIface, hname]

theorem mem_recordIface {db : OverlayDB} {role : String} {macAddr : String} {i : Interface}
    (hi : i ∈ (db.recordIface vrrpID role h macAddr).interfaces)
    : ∃ j ∈ db.interfaces, (∀ role', OverlayDB.isVrrpIface vrrpID role' i = OverlayDB.isVrrpIface vrrpID role' j) ∧
        (OverlayDB.isVrrpIface vrrpID role j = true ∧ i.hyper = h ∨
          OverlayDB.isVrrpIface vrrpID role j = false ∧ i = j) := by
  have ⟨j, hj, heq⟩ := mem_update.mp hi
  refine ⟨j, hj, ?_⟩
  split at heq
  . next his =>
    rw [heq]
    exact ⟨fun _ => rfl, .inl ⟨his, rfl⟩⟩
  . next hnot =>
    rw [heq]
    exact ⟨fun _ => rfl, .inr ⟨by simpa using hnot, rfl⟩⟩

theorem mem_updateVrrp {db : OverlayDB} {v : VrrpInstance}
    (hv : v ∈ (db.updateVrrp vrrpID (setPlace role h)).vrrpInstances) (hid : v.id = vrrpID)
    : ∃ v' ∈ db.vrrpInstances, v'.id = vrrpID ∧ v = setPlace role h v' := by
  have ⟨v', hv', heq⟩ := mem_update.mp hv
  split at heq
  . have heq : v = setPlace role h v' := by
      rw [heq]
      cases role <;> rfl
    have hid' : (setPlace role h v').id = v'.id := by
      cases role <;> rfl
    exact ⟨v', hv', by rw [← hid', ← heq, hid], heq⟩
  . next hnot =>
    rw [heq] at hid
    simp [hid] at hnot

theorem VrrpSys.Inv.place {db' : OverlayDB} {sent' : List Command}
    (hinv : s.Inv vrrpID) (hplaced : Placed vrrpID role h s.db db') (hsent : NoClear vrrpID sent')
    : VrrpSys.Inv vrrpID ⟨db', s.sent ++ sent', (role, h) :: s.reports⟩ := by
  obtain ⟨macAddr, loadBalancers, rfl⟩ := hplaced
  refine ⟨?loaded, ?subnet, ?iface, ?placed, ?inst, hinv.noClear.concat hsent⟩
  case loaded => exact loaded_recordIface hinv.loaded
  case subnet =>
    intro v hv hid
    have ⟨v', hv', hid', heq⟩ := mem_updateVrrp hv hid
    have hsubnet := hinv.subnet v' hv' hid'
    rw [heq]
    cases role <;> exact hsubnet
  case iface =>
    intro role'
    have ⟨i, hi, his⟩ := hinv.iface role'
    refine ⟨_, mem_update.mpr ⟨i, hi, rfl⟩, ?_⟩
    split <;> exact his
  case placed =>
    intro role' i hi his
    have ⟨j, hj, hsame, hcases⟩ := mem_recordIface hi
    rw [hsame] at his
    by_cases hrole : role' = role
    . subst hrole
      rw [lastReport_cons_self]
      obtain hwritten | hother := hcases
      . exact hwritten.2
      . simp [his] at hother
    . have hnot := isVrrpIface_ne hrole his
      rw [lastReport_cons_ne hrole]
      obtain hwritten | hother := hcases
      . simp [hnot] at hwritten
      . rw [hother.2]
        exact hinv.placed role' j hj his
  case inst =>
    intro v hv hid
    have ⟨v', hv', hid', heq⟩ := mem_updateVrrp hv hid
    have ⟨hhyper, hpeer⟩ := hinv.inst v' hv' hid'
    rw [heq]
    cases role with
    | master => exact ⟨lastReport_cons_self.symm, hpeer.trans (lastReport_cons_ne (by simp)).symm⟩
    | backup => exact ⟨hhyper.trans (lastReport_cons_ne (by simp)).symm, lastReport_cons_self.symm⟩

theorem VrrpSys.Inv.sent (hinv : s.Inv vrrpID) (hsent : NoClear vrrpID sent')
    : VrrpSys.Inv vrrpID { s with sent := s.sent ++ sent' } :=
  ⟨hinv.loaded, hinv.subnet, hinv.iface, hinv.placed, hinv.inst, hinv.noClear.concat hsent⟩

theorem VrrpSys.Inv.step (hpos : vrrpID ≠ 0) (hinv : s.Inv vrrpID) (r : VrrpReport)
    : (s.step vrrpID r).Inv vrrpID := by
  by_cases hneg : r.hyperID < 0
  . have hstep : s.step vrrpID r = { s with sent := s.sent ++ [] } := by
      simp only [VrrpSys.step, setVrrpIp, if_pos hneg, withTransaction_start, Int.not_le.mpr hneg]
      rfl
    rw [hstep]
    exact hinv.sent (by simp [NoClear])
  . have hspec := withTransaction_spec (fun e => e != Failure.panic)
      (setVrrpIp_spec r.role r.macAddr r.fails hinv.loaded hpos hinv.subnet (Int.not_lt.mp hneg))
    unfold VrrpSys.step
    split
    . next w hres =>
      rw [hres] at hspec
      have ⟨t, ⟨db', hplaced, hin⟩, hsent, hpool⟩ := hspec
      rw [if_pos hin.usable, hin.eq] at hpool
      rw [if_pos (by omega), hpool, hsent]
      exact hinv.place hplaced hin.sent
    . next e w hres =>
      rw [hres] at hspec
      have ⟨t, ⟨hnot, hclear⟩, hsent, hpool⟩ := hspec
      have hpool : w.pool = s.db := by simpa [hnot] using hpool
      rw [hpool, hsent]
      exact hinv.sent hclear

theorem Created.inv (h : Created vrrpID db) : VrrpSys.Inv vrrpID ⟨db, [], []⟩ where
  loaded := h.loaded
  subnet := fun v hv hid => (h.fresh v hv hid).2.2
  iface := h.iface
  placed := h.unplaced
  inst := fun v hv hid => ⟨(h.fresh v hv hid).1, (h.fresh v hv hid).2.1⟩
  noClear := by simp [NoClear]

theorem VrrpSys.Inv.recorded_iff (hinv : s.Inv vrrpID)
    : s.Recorded vrrpID role k ↔ k = lastReport s.reports role := by
  constructor
  . intro ⟨i, hi, his, hk⟩
    rw [← hk]
    exact hinv.placed role i hi his
  . intro hk
    have ⟨i, hi, his⟩ := hinv.iface role
    exact ⟨i, hi, his, (hinv.placed role i hi his).trans hk.symm⟩

theorem lastReport_mem (hmem : (role, h) ∈ reports) : (role, lastReport reports role) ∈ reports := by
  cases hfind : reports.find? (fun r => r.1 == role) with
  | none =>
    have := find?_eq_none.mp hfind _ hmem
    simp at this
  | some r =>
    have hr : r.1 = role := by simpa using find?_some hfind
    rw [lastReport, hfind, ← hr]
    exact mem_of_find?_eq_some hfind

def VrrpSys.Single (s : VrrpSys) : Prop :=
  ∀ role h h', (role, h) ∈ s.reports → (role, h') ∈ s.reports → h = h'

theorem VrrpSys.Inv.not_cleared (hinv : s.Inv vrrpID) (h : Int) : ¬s.Cleared vrrpID h := by
  intro ⟨routerID, vlan, address, mac, address2, mac2, hmem⟩
  exact hinv.noClear _ hmem routerID vlan address mac address2 mac2 rfl

theorem VrrpSys.Inv.exact_iff (hinv : s.Inv vrrpID) : s.Exact vrrpID ↔ s.Single := by
  constructor
  . intro hexact role h h' hh hh'
    have hrec : ∀ k, (role, k) ∈ s.reports → k = lastReport s.reports role := by
      intro k hk
      obtain hrec | hcleared := hexact.cleared role k hk
      . exact hinv.recorded_iff.mp hrec
      . exact absurd hcleared (hinv.not_cleared k)
    exact (hrec h hh).trans (hrec h' hh').symm
  . intro hsingle
    refine ⟨?_, ?_, ?_⟩
    . intro role h hmem
      exact ⟨_, lastReport_mem hmem, fun k => hinv.recorded_iff⟩
    . intro role h hmem
      exact .inl (hinv.recorded_iff.mpr (hsingle role h _ hmem (lastReport_mem hmem)))
    . intro v hv hid
      have ⟨hhyper, hpeer⟩ := hinv.inst v hv hid
      exact ⟨hinv.recorded_iff.mpr hhyper, hinv.recorded_iff.mpr hpeer⟩

end Run

def VrrpSys.Step (s : VrrpSys) (r : VrrpReport) (t : VrrpSys) : Prop := s.step vrrpID r = t

def VrrpSys.Undisputed (s : VrrpSys) (r : VrrpReport) : Prop :=
  ∀ k, s.Recorded vrrpID r.role k → k = -1 ∨ k = r.hyperID

section Run

variable {vrrpID} {s : VrrpSys}

theorem VrrpSys.Single.step (hinv : s.Inv vrrpID) (hnonneg : ∀ role h, (role, h) ∈ s.reports → 0 ≤ h)
    (hsingle : s.Single) (hok : s.Undisputed vrrpID r)
    : (s.step vrrpID r).Single ∧ ∀ role h, (role, h) ∈ (s.step vrrpID r).reports → 0 ≤ h := by
  have hreports : (s.step vrrpID r).reports = s.reports ∨
      0 ≤ r.hyperID ∧ (s.step vrrpID r).reports = (r.role, r.hyperID) :: s.reports := by
    unfold VrrpSys.step
    split
    . by_cases hpos : 0 ≤ r.hyperID
      . exact .inr ⟨hpos, if_pos hpos⟩
      . exact .inl (if_neg hpos)
    . exact .inl rfl
  obtain heq | hnew := hreports
  . rw [VrrpSys.Single, heq]
    exact ⟨hsingle, hnonneg⟩
  . have ⟨hpos, heq⟩ := hnew
    -- an earlier report of the role is the last one, which is recorded
    have hsame : ∀ h, (r.role, h) ∈ s.reports → h = r.hyperID := by
      intro h hmem
      have hlast := hsingle r.role h _ hmem (lastReport_mem hmem)
      obtain hneg | heq := hok h (hinv.recorded_iff.mpr hlast)
      . have := hnonneg r.role h hmem
        omega
      . exact heq
    rw [VrrpSys.Single, heq]
    constructor
    . intro role h h' hh hh'
      simp only [mem_cons, Prod.mk.injEq] at hh hh'
      obtain hh | hh := hh
      . obtain hh' | hh' := hh'
        . exact hh.2.trans hh'.2.symm
        . exact hh.2.trans (hsame h' (hh.1 ▸ hh')).symm
      . obtain hh' | hh' := hh'
        . exact (hsame h (hh'.1 ▸ hh)).trans hh'.2.symm
        . exact hsingle role h h' hh hh'
    . intro role h hmem
      simp only [mem_cons, Prod.mk.injEq] at hmem
      obtain hnew | hold := hmem
      . exact hnew.2 ▸ hpos
      . exact hnonneg role h hold

theorem vrrp_roles_exact {db : OverlayDB} (hstart : Created vrrpID db) (reports : List VrrpReport)
    : (∀ s, Run (Guarded (VrrpSys.Undisputed vrrpID) (VrrpSys.Step vrrpID)) ⟨db, [], []⟩ reports s →
        s.Exact vrrpID) ∧
      ∀ s, Run (VrrpSys.Step vrrpID) ⟨db, [], []⟩ reports s →
        (s.Exact vrrpID ↔ ∀ role h h', (role, h) ∈ s.reports → (role, h') ∈ s.reports → h = h') := by
  constructor
  . intro s hrun
    have ⟨hinv, hsingle, _⟩ :
        s.Inv vrrpID ∧ s.Single ∧ ∀ role h, (role, h) ∈ s.reports → 0 ≤ h := by
      apply hrun.invariant
        (fun s => s.Inv vrrpID ∧ s.Single ∧ ∀ role h, (role, h) ∈ s.reports → 0 ≤ h) ?_
        ⟨hstart.inv, by simp [VrrpSys.Single], by simp⟩
      intro s r t ⟨hinv, hsingle, hnonneg⟩ ⟨hok, hstep⟩
      rw [← hstep]
      exact ⟨hinv.step hstart.pos r, hsingle.step hinv hnonneg hok⟩
    exact hinv.exact_iff.mpr hsingle
  . intro s hrun
    have hinv : s.Inv vrrpID := by
      apply hrun.invariant (VrrpSys.Inv vrrpID) ?_ hstart.inv
      intro s r t hinv hstep
      rw [← hstep]
      exact hinv.step hstart.pos r
    exact hinv.exact_iff

section Example

def vrrpNet : Subnet := ⟨.vrrp, 4001, "192.168.196.1/24", 5⟩

def newVrrp : OverlayDB where
  hypers := (empty.insert ⟨0, 1, 1, 0, "10.0.0.1"⟩).insert ⟨0, 2, 1, 0, "10.0.0.2"⟩
  interfaces :=
    (empty.insert
      ⟨0, "MASTER", "52:54:00:00:00:01", 0, 1, 0, 5, -1, .vrrp, some ⟨"192.168.196.2/24", some vrrpNet⟩⟩).insert
      ⟨0, "BACKUP", "52:54:00:00:00:02", 0, 1, 0, 5, -1, .vrrp, some ⟨"192.168.196.3/24", some vrrpNet⟩⟩
  instances := empty
  vrrpInstances := empty.insert ⟨0, -1, -1, some vrrpNet, 0, 5⟩
  loadBalancers := empty.insert ⟨0, false, 1⟩

theorem newVrrp_created : Created 1 newVrrp where
  pos := by decide
  loaded := by decide
  inst := by decide
  fresh := by decide
  iface := by
    intro role
    cases role <;> decide
  unplaced := by
    intro role
    cases role <;> decide

def masterOn (hyperID : Int) : VrrpReport := ⟨hyperID, .master, "52:54:00:00:00:01", fun _ => false⟩

def backupOn (hyperID : Int) : VrrpReport := ⟨hyperID, .backup, "52:54:00:00:00:02", fun _ => false⟩

theorem vrrp_roles_exact_twoHypers
    : Created 1 newVrrp ∧
      ∃ s, Run (VrrpSys.Step 1) ⟨newVrrp, [], []⟩ [masterOn 1, backupOn 2, masterOn 1] s ∧
        s.reports = [(.master, 1), (.backup, 2), (.master, 1)] ∧ s.Exact 1 := by
  have hreports : ([masterOn 1, backupOn 2, masterOn 1].foldl (VrrpSys.step 1) ⟨newVrrp, [], []⟩).reports
      = [(.master, 1), (.backup, 2), (.master, 1)] := by
    decide +kernel
  have hrun := Run.of_foldl (f := VrrpSys.step 1) ⟨newVrrp, [], []⟩ [masterOn 1, backupOn 2, masterOn 1]
  refine ⟨newVrrp_created, _, hrun, hreports, ((vrrp_roles_exact newVrrp_created _).2 _ hrun).mpr ?_⟩
  rw [hreports]
  intro role h h' hh hh'
  cases role with
  | master =>
    simp at hh hh'
    omega
  | backup =>
    simp at hh hh'
    omega

theorem vrrp_master_on_two_hypers
    : Created 1 newVrrp ∧
      ∃ s, Run (VrrpSys.Step 1) ⟨newVrrp, [], []⟩ [masterOn 1, masterOn 2] s ∧
        s.reports = [(.master, 2), (.master, 1)] ∧ ¬s.Recorded 1 .master 1 ∧ ¬s.Cleared 1 1 ∧
        ¬s.Exact 1 := by
  have hreports : ([masterOn 1, masterOn 2].foldl (VrrpSys.step 1) ⟨newVrrp, [], []⟩).reports
      = [(.master, 2), (.master, 1)] := by
    decide +kernel
  have hinv : ([masterOn 1, masterOn 2].foldl (VrrpSys.step 1) ⟨newVrrp, [], []⟩).Inv 1 := by
    rw [foldl_cons, foldl_cons, foldl_nil]
    exact (newVrrp_created.inv.step (by decide) (masterOn 1)).step (by decide) (masterOn 2)
  have hrun := Run.of_foldl (f := VrrpSys.step 1) ⟨newVrrp, [], []⟩ [masterOn 1, masterOn 2]
  refine ⟨newVrrp_created, _, hrun, hreports, ?_, hinv.not_cleared 1, ?_⟩
  . rw [hinv.recorded_iff, hreports]
    decide
  . rw [hinv.exact_iff, VrrpSys.Single, hreports]
    intro hsingle
    have := hsingle .master 1 2 (by simp) (by simp)
    omega

end Example

end Run

end Reports

end Overlay
end Web
