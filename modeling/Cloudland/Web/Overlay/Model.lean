import Cloudland.Lib.Transaction
import Cloudland.Web.Network.Impl

/-!
This module models the overlay network and `sendFdbRules` of `rpcs/launch_vm.go`. An interface row comes with its
address and the subnet of that, as the queries preload them.
-/

namespace Web.Overlay

open SqlM (Triple)
structure Hyper where
  id : Nat
  hostid : Int
  status : Int
  zoneID : Nat
  hostIP : String
  deriving DecidableEq

structure Subnet where
  type : SubnetType
  vlan : Int
  gateway : String
  routerID : Nat
  deriving DecidableEq

structure Address where
  address : String
  subnet : Option Subnet
  deriving DecidableEq

structure Interface where
  id : Nat
  name : String
  macAddr : String
  inst : Nat
  device : Nat
  floatingIp : Nat
  routerID : Nat
  hyper : Int
  type : IfType
  address : Option Address
  deriving DecidableEq

structure Instance where
  id : Nat
  hyper : Int
  routerID : Nat
  deriving DecidableEq

structure VrrpInstance where
  id : Nat
  hyper : Int
  peer : Int
  vrrpSubnet : Option Subnet
  zoneID : Nat
  routerID : Nat
  deriving DecidableEq

structure LoadBalancer where
  id : Nat
  available : Bool
  vrrpInstanceID : Nat
  deriving DecidableEq

instance : Keyed Hyper := ⟨Hyper.id, fun r id => { r with id := id }, fun _ _ => rfl, fun _ => rfl⟩
instance : Keyed Interface := ⟨Interface.id, fun r id => { r with id := id }, fun _ _ => rfl, fun _ => rfl⟩
instance : Keyed Instance := ⟨Instance.id, fun r id => { r with id := id }, fun _ _ => rfl, fun _ => rfl⟩
instance : Keyed VrrpInstance :=
  ⟨VrrpInstance.id, fun r id => { r with id := id }, fun _ _ => rfl, fun _ => rfl⟩
instance : Keyed LoadBalancer :=
  ⟨LoadBalancer.id, fun r id => { r with id := id }, fun _ _ => rfl, fun _ => rfl⟩

structure OverlayDB where
  hypers : Table Hyper
  interfaces : Table Interface
  instances : Table Instance
  vrrpInstances : Table VrrpInstance
  loadBalancers : Table LoadBalancer

structure FdbRule where
  inst : String
  vni : Int
  innerIP : String
  innerMac : String
  outerIP : String
  gateway : String
  router : Nat
  deriving DecidableEq

inductive Control where
  | inter (hyper : Int)
  | toall (hypers : List Int)
  | select (hypers : List Int)
  deriving DecidableEq

inductive Script where
  | addFwrule (rules : List FdbRule)
  | delFwrule (rules : List FdbRule)
  | clearVrrpIp (routerID vrrpID : Nat) (vlan : Int) (address mac address2 mac2 : String)
  | setVrrpIp (routerID vrrpID : Nat) (vlan : Int) (mac address mac2 address2 role : String)
  deriving DecidableEq

structure Command where
  control : Control
  script : Script
  deriving DecidableEq

inductive Failure where
  | wrongParams
  | invalidNumber
  | database
  | hyperExecute
  -- the handler indexes past the arguments or follows a nil pointer
  | panic
  deriving DecidableEq

abbrev RpcM := SqlM OverlayDB Command Failure

def orPanic (o : Option α) : Except Failure α :=
  match o with
  | some a => .ok a
  | none => .error .panic

namespace OverlayDB

def hyperByHostid (db : OverlayDB) (hostid : Int) : Option Hyper :=
  db.hypers.find? (fun h => h.hostid == hostid)

-- with the other interfaces of the router on other hypervisors, and the hypervisor of each
def peers (db : OverlayDB) (routerID : Nat) (hyperNode : Int) : List (Interface × Option Hyper) :=
  (db.interfaces.filter (fun i => i.routerID == routerID && i.type != .gateway && i.hyper != hyperNode)).map
    (fun i => (i, if i.hyper = hyperNode then none else db.hyperByHostid i.hyper))

end OverlayDB

def Interface.loaded (iface : Interface) : Except Failure (Address × Subnet) := do
  let address ← orPanic iface.address
  let subnet ← orPanic address.subnet
  return (address, subnet)

def fdbRule (iface : Interface) (address : Address) (subnet : Subnet) (hyper : Hyper) : FdbRule where
  inst := iface.name
  vni := subnet.vlan
  innerIP := address.address
  innerMac := iface.macAddr
  outerIP := hyper.hostIP
  gateway := subnet.gateway
  router := subnet.routerID

def spreadRules (hyper : Hyper) : List Interface → Except Failure (List FdbRule)
  | [] => return []
  | iface :: ifaces => do
    let (address, subnet) ← iface.loaded
    let rules ← spreadRules hyper ifaces
    if subnet.type = .publicSubnet then
      return rules
    else
      return fdbRule iface address subnet hyper :: rules

def localRules : List (Interface × Option Hyper) → Except Failure (List FdbRule × List Int)
  | [] => return ([], [])
  | (iface, hyper) :: peers => do
    let (address, subnet) ← iface.loaded
    let (rules, hyperSet) ← localRules peers
    if subnet.type = .publicSubnet ∨ iface.hyper = -1 then
      return (rules, hyperSet)
    else
      match hyper with
      | none => return (rules, hyperSet)
      | some hyper =>
        return (fdbRule iface address subnet hyper :: rules,
          if 0 ≤ iface.hyper then hyperSet.insert iface.hyper else hyperSet)

def sendFdbRules.spread (rules : List FdbRule) (hyperSet : List Int) : RpcM PUnit :=
  if hyperSet ≠ [] ∧ rules ≠ [] then
    SqlM.send ⟨.toall hyperSet, .addFwrule rules⟩ .hyperExecute
  else
    return ⟨⟩

def sendFdbRules.local (rules : List FdbRule) (hyperNode : Int) : RpcM PUnit :=
  if rules ≠ [] then
    SqlM.send ⟨.inter hyperNode, .addFwrule rules⟩ .hyperExecute
  else
    return ⟨⟩

/--
The rules for interfaces on one hypervisor are sent to the others, and those for the peers to it.
-/
def sendFdbRules.on (routerID : Nat) (hyperNode : Int) (interfaces : List Interface) : RpcM PUnit := do
  let hyper ← SqlM.find (fun db => db.hyperByHostid hyperNode) .database
  if hyper.hostid < 0 then
    return ⟨⟩
  else
    let spread ← SqlM.check (spreadRules hyper interfaces)
    let peers ← SqlM.query (fun db => db.peers routerID hyperNode) .database
    let (rules, hyperSet) ← SqlM.check (localRules peers)
    sendFdbRules.spread spread hyperSet
    sendFdbRules.local rules hyperNode

def sendFdbRules (inst : Option Instance) (vrrpInstance : Option VrrpInstance) (instIface : Interface)
    : RpcM PUnit :=
  if inst.any (fun i => i.routerID == 0) || instIface.hyper == -1 then
    return ⟨⟩
  else
    let routerID := match inst, vrrpInstance with
      | some i, _ => i.routerID
      | none, some v => v.routerID
      | none, none => 0
    sendFdbRules.on routerID instIface.hyper [instIface]

section SendFdbRules

def Interface.Loaded (iface : Interface) : Prop := ∃ a, iface.loaded = .ok a

instance (iface : Interface) : Decidable iface.Loaded :=
  match h : iface.loaded with
  | .ok a => isTrue ⟨a, h⟩
  | .error e => isFalse (fun ⟨a, ha⟩ => by simp [h] at ha)

theorem Interface.Loaded.address {iface : Interface} (h : iface.Loaded) : ∃ a, iface.address = some a := by
  have ⟨_, h⟩ := h
  cases ha : iface.address with
  | none =>
    rw [Interface.loaded, ha] at h
    contradiction
  | some a => exact ⟨a, rfl⟩

theorem spreadRules_ok (h : ∀ i ∈ ifaces, i.Loaded) : ∃ rules, spreadRules hyper ifaces = .ok rules := by
  induction ifaces with
  | nil => exact ⟨[], rfl⟩
  | cons i ifaces ih =>
    have ⟨⟨(address, subnet), hi⟩, hifaces⟩ := List.forall_mem_cons.mp h
    have ⟨rules, hrules⟩ := ih hifaces
    simp only [spreadRules, hi, hrules, bind, Except.bind]
    split
    . exact ⟨_, rfl⟩
    . exact ⟨_, rfl⟩

theorem localRules_ok (h : ∀ p ∈ peers, p.1.Loaded) : ∃ res, localRules peers = .ok res := by
  induction peers with
  | nil => exact ⟨([], []), rfl⟩
  | cons p peers ih =>
    have ⟨⟨(address, subnet), hi⟩, hpeers⟩ := List.forall_mem_cons.mp h
    have ⟨rules, hrules⟩ := ih hpeers
    simp only [localRules, hi, hrules, bind, Except.bind]
    split
    . exact ⟨_, rfl⟩
    . split
      . exact ⟨_, rfl⟩
      . exact ⟨_, rfl⟩

variable {db : OverlayDB} {I : List Command → Prop} {E : Failure → Session OverlayDB Command → Prop}

theorem sendFdbRules_spec
    (hiface : instIface.Loaded) (hload : ∀ i ∈ db.interfaces, i.Loaded)
    (hI : ∀ control rules l, I l → I (l ++ [⟨control, .addFwrule rules⟩]))
    (hE : ∀ e, e ≠ .panic → ∀ s : Session OverlayDB Command, I s.sent → E e s)
    : (sendFdbRules inst vrrpInstance instIface).Triple (Session.In db I) (fun _ => Session.In db I)
        E := by
  apply Triple.ite
  . intro _
    exact Triple.pure (fun _ h => h)
  intro _
  apply Triple.bind_and (Triple.of_weak (Triple.find_in (hE _ (by simp))))
  intro hyper _
  apply Triple.ite
  . intro _
    exact Triple.pure (fun _ h => h)
  intro _
  have ⟨spread, hspread⟩ : ∃ rules, spreadRules hyper [instIface] = .ok rules :=
    spreadRules_ok (by simpa using hiface)
  rw [hspread, SqlM.check_ok_bind]
  apply Triple.bind_and (Triple.of_weak (Triple.query_in (hE _ (by simp))))
  intro peers hpeers
  have ⟨(rules, hyperSet), hlocal⟩ : ∃ res, localRules peers = .ok res := by
    apply localRules_ok
    intro p hp
    rw [hpeers] at hp
    obtain ⟨i, hi, rfl⟩ := List.mem_map.mp hp
    exact hload i (Table.mem_filter.mp hi).1
  rw [hlocal, SqlM.check_ok_bind]
  apply Triple.bind
  . apply Triple.ite
    . intro _
      exact Triple.send_in (hI _ _) (hE _ (by simp))
    . intro _
      exact Triple.pure (fun _ h => h)
  intro _
  apply Triple.ite
  . intro _
    exact Triple.send_in (hI _ _) (hE _ (by simp))
  . intro _
    exact Triple.pure (fun _ h => h)

end SendFdbRules

end Web.Overlay
