import Mathlib.Data.List.Sort
import Cloudland.Lib.Check
import Cloudland.Lib.Table
import Cloudland.Web.Common.Member

/-!
The listeners and backends of a load balancer and the commands that configure its hypervisors. The tables
hold the live rows.
-/

namespace Web.LoadBalancer

open Check

structure Listener where
  id : Nat
  owner : Nat
  name : String
  mode : String
  port : Int
  loadBalancerID : Nat
  certificate : String
  key : String
  createdAt : Nat
  deriving DecidableEq

structure Backend where
  id : Nat
  owner : Nat
  name : String
  listenerID : Nat
  backendAddr : String
  status : String
  ssl : Bool
  createdAt : Nat
  deriving DecidableEq

instance : Keyed Listener := ⟨Listener.id, fun r id => { r with id := id }, fun _ _ => rfl, fun _ => rfl⟩
instance : Keyed Backend := ⟨Backend.id, fun r id => { r with id := id }, fun _ _ => rfl, fun _ => rfl⟩

structure LbDB where
  listeners : Table Listener
  backends : Table Backend

structure Lb where
  id : Nat
  owner : Nat
  status : String
  floatingIps : List String
  master : Int
  backup : Int
  deriving DecidableEq

structure BackendConfig where
  backendURL : String
  status : String
  ssl : Bool
  deriving DecidableEq

structure ListenerConfig where
  name : String
  mode : String
  key : String
  cert : String
  port : Int
  backends : List BackendConfig
  deriving DecidableEq

structure LoadBalancerConfig where
  listeners : List ListenerConfig
  floatingIps : List String
  deriving DecidableEq

inductive Command where
  | setVrrpIp (hyper : Int) (role : String)
  | createKeepalivedConf (hyper : Int) (ports : List Int)
  | createHaproxyConf (hypers : List Int) (config : LoadBalancerConfig)
  | createLbFloating (hyper : Int) (address : String)
  deriving DecidableEq

structure Loaded where
  row : Listener
  backends : List Backend
  deriving DecidableEq

namespace LbDB

variable (db : LbDB)

def preload (l : Listener) : Loaded := ⟨l, db.backends.filter (fun b => b.listenerID == l.id)⟩

def load (lb : Lb) : List Loaded :=
  (db.listeners.filter (fun l => l.loadBalancerID == lb.id)).map db.preload

def listBackends (m : MemberShip) (l : Listener) : List Backend :=
  (db.backends.filter (fun b => b.listenerID == l.id && m.getWhere b.owner)).insertionSort
    (fun b b' => b.createdAt ≤ b'.createdAt)

def listListeners (m : MemberShip) (lb : Lb) : List Listener :=
  (db.listeners.filter (fun l => l.loadBalancerID == lb.id && m.getWhere l.owner)).insertionSort
    (fun l l' => l.createdAt ≤ l'.createdAt)

end LbDB

def listenerName (lb : Lb) (l : Listener) : String := "lb-" ++ toString lb.id ++ "-lsn-" ++ toString l.id

def backendConfig (b : Backend) : BackendConfig := ⟨b.backendAddr, b.status, b.ssl⟩

/--
`RecoverLoadbalancer` does not set the field for SSL.
-/
def recoveredBackendConfig (b : Backend) : BackendConfig := ⟨b.backendAddr, b.status, false⟩

def listenerConfig (backend : Backend → BackendConfig) (lb : Lb) (l : Loaded) : ListenerConfig :=
  ⟨listenerName lb l.row, l.row.mode, l.row.key, l.row.certificate, l.row.port, l.backends.map backend⟩

-- a listener without a backend is left out
def haproxyConfig (backend : Backend → BackendConfig) (lb : Lb) (listeners : List Loaded) : LoadBalancerConfig :=
  ⟨(listeners.filter (fun l => !l.backends.isEmpty)).map (listenerConfig backend lb), lb.floatingIps⟩

def vrrpHyperGroup (lb : Lb) : Except CLError (List Int) :=
  let hypers := [lb.master, lb.backup].filter (fun h => 0 ≤ h)
  if hypers = [] then .error ⟨.executeOnHyperFailed, "No valid hyper for vrrp interfaces"⟩ else .ok hypers

/--
`BackendAdmin.CreateHaproxyConf`, which takes the updated listener in the place of the preloaded one.
-/
def createHaproxyConf (lb : Lb) (listeners : List Loaded) (updated : Loaded) : Except CLError Command := do
  let listeners := listeners.map (fun l => if l.row.id = updated.row.id then updated else l)
  let hypers ← vrrpHyperGroup lb
  return .createHaproxyConf hypers (haproxyConfig backendConfig lb listeners)

def createVrrpConf (lb : Lb) (listeners : List Listener) : List Command :=
  if lb.status ≠ "available" then
    []
  else
    ([lb.master, lb.backup].filter (fun h => 0 ≤ h)).map
      (fun h => .createKeepalivedConf h (listeners.map Listener.port))

namespace LbDB

variable (db : LbDB) (m : MemberShip) (lb : Lb)

def getLoadBalancer : Except CLError Unit := do
  require (m.getWhere lb.owner = true) ⟨.loadBalancerNotFound, "Failed to find load balancer"⟩
  require (m.validateOwner .reader lb.owner = true)
    ⟨.permissionDenied, "Not authorized to read the load balancer"⟩

def getListener (id : Nat) : Except CLError Loaded := do
  let l ← found (db.listeners.find? (fun l => l.id == id && m.getWhere l.owner))
    ⟨.listenerNotFound, "Failed to find listener"⟩
  require (m.validateOwner .reader l.owner = true) ⟨.permissionDenied, "Not authorized to read the listener"⟩
  require (l.loadBalancerID = lb.id) ⟨.invalidParameter, "Invalid query for load balancer listener"⟩
  return db.preload l

def getBackend (id : Nat) (l : Listener) : Except CLError Backend := do
  let b ← found (db.backends.find? (fun b => b.id == id && m.getWhere b.owner))
    ⟨.backendNotFound, "Failed to find backend"⟩
  require (m.validateOwner .reader b.owner = true) ⟨.permissionDenied, "Not authorized to read the backend"⟩
  require (b.listenerID = l.id) ⟨.invalidParameter, "Invalid query for listener backend"⟩
  return b

def createListener (name mode key cert : String) (port : Int) (now : Nat) : Except CLError (LbDB × List Command) := do
  require (m.checkPermission .writer = true) ⟨.permissionDenied, "Not authorized to create listener"⟩
  require ((db.listeners.find? (fun l => l.loadBalancerID == lb.id && l.name == name)).isNone = true)
    ⟨.listenerCreateFailed, "Failed to create listener"⟩
  let l : Listener := ⟨db.listeners.next, m.orgID, name, mode, port, lb.id, cert, key, now⟩
  let listeners := (db.load lb).map Loaded.row ++ [l]
  return ({ db with listeners := db.listeners.insert l }, createVrrpConf lb listeners)

def updateListener (l : Listener) (name : String) : Except CLError (LbDB × List Command) := do
  if l.name ≠ name then
    require ((db.listeners.find? (fun l => l.loadBalancerID == lb.id && l.name == name)).isNone = true)
      ⟨.routerUpdateFailed, "Failed to update listener"⟩
    return ({ db with listeners := db.listeners.update (fun r => r.id == l.id) (fun r => { r with name := name }) }, [])
  else
    return (db, [])

def backendTaken (listenerID : Nat) (name backendAddr : String) : Bool :=
  (db.backends.find? (fun b => b.listenerID == listenerID && b.name == name && b.backendAddr == backendAddr)).isSome

def createBackend (l : Loaded) (name backendAddr : String) (ssl : Bool) (now : Nat)
    : Except CLError (LbDB × List Command) := do
  require (m.checkPermission .writer = true) ⟨.permissionDenied, "Not authorized to create backend"⟩
  require (db.backendTaken l.row.id name backendAddr = false)
    ⟨.backendCreateFailed, "Failed to create backend"⟩
  let b : Backend := ⟨db.backends.next, m.orgID, name, l.row.id, backendAddr, "available", ssl, now⟩
  let command ← createHaproxyConf lb (db.load lb) { l with backends := l.backends ++ [b] }
  return ({ db with backends := db.backends.insert b }, [command])

def updateBackend (b : Backend) (backendAddr : String) : Except CLError (LbDB × List Command) := do
  if b.backendAddr ≠ backendAddr then
    require (db.backendTaken b.listenerID b.name backendAddr = false)
      ⟨.routerUpdateFailed, "Failed to update backend"⟩
    return ({ db with
      backends := db.backends.update (fun r => r.id == b.id) (fun r => { r with backendAddr := backendAddr }) }, [])
  else
    return (db, [])

def deleteBackend (listeners : List Loaded) (l : Loaded) (b : Backend) : Except CLError (LbDB × List Command) := do
  require (m.validateOwner .writer b.owner = true) ⟨.permissionDenied, "Not authorized to delete the router"⟩
  let db := { db with backends := db.backends.delete (fun r => r.id == b.id) }
  let command ← createHaproxyConf lb listeners { l with backends := db.listBackends m l.row }
  return (db, [command])

def deleteBackends (listeners : List Loaded) (l : Loaded) (db : LbDB)
    : List Backend → Except CLError (LbDB × List Command)
  | [] => return (db, [])
  | b :: bs => do
    let (db, sent) ← db.deleteBackend m lb listeners l b
    let (db, sent') ← deleteBackends listeners l db bs
    return (db, sent ++ sent')

def deleteListener (l : Loaded) : Except CLError (LbDB × List Command) := do
  require (m.validateOwner .writer l.row.owner = true)
    ⟨.permissionDenied, "Not authorized to delete the router"⟩
  let (db, sent) ← deleteBackends m lb (db.load lb) l db (db.listBackends m l.row)
  let db := { db with listeners := db.listeners.delete (fun r => r.id == l.row.id) }
  return (db, sent ++ createVrrpConf lb (db.listListeners m lb))

end LbDB

inductive RecoverError where
  | noVrrp
  -- a nil pointer is followed
  | panic
  deriving DecidableEq

/--
`RecoverLoadbalancer` for one load balancer, by its id or by the hypervisor of one of its interfaces. By id,
the subnets of the floating IPs are not loaded.
-/
def recoverLoadbalancer (db : LbDB) (lb : Lb) (hyperID : Int) (byId : Bool) : Except RecoverError (List Command) :=
  if byId = false ∧ lb.master ≠ hyperID ∧ lb.backup ≠ hyperID then
    .error .noVrrp
  else if lb.status ≠ "available" then
    .ok []
  else if byId = true ∧ lb.floatingIps ≠ [] then
    .error .panic
  else
    let ports := (db.load lb).map (fun l => l.row.port)
    let vrrp (hyper : Int) (role : String) : List Command :=
      if hyper = hyperID then [.setVrrpIp hyper role, .createKeepalivedConf hyper ports] else []
    .ok (vrrp lb.master "MASTER" ++ vrrp lb.backup "BACKUP" ++
      [.createHaproxyConf [hyperID] (haproxyConfig recoveredBackendConfig lb (db.load lb))] ++
      lb.floatingIps.map (fun address => .createLbFloating hyperID address))

end Web.LoadBalancer
