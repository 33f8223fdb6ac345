import Cloudland.Lib.Table
import Cloudland.Lib.Check
import Cloudland.Web.Common.Member

/-!
The default security groups: `routes/secgroup.go` and `RouterAdmin.Create`.
-/

namespace Web.Secgroup

open Check

structure SecurityGroup where
  id : Nat
  owner : Nat
  name : String
  isDefault : Bool
  routerID : Nat
  -- how many interfaces use it
  interfaces : Nat
  -- counted in updates
  updatedAt : Nat
  deriving DecidableEq

structure Router where
  id : Nat
  owner : Nat
  name : String
  defaultSG : Nat
  deriving DecidableEq

structure Organization where
  id : Nat
  defaultSG : Nat
  deriving DecidableEq

instance : Keyed SecurityGroup :=
  ⟨SecurityGroup.id, fun r id => { r with id := id }, fun _ _ => rfl, fun _ => rfl⟩
instance : Keyed Router := ⟨Router.id, fun r id => { r with id := id }, fun _ _ => rfl, fun _ => rfl⟩
instance : Keyed Organization :=
  ⟨Organization.id, fun r id => { r with id := id }, fun _ _ => rfl, fun _ => rfl⟩

structure SgDB where
  groups : Table SecurityGroup
  routers : Table Router
  orgs : Table Organization

def SystemDefaultSGName : String := "system-default"

namespace SgDB

variable (db : SgDB)

/--
`Take` of a group. Without an id the store picks a row.
-/
def takeGroup (id pick : Nat) : Option SecurityGroup :=
  if id = 0 then db.groups.rows[pick % db.groups.rows.length]? else db.groups.byKey? id

def setFlag (id : Nat) (isDefault : Bool) : SgDB :=
  { db with groups := db.groups.update (fun g => g.id == id) (fun g =>
    { g with isDefault, updatedAt := g.updatedAt + 1 }) }

def setRouterDefault (id sg : Nat) : SgDB :=
  { db with routers := db.routers.update (fun r => r.id == id) (fun r => { r with defaultSG := sg }) }

def setOrgDefault (id sg : Nat) : SgDB :=
  { db with orgs := db.orgs.update (fun o => o.id == id) (fun o => { o with defaultSG := sg }) }

def nameTaken (owner : Nat) (name : String) : Bool :=
  (db.groups.find? (fun g => g.owner == owner && g.name == name)).isSome

def getOrg (id : Nat) : Except CLError Organization :=
  if id = 0 then
    .error ⟨.invalidParameter, "Invalid org ID: 0"⟩
  else
    found (db.orgs.byKey? id) ⟨.orgNotFound, "Failed to find organization"⟩

variable (m : MemberShip)

def switch (newSg : Nat) (router : Option Router) (pick : Nat)
    : Except CLError SgDB :=
  match router with
  | some router => do
    let oldSg ← found (db.takeGroup router.defaultSG pick)
      ⟨.securityGroupNotFound, "Failed to find default security group"⟩
    return ((db.setRouterDefault router.id newSg).setFlag oldSg.id false).setFlag newSg true
  | none => do
    let org ← db.getOrg m.orgID
    if 0 < org.defaultSG then
      let oldSg ← found (db.groups.byKey? org.defaultSG) ⟨.securityGroupNotFound, "record not found"⟩
      return ((db.setOrgDefault org.id newSg).setFlag oldSg.id false).setFlag newSg true
    else
      return (db.setOrgDefault org.id newSg).setFlag newSg true

def insertGroup (g : SecurityGroup) : SgDB := { db with groups := db.groups.insert g }

def insertRouter (r : Router) : SgDB := { db with routers := db.routers.insert r }

def newGroup (name : String) (isDefault : Bool) (router : Option Router) : SecurityGroup :=
  ⟨0, m.orgID, name, isDefault, (router.map Router.id).getD 0, 0, 0⟩

def createSecgroup (name : String) (isDefault : Bool) (router : Option Router)
    (pick : Nat)
    : Except CLError (Nat × SgDB) := do
  match router with
  | some router =>
    require (m.validateOwner .writer router.owner = true)
      ⟨.permissionDenied, "Not authorized for this operation"⟩
  | none =>
    require (m.checkPermission .owner = true) ⟨.permissionDenied, "Not authorized for this operation"⟩
  require (db.nameTaken m.orgID name = false)
    ⟨.securityGroupCreateFailed, "Failed to create security group"⟩
  let id := db.groups.next
  let db := db.insertGroup (newGroup m name isDefault router)
  require (m.validateOwner .writer m.orgID = true)
    ⟨.permissionDenied, "Not authorized for this operation"⟩
  if isDefault then
    let db ← db.switch m id router pick
    return (id, db)
  else
    return (id, db)

def createRouter (name : String) (pick : Nat) : Except CLError SgDB := do
  require (m.checkPermission .writer = true) ⟨.permissionDenied, "Not authorized to create routers"⟩
  require ((db.routers.find? (fun r => r.owner == m.orgID && r.name == name)).isNone = true)
    ⟨.routerCreateFailed, "Failed to create router"⟩
  let router : Router := ⟨db.routers.next, m.orgID, name, 0⟩
  let db := db.insertRouter router
  let (sg, db) ← db.createSecgroup m (name ++ "-native") true (some router) pick
  return db.setRouterDefault router.id sg

def getRouter (id : Nat) : Except CLError (Option Router) :=
  if id = 0 then
    return none
  else do
    let router ← found (db.routers.find? (fun r => r.id == id && m.getWhere r.owner))
      ⟨.routerNotFound, "Failed to find router"⟩
    require (m.validateOwner .reader router.owner = true)
      ⟨.permissionDenied, "Not authorized to read the router"⟩
    return some router

def getSecgroup (id : Nat) : Except CLError (SecurityGroup × Option Router) := do
  let sg ← found
    (if id = 0 then
      db.groups.find? (fun g => g.name == SystemDefaultSGName)
    else
      db.groups.find? (fun g => g.id == id && m.getWhere g.owner))
    ⟨.securityGroupNotFound, "Failed to find security group"⟩
  let router ←
    if sg.routerID = 0 then
      pure none
    else
      some <$> found (db.routers.byKey? sg.routerID) ⟨.routerNotFound, "Failed to find router"⟩
  require (sg.name = SystemDefaultSGName ∨ m.validateOwner .reader sg.owner = true)
    ⟨.permissionDenied, "Not authorized to get security group"⟩
  return (sg, router)

/--
`SecgroupAdmin.Update`. An error of the switch is not looked at.
-/
def updateSecgroup (sg : SecurityGroup) (router : Option Router) (name : String)
    (isDefault : Bool) (pick : Nat)
    : Except CLError SgDB := do
  let rename := name ≠ "" ∧ sg.name ≠ name
  let promote := isDefault = true ∧ sg.isDefault = false
  let db :=
    if promote then
      match db.switch m sg.id router pick with
      | .ok db => db
      | .error _ => db
    else
      db
  require (¬(rename ∧ db.nameTaken sg.owner name = true))
    ⟨.securityGroupUpdateFailed, "Failed to update security group"⟩
  return { db with
    groups := db.groups.update (fun g => g.id == sg.id) (fun g =>
      { g with
        name := if rename then name else g.name
        isDefault := if promote then true else g.isDefault
        updatedAt := if rename ∨ promote then g.updatedAt + 1 else g.updatedAt }) }

def deleteSecgroup (sg : SecurityGroup) : Except CLError SgDB := do
  require (m.validateOwner .writer sg.owner = true)
    ⟨.permissionDenied, "Not authorized to delete the security group"⟩
  if sg.isDefault = true ∧ sg.name ≠ SystemDefaultSGName then
    if 0 < sg.routerID then
      require
        ((db.routers.find? (fun r => r.id == sg.routerID && r.defaultSG == sg.id)).isNone = true)
        ⟨.cannotDeleteDefaultSG, "Default security group can not be deleted"⟩
    else
      require ((db.getOrg sg.owner).isOk = false)
        ⟨.cannotDeleteDefaultSG, "Default security group can not be deleted"⟩
  require (sg.interfaces = 0)
    ⟨.sgHasInterfaces, "The security group can not be deleted if there are associated interfaces"⟩
  return { db with groups := db.groups.delete (fun g => g.id == sg.id) }

end SgDB

end Web.Secgroup
