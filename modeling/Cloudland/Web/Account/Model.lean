import Cloudland.Lib.GoString
import Cloudland.Lib.Table
import Cloudland.Web.Common.Member

/-!
Users, organizations and memberships: `routes/user.go`, `routes/org.go`, `apis/user.go`, `apis/authorize.go` and
`routes/routes.go`.
-/

namespace Web.Account

def NONE : Int := 0
def READER : Int := 1
def OWNER : Int := 3
def ADMIN : Int := 4

structure User where
  id : Nat
  uuid : String
  owner : Nat
  username : String
  password : String
  deriving DecidableEq

structure Organization where
  id : Nat
  name : String
  deriving DecidableEq

/--
The role is any number: `OrgView.Patch` takes what the request names.
-/
structure Member where
  id : Nat
  userID : Nat
  userName : String
  orgID : Nat
  orgName : String
  role : Int
  deriving DecidableEq

instance : Keyed User := ⟨User.id, fun r id => { r with id := id }, fun _ _ => rfl, fun _ => rfl⟩
instance : Keyed Organization :=
  ⟨Organization.id, fun r id => { r with id := id }, fun _ _ => rfl, fun _ => rfl⟩
instance : Keyed Member := ⟨Member.id, fun r id => { r with id := id }, fun _ _ => rfl, fun _ => rfl⟩

structure AccountDB where
  users : Table User
  orgs : Table Organization
  members : Table Member

instance : IsRole Int := ⟨id⟩

abbrev MemberShip := MemberShipOf Int

structure HttpError where
  status : Nat
  message : String
  deriving DecidableEq

/--
The hashes of `bcrypt`, of which nothing is assumed. Each is made with a salt of its own.
-/
structure Bcrypt where
  hash : Nat → String → String
  accepts : String → String → Bool

def generateFromPassword (bcrypt : Bcrypt) (salt : Nat) (password : String) : Except CLError String :=
  if 72 < password.utf8ByteSize then
    .error ⟨.passwordHashFailed, "Failed to generate password hash"⟩
  else
    .ok (bcrypt.hash salt password)

def compareHashAndPassword (bcrypt : Bcrypt) (hash password : String) : Except CLError Unit :=
  if bcrypt.accepts hash password then
    .ok ⟨⟩
  else
    .error ⟨.passwordMismatch, "Failed to compare password hash"⟩

def trimSpace (s : String) : String := String.ofList (GoString.trimSpace s.toList)

def orError (e : CLError) : Option α → Except CLError α
  | some a => .ok a
  | none => .error e

def answer (status : Nat) (message : String) : Except CLError α → Except HttpError α
  | .ok a => .ok a
  | .error _ => .error ⟨status, message⟩

-- the pages show the text of the error itself
def page (status : Nat) : Except CLError α → Except HttpError α
  | .ok a => .ok a
  | .error e => .error ⟨status, e.message⟩

namespace AccountDB

variable (db : AccountDB)

def userByName (name : String) : Option User := db.users.find? (fun u => u.username == name)

-- the empty name is no condition
def getOrgByName (name : String) : Except CLError Organization :=
  orError ⟨.orgNotFound, "Failed to find organization"⟩
    (if name = "" then db.orgs.rows.head? else db.orgs.find? (fun o => o.name == name))

def getUserByUUID (m : MemberShip) (uuid : String) : Except CLError User := do
  let user ← orError ⟨.userNotFound, "User not found"⟩
    (db.users.find? (fun u => u.uuid == uuid && m.getWhere u.owner))
  if m.validateOwner READER user.owner then
    return user
  else
    throw ⟨.permissionDenied, "Not authorized to read the user"⟩

def membersOf (user : User) : List Member := db.members.filter (fun m => m.userID == user.id)

def deleteMember (userName orgName : String) : AccountDB :=
  { db with members := db.members.delete (fun m => m.userName == userName && m.orgName == orgName) }

def setPassword (id : Nat) (password : String) : AccountDB :=
  { db with users := db.users.update (fun u => u.id == id) (fun u => { u with password }) }

def updatePassword (bcrypt : Bcrypt) (db : AccountDB) (id : Nat) (password : String) (salt : Nat)
    : Except CLError AccountDB :=
  if password ≠ "" then db.setPassword id <$> generateFromPassword bcrypt salt password else .ok db

/--
`UserAdmin.Update`: the user keeps the memberships of the organizations that are named.
-/
def updateUser (bcrypt : Bcrypt) (db : AccountDB) (id : Nat) (password : String) (members : List String) (salt : Nat)
    : Except CLError AccountDB := do
  let user ← orError ⟨.userNotFound, "User not found"⟩ (db.users.take id)
  let db' ← db.updatePassword bcrypt user.id (trimSpace password) salt
  return (db.membersOf user).foldl
    (fun db em => if em.orgName ∈ members then db else db.deleteMember user.username em.orgName) db'

def validate (bcrypt : Bcrypt) (db : AccountDB) (username password : String) : Except CLError User :=
  match db.userByName username with
  | some user => (fun _ => user) <$> compareHashAndPassword bcrypt user.password password
  -- the hash is empty then, which is refused as too short
  | none => .error ⟨.passwordMismatch, "Failed to compare password hash"⟩

def accessToken (uid : Nat) (username organization : String) : Except CLError (Nat × Int) := do
  let member ← orError ⟨.memberNotFound, "Membership not found"⟩
    (db.members.find? (fun m => m.userName == username && m.orgName == organization))
  if member.role = NONE then
    throw ⟨.noRoleOnUser, "user " ++ username ++ " has no role under organization " ++ organization⟩
  let _ ← orError ⟨.orgNotFound, "Organization not found"⟩ (db.orgs.take member.orgID)
  let _ ← orError ⟨.userNotFound, "User not found"⟩ (db.users.take uid)
  return (member.orgID, member.role)

end AccountDB

def loginPost (bcrypt : Bcrypt) (db : AccountDB) (username password : String) : Except HttpError MemberShip := do
  let username := trimSpace username
  let user ← page 401 (db.validate bcrypt username (trimSpace password))
  let (oid, role) ← page 403 (db.accessToken user.id username username)
  return ⟨user.id, username, oid, username, role⟩

def linkHandler (session : MemberShip) : MemberShip :=
  if session.role = ADMIN ∨ session.userName = "admin" then { session with role := ADMIN } else session

structure Token where
  audience : String
  subject : String
  deriving DecidableEq

def apiLoginPost (bcrypt : Bcrypt) (db : AccountDB) (username password : String) (org : Option String)
    : Except HttpError (Token × Int) := do
  if username.length < 2 ∨ password.length < 8 ∨ 32 < password.length then
    throw ⟨400, "Input JSON format error"⟩
  let user ← answer 400 "Invalid username or password" (db.validate bcrypt username password)
  let orgName := org.getD username
  let _ ← answer 400 "Invalid organization" (db.getOrgByName orgName)
  let (_, role) ← answer 400 "Invalid organization with username" (db.accessToken user.id username orgName)
  return (⟨username, orgName⟩, role)

def getDBMemberShip (db : AccountDB) (userID orgID : Nat) : Except CLError MemberShip := do
  let member ← orError ⟨.memberNotFound, "Member not found"⟩
    (db.members.find? (fun m => m.userID == userID && m.orgID == orgID))
  return ⟨userID, member.userName, orgID, member.orgName, member.role⟩

structure Headers where
  user : String
  org : String
  deriving DecidableEq

def authorize (db : AccountDB) (token : Token) (headers : Headers) : Except HttpError MemberShip := do
  if (headers.user ≠ "" ∨ headers.org ≠ "") ∧ token.audience ≠ "admin" then
    throw ⟨401, "Not authorized to change resource owner"⟩
  let realUser := if headers.user = "" then token.audience else headers.user
  let realOrg := if headers.user = "" then token.subject else headers.org
  let user ← answer 400 "Invalid resource user"
    (orError ⟨.userNotFound, "User not found"⟩ (db.userByName realUser))
  let org ← answer 400 "Invalid resource org" (db.getOrgByName (if realOrg = "" then realUser else realOrg))
  let memberShip ← answer 400 "Invalid resource user with org membership" (getDBMemberShip db user.id org.id)
  return if realUser = "admin" then { memberShip with role := ADMIN } else memberShip

def userPatch (bcrypt : Bcrypt) (db : AccountDB) (m : MemberShip) (uuid password : String) (salt : Nat)
    : Except HttpError (User × AccountDB) := do
  if password.length < 6 then
    throw ⟨400, "Invalid input JSON"⟩
  let user ← answer 400 "Invalid query" (db.getUserByUUID m uuid)
  let db ← answer 400 "Invalid query" (db.updateUser bcrypt user.id password [] salt)
  return (user, db)

structure Grant where
  caller : MemberShip
  orgID : Nat
  userName : String
  role : Int
  deriving DecidableEq

namespace AccountDB

variable (db : AccountDB)

def addMember (org : Organization) (orgID : Nat) (user : User) : AccountDB :=
  { db with members := db.members.insert ⟨0, user.id, user.username, orgID, org.name, READER⟩ }

-- a zero field is no condition
def removeMember (orgID : Nat) (userName : String) : AccountDB :=
  { db with
    members := db.members.delete
      (fun m => (userName == "" || m.userName == userName) && (orgID == 0 || m.orgID == orgID)) }

def setRole (orgID : Nat) (userName : String) (role : Int) : AccountDB :=
  { db with
    members := db.members.update (fun m => m.userName == userName && m.orgID == orgID)
      (fun m => { m with role }) }

/--
`OrgAdmin.Update`. The roles are taken by the positions of the users, and the request ends where they run
out.
-/
def updateOrg (orgID : Nat) (members users : List String) (roles : List Int)
    : Except CLError AccountDB := do
  let org ← orError ⟨.orgNotFound, "Failed to find organization"⟩ (db.orgs.take orgID)
  let old := db.members.filter (fun m => m.orgID == org.id)
  let names := (members.map trimSpace).filter (· ≠ "")
  let db := names.foldl
    (fun db name =>
      if old.any (fun em => em.userName == name) then
        db
      else
        match db.userByName name with
        | some user => db.addMember org orgID user
        | none => db) db
  let db := old.foldl
    (fun db em => if em.userName ∈ names then db else db.removeMember orgID em.userName) db
  return (users.zip roles).foldl (fun db (user, role) => db.setRole orgID user role) db

end AccountDB

def orgPatch (db : AccountDB) (m : MemberShip) (orgID : Nat) (members users : List String)
    (roles : List (Option Int))
    : Except HttpError AccountDB := do
  if m.role ≠ ADMIN ∧ (m.role < OWNER ∨ m.orgID ≠ orgID) then
    throw ⟨400, "Not authorized for this operation"⟩
  let roles ← roles.mapM (fun role =>
    match role with
    | some role => if m.role < role then .error ⟨400, "Not authorized for this operation"⟩ else .ok role
    | none => .error ⟨400, "invalid syntax"⟩)
  page 400 (db.updateOrg orgID members users roles)

end Web.Account
