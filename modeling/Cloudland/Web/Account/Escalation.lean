import Cloudland.Lib.Run
import Cloudland.Lib.Check
import Cloudland.Web.Account.Model

/-!
Callers who log in with the passwords they know, set passwords and change organizations.
-/

namespace Web.Account

open List Table Check Option

inductive Request where
  | login (username password : String)
  | apiLogin (username password : String) (org : Option String)
  | userPatch (token : Token) (headers : Headers) (uuid password : String) (salt : Nat)
  | orgPatch (session : MemberShip) (orgID : Nat) (members users : List String) (roles : List (Option Int))
  deriving DecidableEq

structure Callers where
  db : AccountDB
  known : List (String × String)
  sessions : List MemberShip
  tokens : List Token
  grants : List Grant
  -- who has set the password of which user
  changes : List (MemberShip × String)

def granted (caller : MemberShip) (db db' : AccountDB) : List Grant :=
  (db'.members.filter (fun m => decide (m ∉ db.members))).map (fun m => ⟨caller, m.orgID, m.userName, m.role⟩)

namespace Callers

def patched (s : Callers) (m : MemberShip) (user : User) (db : AccountDB) (password : String) : Callers :=
  if trimSpace password = "" then
    { s with db }
  else
    { s with
      db
      known := (user.username, trimSpace password) :: s.known
      changes := (m, user.username) :: s.changes }

section Step

variable (bcrypt : Bcrypt) (s : Callers)

def step : Request → Option Callers
  | .login username password =>
    if (trimSpace username, trimSpace password) ∈ s.known then
      match loginPost bcrypt s.db username password with
      | .ok m => some { s with sessions := m :: s.sessions }
      | .error _ => some s
    else
      none
  | .apiLogin username password org =>
    if (username, password) ∈ s.known then
      match apiLoginPost bcrypt s.db username password org with
      | .ok (token, _) => some { s with tokens := token :: s.tokens }
      | .error _ => some s
    else
      none
  | .userPatch token headers uuid password salt =>
    if token ∈ s.tokens then
      match authorize s.db token headers with
      | .ok m =>
        match userPatch bcrypt s.db m uuid password salt with
        | .ok (user, db) => some (s.patched m user db password)
        | .error _ => some s
      | .error _ => some s
    else
      none
  | .orgPatch session orgID members users roles =>
    if session ∈ s.sessions then
      match orgPatch s.db (linkHandler session) orgID members users roles with
      | .ok db => some { s with db, grants := granted (linkHandler session) s.db db ++ s.grants }
      | .error _ => some s
    else
      none

def Step (r : Request) (t : Callers) : Prop := s.step bcrypt r = some t

/--
What a request can do that does not fail.
-/
inductive Outcome (s : Callers) : Request → Callers → Prop
  | refused : Outcome s r s
  | login : (trimSpace username, trimSpace password) ∈ s.known → loginPost bcrypt s.db username password = .ok m →
    Outcome s (.login username password) { s with sessions := m :: s.sessions }
  | apiLogin : (username, password) ∈ s.known → apiLoginPost bcrypt s.db username password org = .ok (token, role) →
    Outcome s (.apiLogin username password org) { s with tokens := token :: s.tokens }
  | userPatch : token ∈ s.tokens → authorize s.db token headers = .ok m →
    Account.userPatch bcrypt s.db m uuid password salt = .ok (user, db') →
    Outcome s (.userPatch token headers uuid password salt) (s.patched m user db' password)
  | orgPatch : session ∈ s.sessions →
    Account.orgPatch s.db (linkHandler session) orgID members users roles = .ok db' →
    Outcome s (.orgPatch session orgID members users roles)
      { s with db := db', grants := granted (linkHandler session) s.db db' ++ s.grants }

/--
The user whose password and memberships the request changes.
-/
def target : Request → Option User
  | .userPatch token headers uuid password salt => do
    let m ← (authorize s.db token headers).toOption
    let (user, _) ← (Account.userPatch bcrypt s.db m uuid password salt).toOption
    return user
  | _ => none

def SparesAdmin (r : Request) : Prop := ∀ user ∈ s.target bcrypt r, user.username ≠ "admin"

def SetsOwn : Request → Prop
  | .userPatch token headers uuid password salt =>
    ∀ user ∈ s.target bcrypt (.userPatch token headers uuid password salt), user.username = token.audience
  | _ => True

end Step

variable {s t : Callers}

theorem outcome_of_step (h : s.step bcrypt r = some t) : s.Outcome bcrypt r t := by
  unfold step at h
  cases r with
  | login username password =>
    dsimp only at h
    split at h
    . next hknown =>
      split at h
      . next hlogin => exact some.inj h ▸ .login hknown hlogin
      . exact some.inj h ▸ .refused
    . contradiction
  | apiLogin username password orgName =>
    dsimp only at h
    split at h
    . next hknown =>
      split at h
      . next hlogin => exact some.inj h ▸ .apiLogin hknown hlogin
      . exact some.inj h ▸ .refused
    . contradiction
  | userPatch token headers uuid password salt =>
    dsimp only at h
    split at h
    . next htoken =>
      split at h
      . next hm =>
        split at h
        . next hpatch => exact some.inj h ▸ .userPatch htoken hm hpatch
        . exact some.inj h ▸ .refused
      . exact some.inj h ▸ .refused
    . contradiction
  | orgPatch session orgID members users roles =>
    dsimp only at h
    split at h
    . next hsession =>
      split at h
      . next hpatch => exact some.inj h ▸ .orgPatch hsession hpatch
      . exact some.inj h ▸ .refused
    . contradiction

theorem target_userPatch (hm : authorize s.db token headers = .ok m)
    (hpatch : Account.userPatch bcrypt s.db m uuid password salt = .ok (user, db'))
    : s.target bcrypt (.userPatch token headers uuid password salt) = some user := by
  simp [target, hm, hpatch, Except.toOption]

end Callers

section Property

variable (org : Nat)

structure Callers.Safe (s : Callers) : Prop where
  session : ∀ m ∈ s.sessions, (linkHandler m).orgID = org → (linkHandler m).role < OWNER
  token : ∀ token ∈ s.tokens, ∀ headers m, authorize s.db token headers = .ok m → m.orgID = org →
    m.role < OWNER
  grant : ∀ g ∈ s.grants, g.orgID = g.caller.orgID ∧ g.role ≤ g.caller.role

def MemberShip.IsAdmin (m : MemberShip) : Prop := m.orgName = "admin" ∧ m.role = ADMIN

def Callers.OwnPasswords (s : Callers) : Prop := ∀ m name, (m, name) ∈ s.changes → m.userName = name ∨ m.IsAdmin

def AccountDB.High (db : AccountDB) (userName : String) : Prop :=
  ∃ m ∈ db.members, m.userName = userName ∧ (ADMIN ≤ m.role ∨ m.orgID = org ∧ OWNER ≤ m.role)

structure AccountDB.Wf (db : AccountDB) : Prop where
  users : ∀ u ∈ db.users, ∀ v ∈ db.users, u.username = v.username → u = v
  user : ∀ m ∈ db.members, ∃ u ∈ db.users, m.userID = u.id ∧ m.userName = u.username
  org : ∀ m ∈ db.members, ∃ o ∈ db.orgs, m.orgID = o.id

def Outsiders (bcrypt : Bcrypt) (db : AccountDB) (known : List (String × String)) : Prop :=
  ∀ name password, (name, password) ∈ known → ∀ user ∈ db.users, user.username = name →
    bcrypt.accepts user.password password = true → name ≠ "admin" ∧ ¬db.High org name

end Property

section Functions

variable {bcrypt : Bcrypt} {db : AccountDB}

theorem orError_eq_ok : orError e o = .ok a ↔ o = some a := by
  cases o <;> simp [orError]

theorem answer_eq_ok
    : answer status message x = .ok a ↔ x = .ok a := by
  cases x <;> simp [answer]

theorem page_eq_ok
    : page status x = .ok a ↔ x = .ok a := by
  cases x <;> simp [page]

variable {user : User}

theorem userByName_eq_some (h : db.userByName name = some user) : user ∈ db.users ∧ user.username = name := by
  have ⟨hmem, hname⟩ := find?_eq_some h
  exact ⟨hmem, beq_iff_eq.mp hname⟩

variable {username : String}

theorem validate_eq_ok (h : db.validate bcrypt username password = .ok user)
    : user ∈ db.users ∧ user.username = username ∧ bcrypt.accepts user.password password = true := by
  unfold AccountDB.validate at h
  split at h
  . next found =>
    obtain ⟨_, haccepts, rfl⟩ := map_eq_ok.mp h
    have ⟨hmem, hname⟩ := userByName_eq_some found
    unfold compareHashAndPassword at haccepts
    split at haccepts
    . next htrue => exact ⟨hmem, hname, htrue⟩
    . contradiction
  . contradiction

theorem accessToken_eq_ok
    (h : db.accessToken uid username organization = .ok (oid, role))
    : ∃ m ∈ db.members, m.userName = username ∧ m.orgID = oid ∧ m.role = role := by
  unfold AccountDB.accessToken at h
  simp only [bind_eq_ok, orError_eq_ok] at h
  obtain ⟨m, hm, h⟩ := h
  obtain ⟨hmem, hname⟩ := find?_eq_some hm
  simp only [Bool.and_eq_true, beq_iff_eq] at hname
  split at h
  . simp at h
  . simp only [bind_eq_ok, orError_eq_ok] at h
    obtain ⟨_, _, _, _, h⟩ := h
    cases h
    exact ⟨m, hmem, hname.1, rfl, rfl⟩

theorem loginPost_eq_ok (h : loginPost bcrypt db username password = .ok m)
    : (∃ user ∈ db.users, user.username = trimSpace username ∧
        bcrypt.accepts user.password (trimSpace password) = true) ∧
      m.userName = trimSpace username ∧
      ∃ member ∈ db.members, member.userName = m.userName ∧ member.orgID = m.orgID ∧ member.role = m.role := by
  unfold loginPost at h
  simp only [bind_eq_ok, page_eq_ok] at h
  obtain ⟨user, huser, ⟨oid, role⟩, htoken, h⟩ := h
  obtain ⟨hmem, hname, hpassword⟩ := validate_eq_ok huser
  obtain ⟨member, hmember, hmemberName, horg, hrole⟩ := accessToken_eq_ok htoken
  cases h
  exact ⟨⟨user, hmem, hname, hpassword⟩, rfl, member, hmember, hmemberName, horg, hrole⟩

theorem apiLoginPost_eq_ok
    (h : apiLoginPost bcrypt db username password org = .ok (token, role))
    : (∃ user ∈ db.users, user.username = username ∧ bcrypt.accepts user.password password = true) ∧
      token.audience = username := by
  unfold apiLoginPost at h
  split at h
  . simp at h
  . simp only [bind_eq_ok, answer_eq_ok] at h
    obtain ⟨user, huser, _, _, _, _, h⟩ := h
    obtain ⟨hmem, hname, hpassword⟩ := validate_eq_ok huser
    cases h
    exact ⟨⟨user, hmem, hname, hpassword⟩, rfl⟩

theorem authorize_eq_ok (hwf : db.Wf)
    (hadmin : token.audience ≠ "admin") (h : authorize db token headers = .ok m)
    : m.userName = token.audience ∧
      ∃ member ∈ db.members, member.userName = m.userName ∧ member.orgID = m.orgID ∧ member.role = m.role := by
  unfold authorize at h
  by_cases hheaders : (headers.user ≠ "" ∨ headers.org ≠ "") ∧ token.audience ≠ "admin"
  . rw [if_pos hheaders] at h
    simp at h
  . have huser : headers.user = "" := by
      by_contra hne
      exact hheaders ⟨.inl hne, hadmin⟩
    rw [if_neg hheaders] at h
    simp only [huser, ↓reduceIte, hadmin, bind_eq_ok, answer_eq_ok, orError_eq_ok] at h
    obtain ⟨user, hfind, org, _, m', hm', h⟩ := h
    cases h
    obtain ⟨hmem, hname⟩ := userByName_eq_some hfind
    unfold getDBMemberShip at hm'
    simp only [bind_eq_ok, orError_eq_ok] at hm'
    obtain ⟨member, hmember, hm'⟩ := hm'
    obtain ⟨hin, hids⟩ := find?_eq_some hmember
    simp only [Bool.and_eq_true, beq_iff_eq] at hids
    obtain ⟨user', hmem', hid', hname'⟩ := hwf.user member hin
    have hsame := eq_of_key hmem' hmem (hid'.symm.trans hids.1)
    cases hm'
    exact ⟨by rw [hname', hsame, hname], member, hin, rfl, hids.2, rfl⟩

theorem getUserByUUID_eq_ok (h : db.getUserByUUID m uuid = .ok user)
    : user ∈ db.users := by
  unfold AccountDB.getUserByUUID at h
  simp only [bind_eq_ok, orError_eq_ok] at h
  obtain ⟨user', hfind, h⟩ := h
  split at h
  . cases h
    exact (find?_eq_some hfind).1
  . simp at h

theorem take_id (h : user ∈ db.users) : db.users.take user.id = some user := by
  have hpos := (db.users.bounds user h).1
  rw [Table.take, if_neg (by simpa [Keyed.key] using Nat.ne_of_gt hpos)]
  exact byKey?_eq_some.mpr ⟨h, rfl⟩

theorem mem_deleteMembers {ems : List Member} {m : Member}
    : m ∈ (ems.foldl (fun db em => if em.orgName ∈ ([] : List String) then db
        else db.deleteMember username em.orgName) db).members
        ↔
      m ∈ db.members ∧ ∀ em ∈ ems, ¬(m.userName = username ∧ m.orgName = em.orgName) := by
  induction ems generalizing db with
  | nil => simp
  | cons em ems ih =>
    rw [foldl_cons, ih]
    simp only [not_mem_nil, ↓reduceIte, AccountDB.deleteMember, mem_delete, forall_mem_cons,
      Bool.and_eq_false_iff, beq_eq_false_iff_ne, ne_eq, not_and_or, and_assoc]

theorem deleteMembers_users {ems : List Member}
    : (ems.foldl (fun db em => if em.orgName ∈ ([] : List String) then db
        else db.deleteMember username em.orgName) db).users = db.users ∧
      (ems.foldl (fun db em => if em.orgName ∈ ([] : List String) then db
        else db.deleteMember username em.orgName) db).orgs = db.orgs := by
  induction ems generalizing db with
  | nil => exact ⟨rfl, rfl⟩
  | cons em ems ih => exact ih

structure Patched (db : AccountDB) (user : User) (db' : AccountDB) : Prop where
  mem : user ∈ db.users
  orgs : db'.orgs = db.orgs
  users : ∀ v ∈ db'.users, ∃ v0 ∈ db.users, v.id = v0.id ∧ v.username = v0.username ∧
    (v = v0 ∨ v0 = user)
  kept : ∀ v0 ∈ db.users, ∃ v ∈ db'.users, v.id = v0.id ∧ v.username = v0.username
  members : ∀ m ∈ db'.members, m ∈ db.members ∧ m.userName ≠ user.username

theorem mem_setPassword (huser : user ∈ db.users)
    : v ∈ (db.setPassword user.id password).users
        ↔
      (v ∈ db.users ∧ v.id ≠ user.id) ∨ v = { user with password } :=
  mem_update_key huser

theorem userPatch_spec
    (h : userPatch bcrypt db m uuid password salt = .ok (user, db'))
    : user ∈ db.users ∧
      db' = (db.membersOf user).foldl
        (fun db em => if em.orgName ∈ ([] : List String) then db else db.deleteMember user.username em.orgName)
        (if trimSpace password ≠ "" then db.setPassword user.id (bcrypt.hash salt (trimSpace password)) else db) := by
  unfold userPatch at h
  split at h
  . simp at h
  . simp only [bind_eq_ok, answer_eq_ok] at h
    obtain ⟨user', huser, db'', hupdate, h⟩ := h
    cases h
    have hmem := getUserByUUID_eq_ok huser
    unfold AccountDB.updateUser at hupdate
    simp only [take_id hmem, bind_eq_ok, orError_eq_ok, some.injEq, exists_eq_left'] at hupdate
    obtain ⟨db', hset, hupdate⟩ := hupdate
    cases hupdate
    refine ⟨hmem, ?_⟩
    unfold AccountDB.updatePassword at hset
    split at hset
    . next hpassword =>
      obtain ⟨hash, hhash, rfl⟩ := map_eq_ok.mp hset
      unfold generateFromPassword at hhash
      split at hhash
      . contradiction
      . cases hhash
        rw [if_pos hpassword]
    . next hpassword =>
      cases hset
      rw [if_neg hpassword]

theorem userPatch_eq_ok (hwf : db.Wf) (h : userPatch bcrypt db m uuid password salt = .ok (user, db'))
    : Patched db user db' := by
  obtain ⟨hmem, rfl⟩ := userPatch_spec h
  refine ⟨hmem, ?orgs, ?users, ?kept, ?members⟩
  case orgs =>
    rw [deleteMembers_users.2]
    split
    . rfl
    . rfl
  case users =>
    intro v hv
    rw [deleteMembers_users.1] at hv
    split at hv
    . obtain hold | hnew := (mem_setPassword hmem).mp hv
      . exact ⟨v, hold.1, rfl, rfl, .inl rfl⟩
      . rw [hnew]
        exact ⟨user, hmem, rfl, rfl, .inr rfl⟩
    . exact ⟨v, hv, rfl, rfl, .inl rfl⟩
  case kept =>
    intro v0 hv0
    rw [deleteMembers_users.1]
    split
    . by_cases hid : v0.id = user.id
      . have hsame := eq_of_key hv0 hmem hid
        exact ⟨_, (mem_setPassword hmem).mpr (.inr rfl), hid.symm, by rw [hsame]⟩
      . exact ⟨v0, (mem_setPassword hmem).mpr (.inl ⟨hv0, hid⟩), rfl, rfl⟩
    . exact ⟨v0, hv0, rfl, rfl⟩
  case members =>
    intro em hem
    have ⟨hin, hleft⟩ := mem_deleteMembers.mp hem
    have hin : em ∈ db.members := by
      split at hin
      . exact hin
      . exact hin
    refine ⟨hin, ?_⟩
    -- the membership would be one of those that are deleted
    intro hname
    have ⟨u, hu, hid, huname⟩ := hwf.user em hin
    have hsame := hwf.users u hu user hmem (huname.symm.trans hname)
    have hof : em ∈ db.membersOf user := Table.mem_filter.mpr ⟨hin, by simp [hid, hsame]⟩
    exact hleft em hof ⟨hname, rfl⟩

structure Regranted (db : AccountDB) (orgID : Nat) (roles : List Int) (db' : AccountDB) : Prop where
  users : db'.users = db.users
  orgs : db'.orgs = db.orgs
  members : ∀ m ∈ db'.members, m ∈ db.members ∨ m.orgID = orgID ∧ (m.role = READER ∨ m.role ∈ roles) ∧
    ∃ u ∈ db.users, m.userID = u.id ∧ m.userName = u.username

variable {orgID : Nat} {roles : List Int} {db' : AccountDB}

theorem Regranted.addMember (h : Regranted db orgID roles db')
    (huser : db'.userByName name = some user) (org : Organization)
    : Regranted db orgID roles (db'.addMember org orgID user) := by
  have ⟨hmem, _⟩ := userByName_eq_some huser
  refine ⟨h.users, h.orgs, ?_⟩
  intro m hm
  obtain hold | hnew := mem_insert.mp hm
  . exact h.members m hold
  . rw [hnew]
    exact .inr ⟨rfl, .inl rfl, user, h.users ▸ hmem, rfl, rfl⟩

theorem Regranted.removeMember (h : Regranted db orgID roles db') (name : String)
    : Regranted db orgID roles (db'.removeMember orgID name) :=
  ⟨h.users, h.orgs, fun m hm => h.members m (mem_delete.mp hm).1⟩

theorem Regranted.setRole (hwf : db.Wf) (h : Regranted db orgID roles db') (name : String)
    (hrole : role ∈ roles)
    : Regranted db orgID roles (db'.setRole orgID name role) := by
  refine ⟨h.users, h.orgs, ?_⟩
  intro m hm
  have ⟨m0, hm0, heq⟩ := mem_update.mp hm
  split at heq
  . next hcond =>
    simp only [Bool.and_eq_true, beq_iff_eq] at hcond
    rw [heq]
    refine .inr ⟨hcond.2, .inr hrole, ?_⟩
    obtain hold | hnew := h.members m0 hm0
    . exact hwf.user m0 hold
    . exact hnew.2.2
  . exact heq ▸ h.members m0 hm0

theorem updateOrg_eq_ok (hwf : db.Wf) (h : db.updateOrg orgID members users roles = .ok db')
    : Regranted db orgID roles db' := by
  unfold AccountDB.updateOrg at h
  simp only [bind_eq_ok, orError_eq_ok] at h
  obtain ⟨org, _, h⟩ := h
  cases h
  -- the three loops of the function
  apply foldlRecOn (motive := Regranted db orgID roles)
  . apply foldlRecOn (motive := Regranted db orgID roles)
    . apply foldlRecOn (motive := Regranted db orgID roles)
      . exact ⟨rfl, rfl, fun m hm => .inl hm⟩
      . intro db' hdb name _
        split
        . exact hdb
        . split
          . next huser => exact hdb.addMember huser org
          . exact hdb
    . intro db' hdb em _
      split
      . exact hdb
      . exact hdb.removeMember em.userName
  . intro db' hdb pair hpair
    exact hdb.setRole hwf pair.1 (of_mem_zip hpair).2

theorem updateOrg_org (h : db.updateOrg orgID members users roles = .ok db')
    (hne : orgID ≠ 0)
    : ∃ o ∈ db.orgs, orgID = o.id := by
  unfold AccountDB.updateOrg at h
  simp only [bind_eq_ok, orError_eq_ok] at h
  obtain ⟨org, htake, _⟩ := h
  rw [Table.take, if_neg hne] at htake
  obtain ⟨hmem, hid⟩ := byKey?_eq_some.mp htake
  exact ⟨org, hmem, hid.symm⟩

theorem orgPatch_eq_ok (hwf : db.Wf) {m : MemberShip} {members users : List String} {roles : List (Option Int)}
    (h : orgPatch db m orgID members users roles = .ok db')
    : (m.role = ADMIN ∨ OWNER ≤ m.role ∧ m.orgID = orgID) ∧
      (orgID ≠ 0 → ∃ o ∈ db.orgs, orgID = o.id) ∧
      ∃ roles', (∀ r ∈ roles', r ≤ m.role) ∧ Regranted db orgID roles' db' := by
  unfold orgPatch at h
  split at h
  . simp at h
  . next hpermit =>
    simp only [bind_eq_ok, page_eq_ok] at h
    obtain ⟨roles', hroles, hupdate⟩ := h
    refine ⟨?_, updateOrg_org hupdate, roles', ?_, updateOrg_eq_ok hwf hupdate⟩
    . rw [not_and_or, not_or, not_not, not_not] at hpermit
      refine hpermit.imp_right ?_
      rintro ⟨hrole, horg⟩
      exact ⟨by omega, horg⟩
    . intro r hr
      obtain ⟨role, _, hrole⟩ := exists_of_mapM_eq_ok hroles hr
      split at hrole
      . split at hrole
        . contradiction
        . next hle =>
          cases hrole
          omega
      . contradiction

end Functions

section Invariant

variable {bcrypt : Bcrypt} {org : Nat} {s t : Callers}

variable (bcrypt org) in
structure Callers.Inv (s : Callers) : Prop where
  wf : s.db.Wf
  known : Outsiders org bcrypt s.db s.known
  session : ∀ m ∈ s.sessions, m.userName ≠ "admin" ∧ m.role < ADMIN ∧ (m.orgID = org → m.role < OWNER) ∧
    m.orgID ≠ 0
  token : ∀ token ∈ s.tokens, token.audience ≠ "admin" ∧ ¬s.db.High org token.audience
  grant : ∀ g ∈ s.grants, g.orgID = g.caller.orgID ∧ g.role ≤ g.caller.role

variable {db : AccountDB}

theorem AccountDB.not_high (h : ¬db.High org userName)
    (hm : m ∈ db.members) (hname : m.userName = userName)
    : m.role < ADMIN ∧ (m.orgID = org → m.role < OWNER) := by
  constructor
  . by_contra hle
    exact h ⟨m, hm, hname, .inl (by omega)⟩
  . intro horg
    by_contra hle
    exact h ⟨m, hm, hname, .inr ⟨horg, by omega⟩⟩

theorem AccountDB.Wf.orgID_ne (hwf : db.Wf) (hm : m ∈ db.members) : m.orgID ≠ 0 := by
  have ⟨o, ho, hid⟩ := hwf.org m hm
  have hpos : 0 < o.id := (db.orgs.bounds o ho).1
  omega

theorem linkHandler_eq (hname : m.userName ≠ "admin") (hrole : m.role < ADMIN)
    : linkHandler m = m := by
  rw [linkHandler, if_neg]
  intro h
  obtain h | h := h
  . omega
  . exact hname h

theorem Callers.Inv.safe (h : s.Inv bcrypt org) : s.Safe org := by
  refine ⟨?_, ?_, h.grant⟩
  . intro m hm
    have ⟨hname, hrole, howner, _⟩ := h.session m hm
    rw [linkHandler_eq hname hrole]
    exact howner
  . intro token htoken headers m hm horg
    have ⟨hadmin, hlow⟩ := h.token token htoken
    have ⟨hname, member, hmember, hmname, hmorg, hmrole⟩ := authorize_eq_ok h.wf hadmin hm
    have hlow := AccountDB.not_high hlow hmember (hmname.trans hname)
    rw [hmorg, hmrole] at hlow
    exact hlow.2 horg

theorem Callers.Inv.login (h : s.Inv bcrypt org) (hknown : (trimSpace username, trimSpace password) ∈ s.known)
    (hlogin : loginPost bcrypt s.db username password = .ok m)
    : Callers.Inv bcrypt org { s with sessions := m :: s.sessions } := by
  have ⟨⟨user, huser, hname, hpassword⟩, hmname, member, hmember, hmemberName, horg, hrole⟩ :=
    loginPost_eq_ok hlogin
  have ⟨hadmin, hlow⟩ := h.known _ _ hknown user huser hname hpassword
  have hlow := AccountDB.not_high hlow hmember (hmemberName.trans hmname)
  have hne := h.wf.orgID_ne hmember
  refine { h with session := ?_ }
  intro m' hm'
  obtain heq | hold := mem_cons.mp hm'
  . rw [heq, hmname, ← horg, ← hrole]
    exact ⟨hadmin, hlow.1, hlow.2, hne⟩
  . exact h.session m' hold

theorem Callers.Inv.apiLogin (h : s.Inv bcrypt org)
    (hknown : (username, password) ∈ s.known) {token : Token} {role : Int}
    (hlogin : apiLoginPost bcrypt s.db username password orgName = .ok (token, role))
    : Callers.Inv bcrypt org { s with tokens := token :: s.tokens } := by
  have ⟨⟨user, huser, hname, hpassword⟩, haudience⟩ := apiLoginPost_eq_ok hlogin
  refine { h with token := ?_ }
  intro token' htoken'
  obtain heq | hold := mem_cons.mp htoken'
  . rw [heq, haudience]
    exact h.known _ _ hknown user huser hname hpassword
  . exact h.token token' hold

theorem Patched.wf {db' : AccountDB} (h : Patched db user db') (hwf : db.Wf) : db'.Wf := by
  refine ⟨?_, ?_, ?_⟩
  . intro u hu v hv hname
    have ⟨u0, hu0, huid, huname, _⟩ := h.users u hu
    have ⟨v0, hv0, hvid, hvname, _⟩ := h.users v hv
    have hsame := hwf.users u0 hu0 v0 hv0 (by rw [← huname, ← hvname, hname])
    exact eq_of_key hu hv (huid.trans ((congrArg User.id hsame).trans hvid.symm))
  . intro m hm
    have ⟨u0, hu0, hid, hname⟩ := hwf.user m (h.members m hm).1
    have ⟨u, hu, huid, huname⟩ := h.kept u0 hu0
    exact ⟨u, hu, hid.trans huid.symm, hname.trans huname.symm⟩
  . intro m hm
    rw [h.orgs]
    exact hwf.org m (h.members m hm).1

theorem Patched.high (h : Patched db user db')
    (hhigh : db'.High org name)
    : db.High org name ∧ name ≠ user.username := by
  have ⟨m, hm, hname, hrole⟩ := hhigh
  have ⟨hold, hne⟩ := h.members m hm
  exact ⟨⟨m, hold, hname, hrole⟩, hname ▸ hne⟩

theorem Callers.Inv.patched (h : s.Inv bcrypt org)
    (hpatch : userPatch bcrypt s.db m uuid password salt = .ok (user, db)) (hadmin : user.username ≠ "admin")
    : (s.patched m user db password').Inv bcrypt org := by
  have hpatched := userPatch_eq_ok h.wf hpatch
  have htoken : ∀ token ∈ s.tokens, token.audience ≠ "admin" ∧ ¬db.High org token.audience := by
    intro token htoken
    have ⟨hname, hlow⟩ := h.token token htoken
    exact ⟨hname, fun hhigh => hlow (hpatched.high hhigh).1⟩
  have hlowered : user.username ≠ "admin" ∧ ¬db.High org user.username :=
    ⟨hadmin, fun hhigh => (hpatched.high hhigh).2 rfl⟩
  have hknown : Outsiders org bcrypt db s.known := by
    intro name p hmem v hv hname hp
    have ⟨v0, hv0, _, hv0name, hpassword⟩ := hpatched.users v hv
    obtain heq | hnew := hpassword
    . rw [heq] at hname hp
      have ⟨hne, hlow⟩ := h.known name p hmem v0 hv0 hname hp
      exact ⟨hne, fun hhigh => hlow (hpatched.high hhigh).1⟩
    . rw [hnew] at hv0name
      rw [← hname, hv0name]
      exact hlowered
  unfold Callers.patched
  split
  . exact ⟨hpatched.wf h.wf, hknown, h.session, htoken, h.grant⟩
  . refine ⟨hpatched.wf h.wf, ?_, h.session, htoken, h.grant⟩
    intro name p hmem v hv hname hp
    obtain heq | hold := mem_cons.mp hmem
    . cases heq
      exact hlowered
    . exact hknown name p hold v hv hname hp

theorem Regranted.wf {db' : AccountDB} (h : Regranted db orgID roles db')
    (hwf : db.Wf) (horg : ∃ o ∈ db.orgs, orgID = o.id)
    : db'.Wf := by
  refine ⟨?_, ?_, ?_⟩
  . rw [h.users]
    exact hwf.users
  . intro m hm
    rw [h.users]
    obtain hold | hnew := h.members m hm
    . exact hwf.user m hold
    . exact hnew.2.2
  . intro m hm
    rw [h.orgs]
    obtain hold | hnew := h.members m hm
    . exact hwf.org m hold
    . exact hnew.1 ▸ horg

theorem Regranted.high (h : Regranted db orgID roles db')
    (horg : orgID ≠ org) (hroles : ∀ r ∈ roles, r < ADMIN) (hhigh : db'.High org name)
    : db.High org name := by
  have ⟨m, hm, hname, hrole⟩ := hhigh
  obtain hold | hnew := h.members m hm
  . exact ⟨m, hold, hname, hrole⟩
  . have hlt : m.role < ADMIN := by
      obtain hreader | hmem := hnew.2.1
      . rw [hreader]
        decide
      . exact hroles m.role hmem
    obtain hadmin | howner := hrole
    . omega
    . exact absurd (hnew.1.symm.trans howner.1) horg

theorem Callers.Inv.orgPatch (h : s.Inv bcrypt org) {session : MemberShip} (hsession : session ∈ s.sessions)
    {orgID : Nat} {members users : List String} {roles : List (Option Int)}
    (hpatch : orgPatch s.db (linkHandler session) orgID members users roles = .ok db)
    : Callers.Inv bcrypt org { s with db, grants := granted (linkHandler session) s.db db ++ s.grants } := by
  have ⟨hname, hrole, howner, hne⟩ := h.session session hsession
  rw [linkHandler_eq hname hrole] at hpatch ⊢
  have ⟨hpermit, horgs, roles', hroles, hregranted⟩ := orgPatch_eq_ok h.wf hpatch
  have ⟨hle, horgID⟩ : OWNER ≤ session.role ∧ session.orgID = orgID := hpermit.resolve_left (by omega)
  have hother : orgID ≠ org := by
    intro heq
    have := howner (horgID.trans heq)
    omega
  have hlow : ∀ r ∈ roles', r < ADMIN := by
    intro r hr
    have := hroles r hr
    omega
  have hhigh : ∀ name, db.High org name → s.db.High org name := fun name => hregranted.high hother hlow
  refine ⟨hregranted.wf h.wf (horgs (horgID ▸ hne)), ?known, h.session, ?token, ?grant⟩
  case known =>
    intro name p hmem v hv hvname hp
    rw [hregranted.users] at hv
    have ⟨hadmin, hlow⟩ := h.known name p hmem v hv hvname hp
    exact ⟨hadmin, fun hh => hlow (hhigh _ hh)⟩
  case token =>
    intro token htoken
    have ⟨hadmin, hlow⟩ := h.token token htoken
    exact ⟨hadmin, fun hh => hlow (hhigh _ hh)⟩
  case grant =>
    intro g hg
    obtain hnew | hold := mem_append.mp hg
    . have ⟨m, hm, heq⟩ := mem_map.mp hnew
      have ⟨hin, hfresh⟩ := Table.mem_filter.mp hm
      have ⟨hmorg, hmrole, _⟩ := (hregranted.members m hin).resolve_left (of_decide_eq_true hfresh)
      rw [← heq]
      refine ⟨hmorg.trans horgID.symm, ?_⟩
      obtain hreader | hmem := hmrole
      . have : READER ≤ OWNER := by decide
        dsimp only
        omega
      . exact hroles m.role hmem
    . exact h.grant g hold

theorem Callers.Inv.step (h : s.Inv bcrypt org) (hok : s.SparesAdmin bcrypt r) (hstep : s.Step bcrypt r t)
    : t.Inv bcrypt org := by
  cases outcome_of_step hstep with
  | refused => exact h
  | login hknown hlogin => exact h.login hknown hlogin
  | apiLogin hknown hlogin => exact h.apiLogin hknown hlogin
  | userPatch _ hm hpatch => exact h.patched hpatch (hok _ (target_userPatch hm hpatch))
  | orgPatch hsession hpatch => exact h.orgPatch hsession hpatch

theorem Callers.Inv.sparesAdmin (h : s.Inv bcrypt org) (hstep : s.Step bcrypt r t) (hok : s.SetsOwn bcrypt r)
    : s.SparesAdmin bcrypt r := by
  cases r with
  | userPatch token headers uuid password salt =>
    intro user htarget hadmin
    by_cases htoken : token ∈ s.tokens
    . exact (h.token token htoken).1 ((hok user htarget).symm.trans hadmin)
    . simp [Callers.Step, Callers.step, htoken] at hstep
  | _ => exact fun user htarget => absurd htarget (by simp [Callers.target])

theorem Callers.OwnPasswords.step (h : s.OwnPasswords) (hinv : s.Inv bcrypt org) (hok : s.SetsOwn bcrypt r)
    (hstep : s.Step bcrypt r t)
    : t.OwnPasswords := by
  cases outcome_of_step hstep with
  | userPatch htoken hm hpatch =>
    have hown := hok _ (target_userPatch hm hpatch)
    -- the tokens of the callers carry their own name, whatever the headers are
    have ⟨hname, _⟩ := authorize_eq_ok hinv.wf (hinv.token _ htoken).1 hm
    unfold Callers.patched
    split
    . exact h
    . intro m' name hmem
      obtain heq | hold := mem_cons.mp hmem
      . cases heq
        exact .inl (hname.trans hown.symm)
      . exact h m' name hold
  | _ => exact h

end Invariant

theorem no_escalation (bcrypt : Bcrypt) (org : Nat) {db : AccountDB} {known : List (String × String)} (hwf : db.Wf)
    (hout : Outsiders org bcrypt db known)
    : (∀ l t, Run (Guarded (Callers.SparesAdmin bcrypt) (Callers.Step bcrypt)) ⟨db, known, [], [], [], []⟩ l t →
        t.Safe org) ∧
      ∀ l t, Run (Guarded (Callers.SetsOwn bcrypt) (Callers.Step bcrypt)) ⟨db, known, [], [], [], []⟩ l t →
        t.Safe org ∧ t.OwnPasswords := by
  have hstart : Callers.Inv bcrypt org ⟨db, known, [], [], [], []⟩ := ⟨hwf, hout, by simp, by simp, by simp⟩
  constructor
  . intro l t hrun
    exact (hrun.invariant (Callers.Inv bcrypt org) (fun _ _ _ h hstep => h.step hstep.1 hstep.2) hstart).safe
  . intro l t hrun
    have hinv := hrun.invariant (fun s => s.Inv bcrypt org ∧ s.OwnPasswords)
      (fun _ _ _ h hstep => ⟨h.1.step (h.1.sparesAdmin hstep.2 hstep.1) hstep.2, h.2.step h.1 hstep.1 hstep.2⟩)
      ⟨hstart, by simp [Callers.OwnPasswords]⟩
    exact ⟨hinv.1.safe, hinv.2⟩

section Example

-- a hash that shows the password
def shown : Bcrypt := ⟨fun _ password => password, fun hash password => hash == password⟩

def tenants : AccountDB where
  users :=
    ((empty.insert ⟨0, "5f1c-admin", 1, "admin", "passw0rd"⟩).insert
      ⟨0, "5f1c-alice", 2, "alice", "alice-secret"⟩).insert ⟨0, "5f1c-mallory", 3, "mallory", "mallory-secret"⟩
  orgs := ((empty.insert ⟨0, "admin"⟩).insert ⟨0, "alice"⟩).insert ⟨0, "mallory"⟩
  members :=
    (((empty.insert ⟨0, 1, "admin", 1, "admin", OWNER⟩).insert ⟨0, 2, "alice", 2, "alice", OWNER⟩).insert
      ⟨0, 3, "mallory", 3, "mallory", OWNER⟩).insert ⟨0, 3, "mallory", 1, "admin", READER⟩

def mallory : List (String × String) := [("mallory", "mallory-secret")]

def malloryOwn : MemberShip := ⟨3, "mallory", 3, "mallory", OWNER⟩

def takeover : List Request :=
  [.apiLogin "mallory" "mallory-secret" (some "admin"),
    .userPatch ⟨"mallory", "admin"⟩ ⟨"", ""⟩ "5f1c-admin" "stolen-1" 0,
    .login "mallory" "mallory-secret",
    .orgPatch malloryOwn 3 ["mallory", "admin"] [] [],
    .apiLogin "admin" "stolen-1" (some "mallory")]

theorem tenants_wf : tenants.Wf where
  users := by decide
  user := by decide
  org := by decide

theorem mallory_outsider : Outsiders 2 shown tenants mallory := by
  have hlow : ¬tenants.High 2 "mallory" := by
    unfold AccountDB.High
    decide
  intro name password hmem _ _ _ _
  cases mem_singleton.mp hmem
  exact ⟨by decide, hlow⟩

instance (m : MemberShip) : Decidable m.IsAdmin := inferInstanceAs (Decidable (_ ∧ _))

instance (s : Callers) (r : Request) : Decidable (s.SetsOwn bcrypt r) :=
  match r with
  | .userPatch .. => inferInstanceAs (Decidable (∀ user ∈ _, _))
  | .login .. => .isTrue trivial
  | .apiLogin .. => .isTrue trivial
  | .orgPatch .. => .isTrue trivial

theorem no_escalation_tenants
    : tenants.Wf ∧ Outsiders 2 shown tenants mallory ∧
      ∃ t, Run (Guarded (Callers.SetsOwn shown) (Callers.Step shown)) ⟨tenants, mallory, [], [], [], []⟩
          [.login "mallory" "mallory-secret", .orgPatch malloryOwn 3 ["mallory", "alice"] ["alice"] [some 2],
            .apiLogin "mallory" "mallory-secret" none,
            .userPatch ⟨"mallory", "mallory"⟩ ⟨"", ""⟩ "5f1c-mallory" "mallory-new" 0] t ∧
        t.grants = [⟨malloryOwn, 3, "alice", 2⟩] ∧ t.changes = [(malloryOwn, "mallory")] ∧
        t.Safe 2 ∧ t.OwnPasswords := by
  refine ⟨tenants_wf, mallory_outsider, Run.exists_of_checked
    (fun t => t.grants = [⟨malloryOwn, 3, "alice", 2⟩] ∧ t.changes = [(malloryOwn, "mallory")])
    (by decide +kernel) ?_⟩
  intro t hrun ⟨hgrants, hchanges⟩
  have ⟨hsafe, hown⟩ := (no_escalation shown 2 tenants_wf mallory_outsider).2 _ t hrun
  exact ⟨hgrants, hchanges, hsafe, hown⟩

theorem reader_becomes_owner
    : tenants.Wf ∧ Outsiders 2 shown tenants mallory ∧
      ∃ t, Run (Callers.Step shown) ⟨tenants, mallory, [], [], [], []⟩ takeover t ∧
        ⟨"admin", "mallory"⟩ ∈ t.tokens ∧
        authorize t.db ⟨"admin", "mallory"⟩ ⟨"alice", "alice"⟩ = .ok ⟨2, "alice", 2, "alice", OWNER⟩ ∧
        t.changes = [(⟨3, "mallory", 1, "admin", READER⟩, "admin")] ∧ ¬t.Safe 2 ∧ ¬t.OwnPasswords := by
  refine ⟨tenants_wf, mallory_outsider, Run.exists_of_foldlM
    (fun t => ⟨"admin", "mallory"⟩ ∈ t.tokens ∧
      authorize t.db ⟨"admin", "mallory"⟩ ⟨"alice", "alice"⟩ = .ok ⟨2, "alice", 2, "alice", OWNER⟩ ∧
      t.changes = [(⟨3, "mallory", 1, "admin", READER⟩, "admin")])
    (by decide +kernel) ?_⟩
  intro t _ ⟨htoken, hauth, hchanges⟩
  refine ⟨htoken, hauth, hchanges, ?_, ?_⟩
  . intro hsafe
    have hlt := hsafe.token _ htoken _ _ hauth rfl
    exact absurd hlt (by decide)
  . intro hown
    have := hown _ _ (by rw [hchanges]; exact mem_singleton_self _)
    exact absurd this (by decide)

end Example

end Web.Account
