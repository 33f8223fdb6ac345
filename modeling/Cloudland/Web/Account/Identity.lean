import Cloudland.Web.Account.Escalation

/-!
Whose requests `Authorize` lets through: the tokens of `routes/jwt.go` and the header that carries them.
-/

namespace Web.Account

def APPNAME : String := "Cloudland"

structure Claims where
  audience : List String
  expiresAt : Int
  issuedAt : Int
  issuer : String
  notBefore : Int
  subject : String
  uid : String
  oid : String
  role : Int
  deriving DecidableEq

def newClaims (now : Int) (u o uid oid : String) (role : Int) : Claims :=
  ⟨[u], now + 2 * 60 * 60, now, "Cloudland", now, o, uid, oid, role⟩

structure Issue where
  now : Int
  user : User
  organization : String
  oid : String
  role : Int
  deriving DecidableEq

def Issue.claims (issue : Issue) : Claims :=
  newClaims issue.now issue.user.username issue.organization issue.user.uuid issue.oid issue.role

structure Jwt (history : List Issue) where
  parse : Int → List UInt8 → Option Claims
  sound : ∀ now token claims, parse now token = some claims →
    ∃ issue ∈ history, claims = issue.claims ∧ now < claims.expiresAt

/--
`Authorize` with the value of the header `Authorization`. A value that is too short is sliced behind its
end, which is answered by the recovery of the router.
-/
def authorizeRequest {history : List Issue} (jwt : Jwt history) (now : Int) (db : AccountDB)
    (authorization : List UInt8) (headers : Headers)
    : Except HttpError MemberShip := do
  if authorization = [] then
    throw ⟨401, "Invalid Token"⟩
  else if authorization.length < "bearer".length + 1 then
    throw ⟨500, ""⟩
  else
    match jwt.parse now (authorization.drop ("bearer".length + 1)) with
    | none => throw ⟨401, "Invalid Token"⟩
    | some claims =>
      if claims.issuer ≠ APPNAME then
        throw ⟨401, "Invalid Token"⟩
      else
        authorize db ⟨claims.audience.headD "", claims.subject⟩ headers

def UniqueNames (db : AccountDB) (history : List Issue) : Prop :=
  (∀ user ∈ db.users, ∀ user' ∈ db.users, user.username = user'.username → user.id = user'.id) ∧
    ∀ issue ∈ history, ∀ user ∈ db.users, user.username = issue.user.username → user.id = issue.user.id

instance (db : AccountDB) (history : List Issue) : Decidable (UniqueNames db history) :=
  inferInstanceAs (Decidable (_ ∧ _))

structure Identified (db : AccountDB) (issue : Issue) (m : MemberShip) (user : User) (org : Organization)
    (row : Member) : Prop where
  user_mem : user ∈ db.users
  org_mem : org ∈ db.orgs
  row_mem : row ∈ db.members
  userID : row.userID = user.id ∧ m.userID = user.id ∧ m.userName = row.userName
  orgID : row.orgID = org.id ∧ m.orgID = org.id ∧ m.orgName = row.orgName
  own : issue.user.username ≠ "admin" → user.id = issue.user.id
  role : user.username ≠ "admin" → m.role = row.role

variable {db : AccountDB} {token : Token} {headers : Headers} {m : MemberShip}

theorem getOrgByName_mem (h : db.getOrgByName name = .ok org) : org ∈ db.orgs := by
  rw [AccountDB.getOrgByName, orError_eq_ok] at h
  split at h
  . exact List.mem_of_head? h
  . exact (Table.find?_eq_some h).1

theorem getDBMemberShip_eq_ok (h : getDBMemberShip db userID orgID = .ok m)
    : ∃ row ∈ db.members, row.userID = userID ∧ row.orgID = orgID ∧
        m = ⟨userID, row.userName, orgID, row.orgName, row.role⟩ := by
  unfold getDBMemberShip at h
  simp only [Check.bind_eq_ok, orError_eq_ok] at h
  obtain ⟨row, hrow, h⟩ := h
  obtain ⟨hmem, hids⟩ := Table.find?_eq_some hrow
  simp only [Bool.and_eq_true, beq_iff_eq] at hids
  cases h
  exact ⟨row, hmem, hids.1, hids.2, rfl⟩

theorem authorize_headers (hadmin : token.audience ≠ "admin") (h : authorize db token headers = .ok m)
    : headers = ⟨"", ""⟩ := by
  unfold authorize at h
  by_cases hheaders : headers.user ≠ "" ∨ headers.org ≠ ""
  . rw [if_pos ⟨hheaders, hadmin⟩] at h
    simp at h
  . rw [not_or, not_not, not_not] at hheaders
    cases headers
    simpa using hheaders

def realUser (token : Token) (headers : Headers) : String := if headers.user = "" then token.audience else headers.user

theorem authorize_row (h : authorize db token headers = .ok m)
    : ∃ user ∈ db.users, ∃ org ∈ db.orgs, ∃ row ∈ db.members, user.username = realUser token headers ∧
        row.userID = user.id ∧ row.orgID = org.id ∧
        m = ⟨user.id, row.userName, org.id, row.orgName,
          if realUser token headers = "admin" then ADMIN else row.role⟩ := by
  unfold authorize at h
  by_cases hheaders : (headers.user ≠ "" ∨ headers.org ≠ "") ∧ token.audience ≠ "admin"
  . rw [if_pos hheaders] at h
    simp at h
  . rw [if_neg hheaders] at h
    simp only [Check.bind_eq_ok, answer_eq_ok, orError_eq_ok] at h
    obtain ⟨user, huser, org, horg, m', hm', h⟩ := h
    obtain ⟨huser, hname⟩ := userByName_eq_some huser
    obtain ⟨row, hrow, huserID, horgID, hm'⟩ := getDBMemberShip_eq_ok hm'
    refine ⟨user, huser, org, getOrgByName_mem horg, row, hrow, hname, huserID, horgID, ?_⟩
    cases h
    rw [hm']
    show (if realUser token headers = "admin" then _ else _) = _
    split
    . rfl
    . rfl

theorem authorizeRequest_eq_ok {jwt : Jwt history} {authorization : List UInt8}
    (h : authorizeRequest jwt now db authorization headers = .ok m)
    : ∃ issue ∈ history, jwt.parse now (authorization.drop 7) = some issue.claims ∧
        authorize db ⟨issue.user.username, issue.organization⟩ headers = .ok m := by
  unfold authorizeRequest at h
  split at h
  . simp at h
  . split at h
    . simp at h
    . split at h
      . simp at h
      . next claims hparse =>
        have ⟨issue, hmem, hclaims, _⟩ := jwt.sound _ _ _ hparse
        split at h
        . simp at h
        . rw [hclaims] at h
          exact ⟨issue, hmem, hclaims ▸ hparse, h⟩

theorem requests_identified {history : List Issue} (jwt : Jwt history) (now : Int) (db : AccountDB)
    (hnames : UniqueNames db history) (authorization : List UInt8) (headers : Headers) (m : MemberShip)
    (h : authorizeRequest jwt now db authorization headers = .ok m)
    : ∃ issue ∈ history, jwt.parse now (authorization.drop 7) = some issue.claims ∧
        (∃ user org row, Identified db issue m user org row) ∧
        (issue.user.username ≠ "admin" →
          ∀ headers' m', authorizeRequest jwt now db authorization headers' = .ok m' → m' = m) := by
  have ⟨issue, hissue, hparse, hauth⟩ := authorizeRequest_eq_ok h
  refine ⟨issue, hissue, hparse, ?_, ?_⟩
  . have ⟨user, huser, org, horg, row, hrow, hname, huserID, horgID, hm⟩ := authorize_row hauth
    refine ⟨user, org, row, huser, horg, hrow, ?_, ?_, ?_, ?_⟩
    . exact ⟨huserID, by rw [hm], by rw [hm]⟩
    . exact ⟨horgID, by rw [hm], by rw [hm]⟩
    . intro hadmin
      have hheaders := authorize_headers hadmin hauth
      rw [hheaders] at hname
      exact hnames.2 issue hissue user huser hname
    . intro hadmin
      rw [hm, if_neg (hname ▸ hadmin)]
  . intro hadmin headers' m' h'
    have ⟨issue', _, hparse', hauth'⟩ := authorizeRequest_eq_ok h'
    have hclaims := Option.some.inj (hparse'.symm.trans hparse)
    have haudience : issue'.user.username = issue.user.username := by
      have hlists := congrArg Claims.audience hclaims
      exact (List.cons.inj hlists).1
    have hadmin' := haudience ▸ hadmin
    rw [authorize_headers hadmin' hauth'] at h'
    rw [authorize_headers hadmin hauth, h'] at h
    exact Except.ok.inj h

section Example

def aliceToken : Issue := ⟨0, ⟨2, "5f1c-alice", 2, "alice", "alice-secret"⟩, "alice", "", OWNER⟩

def aliceJwt : Jwt [aliceToken] where
  parse now token := if now < aliceToken.claims.expiresAt ∧ token = [1] then some aliceToken.claims else none
  sound := by
    intro now token claims h
    split at h
    . next hnow =>
      cases h
      exact ⟨aliceToken, by simp, rfl, hnow.1⟩
    . contradiction

theorem requests_identified_alice
    : ∃ user org row, Identified tenants aliceToken ⟨2, "alice", 2, "alice", OWNER⟩ user org row := by
  have ⟨issue, hmem, _, hidentified, _⟩ := requests_identified aliceJwt 60 tenants (by decide) [0, 0, 0, 0, 0, 0, 0, 1]
    ⟨"", ""⟩ ⟨2, "alice", 2, "alice", OWNER⟩ (by decide)
  rw [List.mem_singleton] at hmem
  rwa [hmem] at hidentified

end Example

end Web.Account
