import Cloudland.Web.Account.Escalation

/-!
What a change of a password and a change of the members of an organization leave in the tables.
-/

namespace Web.Account

open List Table

section Password

structure OnlyPassword (id : Nat) (db db' : AccountDB) : Prop where
  members : ∀ m, m ∈ db'.members ↔ m ∈ db.members
  orgs : db'.orgs = db.orgs
  others : ∀ u, u.id ≠ id → (u ∈ db'.users ↔ u ∈ db.users)
  own : ∀ u ∈ db.users, u.id = id → ∃ password, { u with password } ∈ db'.users

variable {db db' : AccountDB} {user : User} {m : MemberShip} {uuid password : String}

theorem userPatch_only_password (h : userPatch bcrypt db m uuid password salt = .ok (user, db'))
    : OnlyPassword user.id db db'
        ↔
      ∀ em ∈ db.membersOf user, ∀ m ∈ db.members, ¬(m.userName = user.username ∧ m.orgName = em.orgName) := by
  have ⟨hmem, heq⟩ := userPatch_spec h
  have hmembers : ∀ m, m ∈ db'.members ↔
      m ∈ db.members ∧ ∀ em ∈ db.membersOf user, ¬(m.userName = user.username ∧ m.orgName = em.orgName) := by
    intro m
    rw [heq, mem_deleteMembers]
    split <;> rfl
  constructor
  . intro honly em hem m hm
    exact ((hmembers m).mp ((honly.members m).mpr hm)).2 em hem
  . intro hnone
    refine ⟨?_, ?_, ?_, ?_⟩
    . intro m
      rw [hmembers]
      exact and_iff_left_of_imp (fun hm em hem => hnone em hem m hm)
    . rw [heq, deleteMembers_users.2]
      split <;> rfl
    . intro u hid
      rw [heq, deleteMembers_users.1]
      split
      . rw [mem_setPassword hmem]
        constructor
        . intro hu
          obtain hold | hnew := hu
          . exact hold.1
          . exact absurd (by rw [hnew]) hid
        . exact fun hu => .inl ⟨hu, hid⟩
      . rfl
    . intro u hu hid
      rw [heq, deleteMembers_users.1]
      split
      . rw [show u = user from eq_of_key hu hmem hid]
        exact ⟨_, (mem_setPassword hmem).mpr (.inr rfl)⟩
      . exact ⟨u.password, hu⟩

def reader : AccountDB where
  users := empty.insert ⟨0, "u", 1, "alice", "old secret"⟩
  orgs := empty.insert ⟨0, "alice"⟩
  members := empty.insert ⟨0, 1, "alice", 1, "alice", OWNER⟩

def loner : AccountDB := { reader with members := empty }

def alice : MemberShip := ⟨1, "alice", 1, "alice", OWNER⟩

theorem userPatch_only_password_loner
    : ∃ user db', userPatch shown loner alice "u" "new secret" 0 = .ok (user, db') ∧ OnlyPassword user.id loner db' :=
  have heq : userPatch shown loner alice "u" "new secret" 0 = .ok (⟨1, "u", 1, "alice", "old secret"⟩, _) := rfl
  ⟨_, _, heq, (userPatch_only_password heq).mpr (by decide)⟩

theorem userPatch_removes_members
    : ∃ user db', userPatch shown reader alice "u" "new secret" 0 = .ok (user, db') ∧ db'.members.rows = [] ∧
      ¬OnlyPassword user.id reader db' := by
  refine ⟨⟨1, "u", 1, "alice", "old secret"⟩, _, rfl, by decide +kernel, ?_⟩
  intro h
  have hmem : ⟨1, 1, "alice", 1, "alice", OWNER⟩ ∈ reader.members := by decide
  exact absurd ((h.members _).mpr hmem) (by decide +kernel)

end Password

section Members

def requested (members : List String) : List String := (members.map trimSpace).filter (· ≠ "")

namespace AccountDB

-- `roles[i]` panics where the roles run out
def orgAdminUpdate (db : AccountDB) (orgID : Nat) (members users : List String) (roles : List Int)
    : Option (Except CLError AccountDB) :=
  match db.updateOrg orgID members users roles with
  | .ok db' => if users.length ≤ roles.length then some (.ok db') else none
  | .error e => some (.error e)

def held (db : AccountDB) (orgID : Nat) (name : String) : List Member :=
  db.members.filter (fun m => m.orgID == orgID && m.userName == name)

def addNamed (org : Organization) (orgID : Nat) (old : List Member) (db : AccountDB) (name : String) : AccountDB :=
  if old.any (fun em => em.userName == name) then
    db
  else
    match db.userByName name with
    | some user => db.addMember org orgID user
    | none => db

def dropUnnamed (orgID : Nat) (names : List String) (db : AccountDB) (em : Member) : AccountDB :=
  if em.userName ∈ names then db else db.removeMember orgID em.userName

end AccountDB

def roleAfter (l : List (String × Int)) (userName : String) (role : Int) : Int :=
  l.foldl (fun role p => if userName = p.1 then p.2 else role) role

structure Updated (db : AccountDB) (orgID : Nat) (names users : List String) (roles : List Int) (db' : AccountDB)
    : Prop where
  exact : ∀ n, (db'.held orgID n).length = if n ∈ names ∧ (db.userByName n).isSome then 1 else 0
  kept : ∀ m ∈ db.members, ∀ m' ∈ db'.members, m.orgID = orgID → m'.orgID = orgID → m'.userName = m.userName →
    m.userName ∉ users → m'.role = m.role
  listed : ∀ p ∈ users.zip roles, ∀ m ∈ db'.members, m.orgID = orgID → m.userName = p.1 → m.role = p.2
  others : ∀ m, m.orgID ≠ orgID → (m ∈ db'.members ↔ m ∈ db.members)

structure Renewable (db : AccountDB) (orgID : Nat) (names users : List String) (roles : List Int) : Prop where
  enough : users.length ≤ roles.length
  known : ∀ n ∈ names, (db.userByName n).isSome →
    db.held orgID "" = [] ∧ if db.held orgID n = [] then names.count n = 1 else (db.held orgID n).length = 1
  unknown : ∀ n ∈ names, db.userByName n = none → db.held orgID n = [] ∨ db.held orgID "" ≠ []
  listed : ∀ p ∈ users.zip roles, ∀ q ∈ users.zip roles, p.1 = q.1 → p.1 ∈ names → (db.userByName p.1).isSome →
    p.2 = q.2

variable {db db' : AccountDB} {org : Organization} {orgID : Nat} {old new : List Member}
variable {names users : List String} {roles : List Int}

theorem addNamed_foldl
    : ∃ new, (names.foldl (AccountDB.addNamed org orgID old) db).members.rows = db.members.rows ++ new ∧
        (∀ m ∈ new, m.orgID = orgID) ∧
        new.map Member.userName
          = names.filter (fun n => !old.any (fun em => em.userName == n) && (db.userByName n).isSome) := by
  induction names generalizing db with
  | nil => exact ⟨[], by simp⟩
  | cons name names ih =>
    have ⟨new, hrows, horg, hnames⟩ := @ih (db.addNamed org orgID old name)
    rw [foldl_cons, hrows, filter_cons]
    unfold AccountDB.addNamed at hnames ⊢
    by_cases hold : old.any (fun em => em.userName == name) = true
    . simp only [hold, if_true] at hnames ⊢
      exact ⟨new, rfl, horg, hnames⟩
    . rw [if_neg hold] at hnames ⊢
      cases huser : db.userByName name with
      | none =>
        simp only [huser] at hnames
        exact ⟨new, rfl, horg, by simpa using hnames⟩
      | some user =>
        simp only [huser] at hnames
        have hname := (userByName_eq_some huser).2
        refine ⟨⟨db.members.next, user.id, user.username, orgID, org.name, READER⟩ :: new, ?_, ?_, ?_⟩
        . exact append_assoc _ _ _
        . simpa using horg
        . have hsame : (db.addMember org orgID user).userByName = db.userByName := rfl
          rw [hsame] at hnames
          simp [hnames, hname, hold]

theorem dropUnnamed_foldl
    : (old.foldl (AccountDB.dropUnnamed orgID names) db).members.rows
        =
      db.members.rows.filter (fun m => old.all (fun em => em.userName ∈ names ||
        !((em.userName == "" || m.userName == em.userName) && (orgID == 0 || m.orgID == orgID)))) := by
  induction old generalizing db with
  | nil => simp
  | cons em old ih =>
    rw [foldl_cons, ih]
    unfold AccountDB.dropUnnamed
    split
    . next hmem => simp [hmem]
    . next hmem =>
      show filter _ (filter _ _) = _
      rw [filter_filter]
      simp [hmem, Bool.and_comm]

theorem setRole_foldl
    : (l.foldl (fun db p => db.setRole orgID p.1 p.2) db).members.rows
        =
      db.members.rows.map (fun m =>
        if m.orgID = orgID then { m with role := roleAfter l m.userName m.role } else m) := by
  induction l generalizing db with
  | nil => simp [roleAfter]
  | cons p l ih =>
    rw [foldl_cons, ih]
    show map _ (map _ _) = _
    rw [map_map]
    apply map_congr_left
    intro m _
    by_cases horg : m.orgID = orgID
    . by_cases hname : m.userName = p.1
      . simp only [Function.comp_apply, horg, hname, beq_self_eq_true, Bool.and_self, if_true, roleAfter,
          foldl_cons, Keyed.setKey, Keyed.key]
      . simp [horg, hname, roleAfter]
    . simp [horg]

theorem roleAfter_eq (hall : ∀ p ∈ l, p.1 = n → p.2 = role) (h : (n, role) ∈ l ∨ r = role)
    : roleAfter l n r = role := by
  induction l generalizing r with
  | nil => simpa [roleAfter] using h
  | cons p l ih =>
    apply ih (fun p hp => hall p (mem_cons_of_mem _ hp))
    by_cases hname : n = p.1
    . exact .inr (by simpa [hname] using hall p mem_cons_self hname.symm)
    . simp only [if_neg hname]
      refine h.imp_left ?_
      intro hmem
      obtain heq | hmem := mem_cons.mp hmem
      . exact absurd (by rw [← heq]) hname
      . exact hmem

def renewRole (orgID : Nat) (l : List (String × Int)) (m : Member) : Member :=
  if m.orgID = orgID then { m with role := roleAfter l m.userName m.role } else m

def stays (db : AccountDB) (orgID : Nat) (names : List String) (m : Member) : Bool :=
  m.orgID ≠ orgID || (db.held orgID "" = [] && (m.userName ∈ names || db.held orgID m.userName = []))

theorem mem_held : m ∈ db.held orgID n ↔ m ∈ db.members ∧ m.orgID = orgID ∧ m.userName = n := by
  simp [AccountDB.held]

theorem held_eq_nil
    : db.held orgID n = [] ↔ ∀ em ∈ db.members.filter (fun m => m.orgID == orgID), em.userName ≠ n := by
  simp [AccountDB.held, filter_eq_nil_iff, Table.filter]

theorem stays_eq (horg : orgID ≠ 0) (hnames : "" ∉ names) (m : Member)
    : (db.members.filter (fun m => m.orgID == orgID)).all (fun em => em.userName ∈ names ||
        !((em.userName == "" || m.userName == em.userName) && (orgID == 0 || m.orgID == orgID)))
        =
      stays db orgID names m := by
  rw [Bool.eq_iff_iff]
  simp only [all_eq_true, stays, held_eq_nil, Bool.or_eq_true, Bool.and_eq_true, decide_eq_true_eq,
    Bool.not_eq_true', Bool.and_eq_false_iff, Bool.or_eq_false_iff, beq_eq_false_iff_ne, ne_eq, horg, not_false_eq_true,
    true_and]
  constructor
  . intro h
    by_cases hm : m.orgID = orgID
    . refine .inr ⟨?_, ?_⟩
      . intro em hem heq
        have := h em hem
        simp_all
      . by_cases hmem : m.userName ∈ names
        . exact .inl hmem
        . refine .inr ?_
          intro em hem heq
          have := h em hem
          simp_all
    . exact .inl hm
  . intro h em hem
    obtain hm | hm := h
    . exact .inr (.inr hm)
    . by_cases hmem : em.userName ∈ names
      . exact .inl hmem
      . refine .inr (.inl ⟨hm.1 em hem, ?_⟩)
        intro heq
        obtain hin | hnone := hm.2
        . exact hmem (heq ▸ hin)
        . exact hnone em hem heq.symm

structure Rewritten (db : AccountDB) (orgID : Nat) (names users : List String) (roles : List Int)
    (new : List Member) (db' : AccountDB) : Prop where
  added : ∀ m ∈ new, m.orgID = orgID
  missing : new.map Member.userName = names.filter (fun n => db.held orgID n = [] && (db.userByName n).isSome)
  rows : db'.members.rows
    = ((db.members.rows ++ new).filter (stays db orgID names)).map (renewRole orgID (users.zip roles))

theorem updateOrg_rows (horg : org ∈ db.orgs) (members users : List String) (roles : List Int)
    : ∃ db' new, db.updateOrg org.id members users roles = .ok db' ∧
        Rewritten db org.id (requested members) users roles new db' := by
  have hpos : org.id ≠ 0 := Nat.ne_of_gt (db.orgs.bounds org horg).1
  have htake : db.orgs.take org.id = some org := by
    rw [Table.take, if_neg hpos]
    exact byKey?_eq_some.mpr ⟨horg, rfl⟩
  obtain ⟨new, hnew, hid, hnames⟩ := @addNamed_foldl db org org.id (db.members.filter (fun m => m.orgID == org.id))
    (requested members)
  refine ⟨_, new, by rw [AccountDB.updateOrg, htake]; rfl, hid, ?_, ?_⟩
  . rw [hnames]
    apply filter_congr
    intro n _
    rw [Bool.eq_iff_iff]
    simp [held_eq_nil]
  . refine setRole_foldl.trans (congrArg (map _) ?_)
    refine (@dropUnnamed_foldl (requested members |>.foldl (AccountDB.addNamed org org.id
      (db.members.filter (fun m => m.orgID == org.id))) db) org.id _ (requested members)).trans ?_
    rw [hnew]
    exact filter_congr (fun m _ => stays_eq hpos (by simp [requested]) m)

theorem renewRole_fields {l : List (String × Int)} {m : Member}
    : (renewRole orgID l m).orgID = m.orgID ∧ (renewRole orgID l m).userName = m.userName := by
  unfold renewRole
  split <;> exact ⟨rfl, rfl⟩

namespace Rewritten

section Rewritten

variable (h : Rewritten db orgID names users roles new db')

include h

theorem mem
    : m' ∈ db'.members
        ↔
      ∃ m, (m ∈ db.members.rows ∨ m ∈ new) ∧ stays db orgID names m ∧ renewRole orgID (users.zip roles) m = m' := by
  rw [mem_def, h.rows]
  simp only [mem_map, mem_filter, mem_append, and_assoc]

theorem countP_new (n : String)
    : new.countP (fun m => m.orgID == orgID && m.userName == n)
        =
      if db.held orgID n = [] ∧ (db.userByName n).isSome then names.count n else 0 := by
  have hcount : new.countP (fun m => m.orgID == orgID && m.userName == n) = (new.map Member.userName).count n := by
    rw [count, countP_map]
    exact countP_congr (fun m hm => by simp [h.added m hm])
  rw [hcount, h.missing]
  split
  . next hmissing => exact count_filter (by simpa using hmissing)
  . next hmissing => exact count_eq_zero.mpr (by simpa using fun _ => not_and.mp hmissing)

theorem length_held (n : String)
    : (db'.held orgID n).length
        =
      if db.held orgID "" = [] ∧ (n ∈ names ∨ db.held orgID n = []) then
        (db.held orgID n).length + if db.held orgID n = [] ∧ (db.userByName n).isSome then names.count n else 0
      else
        0 := by
  rw [AccountDB.held, Table.filter, h.rows, ← countP_eq_length_filter, countP_map, countP_filter]
  simp only [Function.comp_apply, renewRole_fields]
  split
  . next hcond =>
    have hsame : ∀ m : Member, (m.orgID == orgID && m.userName == n && stays db orgID names m)
        = (m.orgID == orgID && m.userName == n) := by
      intro m
      by_cases h : m.orgID = orgID ∧ m.userName = n
      . simp [stays, h.1, h.2, hcond]
      . rw [not_and_or] at h
        obtain h | h := h
        . simp [h]
        . simp [h]
    simp only [hsame]
    rw [countP_append, h.countP_new, AccountDB.held, Table.filter, ← countP_eq_length_filter]
  . next hcond =>
    rw [countP_eq_zero]
    intro m _ h
    simp only [Bool.and_eq_true, beq_iff_eq, stays] at h
    apply hcond
    simpa [h.1.1, h.1.2] using h.2

theorem others (hm : m.orgID ≠ orgID) : m ∈ db'.members ↔ m ∈ db.members := by
  rw [h.mem]
  constructor
  . intro ⟨m0, hm0, _, heq⟩
    have h0 := (@renewRole_fields orgID (users.zip roles) m0).1
    rw [heq] at h0
    rw [renewRole, if_neg (h0 ▸ hm)] at heq
    rw [← heq]
    exact hm0.resolve_right (fun hm0 => hm (h0.trans (h.added m0 hm0)))
  . intro hmem
    exact ⟨m, .inl hmem, by simp [stays, hm], by rw [renewRole, if_neg hm]⟩

end Rewritten

end Rewritten

section Renewable

variable (h : Renewable db orgID names users roles) (hdb : Rewritten db orgID names users roles new db')

include h hdb

theorem Renewable.exact (n : String)
    : (db'.held orgID n).length = if n ∈ names ∧ (db.userByName n).isSome then 1 else 0 := by
  rw [hdb.length_held]
  by_cases hn : n ∈ names
  . by_cases huser : (db.userByName n).isSome = true
    . have ⟨hblank, hone⟩ := h.known n hn huser
      split at hone
      . next hnil => simp [hblank, hnil, hn, huser, hone]
      . next hnil => simp [hblank, hnil, hn, huser, hone]
    . simp only [huser, and_false, if_false, Bool.false_eq_true, Nat.add_zero]
      split
      . next hcond => simpa [hcond.1] using h.unknown n hn (by simpa using huser)
      . rfl
  . simp only [hn, false_or, false_and, if_false]
    split
    . next hcond => simp [hcond.2, count_eq_zero.mpr hn]
    . rfl

theorem Renewable.member (hm : m ∈ db'.members) (horg : m.orgID = orgID)
    : m.userName ∈ names ∧ (db.userByName m.userName).isSome := by
  have hpos := length_pos_of_mem (mem_held.mpr ⟨hm, horg, rfl⟩)
  have hlen := h.exact hdb m.userName
  by_contra hneg
  rw [if_neg hneg] at hlen
  exact absurd hlen (Nat.ne_of_gt hpos)

theorem Renewable.updated : Updated db orgID names users roles db' := by
  refine ⟨h.exact hdb, ?_, ?_, fun m hm => hdb.others hm⟩
  . intro m hm m' hm' hmorg hm'org hname hunlisted
    have ⟨hn, huser⟩ := h.member hdb hm' hm'org
    have ⟨m0, hm0, _, heq⟩ := hdb.mem.mp hm'
    have ⟨h0org, h0name⟩ := @renewRole_fields orgID (users.zip roles) m0
    rw [heq] at h0org h0name
    have hheld := mem_held.mpr ⟨hm, hmorg, rfl⟩
    have hne := ne_nil_of_mem hheld
    have hone := (h.known _ hn huser).2
    rw [hname, if_neg hne] at hone
    -- the rows that were added are of names without a row
    have hm0 : m0 ∈ db.members.rows := by
      refine hm0.resolve_right ?_
      intro hm0
      have hin := mem_map_of_mem (f := Member.userName) hm0
      rw [hdb.missing, ← h0name, hname] at hin
      simp [hne] at hin
    have h0held :=
      mem_held.mpr ⟨hm0, h0org.symm.trans hm'org, h0name.symm.trans hname⟩
    have ⟨a, ha⟩ := length_eq_one_iff.mp hone
    rw [ha, mem_singleton] at hheld h0held
    have hsame := h0held.trans hheld.symm
    rw [← heq, hsame, renewRole, if_pos hmorg]
    exact roleAfter_eq (fun p hp hp1 => absurd (hp1 ▸ (of_mem_zip hp).1) hunlisted) (.inr rfl)
  . intro p hp m' hm' hm'org hname
    have ⟨hn, huser⟩ := h.member hdb hm' hm'org
    have ⟨m0, _, _, heq⟩ := hdb.mem.mp hm'
    have ⟨h0org, h0name⟩ := @renewRole_fields orgID (users.zip roles) m0
    rw [heq] at h0org h0name
    have hp1 := hname.symm.trans h0name
    rw [← heq, renewRole, if_pos (h0org ▸ hm'org)]
    refine roleAfter_eq ?_ (.inl (hp1 ▸ hp))
    intro q hq hq1
    exact (h.listed p hp q hq (hp1.trans hq1.symm) (hname ▸ hn) (hname ▸ huser)).symm

end Renewable

theorem Updated.renewable (h : Updated db orgID names users roles db')
    (hdb : Rewritten db orgID names users roles new db') (henough : users.length ≤ roles.length)
    : Renewable db orgID names users roles := by
  refine ⟨henough, ?_, ?_, ?_⟩
  . intro n hn huser
    have hone := (h.exact n).trans (if_pos ⟨hn, huser⟩)
    rw [hdb.length_held] at hone
    split at hone
    . next hcond =>
      refine ⟨hcond.1, ?_⟩
      split
      . next hnil => simpa [hnil, huser] using hone
      . next hnil => simpa [hnil] using hone
    . contradiction
  . intro n hn huser
    have hzero := (h.exact n).trans (if_neg (by simp [huser]))
    by_contra hneg
    rw [not_or, not_not] at hneg
    rw [hdb.length_held, if_pos ⟨hneg.2, .inl hn⟩, Nat.add_eq_zero_iff] at hzero
    exact hneg.1 (length_eq_zero_iff.mp hzero.1)
  . intro p hp q hq hname hn huser
    have hone := (h.exact p.1).trans (if_pos ⟨hn, huser⟩)
    have ⟨m, hm⟩ := exists_mem_of_length_pos (hone ▸ Nat.one_pos)
    have ⟨hm, hmorg, hmname⟩ := mem_held.mp hm
    exact (h.listed p hp m hm hmorg hmname).symm.trans (h.listed q hq m hm hmorg (hmname.trans hname))

theorem updateOrg_exact (horg : org ∈ db.orgs) (members users : List String) (roles : List Int)
    : (db.orgAdminUpdate org.id members users roles ≠ none ∧
        ∀ db', db.orgAdminUpdate org.id members users roles = some (.ok db') →
          Updated db org.id (requested members) users roles db')
        ↔
      Renewable db org.id (requested members) users roles := by
  have ⟨db', new, hupdate, hdb⟩ := updateOrg_rows horg members users roles
  simp only [AccountDB.orgAdminUpdate, hupdate]
  by_cases henough : users.length ≤ roles.length
  . simp only [if_pos henough, Option.some.injEq, Except.ok.injEq, forall_eq', ne_eq, reduceCtorEq,
      not_false_eq_true, true_and]
    exact ⟨fun h => h.renewable hdb henough, fun h => h.updated hdb⟩
  . simp only [if_neg henough, ne_eq, not_true_eq_false, false_and, false_iff]
    exact fun h => henough h.enough

def team : AccountDB where
  users := (empty.insert ⟨0, "u", 1, "alice", ""⟩).insert ⟨0, "v", 2, "bob", ""⟩
  orgs := empty.insert ⟨0, "alice"⟩
  members := empty.insert ⟨0, 1, "alice", 1, "alice", OWNER⟩

def Grants (members users : List String) (roles : List Int) : Prop :=
  team.orgAdminUpdate 1 members users roles ≠ none ∧
    ∀ db', team.orgAdminUpdate 1 members users roles = some (.ok db') →
      Updated team 1 (requested members) users roles db'

theorem updateOrg_exact_team : Grants ["alice", " bob ", "", "nobody"] ["bob"] [OWNER] := by
  have horg : ⟨1, "alice"⟩ ∈ team.orgs := by decide
  refine (updateOrg_exact horg _ _ _).mpr ⟨by decide, ?_, ?_, ?_⟩
  . decide +kernel
  . decide +kernel
  . decide +kernel

theorem updateOrg_not_exact
    : ¬Grants ["alice", "bob", "bob"] [] [] ∧ team.orgAdminUpdate 1 ["alice"] ["alice"] [] = none ∧
      ¬Grants ["alice"] ["alice", "alice"] [OWNER, READER] := by
  refine ⟨?_, by decide +kernel, ?_⟩
  . intro h
    exact absurd ((h.2 _ rfl).exact "bob") (by decide +kernel)
  . intro h
    exact absurd ((h.2 _ rfl).listed ("alice", OWNER) (by decide) ⟨1, 1, "alice", 1, "alice", READER⟩
      (by decide +kernel) rfl rfl) (by decide)

end Members

end Web.Account
