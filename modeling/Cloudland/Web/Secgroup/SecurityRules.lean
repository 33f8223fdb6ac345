import Cloudland.Web.Secgroup.Model

/-!
The rules of a security group: `SecruleAdmin.Create` and `SecruleAdmin.GetRule`.
-/

namespace Web.Secgroup

open List Check

structure RuleSpec where
  remoteIp : String
  direction : String
  protocol : String
  portMin : Int
  portMax : Int
  deriving DecidableEq

structure SecurityRule extends RuleSpec where
  id : Nat
  owner : Nat
  secgroup : Nat
  ipVersion : String
  name : String
  deriving DecidableEq

instance : Keyed SecurityRule :=
  ⟨SecurityRule.id, fun r id => { r with id := id }, fun _ _ => rfl, fun _ => rfl⟩

-- a field with its zero value is no condition
def fits [DecidableEq α] (zero wanted value : α) : Bool := wanted = zero || value = wanted

def RuleSpec.search (spec : RuleSpec) (secgroup : Nat) (r : SecurityRule) : Bool :=
  fits 0 secgroup r.secgroup && fits "" spec.remoteIp r.remoteIp && fits "" spec.direction r.direction
    && r.ipVersion == "ipv4" && fits "" spec.protocol r.protocol && fits 0 spec.portMin r.portMin
    && fits 0 spec.portMax r.portMax

variable (rules : Table SecurityRule)

def getRule (m : MemberShip) (spec : RuleSpec) (sg : SecurityGroup)
    : Except CLError SecurityRule := do
  require (m.validateOwner .reader sg.owner = true) ⟨.permissionDenied, "Not authorized for this operation"⟩
  found (rules.find? (spec.search sg.id)) ⟨.securityRuleNotFound, "Failed to find security rule"⟩

-- a port that is zero is left to the default of its column
def storedPort (port : Int) : Int := if port = 0 then -1 else port

def RuleSpec.normalised (spec : RuleSpec) : RuleSpec :=
  if spec.protocol = "icmp" then
    { spec with portMin := -1, portMax := -1 }
  else
    { spec with portMin := storedPort spec.portMin, portMax := storedPort spec.portMax }

/--
`SecruleAdmin.Create`. When there is a rule already it returns no rule and no error. `applied` is what
`ApplySecgroup` returns.
-/
def createRule (m : MemberShip) (name : String) (spec : RuleSpec) (sg : SecurityGroup)
    (applied : Except CLError PUnit)
    : Except CLError (Option SecurityRule × Table SecurityRule) := do
  require (m.validateOwner .writer sg.owner = true) ⟨.permissionDenied, "Not authorized for this operation"⟩
  match getRule rules m spec sg with
  | .ok _ => return (none, rules)
  | .error _ =>
    let rule : SecurityRule :=
      { spec.normalised with id := rules.next, owner := m.orgID, secgroup := sg.id, ipVersion := "ipv4", name := name }
    applied
    return (some rule, rules.insert rule)

def SecurityRule.is (r : SecurityRule) (spec : RuleSpec) (secgroup : Nat) : Bool :=
  r.secgroup == secgroup && r.ipVersion == "ipv4" && r.toRuleSpec == spec

structure Created (spec : RuleSpec) (sg : SecurityGroup) (res : Option SecurityRule)
    (rules' : Table SecurityRule) : Prop where
  once : (rules'.filter (·.is spec.normalised sg.id)).length = 1
  kept : ∀ r ∈ rules, r ∈ rules'
  returned : ∃ r, res = some r ∧ r.is spec.normalised sg.id

theorem validateOwner_reader {m : MemberShip} (h : m.validateOwner .writer owner = true)
    : m.validateOwner .reader owner = true := by
  unfold MemberShipOf.validateOwner at h ⊢
  by_cases howner : owner = 0
  . rw [if_pos howner] at h
    contradiction
  . rw [if_neg howner] at h ⊢
    by_cases hrole : IsRole.toInt m.role < IsRole.toInt Role.writer
    . rw [if_pos hrole] at h
      contradiction
    . rw [if_neg hrole] at h
      rw [if_neg (fun hlt => hrole (Int.lt_trans hlt (by decide)))]
      exact h

theorem length_filter_insert {rules : Table SecurityRule} (h : p (Keyed.setKey rule rules.next) = true)
    : ((rules.insert rule).filter p).length = 1 ↔ ∀ r ∈ rules, p r = false := by
  simp only [Table.filter, Table.insert, filter_append, length_append, filter_cons, h, if_true,
    filter_nil, length_singleton, Nat.add_eq_right, length_eq_zero_iff, filter_eq_nil_iff,
    Bool.not_eq_true]
  rfl

theorem createRule_created {rules rules' : Table SecurityRule} {m : MemberShip} {name : String} {spec : RuleSpec}
    {sg : SecurityGroup} {applied : Except CLError PUnit} {res : Option SecurityRule}
    (h : createRule rules m name spec sg applied = .ok (res, rules'))
    : Created rules spec sg res rules'
        ↔
      ∀ r ∈ rules, spec.search sg.id r = false ∧ r.is spec.normalised sg.id = false := by
  unfold createRule at h
  simp only [bind_eq_ok, require_eq_ok] at h
  obtain ⟨_, hwriter, h⟩ := h
  have hget : getRule rules m spec sg
      = found (rules.find? (spec.search sg.id)) ⟨.securityRuleNotFound, "Failed to find security rule"⟩ := by
    simp [getRule, require, validateOwner_reader hwriter]
    rfl
  cases hfind : rules.find? (spec.search sg.id) with
  | some r =>
    simp only [hget, hfind, found, pure_eq_ok, Prod.mk.injEq] at h
    constructor
    . intro hcreated
      obtain ⟨_, hsome, _⟩ := hcreated.returned
      rw [← h.1] at hsome
      contradiction
    . intro hnone
      obtain ⟨hmem, hsearch⟩ := Table.find?_eq_some hfind
      rw [(hnone r hmem).1] at hsearch
      contradiction
  | none =>
    simp only [hget, hfind, found, bind_eq_ok, pure_eq_ok, Prod.mk.injEq] at h
    obtain ⟨_, _, hres, hrules⟩ := h
    have hsearch : ∀ r ∈ rules, spec.search sg.id r = false :=
      fun r hr => Bool.not_eq_true _ ▸ find?_eq_none.mp hfind r hr
    subst hrules
    constructor
    . intro hcreated r hr
      exact ⟨hsearch r hr, (length_filter_insert (by simp [SecurityRule.is, Keyed.setKey])).mp hcreated.once r hr⟩
    . intro hnone
      refine ⟨?_, fun r hr => Table.mem_insert.mpr (.inl hr), _, hres.symm, by simp [SecurityRule.is]⟩
      exact (length_filter_insert (by simp [SecurityRule.is, Keyed.setKey])).mpr (fun r hr => (hnone r hr).2)

def writer : MemberShip := ⟨1, "alice", 1, "alice", .writer⟩

def oneGroup : SecurityGroup := ⟨1, 1, "web", false, 0, 0, 0⟩

def tcp (portMin portMax : Int) : RuleSpec := ⟨"0.0.0.0/0", "ingress", "tcp", portMin, portMax⟩

def icmp (portMin portMax : Int) : RuleSpec := ⟨"0.0.0.0/0", "ingress", "icmp", portMin, portMax⟩

def ruleOf (spec : RuleSpec) : Table SecurityRule :=
  Table.empty.insert { spec with id := 0, owner := 1, secgroup := 1, ipVersion := "ipv4", name := "" }

theorem createRule_created_second
    : ∃ res rules', createRule (ruleOf (tcp 22 22)) writer "web" (tcp 80 80) oneGroup (.ok ⟨⟩) = .ok (res, rules') ∧
      Created (ruleOf (tcp 22 22)) (tcp 80 80) oneGroup res rules' :=
  have heq : createRule (ruleOf (tcp 22 22)) writer "web" (tcp 80 80) oneGroup (.ok ⟨⟩) = .ok _ := rfl
  ⟨_, _, heq, (createRule_created heq).mpr (by decide)⟩

theorem createRule_not_created
    : (∃ res rules', createRule (ruleOf (tcp 80 80)) writer "web" (tcp 80 80) oneGroup (.ok ⟨⟩) = .ok (res, rules') ∧
        res = none ∧ ¬Created (ruleOf (tcp 80 80)) (tcp 80 80) oneGroup res rules') ∧
      (∃ res rules', createRule (ruleOf (tcp 80 80)) writer "web" (tcp 0 0) oneGroup (.ok ⟨⟩) = .ok (res, rules') ∧
        ¬Created (ruleOf (tcp 80 80)) (tcp 0 0) oneGroup res rules') ∧
      ∃ res rules', createRule (ruleOf (icmp (-1) (-1))) writer "web" (icmp 1 1) oneGroup (.ok ⟨⟩) = .ok (res, rules') ∧
        (rules'.filter (·.is (icmp (-1) (-1)) 1)).length = 2 ∧
        ¬Created (ruleOf (icmp (-1) (-1))) (icmp 1 1) oneGroup res rules' := by
  refine ⟨⟨_, _, rfl, rfl, ?_⟩, ⟨_, _, rfl, ?_⟩, _, _, rfl, by decide, ?_⟩
  . exact fun h => by simpa using h.returned
  . exact fun h => by simpa using h.returned
  . exact fun h => absurd h.once (by decide)

end Web.Secgroup
