import Cloudland.Core.NetLayer

/-!
What `NetLayer::groupMessage` and `NetLayer::sendMessage` take and give back, when the calls of the SCI
library can fail.
-/

open CString Option
open Sci (SCI_GROUP_ALL)

namespace NetLayer.Release

structure Answers where
  -- how many members the memory can take
  room : Nat
  create : Option Int
  garbage : Int
  bcast : Bool
  free : Bool
  deriving DecidableEq

inductive SciCall where
  | create (members : List Int) (group : Option Int)
  | bcast (useFilter : Bool) (group : Int) (ok : Bool)
  | free (group : Int) (ok : Bool)
  deriving DecidableEq

structure State where
  groupMap : CString → Option GroupDesc
  -- the mutex is locked
  ser : Bool

inductive Exit where
  | returned
  | thrown
  -- the request waits for the mutex
  | blocked
  deriving DecidableEq

structure Result where
  state : State
  log : List SciCall
  exit : Exit

inductive Request where
  | group (desc : CString)
  | name (grpName : Option CString) (useFilter : Bool)
  | node (beID : Int)
  deriving DecidableEq

namespace State

def enter (s : State) (desc : CString) (group : Int) : State :=
  { s with groupMap := Function.update s.groupMap (groupName desc) (some ⟨group, desc⟩) }

def Has (s : State) (desc : CString) : Prop := (s.groupMap (groupName desc)).any (fun d => d.desc = desc)

instance (s : State) (desc : CString) : Decidable (s.Has desc) := inferInstanceAs (Decidable (_ = true))

variable (s : State)

/--
`createGroup` for a description with a colon. It throws `bad_alloc` where the memory does not take the members; a loop
over them without an end comes to that in any memory.
-/
def createGroup (ans : Answers) (desc : CString) : Option (State × List SciCall) :=
  if s.Has desc then
    some (s, [])
  else do
    let ids ← (memberIds desc).filter (fun ids => ids.length ≤ ans.room)
    if ids = [] then
      return (s.enter desc SCI_GROUP_ALL, [])
    else
      return (s.enter desc (ans.create.getD ans.garbage), [.create ids ans.create])

def target (grpName : Option CString) : Int :=
  match grpName.bind s.groupMap with
  | some d => d.group
  | none => SCI_GROUP_ALL

def freeGroup (ans : Answers) (grpName : CString) : State × List SciCall :=
  match s.groupMap grpName with
  | some d => ({ s with groupMap := Function.update s.groupMap grpName none }, [.free d.group ans.free])
  | none => (s, [])

def send (ans : Answers) (useFilter : Bool) (group : Int) : Result :=
  ⟨s, [.bcast useFilter group ans.bcast], if ans.bcast then .returned else .thrown⟩

def groupMessage (ans : Answers) (desc : CString) : Result :=
  if COLON ∈ desc then
    if s.ser then
      ⟨s, [], .blocked⟩
    else
      match State.createGroup { s with ser := true } ans desc with
      | none => ⟨{ s with ser := true }, [], .thrown⟩
      | some made =>
        let sent := made.1.send ans false (made.1.target (some (groupName desc)))
        match sent.exit with
        | .returned =>
          let freed := sent.state.freeGroup ans (groupName desc)
          ⟨{ freed.1 with ser := false }, made.2 ++ sent.log ++ freed.2, .returned⟩
        | exit => ⟨sent.state, made.2 ++ sent.log, exit⟩
  else
    s.send ans false (s.target (some desc))

def exec : Request × Answers → Result
  | (.group desc, ans) => s.groupMessage ans desc
  | (.name grpName useFilter, ans) => s.send ans useFilter (s.target grpName)
  | (.node beID, ans) => s.send ans false beID

def outcomes (s : State) : List (Request × Answers) → List (List SciCall × Exit)
  | [] => []
  | call :: calls => ((s.exec call).log, (s.exec call).exit) :: outcomes (s.exec call).state calls

end State

def Freed (log : List SciCall) : Prop :=
  ∀ members group, .create members (some group) ∈ log → log.count (.free group true) = 1

structure Clean (s : State) (call : Request × Answers) : Prop where
  ends : (s.exec call).exit ≠ .blocked
  unlocked : (s.exec call).state.ser = false
  freed : Freed (s.exec call).log
  failed : (s.exec call).exit = .thrown → ∀ calls, (s.exec call).state.outcomes calls = s.outcomes calls

def Answered (s : State) : Request × Answers → Prop
  | (.group desc, ans) => COLON ∈ desc → ans.bcast = true ∧
      (s.Has desc ∨ ∃ ids ∈ memberIds desc, ids.length ≤ ans.room ∧ (ids ≠ [] ∧ ans.create.isSome → ans.free = true))
  | _ => True

instance (s : State) : DecidablePred (Answered s)
  | (.group _, _) => inferInstanceAs (Decidable (_ → _))
  | (.name _ _, _) => .isTrue trivial
  | (.node _, _) => .isTrue trivial

def State.next (s : State) (call : Request × Answers) : State := (s.exec call).state

variable {s : State} {ans : Answers}

theorem freed_bcast : Freed [.bcast useFilter group ok] := by
  simp [Freed]

theorem send_clean (h : s.ser = false) (hexec : s.exec call = s.send ans useFilter group) : Clean s call := by
  constructor
  case ends =>
    rw [hexec, State.send]
    split <;> simp
  case unlocked =>
    rw [hexec]
    exact h
  case freed =>
    rw [hexec]
    exact freed_bcast
  case failed =>
    intro _ calls
    rw [hexec]
    rfl

section Group

variable {desc : CString}

theorem createGroup_ser (h : s.createGroup ans desc = some made) : made.1.ser = s.ser := by
  unfold State.createGroup at h
  split at h
  . cases h
    rfl
  . simp only [bind_eq_bind, bind_eq_some_iff] at h
    obtain ⟨ids, _, h⟩ := h
    split at h <;> cases h <;> rfl

theorem createGroup_cases (h : s.createGroup ans desc = some made)
    : ∃ d, made.1.groupMap (groupName desc) = some d ∧
        ((s.Has desc ∧ made.2 = []) ∨
          ¬s.Has desc ∧ ∃ ids, memberIds desc = some ids ∧ ids.length ≤ ans.room ∧
            ((ids = [] ∧ made.2 = []) ∨
              (ids ≠ [] ∧ made.2 = [.create ids ans.create] ∧ d.group = ans.create.getD ans.garbage))) := by
  unfold State.createGroup at h
  split at h
  . next hsame =>
    cases h
    have ⟨d, hd, _⟩ := (any_eq_true _ _).mp hsame
    exact ⟨d, hd, .inl ⟨hsame, rfl⟩⟩
  . next hsame =>
    simp only [bind_eq_bind, bind_eq_some_iff, filter_eq_some_iff, decide_eq_true_eq] at h
    obtain ⟨ids, ⟨hids, hroom⟩, h⟩ := h
    split at h
    . next hnil =>
      cases h
      exact ⟨⟨SCI_GROUP_ALL, desc⟩, by simp [State.enter], .inr ⟨hsame, ids, hids, hroom, .inl ⟨hnil, rfl⟩⟩⟩
    . next hnil =>
      cases h
      exact ⟨⟨_, desc⟩, by simp [State.enter]; rfl, .inr ⟨hsame, ids, hids, hroom, .inr ⟨hnil, rfl, rfl⟩⟩⟩

theorem createGroup_eq_none (h : s.createGroup ans desc = none)
    : ¬s.Has desc ∧ ∀ ids, memberIds desc = some ids → ¬ids.length ≤ ans.room := by
  unfold State.createGroup at h
  split at h
  . cases h
  . next hsame =>
    refine ⟨hsame, ?_⟩
    intro ids hids hroom
    simp only [hids, filter_some, hroom, decide_true, if_true, bind_eq_bind, bind_some] at h
    split at h <;> cases h

theorem not_clean_of_thrown (hcolon : COLON ∈ desc) (h : s.ser = false)
    (hfails : ans.bcast = false ∨ State.createGroup { s with ser := true } ans desc = none)
    : ¬Clean s (.group desc, ans) := by
  intro hclean
  have hunlocked := hclean.unlocked
  rw [← Bool.not_eq_true] at hunlocked
  apply hunlocked
  simp only [State.exec, State.groupMessage, if_pos hcolon, h, Bool.false_eq_true, if_false]
  split
  . rfl
  . next made hmade =>
    have hbcast := hfails.resolve_right (by simp [hmade])
    simpa [State.send, hbcast] using createGroup_ser hmade

theorem groupMessage_sent (hcolon : COLON ∈ desc) (h : s.ser = false) (hbcast : ans.bcast = true)
    (hmade : State.createGroup { s with ser := true } ans desc = some made)
    (hentry : made.1.groupMap (groupName desc) = some d)
    : (s.groupMessage ans desc).exit = .returned ∧ (s.groupMessage ans desc).state.ser = false ∧
        ∃ group, (s.groupMessage ans desc).log = made.2 ++ [.bcast false group true, .free d.group ans.free] := by
  simp [State.groupMessage, State.send, State.freeGroup, hcolon, h, hbcast, hmade, hentry]

theorem freed_of_not_makes : Freed [.bcast false group ok, .free group' ok'] := by
  simp [Freed]

theorem freed_iff
    : Freed [.create members create, .bcast false group ok, .free (create.getD garbage) ok']
        ↔
      (create.isSome → ok' = true) := by
  cases create with
  | none => simp [Freed]
  | some made => cases ok' <;> simp [Freed]

theorem answered_iff (hcolon : COLON ∈ desc) (hbcast : ans.bcast = true)
    (hmade : State.createGroup { s with ser := true } ans desc = some made)
    (hentry : made.1.groupMap (groupName desc) = some d)
    : Answered s (.group desc, ans) ↔ Freed (made.2 ++ [.bcast false group true, .free d.group ans.free]) := by
  have ⟨d', hentry', hcases⟩ := createGroup_cases hmade
  rw [hentry, some.injEq] at hentry'
  have hhas : State.Has { s with ser := true } desc ↔ s.Has desc := Iff.rfl
  simp only [Answered, hcolon, hbcast, true_implies, true_and]
  rw [hhas] at hcases
  obtain ⟨hsame, hlog⟩ | ⟨hnew, ids, hids, hroom, hcases⟩ := hcases
  . simp [hsame, hlog, freed_of_not_makes]
  . simp only [hnew, false_or, hids, mem_some, exists_eq_left', hroom, true_and]
    obtain ⟨hnil, hlog⟩ | ⟨hne, hlog, hgroup⟩ := hcases
    . simp [hnil, hlog, freed_of_not_makes]
    . rw [hlog, hentry', hgroup, List.singleton_append, freed_iff]
      simp [hne]

theorem clean_group_iff (h : s.ser = false) : Clean s (.group desc, ans) ↔ Answered s (.group desc, ans) := by
  by_cases hcolon : COLON ∈ desc
  . cases hmade : State.createGroup { s with ser := true } ans desc with
    | none =>
      have ⟨hnew, hfull⟩ := createGroup_eq_none hmade
      refine ⟨fun hclean => absurd hclean (not_clean_of_thrown hcolon h (.inr hmade)), ?_⟩
      intro hans
      obtain hsame | ⟨ids, hids, hroom, _⟩ := (hans hcolon).2
      . exact absurd hsame hnew
      . exact absurd hroom (hfull ids hids)
    | some made =>
      have ⟨d, hentry, _⟩ := createGroup_cases hmade
      cases hbcast : ans.bcast with
      | false =>
        refine ⟨fun hclean => absurd hclean (not_clean_of_thrown hcolon h (.inl hbcast)), ?_⟩
        intro hans
        have hsent := (hans hcolon).1
        rw [hbcast] at hsent
        contradiction
      | true =>
        have ⟨hexit, hunlocked, group, hlog⟩ := groupMessage_sent hcolon h hbcast hmade hentry
        rw [answered_iff hcolon hbcast hmade hentry, ← hlog]
        constructor
        . exact fun hclean => hclean.freed
        . intro hfreed
          refine ⟨by simp [State.exec, hexit], hunlocked, hfreed, ?_⟩
          intro hthrown
          rw [State.exec, hexit] at hthrown
          contradiction
  . have hexec : s.exec (.group desc, ans) = s.send ans false (s.target (some desc)) := if_neg hcolon
    exact ⟨fun _ hcolon' => absurd hcolon' hcolon, fun _ => send_clean h hexec⟩

end Group

theorem clean_iff (h : s.ser = false) (call : Request × Answers) : Clean s call ↔ Answered s call := by
  match call with
  | (.group desc, ans) => exact clean_group_iff h
  | (.name grpName useFilter, ans) => exact ⟨fun _ => trivial, fun _ => send_clean h rfl⟩
  | (.node beID, ans) => exact ⟨fun _ => trivial, fun _ => send_clean h rfl⟩

theorem requests_release (groupMap : CString → Option GroupDesc) (calls : List (Request × Answers))
    : Along State.next Clean ⟨groupMap, false⟩ calls ↔ Along State.next Answered ⟨groupMap, false⟩ calls := by
  apply Along.iff_of_invariant (fun s => s.ser = false)
  . intro s call h
    exact clean_iff h call
  . intro s call h hans
    exact ((clean_iff h call).mpr hans).unlocked
  . rfl

theorem request_not_released
    : ∃ calls, (State.mk (fun _ => none) false).outcomes calls
          =
        [([.create [1, 2] (some (-5)), .bcast false (-5) false], .thrown), ([], .blocked)] ∧
      ¬Along State.next Clean ⟨fun _ => none, false⟩ calls := by
  let call : Request × Answers := (.group (ofString "g:1,2"), ⟨2, some (-5), 0, false, true⟩)
  have houtcomes : (State.mk (fun _ => none) false).outcomes [call, call]
      = [([.create [1, 2] (some (-5)), .bcast false (-5) false], .thrown), ([], .blocked)] := by
    decide +kernel
  refine ⟨[call, call], houtcomes, ?_⟩
  intro hclean
  have hunlocked := hclean.1.unlocked
  have hlocked : ((State.mk (fun _ => none) false).exec call).state.ser = true := by decide +kernel
  rw [hlocked] at hunlocked
  contradiction

end NetLayer.Release
