import Cloudland.Core.Cloudlet
import Cloudland.Lib.Run

/-!
The tree of scheduler filters: reports go up, and a request goes down from the front end.
-/

open CString Scheduler Function
open Sci (SCI_GROUP_ALL)

namespace Scheduler

def Fields.IsRequest (f : Fields) : Prop :=
  ¬has f.control "report" ∧ (has f.control "inter=" || has f.control "group=" || has f.control "select=") ∧
    0 ≤ CInt.wrap (getValue f.control "inter=")

instance (f : Fields) : Decidable f.IsRequest := inferInstanceAs (Decidable (_ ∧ _))

theorem filterInput_request (h : f.IsRequest)
    : filterInput env filter group f = schedule env filter group f := by
  have ⟨hreport, hkey, htarget⟩ := h
  rw [filterInput, if_neg hreport, if_pos hkey]
  rw [if_neg (Int.not_lt.mpr htarget)]

end Scheduler

/--
The id of the front end's filter. `getBestBranch` also returns it when there is no branch.
-/
def FRONT_END : Int := -1

structure Overlay where
  -- the filters
  nodes : List Int
  children : Int → List Int
  parent : Int → Int
  rank : Int → Nat
  front_end_mem : FRONT_END ∈ nodes
  agents_mem : ∀ n ∈ nodes, ∀ c ∈ children n, c < 0 → c ∈ nodes
  placed : ∀ n ∈ nodes, n = FRONT_END ∨ n < 0 ∧ n ∈ children (parent n)
  no_children : ∀ n, n ∉ nodes → children n = []
  parent_eq : ∀ n ∈ nodes, ∀ c ∈ children n, parent c = n
  rank_lt : ∀ n ∈ nodes, ∀ c ∈ children n, rank c < rank n
  front_end_not_child : ∀ n ∈ nodes, FRONT_END ∉ children n
  fits : ∀ n ∈ nodes, ∀ c ∈ children n, -2 ^ 31 ≤ c ∧ c < 2 ^ 31

namespace Overlay

def below (tree : Overlay) (n : Int) : List Int :=
  go (tree.rank n + 1) n
where
  go : Nat → Int → List Int
    | 0, _ => []
    | fuel + 1, n => if 0 ≤ n then [n] else (tree.children n).flatMap (go fuel)

end Overlay

structure Cloud where
  tree : Overlay
  filters : Int → Filter
  -- the queues of the filters, of messages with the group they were uploaded to
  queues : Int → List (Int × Fields)
  -- what has come up to the front end's handler
  handled : List (Int × Fields)
  -- the back ends that have left
  left : List Int
  -- the children of a filter that are being recovered
  recovery : Int → List Int
  members : Int → List Int
  -- the last report of each back end that its filter has processed
  last : Int → Option Resource

namespace Cloud

def start (tree : Overlay) : Cloud :=
  ⟨tree, fun _ => .new, fun _ => [], [], [], fun _ => [], fun _ => [], fun _ => none⟩

variable (s : Cloud)

def inGroup (g b : Int) : Bool := b ∉ s.left && (g = SCI_GROUP_ALL || b ∈ s.members g)

-- the part of an agent stays in the table of ALL when its last back end leaves, and goes from every other group's
def successors (n g : Int) : List Int :=
  (s.tree.children n).filter (fun c => (g = SCI_GROUP_ALL && c < 0) || (s.tree.below c).any (s.inGroup g))

def env (n : Int) : Env where
  myID := Int32.ofInt n
  successors := s.successors n
  recovery := s.recovery n
  host := fun _ => none
  port := 0
  hostname := []

def upload (n g : Int) (f : Fields) : Cloud :=
  if n = FRONT_END then
    { s with handled := s.handled ++ [(g, f)] }
  else
    { s with queues := update s.queues (s.tree.parent n) (s.queues (s.tree.parent n) ++ [(g, f)]) }

def setFilter (n : Int) (filter : Filter) : Cloud :=
  { s with filters := update s.filters n filter }

/--
The uploads among the actions of a filter. A message that comes from below is not sent down again.
-/
def perform (n : Int) (actions : List Action) : Cloud :=
  actions.foldl (fun s action =>
    match action with
    | .upload g f => s.upload n g f
    | .bcast _ => s) s

def process (n : Int) : Option Cloud :=
  match s.queues n with
  | [] => none
  | (g, f) :: queue =>
    let res := filterInput (s.env n) (s.filters n) g f
    let s := { s with queues := update s.queues n queue }
    let s := if has f.control "report" && 0 ≤ f.beID.toInt then
        { s with last := update s.last f.beID.toInt (some (reported f.message)) }
      else
        s
    some ((s.setFilter n res.1).perform n res.2)

inductive Outcome where
  | routed (be : Int)
  | answered (reply : Fields)
  | other
deriving DecidableEq

def route : Nat → Cloud → Int → Int → Fields → Cloud × Outcome
  | 0, s, _, _, _ => (s, .other)
  | fuel + 1, s, n, g, f =>
    let res := filterInput (s.env n) (s.filters n) g f
    let s := s.setFilter n res.1
    match res.2 with
    | [.bcast [c]] => if 0 ≤ c then (s, .routed c) else route fuel s c g f
    | [.upload g reply] => (s.upload n g reply, .answered reply)
    | _ => (s, .other)

def request (g : Int) (f : Fields) : Cloud × Outcome :=
  route (s.tree.rank FRONT_END + 1) s FRONT_END g f

inductive Event where
  -- a back end below a filter sends a report
  | report (n b : Int) (result : Text)
  -- the thread of an agent's filter uploads what its children have reported
  | total (n : Int)
  | process (n : Int)
  | request (g : Int) (f : Fields)
  | leave (b : Int)
  | comeBack (b : Int)
  | recover (n : Int) (children : List Int)
  | regroup (g : Int) (members : List Int)

def Event.exec : Event → Option Cloud
  | .report n b result =>
    if b ∈ s.tree.children n ∧ 0 ≤ b ∧ b ∉ s.left then
      let queue := s.queues n ++ [(SCI_GROUP_ALL, Cloudlet.report (Int32.ofInt b) result)]
      some { s with queues := update s.queues n queue }
    else
      none
  | .total n =>
    if n ∈ s.tree.nodes then
      some (s.perform n (reportAvailibility (s.env n) (s.filters n)))
    else
      none
  | .process n => s.process n
  | .request g f => if f.IsRequest then some (s.request g f).1 else none
  | .leave b => some { s with left := b :: s.left, members := fun g => (s.members g).filter (· ≠ b) }
  | .comeBack b => some { s with left := s.left.filter (· ≠ b) }
  | .recover n children => some { s with recovery := update s.recovery n children }
  | .regroup g members => some { s with members := update s.members g members }

def Event.Step (e : Event) (s' : Cloud) : Prop := e.exec s = some s'

end Cloud
