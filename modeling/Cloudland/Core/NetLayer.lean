import Cloudland.Core.RpcWorker
import Cloudland.Sci.Api

/-!
The named groups of the front end (`netlayer.cpp`) and the requests of `Execute`, each on its own thread.
-/

open CString RpcWorker
open Sci (SCI_GROUP_ALL FrontEnd Topology Message)

namespace NetLayer

def COLON : UInt8 := 58

def COMMA : UInt8 := 44

def DASH : UInt8 := 45

def string2Array (splitter : UInt8) (str : CString) : List CString :=
  go [] str
where
  go (temp : CString) : CString → List CString
    | [] => if temp = [] then [] else [temp]
    | c :: str => if c = splitter then temp :: go [] str else go (temp ++ [c]) str

/--
The loop `for (int j = start; j <= stop; j++)`. It has no end where `stop` is the greatest `int`.
-/
def upTo (start stop : Int) : Option (List Int) :=
  if start ≤ stop ∧ ¬CInt.IsInt (stop + 1) then
    none
  else
    some ((List.range (stop - start + 1).toNat).map (fun k : Nat => start + k))

def tokenIds (token : CString) : Option (List Int) :=
  match string2Array DASH token with
  | [id] => some [atoi id]
  | [start, stop] => upTo (atoi start) (atoi stop)
  | _ => some []

def groupName (desc : CString) : CString := cutAt COLON desc

def memberText (desc : CString) : CString := (desc.dropWhile (· != COLON)).drop 1

def memberIds (desc : CString) : Option (List Int) :=
  ((string2Array COMMA (memberText desc)).mapM tokenIds).map List.flatten

inductive Op where
  | serialize
  | check (desc : CString)
  | update (desc : CString)
  | send (grpName : Option CString) (useFilter : Bool)
  | sendNode (beID : Int)
  | free (grpName : CString)
  | deserialize
deriving DecidableEq

def program : Plan → List Op
  | .node beID => [.sendNode beID]
  | .scheduler => [.send none true]
  | .group name => [.send (some name) true]
  | .select desc => [.check desc, .send (some (groupName desc)) true]
  | .agent => [.send (some "agent") true]
  | .toall desc =>
    if COLON ∈ desc then
      [.serialize, .check desc, .send (some (groupName desc)) false, .free (groupName desc), .deserialize]
    else
      [.send (some desc) false]
  | .mkgrp desc => [.check desc]
  | .rmgrp name => [.free name]
  | _ => []

structure GroupDesc where
  group : Int
  desc : CString
deriving DecidableEq

structure Thread where
  request : Request
  todo : List Op
deriving DecidableEq

end NetLayer

open NetLayer in
structure NetLayer where
  fe : FrontEnd
  groupMap : CString → Option GroupDesc
  -- the thread that holds the mutex `ser`
  ser : Option Nat
  -- the requests that have come in, with what is left to do for them
  threads : List Thread

namespace NetLayer

def content (msg : List UInt8) : String := String.ofList (msg.map (fun b => Char.ofNat b.toNat))

def start (fe : FrontEnd) : NetLayer := ⟨fe, fun _ => none, none, []⟩

variable (s : NetLayer)

/--
`createGroup` under the lock. `SCI_Group_create` does not set the group when it finds an unknown back
end, and `group` is not initialised.
-/
def enterGroup (desc : CString) (group : Int) : Option NetLayer := do
  let ids ← memberIds desc
  if ids = [] then
    return { s with groupMap := Function.update s.groupMap (groupName desc) (some ⟨SCI_GROUP_ALL, desc⟩) }
  else
    let res ← s.fe.groupCreate ids
    let group := if res.2 = .backendNotFound then group else s.fe.nextGroupID
    return { s with
      fe := res.1
      groupMap := Function.update s.groupMap (groupName desc) (some ⟨group, desc⟩) }

def target (grpName : Option CString) : Int :=
  match grpName.bind s.groupMap with
  | some d => d.group
  | none => SCI_GROUP_ALL

/--
`SCI_Bcast`, and whether it succeeds. A message with the scheduler's filter goes to some of those that
one without a filter goes to, so that both are sent to all of them here.
-/
def bcast (s : NetLayer) (group : Int) (req : Request) : Option (NetLayer × Bool) := do
  let res ← s.fe.bcast group (content req.pack)
  return ({ s with fe := res.1 }, res.2 = .success)

def freeGroup (grpName : CString) : Option NetLayer :=
  match s.groupMap grpName with
  | some d => do
    let res ← s.fe.groupFree d.group
    return { s with fe := res.1, groupMap := Function.update s.groupMap grpName none }
  | none => some s

def perform (t : Nat) (req : Request) (garbage : Int) (rest : List Op)
    : Op → Option (NetLayer × List Op)
  | .serialize => if s.ser = none then some ({ s with ser := some t }, rest) else none
  | .check desc =>
    if COLON ∉ desc ∨ (s.groupMap (groupName desc)).any (fun d => d.desc = desc) then
      some (s, rest)
    else
      some (s, .update desc :: rest)
  | .update desc => (s.enterGroup desc garbage).map (fun s => (s, rest))
  | .send grpName _ => (s.bcast (s.target grpName) req).map (fun res => (res.1, if res.2 then rest else []))
  | .sendNode beID => (s.bcast beID req).map (fun res => (res.1, if res.2 then rest else []))
  | .free grpName => (s.freeGroup grpName).map (fun s => (s, rest))
  | .deserialize => some ({ s with ser := none }, rest)

inductive Event where
  | execute (req : Request)
  -- a thread goes on, with what it finds in variables that are not initialised
  | step (t : Nat) (garbage : Int)

def Event.exec : Event → Option NetLayer
  | .execute req => some { s with threads := s.threads ++ [⟨req, program (plan req.control.chars)⟩] }
  | .step t garbage => do
    let th ← s.threads[t]?
    match th.todo with
    | [] => none
    | op :: rest =>
      let res ← s.perform t th.request garbage rest op
      return { res.1 with threads := res.1.threads.set t { th with todo := res.2 } }

def Event.Step (e : Event) (s' : NetLayer) : Prop := e.exec s = some s'

end NetLayer
