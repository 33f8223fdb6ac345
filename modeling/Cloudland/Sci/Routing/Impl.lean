import Cloudland.Lib.Split
import Cloudland.Sci.DGroup.Impl

/-!
This module models the downward path of the tree: the routing list (`libsci/routinglist.cpp`), the launch of the
children (`libsci/topology.cpp`, `libsci/launcher.cpp`) and the router (`libsci/routerproc.cpp`). A queue is the list
of all messages that were ever pushed into it, with one entry for each push, in one piece or in several. Steps the
source leaves undefined give `none`.
-/

namespace Sci

open Std (ExtTreeMap)

abbrev MAX_SUCCESSOR_NUM : Nat := 1024

structure Topology where
  agentID : Int
  fanOut : Nat
  level : Int
  height : Int
  bePath : String
  agentPath : String
  -- the entries of the source's map in key order
  beMap : List (Int × String)
  deriving DecidableEq

namespace Topology

def hasBE (topo : Topology) (beID : Int) : Bool := topo.beMap.any (fun e => e.1 = beID)

def ids (topo : Topology) : List Int := topo.beMap.map (fun e => e.1)

end Topology

-- COMMAND messages carry the NULL filter.
inductive Message where
  | config (topo : Topology)
  | command (group : Int) (content : String)
  | groupCreate (group : Int) (be_list : List Int)
  | groupFree (group : Int)
  | groupOperate (group : Int) (op : SciOp) (group1 group2 : Int)
  | groupOperateExt (group : Int) (op : SciOp) (group1 : Int) (be_list : List Int)
  | beAdd (be_id : Int) (host : String) (lev : Int)
  | beRemove (be_id : Int)
  deriving DecidableEq

namespace Message

-- a `config` is produced as it is, whatever its length
def contentLen : Message → Nat
  | .command _ content => content.utf8ByteSize
  | .groupCreate _ be_list => 4 * (be_list.length + 1)
  | .groupOperate _ _ _ _ => 12
  | .groupOperateExt _ _ _ be_list => 4 * (be_list.length + 3)
  | .beAdd _ host _ => host.utf8ByteSize + 9
  | _ => 0

/--
How many messages `mcast` puts into a queue for one: the message itself, or the header and the segments that
`getSegments` cuts it into.
-/
def pieces (maxSegmentSize : Nat) (msg : Message) : Nat :=
  if msg.contentLen ≤ maxSegmentSize then
    1
  else
    (msg.contentLen + maxSegmentSize - 1) / maxSegmentSize + 1

end Message

structure RoutingList where
  myDistriGroup : DistributedGroup
  queueInfo : IntMap (List Message)

namespace RoutingList

def new : RoutingList := ⟨.new, ∅⟩

variable (rl : RoutingList)

def mapQueue (hndl : Int) : RoutingList :=
  { rl with queueInfo := rl.queueInfo.insert hndl [] }

def produce (hndl : Int) (msg : Message) : Option RoutingList := do
  let queue ← rl.queueInfo[hndl]?
  return { rl with queueInfo := rl.queueInfo.insert hndl (queue ++ [msg]) }

def initSubGroup (rl : RoutingList) (successor_id start_be_id end_be_id : Int)
    : Option RoutingList := do
  let num := (end_be_id - start_be_id + 1).toNat
  let rl :=
    if successor_id ≠ VALIDBACKENDIDS then
      rl.mapQueue successor_id
    else
      (List.range num).foldl (fun rl (k : Nat) => rl.mapQueue (start_be_id + k)) rl
  let dgroup ← rl.myDistriGroup.initSubGroup successor_id start_be_id end_be_id
  return { rl with myDistriGroup := dgroup }

def addBE (rl : RoutingList) (group successor_id be_id : Int) (init : Bool) : RoutingList :=
  let rl :=
    if init then
      rl.mapQueue (if successor_id = VALIDBACKENDIDS then be_id else successor_id)
    else
      rl
  { rl with myDistriGroup := rl.myDistriGroup.addBE group successor_id be_id }

/--
A push has one post, by `produce` for a message of one piece and by `multiProduce` for one of several. What the reader
gets of the pieces is `received`.
-/
def mcast (msg : Message) (sorList : List Int) : Option RoutingList :=
  sorList.foldlM (fun rl successor_id => rl.produce successor_id msg) rl

def ucast (successor_id : Int) (msg : Message) : Option RoutingList :=
  rl.mcast msg [successor_id]

def splitBcast (group : Int) (msg : Message) : Option RoutingList :=
  let numSor := rl.myDistriGroup.numOfSuccessor group
  let successorList := rl.myDistriGroup.retrieveSuccessorList group
  if successorList.length ≤ MAX_SUCCESSOR_NUM ∧ numSor ≤ successorList.length then
    rl.mcast msg (successorList.take numSor.toNat)
  else
    none

def bcast (group : Int) (msg : Message) : Option (RoutingList × SciRc) :=
  if group > SCI_GROUP_ALL then
    let hndl := rl.myDistriGroup.querySuccessorId group
    if hndl = INVLIDSUCCESSORID then
      some (rl, .groupNotFound)
    else if hndl = VALIDBACKENDIDS then
      (rl.ucast group msg).map (·, .success)
    else
      (rl.ucast hndl msg).map (·, .success)
  else if rl.myDistriGroup.isGroupExist group then
    (rl.splitBcast group msg).map (·, .success)
  else
    some (rl, .groupNotFound)

/--
`parseCmd` for the messages that the front end issues. The second component is the result that the
front end is notified of.
-/
def parseCmd (msg : Message) : Option (RoutingList × SciRc) :=
  match msg with
  | .groupCreate group be_list => do
    let dgroup ← rl.myDistriGroup.create be_list group
    let res ← bcast { rl with myDistriGroup := dgroup } group msg
    return (res.1, .success)
  | .groupFree group => do
    let res ← rl.bcast group msg
    let dgroup ← res.1.myDistriGroup.remove group
    return ({ res.1 with myDistriGroup := dgroup }, .success)
  | .groupOperate group op group1 group2 => do
    let res ← rl.myDistriGroup.operate group1 group2 op group
    relay { rl with myDistriGroup := res.1 } group res.2
  | .groupOperateExt group op group1 be_list => do
    let res ← rl.myDistriGroup.operateExt group1 be_list op group
    relay { rl with myDistriGroup := res.1 } group res.2
  | _ => none
where
  relay (rl : RoutingList) (group : Int) (rc : SciRc) : Option (RoutingList × SciRc) :=
    if rc = .success then (rl.bcast group msg).map (fun res => (res.1, rc)) else some (rl, rc)

end RoutingList

structure Client where
  id : Int
  path : String
  hostname : String
  deriving DecidableEq

structure Launcher where
  routingList : RoutingList
  nextAgentID : Int
  weightMap : IntMap Int
  clients : List Client

namespace Launcher

variable (st : Launcher)

def incWeight (id : Int) : Launcher :=
  { st with weightMap := st.weightMap.insert id (st.weightMap.getD id 0 + 1) }

variable (topo : Topology)

def enterBE (e : Int × String) : Launcher :=
  { st with
    routingList := st.routingList.addBE SCI_GROUP_ALL VALIDBACKENDIDS e.1 true
    clients := st.clients ++ [⟨e.1, topo.bePath, e.2⟩] }

def childTopo (agentID : Int) (entries : List (Int × String)) : Topology :=
  { topo with agentID, level := topo.level + 1, beMap := entries }

def enterAgent (startID endID : Int)
    (entries : List (Int × String)) (hostname : String) : Option Launcher := do
  let child := childTopo topo st.nextAgentID entries
  let rl ← st.routingList.initSubGroup child.agentID startID endID
  let rl ← rl.produce child.agentID (.config child)
  let st := entries.foldl (fun st _ => st.incWeight child.agentID) st
  return { st with
    routingList := rl
    nextAgentID := st.nextAgentID - 1
    clients := st.clients ++ [⟨child.agentID, topo.agentPath, hostname⟩] }

def launchTree2 (st : Launcher) : Option Launcher :=
  match topo.beMap with
  | [] => some st
  | e :: _ => loop e.1 topo.fanOut 0 topo.beMap st
where
  loop (initID : Int) : Nat → Nat → List (Int × String) → Launcher → Option Launcher
    | _, _, [], st => some st
    | 0, _, _ :: _, _ => none
    | out + 1, size, e :: rest, st =>
      let step := Split.step (out + 1) (rest.length + 1)
      if step = 1 then
        loop initID out (size + step) ((e :: rest).drop step) (st.enterBE topo e)
      else do
        let st ← st.enterAgent topo (initID + size) (initID + size + step - 1)
          ((e :: rest).take step) e.2
        loop initID out (size + step) ((e :: rest).drop step) st

end Launcher

namespace Topology

def deploy (topo : Topology) (rl : RoutingList) : Option Launcher :=
  Launcher.launchTree2 topo ⟨rl, (topo.agentID + 1) * topo.fanOut - 2, ∅, []⟩

end Topology

namespace RoutingList

/--
`RouterProcessor::process` for the messages of this model.
-/
def process (rl : RoutingList) (msg : Message) : Option RoutingList :=
  match msg with
  | .config topo => (topo.deploy rl).map (·.routingList)
  | .command group _ => (rl.bcast group msg).map Prod.fst
  | _ => (rl.parseCmd msg).map Prod.fst

def processAll (rl : RoutingList) (msgs : List Message) : Option RoutingList := msgs.foldlM process rl

end RoutingList
end Sci
