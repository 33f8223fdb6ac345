import Cloudland.Sci.Routing.Shape

/-!
This module models how a node adds and removes back ends after it has been deployed (`libsci/topology.cpp`,
`libsci/launcher.cpp`), and the topology for a child that is rescued (`libsci/listener.cpp`).
-/

namespace Sci

open Std (ExtTreeMap)

namespace BEMap

def set (id : Int) (host : String) : List (Int × String) → List (Int × String)
  | [] => [(id, host)]
  | e :: l =>
    if id < e.1 then
      (id, host) :: e :: l
    else if id = e.1 then
      (id, host) :: l
    else
      e :: set id host l

def erase (id : Int) (l : List (Int × String)) : List (Int × String) := l.filter (fun e => e.1 ≠ id)

-- reading a missing entry enters it with an empty host name
def host (id : Int) (l : List (Int × String)) : String := ((l.find? (fun e => e.1 = id)).map Prod.snd).getD ""

end BEMap

namespace RoutingList

def removeBE (rl : RoutingList) (be_id : Int) : RoutingList :=
  { rl with myDistriGroup := rl.myDistriGroup.removeBE be_id }

def stopRouting (rl : RoutingList) (hndl : Int) : RoutingList :=
  { rl with queueInfo := rl.queueInfo.erase hndl }

end RoutingList

-- the source asserts that the child has a weight
def Launcher.decWeight (st : Launcher) (id : Int) : Option Launcher := do
  let weight ← st.weightMap[id]?
  return { st with
    weightMap := if weight - 1 = 0 then st.weightMap.erase id else st.weightMap.insert id (weight - 1) }

/--
How a launch goes: whether the client can be started at all, and whether it connects before the
launcher gives up waiting. The launcher waits only when it uses an external launcher.
-/
structure Launch where
  started : Bool
  routed : Bool
  deriving DecidableEq

structure Node where
  topo : Topology
  st : Launcher

inductive Placement where
  | backEnd
  | agent
  | child (aID : Int)
  deriving DecidableEq

namespace Node

def deploy (topo : Topology) : Option Node := (topo.deploy .new).map (fun st => ⟨topo, st⟩)

variable (n : Node)

def launchBE (be_id : Int) (hostname : String) (launch : Launch) : Node × SciRc :=
  let rl := n.st.routingList.addBE SCI_GROUP_ALL VALIDBACKENDIDS be_id true
  if launch.started then
    ({ n with st := { n.st with
        routingList := rl
        clients := n.st.clients ++ [⟨be_id, n.topo.bePath, hostname⟩] } },
      if launch.routed then .success else .launchFailed)
  else
    ({ n with st := { n.st with routingList := rl.removeBE be_id } }, .launchFailed)

def newChild (be_id : Int) (hostname : String) : Topology :=
  { Launcher.childTopo n.topo n.st.nextAgentID [(be_id, hostname)] with height := n.topo.height + 1 }

def launchAgent (be_id : Int) (hostname : String) (launch : Launch)
    : Option (Node × SciRc) :=
  let child := n.newChild be_id hostname
  let rl := n.st.routingList.addBE SCI_GROUP_ALL child.agentID be_id true
  let st := { n.st with nextAgentID := n.st.nextAgentID - 1 }
  if launch.started then do
    let rl ← rl.produce child.agentID (.config child)
    let st := Launcher.incWeight st child.agentID
    return ({ n with st := { st with
        routingList := rl
        clients := st.clients ++ [⟨child.agentID, child.agentPath, hostname⟩] } }, .success)
  else
    some ({ n with st := { st with routingList := rl.removeBE be_id } }, .launchFailed)

def delegate (aID be_id : Int) (host : String) (lev : Int) : Option (Node × SciRc) := do
  let rl := n.st.routingList.addBE SCI_GROUP_ALL aID be_id false
  let rl ← rl.ucast aID (.beAdd be_id host lev)
  return ({ n with st := Launcher.incWeight { n.st with routingList := rl } aID }, .success)

/--
Where a new back end goes: to the first child agent that is not full, or else to a new client of this
node. On a level above the requested one it goes to the first child in any case, and the source
reads past the end of the map when there is none.
-/
def place (lev : Int) : Option Placement :=
  match n.st.weightMap.toList.find? (fun e => e.2 < (n.topo.fanOut : Int)) with
  | some e => some (.child e.1)
  | none =>
    if lev ≤ n.topo.level ∨ n.topo.level = n.topo.height then
      some (if n.st.weightMap.isEmpty then .backEnd else .agent)
    else
      n.st.weightMap.toList.head?.map (fun e => .child e.1)

def launchAt (be_id : Int) (host : String) (lev : Int) (launch : Launch)
    : Placement → Option (Node × SciRc)
  | .backEnd => some (n.launchBE be_id host launch)
  | .agent => n.launchAgent be_id host launch
  | .child aID => n.delegate aID be_id host lev

def setHost (be_id : Int) (host : String) : Node :=
  { n with topo := { n.topo with beMap := BEMap.set be_id host n.topo.beMap } }

def addBE (be_id : Int) (host : String) (lev : Int) (launch : Launch)
    : Option (Node × SciRc) := do
  let place ← n.place lev
  let res ← n.launchAt be_id host lev launch place
  return (if res.2 = .success then res.1.setHost be_id host else res.1, res.2)

def dropBE (aID be_id : Int) : Option Launcher := do
  let rl := n.st.routingList.removeBE be_id
  if aID = VALIDBACKENDIDS then
    let rl ← rl.ucast be_id (.beRemove be_id)
    return { n.st with routingList := rl.stopRouting be_id }
  else
    let rl ← rl.ucast aID (.beRemove be_id)
    Launcher.decWeight { n.st with routingList := rl } aID

def removeBE (be_id : Int) : Option (Node × SciRc) :=
  if n.topo.hasBE be_id then
    let aID := n.st.routingList.myDistriGroup.querySuccessorId be_id
    if aID = INVLIDSUCCESSORID then
      none
    else do
      let st ← n.dropBE aID be_id
      return (⟨{ n.topo with beMap := BEMap.erase be_id n.topo.beMap }, st⟩, .success)
  else
    some (n, .backendNotFound)

def rescueTopo (sID : Int) : Topology :=
  let beList := ((n.st.routingList.myDistriGroup.parts SCI_GROUP_ALL).getD sID ∅).members
  Launcher.childTopo n.topo sID (beList.map (fun be_id => (be_id, BEMap.host be_id n.topo.beMap)))

end Node
end Sci
