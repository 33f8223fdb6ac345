import Cloudland.Core.Packer
import Cloudland.Core.ResourceManager
import Cloudland.Sci.DGroup.Impl

/-!
The filter of the scheduler (`filter/scheduler.cpp`), which runs in the front end and in every agent.
-/

open CString Packer
open Sci (SCI_GROUP_ALL)

namespace Scheduler

structure Fields where
  msgID : Int32
  beID : Int32
  control : CString
  message : CString
  trace : CString
deriving DecidableEq

def Fields.pack (f : Fields) : List UInt8 :=
  packInt f.msgID ++ packInt f.beID ++ packStr f.control ++ packStr f.message ++ packStr f.trace

def unpackFields : Unpacker Fields := do
  let msgID ← unpackInt
  let beID ← unpackInt
  let control ← unpackStr
  let message ← unpackStr
  let trace ← unpackStr
  return ⟨msgID, beID, control, message, trace⟩

structure Env where
  myID : Int32
  -- the successors of a group
  successors : Int → List Int
  -- the children that are being recovered
  recovery : List Int
  -- the host at the other end of a child's stream, if it has one
  host : Int → Option CString
  port : Int
  hostname : CString

structure Filter where
  rcManager : ResourceManager
  -- the static variable of `report_topology`
  update : Bool

def Filter.new : Filter := ⟨.new, true⟩

inductive Action where
  -- `SCI_Filter_bcast` of the message as it came
  | bcast (successors : List Int)
  -- `SCI_Filter_upload`
  | upload (group : Int) (reply : Fields)
deriving DecidableEq

def getValue (message key : CString) : Int :=
  match strstr message key with
  | some p => atol (p.drop key.length)
  | none => 0

/--
The number after the next `/`. The variable is not initialised when there is none.
-/
def getSecond (message key : CString) : Option Int :=
  match strstr message key with
  | some p =>
    match (p.drop key.length).dropWhile (· != 47) with
    | _ :: second => some (atol second)
    | [] => none
  | none => none

variable (env : Env)

def uploadMessage (msgID : Int32) (group : Int) (control message : CString) : Action :=
  .upload group ⟨msgID, env.myID, control, message, []⟩

def MAXHOST : Nat := 512

/--
`SCI_Query_host` writes nothing when the child has no stream.
-/
def queryHost (child : Int) (hostname : CString) : CString :=
  match env.host child with
  | some peerHost => peerHost.take (MAXHOST - 1)
  | none => hostname

def childLine (child : Int) (hostname : CString) : CString :=
  let status := if child ∈ env.recovery then 10 else 1
  decimal child ++ ofString "," ++ hostname ++ ofString "," ++ decimal status ++ ofString "\n"

-- the children share one buffer for the host name
def childLines (env : Env) : CString → List Int → CString
  | _, [] => []
  | hostname, child :: children =>
    let hostname := queryHost env child hostname
    childLine env child hostname ++ childLines env hostname children

def uploadTopology (children : List Int) (msgID : Int32) : List Action :=
  if children = [] then
    []
  else
    let control := ofString "callback=agent" ++ ofString " id=" ++ decimal env.myID.toInt ++ ofString " port="
      ++ decimal env.port ++ ofString " num=" ++ decimal children.length ++ ofString " hostname=" ++ env.hostname
    [uploadMessage env msgID SCI_GROUP_ALL control (childLines env [] children)]

def reportTopology (filter : Filter) (msgID : Int32) : Filter × List Action :=
  if env.recovery = [] ∧ filter.update = false ∧ msgID = 0 then
    (filter, [])
  else
    ({ filter with update := env.recovery ≠ [] }, uploadTopology env (env.successors SCI_GROUP_ALL) msgID)

def bcastMessage (group : Int) : List Action :=
  if env.successors group = [] then [] else [.bcast (env.successors group)]

def reportAvailibility (filter : Filter) : List Action :=
  if filter.rcManager.updated then
    [uploadMessage env (-1) SCI_GROUP_ALL "report" filter.rcManager.getTotalMsg]
  else
    []

def reported (message : CString) : Resource where
  cpu := getValue message "cpu="
  total_cpu := (getSecond message "cpu=").getD 0
  memory := getValue message "memory="
  total_memory := (getSecond message "memory=").getD 0
  disk := getValue message "disk="
  total_disk := (getSecond message "disk=").getD 0
  network := getValue message "network="
  total_network := (getSecond message "network=").getD 0
  load := getValue message "load="
  total_load := (getSecond message "load=").getD 0

def demanded (control : CString) : Demand where
  cpu := getValue control "cpu="
  memory := getValue control "memory="
  disk := getValue control "disk="
  network := CInt.wrap (getValue control "network=")

def schedule (filter : Filter) (group : Int) (f : Fields) : Filter × List Action :=
  let res := filter.rcManager.getBestBranch (demanded f.control) (env.successors group) env.recovery
  let filter := { filter with rcManager := res.1 }
  if res.2 ≠ -1 then
    (filter, [.bcast [res.2]])
  else
    (filter, [uploadMessage env f.msgID group "error=resource" f.message])

def has (control key : CString) : Bool := (strstr control key).isSome

def filterInput (filter : Filter) (group : Int) (f : Fields) : Filter × List Action :=
  if has f.control "report" then
    ({ filter with rcManager := filter.rcManager.setAvailibility f.beID.toInt (reported f.message) }, [])
  else if has f.control "inter=" || has f.control "group=" || has f.control "select=" then
    let target := CInt.wrap (getValue f.control "inter=")
    if target < 0 then
      if target = env.myID.toInt then
        reportTopology env filter f.msgID
      else
        (filter, bcastMessage env group)
    else
      schedule env filter group f
  else if has f.control "toall=" then
    if has f.control "toall=agent" then
      let res := reportTopology env filter f.msgID
      (res.1, res.2 ++ bcastMessage env group)
    else
      (filter, bcastMessage env group)
  else
    (filter, [uploadMessage env f.msgID group f.control f.message])

end Scheduler
