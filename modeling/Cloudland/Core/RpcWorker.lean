import Cloudland.Core.Packer

/-!
The requests of `RemoteExecServiceImpl::Execute` (`rpcworker.cpp`) and the message it packs.
-/

open CString Packer

structure Request where
  id : Int32
  extra : Int32
  control : Text
  command : Text
deriving DecidableEq

namespace Request

def pack (req : Request) : List UInt8 :=
  packInt req.id ++ packInt req.extra ++ packStr req.control.chars ++ packStr req.command.chars

end Request

inductive Plan where
  -- the message goes to one back end
  | node (beID : Int)
  -- to the group of all, by way of the scheduler
  | scheduler
  -- to a named group, by way of the scheduler
  | group (name : CString)
  -- a group is made for the members, and the message goes to it by way of the scheduler
  | select (desc : CString)
  | agent
  -- a group is made for the members and freed when the message has gone to all of them
  | toall (desc : CString)
  | mkgrp (desc : CString)
  | rmgrp (name : CString)
  | lsgrp
  | term
  | callback
  | notFound
deriving DecidableEq

namespace RpcWorker

def BLANK : UInt8 := 32

def interNode (inter : CString) : Int :=
  let pnode := inter.drop 6
  match pnode with
  | [] => -1
  | c :: _ => if c = BLANK then -1 else atoi pnode

def plan (control : CString) : Plan :=
  if let some inter := strstr control "inter=" then
    if 0 ≤ interNode inter then .node (interNode inter) else .scheduler
  else if let some group := strstr control "group=" then
    .group (cutAt BLANK (group.drop 6))
  else if let some select := strstr control "select=" then
    .select (select.drop 7)
  else if let some toall := strstr control "toall=" then
    let name := cutAt BLANK (toall.drop 6)
    if name = ("agent" : CString) then .agent else .toall name
  else if let some mkgrp := strstr control "mkgrp=" then
    .mkgrp (mkgrp.drop 6)
  else if let some rmgrp := strstr control "rmgrp=" then
    .rmgrp (rmgrp.drop 6)
  else if (strstr control "lsgrp=").isSome then
    .lsgrp
  else if (strstr control "term=").isSome then
    .term
  else if (strstr control "callback").isSome then
    .callback
  else
    .notFound

inductive Status where
  | ok
  | notFound
deriving DecidableEq

def respond : Plan → Status
  | .notFound => .notFound
  | _ => .ok

end RpcWorker

def Plan.filtered : Plan → Option Bool
  | .node _ => some false
  | .scheduler => some true
  | .group _ => some true
  | .select _ => some true
  | .agent => some true
  | .toall _ => some false
  | _ => none
