import Cloudland.Lib.OrdMap
import Cloudland.Sci.Group

/-!
This module models `libsci/dgroup.cpp`: the members of each group by child. A step that the source leaves
undefined gives `none`.
-/

namespace Sci

open OrdMap
open Std (ExtTreeMap)

abbrev SCI_GROUP_ALL : Int := -1

abbrev VALIDBACKENDIDS : Int := -1024 * 1024 * 1024

abbrev INVLIDSUCCESSORID : Int := -999999999

inductive SciOp where
  | union
  | intersection
  | difference
  deriving DecidableEq

inductive SciRc where
  | success
  | groupEmpty
  | groupNotFound
  | groupPredefined
  | backendNotFound
  | backendExisted
  | launchFailed
  deriving DecidableEq

abbrev IntMap (β : Type) := ExtTreeMap Int β compare

abbrev Parts := IntMap Group

namespace Parts

def beList (p : Parts) : List Int := p.toList.flatMap (fun e => e.2.members)

def successorList (p : Parts) : List Int :=
  p.toList.flatMap (fun e => if e.1 ≠ VALIDBACKENDIDS then [e.1] else e.2.members)

end Parts

structure DistributedGroup where
  generalInfo : IntMap Parts
  beInfo : IntMap Int
  successorInfo : IntMap Int
  beListInfo : IntMap (List Int)
  successorListInfo : IntMap (List Int)

namespace DistributedGroup

def new : DistributedGroup := ⟨∅, ∅, ∅, ∅, ∅⟩

variable (d : DistributedGroup)

def parts (group : Int) : Parts := d.generalInfo.getD group ∅

/--
The side effect of `generalInfo[group]`: a missing group is entered without parts.
-/
def touch (group : Int) : DistributedGroup :=
  { d with generalInfo := d.generalInfo.insertIfNew group ∅ }

def setParts (group : Int) (p : Parts) : DistributedGroup :=
  { d with generalInfo := d.generalInfo.insert group p }

def store (group : Int) (stored : Parts) : DistributedGroup :=
  if stored.isEmpty then
    d
  else
    d.setParts group (insertEach (fun _ grp => some grp) stored (d.parts group))

def refill (m : IntMap (List Int)) (group : Int) (l : List Int) : IntMap (List Int) :=
  if l.isEmpty then m.erase group else m.insert group l

def reset (group : Int) : DistributedGroup :=
  let p := d.parts group
  { generalInfo := (d.touch group).generalInfo
    beListInfo := refill d.beListInfo group p.beList
    beInfo := d.beInfo.insert group p.beList.length
    successorListInfo := refill d.successorListInfo group p.successorList
    successorInfo := d.successorInfo.insert group p.successorList.length }

def resetAll : DistributedGroup :=
  d.generalInfo.foldl (fun d group _ => d.reset group) d

def unlessEmpty (grp : Group) : Option Group := if grp.isEmpty then none else some grp

variable (p : Parts)

def restrictParts (total : Group) : Parts :=
  insertEach (fun _ grp => unlessEmpty (grp.intersect total)) p ∅

def create (be_list : List Int) (group : Int) : Option DistributedGroup := do
  let all ← d.generalInfo[SCI_GROUP_ALL]?
  return (d.store group (restrictParts all (Group.ofList be_list))).reset group

def remove (group : Int) : Option DistributedGroup := do
  let _ ← d.generalInfo[group]?
  return {
    generalInfo := d.generalInfo.erase group
    beInfo := d.beInfo.erase group
    successorInfo := d.successorInfo.erase group
    beListInfo := d.beListInfo.erase group
    successorListInfo := d.successorListInfo.erase group
  }

def finish (newgroup : Int) (stored : Parts) (hasMember : Bool)
    : DistributedGroup × SciRc :=
  let d := d.store newgroup stored
  if hasMember then (d.reset newgroup, .success) else (d, .groupEmpty)

def unionParts (p1 p2 : Parts) : Parts :=
  let stored :=
    insertEach
      (fun childHndl grp =>
        match p2[childHndl]? with
        | some other => some (grp.copy.addGroup other)
        | none => some grp.copy)
      p1 ∅
  -- add the members of the second group missing in the previous step
  insertEach (fun childHndl grp => if childHndl ∈ p1 then none else some grp.copy) p2 stored

def intersectionParts (p1 p2 : Parts) : Parts :=
  insertEach
    (fun childHndl grp => p2[childHndl]?.bind (fun other => unlessEmpty (grp.intersect other)))
    p1 ∅

def differenceParts (p1 p2 : Parts) : Parts :=
  insertEach
    (fun childHndl grp =>
      match p2[childHndl]? with
      | some other => unlessEmpty (grp.copy.deleteGroup other)
      | none => unlessEmpty grp.copy)
    p1 ∅

def operate (group1 group2 : Int) (op : SciOp) (newgroup : Int)
    : Option (DistributedGroup × SciRc) :=
  match op with
  | .union =>
    let d := (d.touch group1).touch group2
    -- the source sets hasMember without looking at what was stored
    some (d.finish newgroup (unionParts (d.parts group1) (d.parts group2)) true)
  | .intersection => do
    let p1 ← d.generalInfo[group1]?
    let d := if p1.isEmpty then d else d.touch group2
    let stored := intersectionParts p1 (d.parts group2)
    return d.finish newgroup stored (!stored.isEmpty)
  | .difference => do
    let p1 ← d.generalInfo[group1]?
    let d := if p1.isEmpty then d else d.touch group2
    let stored := differenceParts p1 (d.parts group2)
    return d.finish newgroup stored (!stored.isEmpty)

def unionExtParts (all p : Parts) (total : Group) : Parts :=
  insertEach
    (fun childHndl grp =>
      let intersect := grp.intersect total
      if childHndl ∈ p then
        -- `grp` is the child's part of SCI_GROUP_ALL here, not its part of the group
        if intersect.isEmpty then some grp.copy else some (grp.copy.addGroup intersect)
      else
        if intersect.isEmpty then none else some ((∅ : Group).addGroup intersect))
    all ∅

def differenceExtParts (total : Group) : Parts :=
  insertEach (fun _ grp => unlessEmpty (grp.copy.deleteGroup total)) p ∅

def operateExt (group : Int) (be_list : List Int) (op : SciOp)
    (newgroup : Int) : Option (DistributedGroup × SciRc) :=
  let total := Group.ofList be_list
  match op with
  | .union => do
    let all ← d.generalInfo[SCI_GROUP_ALL]?
    let d := if all.isEmpty then d else d.touch group
    return d.finish newgroup (unionExtParts all (d.parts group) total) true
  | .intersection => do
    let p ← d.generalInfo[group]?
    let stored := restrictParts p total
    return d.finish newgroup stored (!stored.isEmpty)
  | .difference => do
    let p ← d.generalInfo[group]?
    let stored := differenceExtParts p total
    return d.finish newgroup stored (!stored.isEmpty)

def pushBack (m : IntMap (List Int)) (group : Int) (l : List Int) : IntMap (List Int) :=
  if l.isEmpty then m else m.insert group (m.getD group [] ++ l)

def initSubGroup (successor_id start_be_id end_be_id : Int)
    : Option DistributedGroup :=
  let r : Range := ⟨start_be_id, end_be_id + 1⟩
  if h : r.NonEmpty then
    some (enter ((∅ : Group).addRange r h) (end_be_id - start_be_id + 1))
  else
    none
where
  enter (grp : Group) (num : Int) : DistributedGroup :=
    { generalInfo :=
        d.generalInfo.insert SCI_GROUP_ALL ((d.parts SCI_GROUP_ALL).insert successor_id grp)
      beListInfo := pushBack d.beListInfo SCI_GROUP_ALL grp.members
      beInfo := d.beInfo.insert SCI_GROUP_ALL (d.beInfo.getD SCI_GROUP_ALL 0 + num)
      successorListInfo :=
        pushBack d.successorListInfo SCI_GROUP_ALL
          (if successor_id ≠ VALIDBACKENDIDS then [successor_id] else grp.members)
      successorInfo :=
        d.successorInfo.insert SCI_GROUP_ALL
          (d.successorInfo.getD SCI_GROUP_ALL 0 + if successor_id ≠ VALIDBACKENDIDS then 1 else num) }

def addBE (group successor_id be_id : Int) : DistributedGroup :=
  let p := d.parts group
  (d.setParts group (p.insert successor_id ((p.getD successor_id ∅).add be_id))).reset group

/--
The parts of `group` that are left when `be_id` is removed. An emptied part of SCI_GROUP_ALL is kept
unless it is filed under the id of a back end.
-/
def prune (be_id group : Int) (p : Parts) : Parts :=
  insertEach
    (fun childHndl grp =>
      let grp := grp.delete be_id
      if grp.size = 0 ∧ (group ≠ SCI_GROUP_ALL ∨ 0 ≤ childHndl) then none else some grp)
    p ∅

def eraseAll (m : IntMap β) (groups : List Int) : IntMap β := groups.foldl (fun m group => m.erase group) m

def pruneAll (be_id : Int) : IntMap Parts :=
  insertEach (fun group p => some (prune be_id group p)) d.generalInfo ∅

def junkGrps (generalInfo : IntMap Parts) : List Int :=
  (generalInfo.toList.filter (fun e => e.2.isEmpty)).map (fun e => e.1)

def removeBE (be_id : Int) : DistributedGroup :=
  let generalInfo := d.pruneAll be_id
  let junk := junkGrps generalInfo
  resetAll {
    generalInfo := eraseAll generalInfo junk
    beInfo := eraseAll d.beInfo junk
    successorInfo := eraseAll d.successorInfo junk
    beListInfo := eraseAll d.beListInfo junk
    successorListInfo := eraseAll d.successorListInfo junk
  }

def dropParts (successor_id : Int) (p : Parts) : Option Parts :=
  if 0 ≤ successor_id then
    p[VALIDBACKENDIDS]?.map (fun grp => p.insert VALIDBACKENDIDS (grp.delete successor_id))
  else
    if successor_id ∈ p then some (p.erase successor_id) else none

def dropSuccessor (successor_id : Int) : DistributedGroup :=
  d.generalInfo.foldl drop d
where
  drop (d : DistributedGroup) (group : Int) (p : Parts) : DistributedGroup :=
    match dropParts successor_id p with
    | some p => (d.setParts group p).reset group
    | none => d

def unionOf (grp : Group) : Group := p.foldl (fun acc _ other => acc.addGroup other) grp

def moveTo (child : Int) (grow : Group → Group) (shrink : Group → Group → Group)
    : Parts :=
  let grown := grow (p.getD child ∅)
  insertEach (fun childHndl grp => if childHndl = child then none else some (shrink grp grown))
    p (p.insert child grown)

def mergeParts (successor_id : Int) (overwrite : Bool) (dparts : Parts) : Option Parts → Option Parts
  | none =>
    if overwrite then
      if 0 ≤ successor_id then
        some ((∅ : Parts).insert VALIDBACKENDIDS ((∅ : Group).add successor_id))
      else
        some ((∅ : Parts).insert successor_id (unionOf dparts ∅))
    else
      none
  | some p =>
    if 0 ≤ successor_id then
      some (moveTo p VALIDBACKENDIDS (fun grp => grp.add successor_id)
        (fun grp _ => grp.delete successor_id))
    else
      some (moveTo p successor_id (unionOf dparts) (fun grp grown => grp.deleteGroup grown))

def merge (successor_id : Int) (dgroup : DistributedGroup)
    (overwrite : Bool) : DistributedGroup :=
  dgroup.generalInfo.foldl mergeGroup d
where
  mergeGroup (d : DistributedGroup) (group : Int) (dparts : Parts) : DistributedGroup :=
    match mergeParts successor_id overwrite dparts d.generalInfo[group]? with
    | some p => (d.setParts group p).reset group
    | none => d

def isGroupExist (group : Int) : Bool := d.generalInfo.contains group

def numOfBE (group : Int) : Int := d.beInfo.getD group 0

def numOfSuccessor (group : Int) : Int := d.successorInfo.getD group 0

def retrieveBEList (group : Int) : List Int := d.beListInfo.getD group []

def retrieveSuccessorList (group : Int) : List Int := d.successorListInfo.getD group []

def querySuccessorId (be_id : Int) : Int :=
  match d.generalInfo[SCI_GROUP_ALL]? with
  | none => INVLIDSUCCESSORID
  | some all =>
    match all.toList.find? (fun e => e.2.hasMember be_id) with
    | some e => e.1
    | none => INVLIDSUCCESSORID

end DistributedGroup
end Sci
