import Cloudland.Web.Volume.ConsistencyGroup

/-!
This module models the handlers of `rpcs/consistency_group.go` for the reports of the scripts.
-/

namespace Web.Storage

open SqlM


inductive RpcError where
  | wrongParams
  | database
  | nilPointer
  deriving DecidableEq

abbrev RpcM := SqlM StorDB Command RpcError

def getArgSafe (args : List String) (index : Nat) (defaultVal : String) : String := args.getD index defaultVal

def joinRemainingArgs (args : List String) (index : Nat) : String := " ".intercalate (args.drop index)

def takeGroup (cgID : Nat) : RpcM ConsistencyGroup := find (fun db => db.groups.take cgID) .database

def reportTask (success : Bool) (message : String) (task : Task) : Task :=
  if success then { task with status := .success } else { task with status := .failed, message }

def finishTask (taskID : Nat) (success : Bool) (message : String) : RpcM Unit :=
  if 0 < taskID then
    update
      (fun db => { db with tasks := db.tasks.update (fun t => t.id == taskID) (reportTask success message) })
      .database
  else
    pure ⟨⟩

def finishedTasks (taskID : Nat) (success : Bool) (message : String) (tasks : Table Task) : Table Task :=
  if 0 < taskID then tasks.update (fun t => t.id == taskID) (reportTask success message) else tasks

theorem finishTask_calm
    : (finishTask taskID success message).Triple (Session.Calm db l)
        (fun _ s => s.Calm { db with tasks := finishedTasks taskID success message db.tasks } l) E := by
  unfold finishTask finishedTasks
  split
  . exact Triple.update_calm
  . exact Triple.pure (fun _ h => h)

/--
The handlers begin with the check of the number of arguments and write in a transaction of their own.
-/
def handle (least : Nat) (args : List String) (body : RpcM String) (w : World StorDB Command)
    : Except RpcError String × World StorDB Command :=
  if args.length < least then
    (.error .wrongParams, w)
  else
    withTransaction (fun e => e != .nilPointer) none body w

theorem handle_or
    (h : body.Triple (Session.Calm db []) (fun _ s => s.Calm db' []) (fun e _ => e = .database))
    : (handle least args body (World.calm db)).2.pool = db' ∨
      (handle least args body (World.calm db)).2.pool = db := by
  unfold handle
  split
  . exact .inr rfl
  . exact withTransaction_or (h.conseq (fun _ hs => hs) (fun _ _ hs => hs) (fun _ _ he => by simp [he]))

theorem handle_eq (hargs : least ≤ args.length)
    (h : body.Triple (Session.Calm db []) (fun _ s => s.Calm db' []) (fun _ _ => False))
    : (handle least args body (World.calm db)).2.pool = db' := by
  rw [handle, if_neg (Nat.not_lt.mpr hargs)]
  exact (withTransaction_calm h).1

section Groups

variable (taskID cgID : Nat) (args : List String)

def createCGWDS.report (status wdsCgID : String) (cg : ConsistencyGroup) : ConsistencyGroup :=
  if status = "available" then
    { cg with status := .available, wdsCgID }
  else
    { cg with status := .error }

def createCGWDS.body : RpcM String := do
  let status := getArgSafe args 0 "error"
  let wdsCgID := getArgSafe args 1 ""
  let message := joinRemainingArgs args 2
  let _ ← takeGroup cgID
  update (StorDB.updateGroup cgID (createCGWDS.report status wdsCgID)) .database
  finishTask taskID (status == "available") message
  return status

def createCGWDS : World StorDB Command → Except RpcError String × World StorDB Command :=
  handle 1 args (createCGWDS.body taskID cgID args)

def deleteCGWDS.writes (status : String) : RpcM Unit :=
  if status = "deleted" then do
    update (StorDB.deleteMembers (fun r => r.cgID == cgID)) .database
    update (StorDB.deleteGroup cgID) .database
  else
    update (StorDB.updateGroup cgID (setGroupStatus .error)) .database

def deleteCGWDS.body : RpcM String := do
  let status := getArgSafe args 0 "error"
  deleteCGWDS.writes cgID status
  return status

def deleteCGWDS : World StorDB Command → Except RpcError String × World StorDB Command :=
  handle 1 args (deleteCGWDS.body cgID args)

def changedCGWDS.body : RpcM String := do
  let status := getArgSafe args 0 "error"
  let _ ← takeGroup cgID
  update
    (StorDB.updateGroup cgID (setGroupStatus (if status = "available" then .available else .error)))
    .database
  return status

def addVolumesToCGWDS : World StorDB Command → Except RpcError String × World StorDB Command :=
  handle 1 args (changedCGWDS.body cgID args)

def removeVolumesFromCGWDS : World StorDB Command → Except RpcError String × World StorDB Command :=
  handle 1 args (changedCGWDS.body cgID args)

variable {taskID cgID args} {db : StorDB}

theorem createCGWDS.body_calm
    : (createCGWDS.body taskID cgID args).Triple (Session.Calm db [])
        (fun _ s => s.Calm
          { db.updateGroup cgID (createCGWDS.report (getArgSafe args 0 "error") (getArgSafe args 1 "")) with
            tasks := finishedTasks taskID (getArgSafe args 0 "error" == "available")
              (joinRemainingArgs args 2) db.tasks } [])
        (fun e _ => e = .database) := by
  apply Triple.bind_and (Triple.find_calm (fun _ _ => rfl))
  intro cg _
  apply Triple.update_bind
  apply Triple.seq finishTask_calm
  exact Triple.pure (fun _ h => h)

theorem changedCGWDS.body_calm
    : (changedCGWDS.body cgID args).Triple (Session.Calm db [])
        (fun _ s => s.Calm (db.updateGroup cgID
          (setGroupStatus (if getArgSafe args 0 "error" = "available" then .available else .error))) [])
        (fun e _ => e = .database) := by
  apply Triple.bind_and (Triple.find_calm (fun _ _ => rfl))
  intro cg _
  apply Triple.update_bind
  exact Triple.pure (fun _ h => h)

def deletedCG (cgID : Nat) (status : String) (db : StorDB) : StorDB :=
  if status = "deleted" then
    (db.deleteMembers (fun r => r.cgID == cgID)).deleteGroup cgID
  else
    db.updateGroup cgID (setGroupStatus .error)

theorem deleteCGWDS.writes_calm
    : (deleteCGWDS.writes cgID status).Triple (Session.Calm db [])
        (fun _ s => s.Calm (deletedCG cgID status db) []) E := by
  unfold deleteCGWDS.writes deletedCG
  split
  . exact Triple.bind Triple.update_calm (fun _ => Triple.update_calm)
  . exact Triple.update_calm

theorem deleteCGWDS.body_calm
    : (deleteCGWDS.body cgID args).Triple (Session.Calm db [])
        (fun _ s => s.Calm (deletedCG cgID (getArgSafe args 0 "error") db) []) (fun e _ => e = .database) := by
  apply Triple.seq deleteCGWDS.writes_calm
  exact Triple.pure (fun _ h => h)

end Groups

end Web.Storage
