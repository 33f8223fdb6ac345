import Cloudland.Lib.GoString
import Cloudland.Web.Volume.Callbacks

/-!
This module models the requests of `routes/consistency_group.go` on snapshots and the handlers of the reports.
-/

namespace Web.Storage

open List Check

open SqlM (Triple)
open GoString (parseInt64)

def hyperExecute (delivered : Bool) (c : Command) (e : CLError) : StorM Unit :=
  if delivered then SqlM.send c e else SqlM.throw e

/--
When the command cannot be sent the task and the snapshot are marked, in statements whose errors are
not looked at.
-/
def executeOrMark (delivered : Bool) (c : Command) (e : CLError) (taskID snapshotID : Nat) : StorM Unit :=
  SqlM.recover (hyperExecute delivered c e) (fun e => do
    SqlM.attempt (SqlM.update (StorDB.updateTask taskID .failed) e)
    SqlM.attempt (SqlM.update (StorDB.updateSnapshot snapshotID (setSnapshotStatus .error)) e)
    SqlM.throw e)

def checkIdle (action : String) (vol : Volume) : Except CLError Unit :=
  require (!vol.isBusy) ⟨.cgVolumeIsBusy,
    "Volume " ++ vol.uuid ++ " is busy (status: " ++ vol.status.toString ++ "), cannot " ++ action ++ " now"⟩

theorem checkIdle_eq_ok : checkIdle action v = .ok () ↔ v.isBusy = false := by
  simp [checkIdle]

theorem loadedVolume_eq_ok : loadedVolume check o = .ok v ↔ o = some v ∧ check v = .ok () := by
  simp only [loadedVolume, bind_eq_ok, found_eq_ok, pure_eq_ok]
  constructor
  . rintro ⟨v', ho, _, hcheck, heq⟩
    subst heq
    exact ⟨ho, hcheck⟩
  . rintro ⟨ho, hcheck⟩
    exact ⟨v, ho, _, hcheck, rfl⟩

structure Loaded (db : StorDB) (cg : ConsistencyGroup) (vs : List Volume) : Prop where
  ne_nil : vs ≠ []
  ids : (db.membersOf cg.id).map ConsistencyGroupVolume.volumeID = vs.map Volume.id
  mem : ∀ v ∈ vs, v ∈ db.volumes
  idle : ∀ v ∈ vs, v.isBusy = false

theorem Loaded.of_eq_ok (h : loadedVolumes cg check db = .ok vs) (hcheck : ∀ v, check v = .ok () → v.isBusy = false)
    : Loaded db cg vs := by
  simp only [loadedVolumes, bind_eq_ok, require_eq_ok] at h
  obtain ⟨_, hne, hmap⟩ := h
  have hrows := mapM_eq_ok.mp hmap
  simp only [loadedVolume_eq_ok] at hrows
  have hlength := hrows.length_eq
  rw [StorDB.preloadedVolumes, forall₂_map_left_iff] at hrows
  have hvolumes : ∀ v ∈ vs, v ∈ db.volumes ∧ v.isBusy = false := by
    intro v hv
    obtain ⟨o, ho, hload⟩ := exists_of_mapM_eq_ok hmap hv
    obtain ⟨r, _, hr⟩ := mem_map.mp ho
    obtain ⟨hsome, hok⟩ := loadedVolume_eq_ok.mp hload
    exact ⟨(Table.byKey?_eq_some.mp (hr.trans hsome)).1, hcheck v hok⟩
  refine ⟨?_, ?_, fun v hv => (hvolumes v hv).1, fun v hv => (hvolumes v hv).2⟩
  . intro hnil
    rw [hnil] at hlength
    exact hne (eq_nil_of_length_eq_zero hlength)
  . have hids : List.Forall₂ Eq ((db.membersOf cg.id).map ConsistencyGroupVolume.volumeID) (vs.map Volume.id) := by
      rw [forall₂_map_left_iff, forall₂_map_right_iff]
      exact hrows.imp (fun _ _ h => (Table.byKey?_eq_some.mp h.1).2.symm)
    rwa [forall₂_eq_eq_eq] at hids

def setAll (ids : List Nat) (g : Nat → VolumeStatus) (db : StorDB) : StorDB :=
  ids.foldl (fun db id => db.updateVolume id (setVolumeStatus (g id))) db

section SetAll

variable {ids : List Nat} {g : Nat → VolumeStatus} {db : StorDB}

theorem members_setAll : (setAll ids g db).members = db.members := by
  induction ids generalizing db with
  | nil => rfl
  | cons id ids ih => exact ih

theorem snapshots_setAll : (setAll ids g db).snapshots = db.snapshots := by
  induction ids generalizing db with
  | nil => rfl
  | cons id ids ih => exact ih

theorem byKey?_setAll
    : (setAll ids g db).volumes.byKey? k
        =
      (db.volumes.byKey? k).map (fun v => if k ∈ ids then setVolumeStatus (g k) v else v) := by
  induction ids generalizing db with
  | nil => simp [setAll]
  | cons id ids ih =>
    show (setAll ids g (db.updateVolume id (setVolumeStatus (g id)))).volumes.byKey? k = _
    rw [ih, StorDB.updateVolume, Table.byKey?_update, Option.map_map]
    cases hv : db.volumes.byKey? k with
    | none => rfl
    | some v =>
      have hk : v.id = k := (Table.byKey?_eq_some.mp hv).2
      subst hk
      by_cases hid : v.id = id
      . simp [hid, setVolumeStatus, Keyed.setKey, Keyed.key]
      . simp [hid]

theorem setStatuses_calm
    : (setStatuses volumes status).Triple (Session.Calm db l)
        (fun _ s => s.Calm (setAll (volumes.map Volume.id) (fun _ => status) db) l) E := by
  rw [setAll, foldl_map]
  exact Triple.each_update_calm

end SetAll

section Execute

variable {c : Command} {e : CLError} {taskID snapshotID : Nat} {db : StorDB} {l : List Command}

theorem executeOrMark_sent
    : (executeOrMark true c e taskID snapshotID).Triple (Session.Calm db l) (fun _ s => s.Calm db (l ++ [c])) E :=
  Triple.recover_send_calm

def marked (taskID snapshotID : Nat) (db : StorDB) : StorDB :=
  (db.updateTask taskID .failed).updateSnapshot snapshotID (setSnapshotStatus .error)

theorem executeOrMark_unsent
    : (executeOrMark false c e taskID snapshotID).Triple (Session.Calm db l) Q
        (fun _ s => s.Calm (marked taskID snapshotID db) l) := by
  have hthrow : (hyperExecute false c e).Triple (Session.Calm db l) Q (fun _ s => s.Calm db l) :=
    Triple.throw (fun _ h => h)
  apply Triple.recover hthrow
  intro e'
  apply Triple.seq (Triple.attempt_calm Triple.update_calm)
  apply Triple.seq (Triple.attempt_calm Triple.update_calm)
  exact Triple.throw (fun _ h => h)

end Execute

section CreateSnapshot

variable (m : MemberShip) (uuid cgUUID name description : String) (delivered : Bool)

def createSnapshot.check (db : StorDB) : Except CLError (ConsistencyGroup × List Volume) := do
  let cg ← ownedGroupByUUID m "create snapshot for this consistency group" cgUUID db
  require cg.isAvailable ⟨.cgInvalidState,
    "Consistency group is not available (status: " ++ cg.status.toString ++ ")"⟩
  let volumes ← loadedVolumes cg (checkIdle "create snapshot") db
  return (cg, volumes)

def createSnapshot.task (cg : ConsistencyGroup) : Task where
  id := 0
  owner := cg.owner
  name := "create_cg_snapshot_" ++ cg.uuid
  summary := "Creating snapshot for consistency group " ++ cg.name
  status := .running
  action := some .snapshot

def createSnapshot.row (cg : ConsistencyGroup) (task : Task) : ConsistencyGroupSnapshot where
  id := 0
  uuid := uuid
  owner := cg.owner
  name := name
  description := description
  status := .pending
  cgID := cg.id
  wdsSnapID := ""
  taskID := task.id

def createSnapshot.writes (a : ConsistencyGroup × List Volume) : StorM ConsistencyGroupSnapshot := do
  let (cg, volumes) := a
  let task ← SqlM.exec (StorDB.createTask (createSnapshot.task cg))
    ⟨.databaseError, "Failed to create task record"⟩
  let snapshot ← SqlM.exec (StorDB.createSnapshotRow (createSnapshot.row uuid name description cg task))
    ⟨.databaseError, "Failed to create snapshot record"⟩
  setStatuses volumes .backuping
  executeOrMark delivered (.createCgSnapshotWds cg.id snapshot.id ("cg_snap_" ++ snapshot.uuid) cg.wdsCgID)
    ⟨.executeOnHyperFailed, "Failed to execute create CG snapshot script"⟩ task.id snapshot.id
  return snapshot

def createSnapshot (ctx : Ctx)
    : World StorDB Command → Except CLError ConsistencyGroupSnapshot × World StorDB Command :=
  withChecked ctx (createSnapshot.check m cgUUID) (createSnapshot.writes uuid name description delivered)

variable {m uuid cgUUID name description} {cg : ConsistencyGroup} {vs : List Volume} {db : StorDB}

theorem createSnapshot.check_eq_ok (h : createSnapshot.check m cgUUID db = .ok (cg, vs))
    : Loaded db cg vs := by
  simp only [createSnapshot.check, bind_eq_ok, pure_eq_ok, Prod.mk.injEq] at h
  obtain ⟨cg', _, _, _, vs', hload, hcg, hvs⟩ := h
  subst hcg hvs
  exact .of_eq_ok hload (fun _ => checkIdle_eq_ok.mp)

def snapshotBegun (uuid name description : String) (cg : ConsistencyGroup) (db : StorDB) : StorDB :=
  let (task, db) := db.createTask (createSnapshot.task cg)
  (db.createSnapshotRow (createSnapshot.row uuid name description cg task)).2

def backuping (uuid name description : String) (cg : ConsistencyGroup) (vs : List Volume) (db : StorDB) : StorDB :=
  setAll (vs.map Volume.id) (fun _ => .backuping) (snapshotBegun uuid name description cg db)

theorem createSnapshot.writes_sent
    : (createSnapshot.writes uuid name description true (cg, vs)).Triple (Session.Calm db [])
        (fun _ s => s.Calm (backuping uuid name description cg vs db)
          [.createCgSnapshotWds cg.id db.snapshots.next ("cg_snap_" ++ uuid) cg.wdsCgID]) E := by
  apply Triple.exec_bind
  apply Triple.exec_bind
  apply Triple.seq setStatuses_calm
  exact Triple.seq_pure executeOrMark_sent

theorem createSnapshot.writes_unsent
    : (createSnapshot.writes uuid name description false (cg, vs)).Triple (Session.Calm db []) Q
        (fun _ s => s.Calm
          (marked db.tasks.next db.snapshots.next (backuping uuid name description cg vs db)) []) := by
  apply Triple.exec_bind
  apply Triple.exec_bind
  apply Triple.seq setStatuses_calm
  exact Triple.seq_pure executeOrMark_unsent

end CreateSnapshot

section DeleteSnapshot

variable (m : MemberShip) (cgUUID snapUUID : String) (delivered : Bool)

def takeSnapshot (cg : ConsistencyGroup) (snapUUID : String) (db : StorDB)
    : Except CLError ConsistencyGroupSnapshot :=
  found (db.snapshotOf cg.id snapUUID) ⟨.cgSnapshotNotFound, "Snapshot " ++ snapUUID ++ " not found"⟩

def deleteSnapshot.check (db : StorDB) : Except CLError (ConsistencyGroup × ConsistencyGroupSnapshot) := do
  let cg ← ownedGroupByUUID m "delete snapshot for this consistency group" cgUUID db
  let snapshot ← takeSnapshot cg snapUUID db
  require snapshot.canDelete ⟨.cgSnapshotIsBusy,
    "Snapshot is busy (status: " ++ snapshot.status.toString ++ ") and cannot be deleted"⟩
  return (cg, snapshot)

def deleteSnapshot.task (cg : ConsistencyGroup) (snapshot : ConsistencyGroupSnapshot) : Task where
  id := 0
  owner := cg.owner
  name := "delete_cg_snapshot_" ++ snapshot.uuid
  summary := "Deleting snapshot " ++ snapshot.name ++ " from consistency group " ++ cg.name
  status := .running
  action := some .snapshot

def deleteSnapshot.request (cg : ConsistencyGroup) (snapshot : ConsistencyGroupSnapshot) : StorM Unit := do
  let task ← SqlM.exec (StorDB.createTask (deleteSnapshot.task cg snapshot))
    ⟨.databaseError, "Failed to create task record"⟩
  SqlM.update (StorDB.updateSnapshot snapshot.id (fun s => { s with status := .deleting, taskID := task.id }))
    ⟨.databaseError, "Failed to update snapshot status"⟩
  executeOrMark delivered (.deleteCgSnapshotWds snapshot.id snapshot.wdsSnapID)
    ⟨.executeOnHyperFailed, "Failed to execute delete CG snapshot script"⟩ task.id snapshot.id

-- a snapshot that was never taken is deleted without a command
def deleteSnapshot.writes (a : ConsistencyGroup × ConsistencyGroupSnapshot) : StorM Unit :=
  let (cg, snapshot) := a
  if snapshot.status = .error ∧ snapshot.wdsSnapID = "" then
    SqlM.update (StorDB.deleteSnapshotRow snapshot.id) ⟨.databaseError, "Failed to delete snapshot record"⟩
  else
    deleteSnapshot.request delivered cg snapshot

def deleteSnapshot (ctx : Ctx) : World StorDB Command → Except CLError Unit × World StorDB Command :=
  withChecked ctx (deleteSnapshot.check m cgUUID snapUUID) (deleteSnapshot.writes delivered)

variable {cg : ConsistencyGroup} {snapshot : ConsistencyGroupSnapshot} {db : StorDB}

def deleting (cg : ConsistencyGroup) (snapshot : ConsistencyGroupSnapshot) (db : StorDB) : StorDB :=
  let (task, db) := db.createTask (deleteSnapshot.task cg snapshot)
  db.updateSnapshot snapshot.id (fun s => { s with status := .deleting, taskID := task.id })

theorem deleteSnapshot.request_sent
    : (deleteSnapshot.request true cg snapshot).Triple (Session.Calm db [])
        (fun _ s => s.Calm (deleting cg snapshot db) [.deleteCgSnapshotWds snapshot.id snapshot.wdsSnapID]) E := by
  apply Triple.exec_bind
  apply Triple.update_bind
  exact executeOrMark_sent

theorem deleteSnapshot.request_unsent
    : (deleteSnapshot.request false cg snapshot).Triple (Session.Calm db []) Q
        (fun _ s => s.Calm (marked db.tasks.next snapshot.id (deleting cg snapshot db)) []) := by
  apply Triple.exec_bind
  apply Triple.update_bind
  exact executeOrMark_unsent

end DeleteSnapshot

section RestoreSnapshot

variable (m : MemberShip) (cgUUID snapUUID : String) (delivered : Bool)

def restoreSnapshot.checkVolume (db : StorDB) (vol : Volume) : Except CLError Unit := do
  checkIdle "restore" vol
  if 0 < vol.instanceID then
    let _ ← found (db.instances.take vol.instanceID)
      ⟨.instanceNotFound, "Instance not found for volume " ++ vol.uuid⟩
  else
    require (vol.status ≠ .attached) ⟨.cgVolumeAttachedNoInstance,
      "Volume " ++ vol.uuid ++ " status is attached but has no instance"⟩

def restoreSnapshot.checkShutoff (instance_ : Instance) : Except CLError Unit :=
  require (instance_.status = .shutoff) ⟨.cgInstanceNotShutoff,
    "Instance " ++ instance_.hostname ++ " (ID: " ++ toString instance_.id ++ ") is not shutoff (status: "
      ++ instance_.status.toString ++ "), all instances must be stopped before restoring CG snapshot"⟩

def restoreSnapshot.check (db : StorDB)
    : Except CLError (ConsistencyGroup × ConsistencyGroupSnapshot × List Volume) := do
  let cg ← ownedGroupByUUID m "restore snapshot for this consistency group" cgUUID db
  let snapshot ← takeSnapshot cg snapUUID db
  require (snapshot.status ≠ .restoring) ⟨.cgSnapshotRestoreInProgress,
    "Snapshot " ++ snapshot.uuid ++ " has a restore operation already in progress"⟩
  require snapshot.canRestore ⟨.cgSnapshotCannotRestore,
    "Snapshot " ++ snapshot.uuid ++ " cannot be restored (status: " ++ snapshot.status.toString ++ ")"⟩
  let volumes ← loadedVolumes cg (restoreSnapshot.checkVolume db) db
  forM (volumes.filterMap (fun vol => db.instances.byKey? vol.instanceID)) restoreSnapshot.checkShutoff
  return (cg, snapshot, volumes)

def restoreSnapshot.task (cg : ConsistencyGroup) (snapshot : ConsistencyGroupSnapshot) : Task where
  id := 0
  owner := cg.owner
  name := "restore_cg_snapshot_" ++ snapshot.uuid
  summary := "Restoring consistency group " ++ cg.name ++ " from snapshot " ++ snapshot.name
  status := .running
  action := some .restore

def restoreSnapshot.writes (a : ConsistencyGroup × ConsistencyGroupSnapshot × List Volume) : StorM Task := do
  let (cg, snapshot, volumes) := a
  let task ← SqlM.exec (StorDB.createTask (restoreSnapshot.task cg snapshot))
    ⟨.databaseError, "Failed to create restore task"⟩
  SqlM.update (StorDB.updateSnapshot snapshot.id (fun s => { s with status := .restoring, taskID := task.id }))
    ⟨.databaseError, "Failed to update snapshot status"⟩
  setStatuses volumes .restoring
  executeOrMark delivered
    (.restoreCgSnapshotWds snapshot.id cg.id cg.wdsCgID snapshot.wdsSnapID
      (volumes.map (fun vol => (vol.id, vol.getOriginVolumeID, vol.instanceID))))
    ⟨.executeOnHyperFailed, "Failed to execute restore CG snapshot script"⟩ task.id snapshot.id
  return task

def restoreSnapshot (ctx : Ctx) : World StorDB Command → Except CLError Task × World StorDB Command :=
  withChecked ctx (restoreSnapshot.check m cgUUID snapUUID) (restoreSnapshot.writes delivered)

variable {m cgUUID snapUUID} {cg : ConsistencyGroup} {snapshot : ConsistencyGroupSnapshot} {vs : List Volume}
variable {db : StorDB}

theorem restoreSnapshot.check_eq_ok (h : restoreSnapshot.check m cgUUID snapUUID db = .ok (cg, snapshot, vs))
    : Loaded db cg vs ∧ snapshot ∈ db.snapshots := by
  simp only [restoreSnapshot.check, bind_eq_ok, pure_eq_ok, Prod.mk.injEq] at h
  obtain ⟨cg', _, s', htake, _, _, _, _, vs', hload, _, _, hcg, hs, hvs⟩ := h
  subst hcg hs hvs
  refine ⟨.of_eq_ok hload ?_, (Table.find?_eq_some (found_eq_ok.mp htake)).1⟩
  intro v hv
  simp only [restoreSnapshot.checkVolume, bind_eq_ok] at hv
  obtain ⟨_, hidle, _⟩ := hv
  exact checkIdle_eq_ok.mp hidle

def restoreBegun (cg : ConsistencyGroup) (snapshot : ConsistencyGroupSnapshot) (db : StorDB) : StorDB :=
  let (task, db) := db.createTask (restoreSnapshot.task cg snapshot)
  db.updateSnapshot snapshot.id (fun s => { s with status := .restoring, taskID := task.id })

def restoring (cg : ConsistencyGroup) (snapshot : ConsistencyGroupSnapshot) (vs : List Volume) (db : StorDB) : StorDB :=
  setAll (vs.map Volume.id) (fun _ => .restoring) (restoreBegun cg snapshot db)

theorem restoreSnapshot.writes_sent
    : (restoreSnapshot.writes true (cg, snapshot, vs)).Triple (Session.Calm db [])
        (fun _ s => s.Calm (restoring cg snapshot vs db)
          [.restoreCgSnapshotWds snapshot.id cg.id cg.wdsCgID snapshot.wdsSnapID
            (vs.map (fun vol => (vol.id, vol.getOriginVolumeID, vol.instanceID)))]) E := by
  apply Triple.exec_bind
  apply Triple.update_bind
  apply Triple.seq setStatuses_calm
  exact Triple.seq_pure executeOrMark_sent

theorem restoreSnapshot.writes_unsent
    : (restoreSnapshot.writes false (cg, snapshot, vs)).Triple (Session.Calm db []) Q
        (fun _ s => s.Calm (marked db.tasks.next snapshot.id (restoring cg snapshot vs db)) []) := by
  apply Triple.exec_bind
  apply Triple.update_bind
  apply Triple.seq setStatuses_calm
  exact Triple.seq_pure executeOrMark_unsent

end RestoreSnapshot

section Reports

-- a size that is no number counts as zero
def sizeIn (unit : Int) (text : String) : Int :=
  let size := (parseInt64 text).getD 0
  if 0 < size then size / unit else size

/--
The status is not kept anywhere, it is taken from the attachment.
-/
def idleStatus (vol : Volume) : VolumeStatus := if 0 < vol.instanceID then .attached else .available

def giveBack.row (a : ConsistencyGroupVolume × Option Volume) : RpcM Unit :=
  match a.2 with
  | some vol => SqlM.update (StorDB.updateVolume a.1.volumeID (setVolumeStatus (idleStatus vol))) .database
  | none => SqlM.throw .nilPointer

def giveBack (cgID : Nat) : RpcM Unit := do
  let cgVolumes ← SqlM.query
    (fun db => (db.membersOf cgID).map (fun r => (r, db.volumes.byKey? r.volumeID))) .database
  SqlM.each cgVolumes giveBack.row

variable (snapshotID cgID : Nat) (args : List String)

def createCGSnapshotWDS.report (status wdsSnapID : String) (size : Int) (s : ConsistencyGroupSnapshot)
    : ConsistencyGroupSnapshot :=
  if status = "available" then
    { s with status := .available, wdsSnapID, size }
  else
    { s with status := .error }

def createCGSnapshotWDS.body : RpcM String := do
  let status := getArgSafe args 0 "error"
  let wdsSnapID := getArgSafe args 1 ""
  let size := sizeIn (1024 * 1024 * 1024) (getArgSafe args 2 "0")
  let message := joinRemainingArgs args 3
  let snapshot ← SqlM.find (fun db => db.snapshots.take snapshotID) .database
  SqlM.update (StorDB.updateSnapshot snapshotID (createCGSnapshotWDS.report status wdsSnapID size)) .database
  SqlM.attempt (finishTask snapshot.taskID (status == "available") message)
  giveBack snapshot.cgID
  return status

def createCGSnapshotWDS : World StorDB Command → Except RpcError String × World StorDB Command :=
  handle 1 args (createCGSnapshotWDS.body snapshotID args)

def deleteCGSnapshotWDS.row (status : String) : StorDB → StorDB :=
  if status = "deleted" then
    StorDB.deleteSnapshotRow snapshotID
  else
    StorDB.updateSnapshot snapshotID (setSnapshotStatus .error)

def deleteCGSnapshotWDS.body : RpcM String := do
  let status := getArgSafe args 0 "error"
  let message := joinRemainingArgs args 1
  -- that there is no such snapshot is only logged
  let snapshot ← SqlM.query (fun db => db.snapshots.take snapshotID) .database
  let taskID := (snapshot.map ConsistencyGroupSnapshot.taskID).getD 0
  SqlM.update (deleteCGSnapshotWDS.row snapshotID status) .database
  SqlM.attempt (finishTask taskID (status == "deleted") message)
  return status

def deleteCGSnapshotWDS : World StorDB Command → Except RpcError String × World StorDB Command :=
  handle 1 args (deleteCGSnapshotWDS.body snapshotID args)

def restoreCGSnapshotWDS.body : RpcM String := do
  let status := getArgSafe args 0 "error"
  let message := joinRemainingArgs args 1
  let snapshot ← SqlM.find (fun db => db.snapshots.take snapshotID) .database
  SqlM.update (StorDB.updateSnapshot snapshotID (setSnapshotStatus .available)) .database
  SqlM.attempt (finishTask snapshot.taskID (status == "available") message)
  giveBack cgID
  return status

def restoreCGSnapshotWDS : World StorDB Command → Except RpcError String × World StorDB Command :=
  handle 1 args (restoreCGSnapshotWDS.body snapshotID cgID args)

variable {snapshotID cgID args} {db : StorDB}

def idleOf (db : StorDB) (id : Nat) : VolumeStatus := ((db.volumes.byKey? id).map idleStatus).getD .available

def givenBack (cgID : Nat) (db : StorDB) : StorDB :=
  setAll ((db.membersOf cgID).map ConsistencyGroupVolume.volumeID) (idleOf db) db

theorem giveBack.rows_calm
    (hrows : ∀ a ∈ rows, ∃ v, a.2 = some v ∧ idleStatus v = g a.1.volumeID)
    : (SqlM.each rows giveBack.row).Triple (Session.Calm db l)
        (fun _ s => s.Calm (setAll (rows.map (fun a => a.1.volumeID)) g db) l) E := by
  induction rows generalizing db with
  | nil => exact Triple.pure (fun _ h => h)
  | cons a rows ih =>
    have ⟨v, hv, hg⟩ := hrows a (by simp)
    have hrow : (giveBack.row a).Triple (Session.Calm db l)
        (fun _ s => s.Calm (db.updateVolume a.1.volumeID (setVolumeStatus (g a.1.volumeID))) l) E := by
      rw [giveBack.row, hv, ← hg]
      exact Triple.update_calm
    exact Triple.bind hrow (fun _ => ih (fun b hb => hrows b (mem_cons_of_mem _ hb)))

theorem giveBack_calm (hrows : ∀ r ∈ db.membersOf cgID, ∃ v, db.volumes.byKey? r.volumeID = some v)
    : (giveBack cgID).Triple (Session.Calm db l) (fun _ s => s.Calm (givenBack cgID db) l) E := by
  apply Triple.bind_and Triple.query_calm
  intro rows heq
  have hrow : ∀ a ∈ rows, ∃ v, a.2 = some v ∧ idleStatus v = idleOf db a.1.volumeID := by
    intro a ha
    rw [heq] at ha
    have ⟨r, hr, hra⟩ := mem_map.mp ha
    have ⟨v, hv⟩ := hrows r hr
    subst hra
    exact ⟨v, hv, by simp [idleOf, hv]⟩
  have hids : rows.map (fun a => a.1.volumeID) = (db.membersOf cgID).map ConsistencyGroupVolume.volumeID := by
    rw [heq, map_map]
    rfl
  have hcalm : (SqlM.each rows giveBack.row).Triple (Session.Calm db l) _ E := giveBack.rows_calm hrow
  rw [hids] at hcalm
  exact hcalm

theorem createCGSnapshotWDS.body_calm
    (hsnapshot : db.snapshots.take snapshotID = some snapshot)
    (hrows : ∀ r ∈ db.membersOf snapshot.cgID, ∃ v, db.volumes.byKey? r.volumeID = some v)
    : (createCGSnapshotWDS.body snapshotID args).Triple (Session.Calm db [])
        (fun _ s => s.Calm (givenBack snapshot.cgID
          { db.updateSnapshot snapshotID (createCGSnapshotWDS.report (getArgSafe args 0 "error")
              (getArgSafe args 1 "") (sizeIn (1024 * 1024 * 1024) (getArgSafe args 2 "0"))) with
            tasks := finishedTasks snapshot.taskID (getArgSafe args 0 "error" == "available")
              (joinRemainingArgs args 3) db.tasks }) [])
        (fun _ _ => False) := by
  refine Triple.find_bind ?_ hsnapshot
  apply Triple.update_bind
  apply Triple.seq (Triple.attempt_calm finishTask_calm)
  refine Triple.seq_pure (giveBack_calm ?_)
  exact hrows

theorem restoreCGSnapshotWDS.body_calm (hsnapshot : db.snapshots.take snapshotID = some snapshot)
    (hrows : ∀ r ∈ db.membersOf cgID, ∃ v, db.volumes.byKey? r.volumeID = some v)
    : (restoreCGSnapshotWDS.body snapshotID cgID args).Triple (Session.Calm db [])
        (fun _ s => s.Calm (givenBack cgID
          { db.updateSnapshot snapshotID (setSnapshotStatus .available) with
            tasks := finishedTasks snapshot.taskID (getArgSafe args 0 "error" == "available")
              (joinRemainingArgs args 1) db.tasks }) [])
        (fun _ _ => False) := by
  refine Triple.find_bind ?_ hsnapshot
  apply Triple.update_bind
  apply Triple.seq (Triple.attempt_calm finishTask_calm)
  refine Triple.seq_pure (giveBack_calm ?_)
  exact hrows

theorem deleteCGSnapshotWDS.body_calm
    : (deleteCGSnapshotWDS.body snapshotID args).Triple (Session.Calm db [])
        (fun _ s => s.Calm
          { deleteCGSnapshotWDS.row snapshotID (getArgSafe args 0 "error") db with
            tasks := finishedTasks (((db.snapshots.take snapshotID).map ConsistencyGroupSnapshot.taskID).getD 0)
              (getArgSafe args 0 "error" == "deleted") (joinRemainingArgs args 1)
              (deleteCGSnapshotWDS.row snapshotID (getArgSafe args 0 "error") db).tasks } [])
        (fun _ _ => False) := by
  apply Triple.query_bind
  apply Triple.update_bind
  exact Triple.seq_pure (Triple.attempt_calm finishTask_calm)

end Reports

end Web.Storage
