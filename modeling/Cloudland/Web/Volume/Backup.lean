import Cloudland.Web.Volume.Snapshot

/-!
This module models `routes/backup.go` and `rpcs/backup.go`: backups and snapshots of one volume.
-/

namespace Web.Storage.Backup

open Table Check SqlM


inductive VolumeRef where
  | id (id : Nat)
  | uuid (uuid : String)
  deriving DecidableEq

def findVolume (m : MemberShip) (ref : VolumeRef) (db : StorDB) : Except CLError Volume :=
  match ref with
  | .id id => do
    require (0 < id) ⟨.invalidParameter, "Invalid volume ID: " ++ toString id⟩
    found (db.volumes.find? (fun v => v.id == id && m.getWhere v.owner)) ⟨.volumeNotFound, "Failed to query volume"⟩
  | .uuid uuid =>
    found (db.volumes.find? (fun v => v.uuid == uuid && m.getWhere v.owner)) ⟨.volumeNotFound, "Volume not found"⟩

def getVolume (m : MemberShip) (ref : VolumeRef) (db : StorDB) : Except CLError (Volume × Option Instance) := do
  let volume ← findVolume m ref db
  require (m.validateOwner .reader volume.owner) (denied "read the volume")
  return (volume, db.instances.byKey? volume.instanceID)

def checkVolume (m : MemberShip) (action : String) (volume : Volume) : Except CLError PUnit := do
  require (m.validateOwner .writer volume.owner) (denied (action ++ " the volume"))
  require (!volume.isError) ⟨.volumeInvalidState,
    "Volume " ++ volume.uuid ++ " is in error state, cannot " ++ action ++ " now"⟩
  require (!volume.isBusy) ⟨.volumeIsBusy,
    "Volume " ++ volume.uuid ++ " is in " ++ volume.status.toString ++ " state, cannot " ++ action ++ " now"⟩

variable (m : MemberShip) (ref : VolumeRef) (uuid name poolID volDriver : String) (delivered : Bool)

section Model

def backupRow (backupType : String) (volume : Volume) : VolumeBackup where
  id := 0
  uuid := uuid
  owner := m.orgID
  name := name
  volumeID := volume.id
  backupType := backupType
  status := "pending"
  size := 0
  path := ""
  snapshotID := ""
  taskID := 0

def backupTask (backupType : String) (volume : Volume) (backupID : Nat) : Task where
  id := 0
  owner := m.orgID
  name := "create_" ++ backupType ++ "_" ++ volume.uuid
  summary := "Taking " ++ backupType ++ "(" ++ name ++ " [" ++ toString backupID ++ "]) for volume "
    ++ volume.uuid ++ " to pool "
  status := .running
  action := some .backup
  resources := "[\"" ++ toString backupID ++ "\"]"

/--
`createBackupModel`. Both callers pass no pool.
-/
def createBackupModel (backupType : String) (volume : Volume) : StorM (VolumeBackup × Task) := do
  let backup ← exec (StorDB.createBackupRow (backupRow m uuid name backupType volume)) ⟨.databaseError, ""⟩
  let task ← exec (StorDB.createTask (backupTask m name backupType volume backup.id)) ⟨.databaseError, ""⟩
  update (StorDB.updateBackup backup.id (fun b => { b with taskID := task.id })) ⟨.databaseError, ""⟩
  return ({ backup with taskID := task.id }, task)

variable {m uuid name} {backupType : String} {volume : Volume} {db : StorDB} {l : List Command}

def modelled (m : MemberShip) (uuid name backupType : String) (volume : Volume) (db : StorDB) : StorDB :=
  let db' := (db.createBackupRow (backupRow m uuid name backupType volume)).2
  (db'.createTask (backupTask m name backupType volume db.backups.next)).2.updateBackup db.backups.next
    (fun b => { b with taskID := db.tasks.next })

theorem createBackupModel_calm
    : (createBackupModel m uuid name backupType volume).Triple (Session.Calm db l)
        (fun a s => (a.1.id = db.backups.next ∧ a.2.id = db.tasks.next) ∧
          s.Calm (modelled m uuid name backupType volume db) l) E := by
  apply Triple.exec_bind
  apply Triple.exec_bind
  apply Triple.update_bind
  exact Triple.pure (fun _ hs => ⟨⟨rfl, rfl⟩, hs⟩)

theorem createBackupModel_ok (m : MemberShip) (uuid name backupType : String) (volume : Volume)
    (hw : w.IsCalm db l)
    : ∃ backup task w', withTransaction (fun _ => true) none (createBackupModel m uuid name backupType volume) w
          =
        (.ok (backup, task), w') ∧
      backup.id = db.backups.next ∧ task.id = db.tasks.next ∧
      w'.IsCalm (modelled m uuid name backupType volume db) l := by
  have hcalm : (createBackupModel m uuid name backupType volume).Triple (Session.Calm db l) _ (fun _ _ => False) :=
    createBackupModel_calm
  have ⟨a, w', hmodel, hids, hw'⟩ := withTransaction_ok (fun _ => true) hw hcalm
  exact ⟨a.1, a.2, w', hmodel, hids.1, hids.2, hw'⟩

theorem modelled_task
    : ∃ t, (modelled m uuid name backupType volume db).tasks.take db.tasks.next = some t := by
  have hne := Nat.ne_of_gt db.tasks.pos
  refine ⟨(db.createTask (backupTask m name backupType volume db.backups.next)).1, ?_⟩
  rw [take, if_neg hne]
  exact byKey?_eq_some.mpr ⟨mem_insert.mpr (.inr rfl), rfl⟩

theorem modelled_backup
    : ∃ b, (modelled m uuid name backupType volume db).backups.take db.backups.next = some b ∧
        b.volumeID = volume.id := by
  have hne := Nat.ne_of_gt db.backups.pos
  refine ⟨{ (db.createBackupRow (backupRow m uuid name backupType volume)).1 with taskID := db.tasks.next }, ?_, rfl⟩
  rw [take, if_neg hne]
  apply byKey?_eq_some.mpr
  refine ⟨mem_update.mpr ⟨_, mem_insert.mpr (.inr rfl), ?_⟩, rfl⟩
  rw [if_pos (by simp [Keyed.setKey])]
  rfl

end Model

def posting : CLError := ⟨.executeOnHyperFailed, "Error posting data"⟩

section Checks

variable {m ref volDriver delivered} {db : StorDB} {volume : Volume}

theorem execute_sent (hdriver : volDriver ≠ "local")
    : (if volDriver ≠ "local" then hyperExecute true c posting else throw e).Triple (Session.Calm db l)
        (fun _ s => s.Calm db (l ++ [c])) E := by
  rw [if_pos hdriver]
  exact Triple.send_calm

theorem execute_fails (h : delivered = false ∨ volDriver = "local")
    : (if volDriver ≠ "local" then hyperExecute delivered c posting else throw e).Triple (Session.Calm db l)
        (fun _ _ => False) (fun _ s => s.Calm db l) := by
  apply Triple.ite
  . intro hdriver
    rw [h.resolve_right hdriver]
    exact Triple.throw (fun _ hs => hs)
  . exact fun _ => Triple.throw (fun _ hs => hs)

theorem mem_of_findVolume (h : findVolume m ref db = .ok volume) : volume ∈ db.volumes := by
  cases ref with
  | id id =>
    simp only [findVolume, bind_eq_ok, found_eq_ok] at h
    obtain ⟨_, _, hfind⟩ := h
    exact (find?_eq_some hfind).1
  | uuid uuid => exact (find?_eq_some (found_eq_ok.mp h)).1

theorem getVolume_eq_ok (h : getVolume m ref db = .ok (volume, inst))
    : volume ∈ db.volumes ∧ inst = db.instances.byKey? volume.instanceID := by
  simp only [getVolume, bind_eq_ok, pure_eq_ok, Prod.mk.injEq] at h
  obtain ⟨v, hfind, _, _, rfl, hinst⟩ := h
  exact ⟨mem_of_findVolume hfind, hinst.symm⟩

end Checks

section CreateBackup

def createBackup.check (db : StorDB) : Except CLError (Volume × Option Instance) := do
  let (volume, inst) ← getVolume m ref db
  checkVolume m "backup" volume
  require (poolID ∈ db.storagePools) ⟨.dictionaryRecordsNotFound, "Storage pool (" ++ poolID ++ ") not found"⟩
  return (volume, inst)

def createBackup.control (volume : Volume) (inst : Option Instance) : StorM (Option Nat) :=
  if 0 < volume.instanceID then
    match inst with
    | some inst => pure (some inst.hyper)
    | none => do
      let inst ← find (fun db => db.instances.take volume.instanceID) ⟨.instanceNotFound, "Instance not found"⟩
      return some inst.hyper
  else
    pure none

def createBackup.command (inter : Option Nat) (volume : Volume) (backup : VolumeBackup) (task : Task) : Command :=
  .createSnapshot inter volDriver task.id backup.id backup.uuid backup.name volume.id volume.getOriginVolumeID
    volume.getVolumePoolID (if poolID ≠ "" ∧ poolID ≠ volume.getVolumePoolID then some poolID else none)

def createBackup.execute (inter : Option Nat) (volume : Volume) (backup : VolumeBackup) (task : Task) : StorM Unit :=
  if volDriver ≠ "local" then
    hyperExecute delivered (createBackup.command poolID volDriver inter volume backup task) posting
  else
    throw ⟨.uncoded, "Backup not supported for local volume"⟩

def createBackup.writes (volume : Volume) (inst : Option Instance) (backup : VolumeBackup) (task : Task)
    : StorM VolumeBackup := do
  update (StorDB.updateVolume volume.id (setVolumeStatus .backuping))
    ⟨.databaseError, "Failed to update volume status"⟩
  let inter ← createBackup.control volume inst
  createBackup.execute poolID volDriver delivered inter volume backup task
  return backup

def createBackup (w : World StorDB Command) : Except CLError VolumeBackup × World StorDB Command :=
  match w.on .pool (query (createBackup.check m ref poolID) ⟨.databaseError, ""⟩ >>= check) with
  | (.error e, w) => (.error e, w)
  | (.ok (volume, inst), w) =>
    match withTransaction (fun _ => true) none (createBackupModel m uuid name "backup" volume) w with
    | (.error _, w) => (.error ⟨.databaseError, "Failed to create backup record"⟩, w)
    | (.ok (backup, task), w) =>
      withTransaction (fun _ => true) none (createBackup.writes poolID volDriver delivered volume inst backup task) w

variable {m ref uuid name poolID volDriver delivered} {db : StorDB} {volume : Volume} {inst : Option Instance}
variable {backup : VolumeBackup} {task : Task} {l : List Command}

theorem createBackup.check_eq_ok (h : createBackup.check m ref poolID db = .ok (volume, inst))
    : volume ∈ db.volumes ∧ inst = db.instances.byKey? volume.instanceID := by
  simp only [createBackup.check, bind_eq_ok, pure_eq_ok, Prod.mk.injEq] at h
  obtain ⟨a, hget, _, _, _, _, hv, hinst⟩ := h
  subst hv hinst
  exact getVolume_eq_ok hget

def createBackup.inter (volume : Volume) (inst : Option Instance) : Option Nat :=
  if 0 < volume.instanceID then inst.map Instance.hyper else none

theorem createBackup.control_calm (hinst : 0 < volume.instanceID → inst.isSome)
    : (createBackup.control volume inst).Triple (Session.Calm db l)
        (fun a s => a = createBackup.inter volume inst ∧ s.Calm db l) E := by
  unfold createBackup.control createBackup.inter
  split
  . next h =>
    cases inst with
    | some inst => exact Triple.pure (fun _ hs => ⟨rfl, hs⟩)
    | none => exact absurd (hinst h) (by simp)
  . exact Triple.pure (fun _ hs => ⟨rfl, hs⟩)

theorem createBackup.control_missing (hpos : 0 < volume.instanceID)
    (hnone : db.instances.byKey? volume.instanceID = none)
    : (createBackup.control volume none).Triple (Session.Calm db l) (fun _ _ => False) (fun _ s => s.sent = l) := by
  have htake : db.instances.take volume.instanceID = none := by
    rw [take, if_neg (Nat.ne_of_gt hpos), hnone]
  unfold createBackup.control
  rw [if_pos hpos]
  intro s hs
  simp [Bind.bind, SqlM.bind, SqlM.find, SqlM.query, SqlM.exec, SqlM.check, Session.works, hs.usable, hs.fails,
    hs.data, htake]
  exact hs.sent

variable (poolID backup task)

theorem createBackup.writes_fails (hinst : inst = db.instances.byKey? volume.instanceID)
    (h : (delivered = false ∨ volDriver = "local") ∨ ¬(0 < volume.instanceID → inst.isSome))
    : (createBackup.writes poolID volDriver delivered volume inst backup task).Triple (Session.Calm db l)
        (fun _ _ => False) (fun _ s => s.sent = l) := by
  apply Triple.update_bind
  by_cases hsome : 0 < volume.instanceID → inst.isSome
  . apply Triple.bind_and (createBackup.control_calm hsome)
    intro inter _
    refine Triple.bind ((execute_fails (h.resolve_right (fun hn => hn hsome))).conseq (fun _ hs => hs)
      (fun _ _ hs => hs) (fun _ _ hs => hs.sent)) ?_
    exact fun _ _ hs => hs.elim
  . rw [Classical.not_imp, Option.not_isSome_iff_eq_none] at hsome
    obtain ⟨hpos, rfl⟩ := hsome
    refine Triple.bind (createBackup.control_missing hpos ?_) (fun _ _ h => h.elim)
    exact hinst.symm

theorem createBackup.writes_sent (hdriver : volDriver ≠ "local") (hinst : 0 < volume.instanceID → inst.isSome)
    : (createBackup.writes poolID volDriver true volume inst backup task).Triple (Session.Calm db l)
        (fun _ s => True ∧ s.Calm (db.updateVolume volume.id (setVolumeStatus .backuping))
          (l ++ [createBackup.command poolID volDriver (createBackup.inter volume inst) volume backup task])) E := by
  apply Triple.update_bind
  apply Triple.bind_and (createBackup.control_calm hinst)
  intro inter hinter
  rw [hinter]
  apply Triple.seq (execute_sent hdriver)
  exact Triple.pure (fun _ h => ⟨trivial, h⟩)

variable {poolID}

theorem createBackup_refused (hcheck : createBackup.check m ref poolID db = .error e)
    : (createBackup m ref uuid name poolID volDriver delivered (World.calm db)).2.IsCalm db [] := by
  have ⟨w, hw, hon⟩ := checked_eq hcheck
  simp only [createBackup, hon]
  exact hw

theorem createBackup_sent (uuid name : String)
    (hcheck : createBackup.check m ref poolID db = .ok (volume, inst))
    (hdriver : volDriver ≠ "local") (hinst : 0 < volume.instanceID → inst.isSome)
    : ∃ (backup : VolumeBackup) (task : Task), backup.id = db.backups.next ∧ task.id = db.tasks.next ∧
        (createBackup m ref uuid name poolID volDriver true (World.calm db)).2.IsCalm
          ((modelled m uuid name "backup" volume db).updateVolume volume.id (setVolumeStatus .backuping))
          [createBackup.command poolID volDriver (createBackup.inter volume inst) volume backup task] := by
  have ⟨w, hw, hon⟩ := checked_eq hcheck
  have ⟨backup, task, w₁, hmodel, hbackup, htask, hw₁⟩ := createBackupModel_ok m uuid name "backup" volume hw
  have ⟨_, w₂, hwrites, _, hw₂⟩ := withTransaction_ok (fun _ => true) hw₁
    (createBackup.writes_sent poolID backup task hdriver hinst)
  refine ⟨backup, task, hbackup, htask, ?_⟩
  simp only [createBackup, hon, hmodel, hwrites]
  exact hw₂

theorem createBackup_fails (uuid name : String) (hcheck : createBackup.check m ref poolID db = .ok (volume, inst))
    (h : (delivered = false ∨ volDriver = "local") ∨ ¬(0 < volume.instanceID → inst.isSome))
    : (createBackup m ref uuid name poolID volDriver delivered (World.calm db)).2.IsCalm
        (modelled m uuid name "backup" volume db) [] := by
  have ⟨w, hw, hon⟩ := checked_eq hcheck
  have ⟨backup, task, w₁, hmodel, _, _, hw₁⟩ := createBackupModel_ok m uuid name "backup" volume hw
  have hinst : inst = (modelled m uuid name "backup" volume db).instances.byKey? volume.instanceID :=
    (createBackup.check_eq_ok hcheck).2
  have ⟨_, w₂, hwrites, hw₂⟩ := withTransaction_error (fun _ => rfl) hw₁
    (createBackup.writes_fails poolID backup task hinst h)
  simp only [createBackup, hon, hmodel, hwrites]
  exact hw₂

end CreateBackup

section CreateSnapshot

def createSnapshot.check (db : StorDB) : Except CLError Volume := do
  let (volume, _) ← getVolume m ref db
  checkVolume m "snapshot" volume
  return volume

def createSnapshot.command (volume : Volume) (snapshot : VolumeBackup) (task : Task) : Command :=
  .createSnapshot none volDriver task.id snapshot.id snapshot.uuid snapshot.name volume.id volume.getOriginVolumeID
    volume.getVolumePoolID none

def createSnapshot.execute (volume : Volume) (snapshot : VolumeBackup) (task : Task) : StorM Unit :=
  if volDriver ≠ "local" then
    hyperExecute delivered (createSnapshot.command volDriver volume snapshot task) posting
  else
    throw ⟨.uncoded, "Snapshot not supported for local volume"⟩

-- the status of the volume is not changed while the snapshot is taken
def createSnapshot (w : World StorDB Command) : Except CLError VolumeBackup × World StorDB Command :=
  match w.on .pool (query (createSnapshot.check m ref) ⟨.databaseError, ""⟩ >>= check) with
  | (.error e, w) => (.error e, w)
  | (.ok volume, w) =>
    match withTransaction (fun _ => true) none (createBackupModel m uuid name "snapshot" volume) w with
    | (.error _, w) => (.error ⟨.databaseError, "Failed to create snapshot record"⟩, w)
    | (.ok (snapshot, task), w) =>
      match w.on .pool (createSnapshot.execute volDriver delivered volume snapshot task) with
      | (.error e, w) => (.error e, w)
      | (.ok _, w) => (.ok snapshot, w)

variable {m ref uuid name volDriver delivered} {db : StorDB} {volume : Volume}

theorem createSnapshot.check_eq_ok (h : createSnapshot.check m ref db = .ok volume) : volume ∈ db.volumes := by
  simp only [createSnapshot.check, bind_eq_ok, pure_eq_ok] at h
  obtain ⟨a, hget, _, _, rfl⟩ := h
  exact (getVolume_eq_ok hget).1

theorem createSnapshot_refused (hcheck : createSnapshot.check m ref db = .error e)
    : (createSnapshot m ref uuid name volDriver delivered (World.calm db)).2.IsCalm db [] := by
  have ⟨w, hw, hon⟩ := checked_eq hcheck
  simp only [createSnapshot, hon]
  exact hw

theorem createSnapshot_sent (uuid name : String) (hcheck : createSnapshot.check m ref db = .ok volume)
    (hdriver : volDriver ≠ "local")
    : ∃ (snapshot : VolumeBackup) (task : Task), snapshot.id = db.backups.next ∧ task.id = db.tasks.next ∧
        (createSnapshot m ref uuid name volDriver true (World.calm db)).2.IsCalm
          (modelled m uuid name "snapshot" volume db)
          [createSnapshot.command volDriver volume snapshot task] := by
  have ⟨w, hw, hon⟩ := checked_eq hcheck
  have ⟨snapshot, task, w₁, hmodel, hsnapshot, htask, hw₁⟩ := createBackupModel_ok m uuid name "snapshot" volume hw
  have hcalm : (createSnapshot.execute volDriver true volume snapshot task).Triple
      (Session.Calm (modelled m uuid name "snapshot" volume db) [])
      (fun _ s => True ∧ s.Calm (modelled m uuid name "snapshot" volume db)
        [createSnapshot.command volDriver volume snapshot task])
      (fun _ _ => False) :=
    (execute_sent hdriver).conseq (fun _ h => h) (fun _ _ h => ⟨trivial, h⟩) (fun _ _ h => h)
  have ⟨_, w₂, hexecute, _, hw₂⟩ := hw₁.on_ok hcalm
  refine ⟨snapshot, task, hsnapshot, htask, ?_⟩
  simp only [createSnapshot, hon, hmodel, hexecute]
  exact hw₂

theorem createSnapshot_fails (uuid name : String) (hcheck : createSnapshot.check m ref db = .ok volume)
    (h : delivered = false ∨ volDriver = "local")
    : (createSnapshot m ref uuid name volDriver delivered (World.calm db)).2.IsCalm
        (modelled m uuid name "snapshot" volume db) [] := by
  have ⟨w, hw, hon⟩ := checked_eq hcheck
  have ⟨snapshot, task, w₁, hmodel, hsnapshot, htask, hw₁⟩ := createBackupModel_ok m uuid name "snapshot" volume hw
  have hfails : (createSnapshot.execute volDriver delivered volume snapshot task).Triple
      (Session.Calm (modelled m uuid name "snapshot" volume db) []) _ _ := execute_fails h
  have ⟨_, w₂, hexecute, hw₂⟩ := hw₁.on_error hfails
  simp only [createSnapshot, hon, hmodel, hexecute]
  exact hw₂

end CreateSnapshot

section Reports

variable (taskID backupID : Nat) (args : List String)

def backupVolumeWDSVhost.volume (backup : VolumeBackup) (volume : Option Volume) : RpcM Unit :=
  match volume with
  | some volume => update (StorDB.updateVolume backup.volumeID (setVolumeStatus (idleStatus volume))) .database
  | none => throw .nilPointer

def backupVolumeWDSVhost.task (taskID : Nat) (db : StorDB) : StorDB :=
  { db with
    tasks := db.tasks.update (fun t => t.id == taskID)
      (reportTask (getArgSafe args 0 "" == "available") (getArgSafe args 4 "")) }

def backupVolumeWDSVhost.backup (b : VolumeBackup) : VolumeBackup :=
  { b with
    status := getArgSafe args 0 ""
    path := getArgSafe args 1 ""
    size := sizeIn (1024 * 1024) (getArgSafe args 2 "")
    snapshotID := getArgSafe args 3 ""
    taskID := 0 }

def backupVolumeWDSVhost.body : RpcM String := do
  let task ← find (fun db => db.tasks.take taskID) .database
  update (backupVolumeWDSVhost.task args task.id) .database
  let (backup, volume) ← find (fun db => (db.backups.take backupID).map (fun b => (b, db.volumes.byKey? b.volumeID)))
    .database
  update (StorDB.updateBackup backup.id (backupVolumeWDSVhost.backup args)) .database
  backupVolumeWDSVhost.volume backup volume
  return getArgSafe args 0 ""

def backupVolumeWDSVhost : World StorDB Command → Except RpcError String × World StorDB Command :=
  handle 5 args (backupVolumeWDSVhost.body taskID backupID args)

variable {taskID backupID args} {db : StorDB}

theorem backupVolumeWDSVhost_eq (hargs : 5 ≤ args.length)
    (htask : db.tasks.take taskID = some task) (hbackup : db.backups.take backupID = some backup)
    (hvolume : db.volumes.byKey? backup.volumeID = some volume)
    : (backupVolumeWDSVhost taskID backupID args (World.calm db)).2.pool.volumes
        =
      (db.updateVolume backup.volumeID (setVolumeStatus (idleStatus volume))).volumes := by
  have hcalm : (backupVolumeWDSVhost.body taskID backupID args).Triple (Session.Calm db [])
      (fun _ s => s.Calm
        ((backupVolumeWDSVhost.task args task.id db).updateBackup backup.id (backupVolumeWDSVhost.backup args)
          |>.updateVolume backup.volumeID (setVolumeStatus (idleStatus volume))) []) (fun _ _ => False) := by
    refine Triple.find_bind ?_ htask
    apply Triple.update_bind
    refine Triple.find_bind ?_ (by rw [backupVolumeWDSVhost.task, hbackup]; rfl)
    apply Triple.update_bind
    simp only [hvolume, backupVolumeWDSVhost.volume]
    apply Triple.update_bind
    exact Triple.pure (fun _ h => h)
  unfold backupVolumeWDSVhost
  rw [handle_eq hargs hcalm]
  rfl

end Reports

end Web.Storage.Backup
