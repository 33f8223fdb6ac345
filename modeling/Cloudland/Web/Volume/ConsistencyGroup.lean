import Cloudland.Web.Volume.Model

/-!
This module models the requests of `routes/consistency_group.go`.
-/

namespace Web.Storage

open Check SqlM


def denied (action : String) : CLError := ⟨.permissionDenied, "Not authorized to " ++ action⟩

def groupNotFound : CLError := ⟨.cgNotFound, "Consistency group not found"⟩

def ownedGroup (m : MemberShip) (role : Role) (action : String) (id : Nat) (db : StorDB)
    : Except CLError ConsistencyGroup := do
  let cg ← found (db.groups.take id) groupNotFound
  require (m.validateOwner role cg.owner) (denied action)
  return cg

def ownedGroupByUUID (m : MemberShip) (action : String) (uuid : String) (db : StorDB)
    : Except CLError ConsistencyGroup := do
  let cg ← found (db.groupByUUID uuid) groupNotFound
  require (m.validateOwner .writer cg.owner) (denied action)
  return cg

def checkUpdatable (cg : ConsistencyGroup) : Except CLError PUnit :=
  require cg.canUpdate ⟨.cgInvalidState,
    "Consistency group is not available for update, status: " ++ cg.status.toString⟩

def checkNoSnapshots (cg : ConsistencyGroup) (action : String) (db : StorDB) : Except CLError PUnit :=
  require (!db.hasSnapshots cg.id) ⟨.cgSnapshotExists,
    "Consistency group has snapshots, cannot " ++ action⟩

def takeVolume (db : StorDB) (uuid : String) : Except CLError Volume :=
  found (db.volumeByUUID uuid) ⟨.volumeNotFound, "Volume " ++ uuid ++ " not found"⟩

def checkVolumeState (vol : Volume) : Except CLError PUnit := do
  require (!vol.isError) ⟨.cgVolumeInvalidState, "Volume " ++ vol.uuid ++ " is in error state"⟩
  require (!vol.isBusy) ⟨.cgVolumeIsBusy, "Volume " ++ vol.uuid ++ " is busy"⟩

def checkNonempty (volumeUUIDs : List String) : Except CLError PUnit :=
  require (volumeUUIDs ≠ []) ⟨.invalidParameter, "At least one volume is required"⟩

def checkVolumes (volumeUUIDs : List String) (db : StorDB) : Except CLError (List Volume) := do
  let volumes ← volumeUUIDs.mapM (takeVolume db)
  forM volumes checkVolumeState
  return volumes

-- with a member whose volume is gone the request panics
def loadedVolume (check : Volume → Except CLError Unit) (v : Option Volume) : Except CLError Volume := do
  let v ← found v ⟨.nilPointer, ""⟩
  check v
  return v

def loadedVolumes (cg : ConsistencyGroup) (check : Volume → Except CLError Unit) (db : StorDB)
    : Except CLError (List Volume) := do
  require (db.preloadedVolumes cg.id ≠ []) ⟨.cgNoVolumes, "Consistency group has no volumes"⟩
  (db.preloadedVolumes cg.id).mapM (loadedVolume check)

def setGroupStatus (status : CGStatus) (cg : ConsistencyGroup) : ConsistencyGroup := { cg with status }

def setVolumeStatus (status : VolumeStatus) (v : Volume) : Volume := { v with status }

def setSnapshotStatus (status : CGSnapshotStatus) (s : ConsistencyGroupSnapshot)
    : ConsistencyGroupSnapshot :=
  { s with status }

def createMembers (cgID : Nat) (volumes : List Volume) (e : CLError) : StorM PUnit :=
  each volumes (fun vol => update (StorDB.createMember cgID vol.id) e)

def setStatuses (volumes : List Volume) (status : VolumeStatus) : StorM PUnit :=
  each volumes (fun vol =>
    update (StorDB.updateVolume vol.id (setVolumeStatus status))
      ⟨.databaseError, "Failed to update volume status"⟩)

def withChecked (ctx : Ctx) (check : StorDB → Except CLError α) (writes : α → StorM β)
    (w : World StorDB Command) : Except CLError β × World StorDB Command :=
  let (ctx, h) := getContextDB ctx
  match w.on h (SqlM.query check ⟨.databaseError, ""⟩ >>= SqlM.check) with
  | (.ok a, w) => withTransaction (fun e => e.code != .nilPointer) ctx (writes a) w
  | (.error e, w) => (.error e, w)

section Calm

variable {α β : Type} {check : StorDB → Except CLError α} {writes : α → StorM β} {db : StorDB}

theorem checked_eq (hcheck : check db = res)
    : ∃ w : World StorDB Command, w.IsCalm db [] ∧
        (World.calm db).on .pool (SqlM.query check ⟨.databaseError, ""⟩ >>= SqlM.check) = (res, w) := by
  subst hcheck
  exact ⟨_, ⟨rfl, rfl, fun _ => rfl⟩, rfl⟩

theorem withChecked_error (hcheck : check db = .error e)
    : (withChecked none check writes (World.calm db)).2.pool = db ∧
      (withChecked none check writes (World.calm db)).2.sent = [] := by
  have ⟨w, hw, hon⟩ := checked_eq hcheck
  simp only [withChecked, getContextDB, hon]
  exact ⟨hw.pool, hw.sent⟩

theorem withChecked_ok (hcheck : check db = .ok a)
    (h : (writes a).Triple (Session.Calm db []) (fun _ s => s.Calm db' l) (fun _ s => s.Calm db' l))
    : (withChecked none check writes (World.calm db)).2.pool = db' ∧
      (withChecked none check writes (World.calm db)).2.sent = l := by
  have ⟨w, hw, hon⟩ := checked_eq hcheck
  have hwrites := h (w.session .pool) hw.session
  simp only [withChecked, getContextDB, hon]
  show (writes a (w.session .pool)).2.data = db' ∧ (writes a (w.session .pool)).2.sent = l
  split at hwrites
  . next hres =>
    rw [hres]
    exact ⟨hwrites.data, hwrites.sent⟩
  . next hres =>
    rw [hres]
    exact ⟨hwrites.data, hwrites.sent⟩

end Calm

def updating (cg : ConsistencyGroup) (db : StorDB) : StorDB := db.updateGroup cg.id (setGroupStatus .updating)

def withMembers (cgID : Nat) (volumes : List Volume) (db : StorDB) : StorDB :=
  volumes.foldl (fun db vol => db.createMember cgID vol.id) db

theorem createMembers_calm
    : (createMembers cgID volumes e).Triple (Session.Calm db l)
        (fun _ s => s.Calm (withMembers cgID volumes db) l) E :=
  Triple.each_update_calm

section Checks

variable {db : StorDB} {m : MemberShip} {role : Role} {action : String} {id : Nat} {cg : ConsistencyGroup}

theorem mem_of_ownedGroup (h : ownedGroup m role action id db = .ok cg) : cg ∈ db.groups := by
  simp only [ownedGroup, bind_eq_ok, found_eq_ok, pure_eq_ok] at h
  obtain ⟨cg', htake, _, _, heq⟩ := h
  exact heq ▸ Table.mem_of_take htake

theorem checkUpdatable_eq_ok : checkUpdatable cg = .ok u ↔ cg.status = .available := by
  simp [checkUpdatable, ConsistencyGroup.canUpdate, ConsistencyGroup.isAvailable]

theorem mem_of_takeVolume (h : takeVolume db uuid = .ok v) : v ∈ db.volumes :=
  (Table.find?_eq_some (found_eq_ok.mp h)).1

theorem checkVolumes_eq_ok
    (h : checkVolumes volumeUUIDs db = .ok vs)
    : vs.length = volumeUUIDs.length ∧ ∀ v ∈ vs, v ∈ db.volumes := by
  simp only [checkVolumes, bind_eq_ok, pure_eq_ok] at h
  obtain ⟨vs', hmap, _, _, rfl⟩ := h
  refine ⟨(mapM_eq_ok.mp hmap).length_eq.symm, ?_⟩
  intro v hv
  obtain ⟨_, _, htake⟩ := exists_of_mapM_eq_ok hmap hv
  exact mem_of_takeVolume htake

theorem checkNonempty_eq_ok : checkNonempty volumeUUIDs = .ok u ↔ volumeUUIDs ≠ [] :=
  require_eq_ok

end Checks

section Create

variable (m : MemberShip) (uuid name description : String) (volumeUUIDs : List String)

def create.check (db : StorDB) : Except CLError (List Volume) := do
  require (m.checkPermission .writer) (denied "create consistency group")
  checkNonempty volumeUUIDs
  checkVolumes volumeUUIDs db

def create.group : ConsistencyGroup where
  id := 0
  uuid := uuid
  owner := m.orgID
  name := name
  description := description
  status := .processing
  wdsCgID := ""

def create.task : Task where
  id := 0
  owner := m.orgID
  name := "create_cg_" ++ uuid
  summary := "Creating consistency group " ++ name
  status := .running
  action := none

def create.writes (volumes : List Volume) : StorM ConsistencyGroup := do
  let cg ← exec (StorDB.createGroup (create.group m uuid name description))
    ⟨.cgCreationFailed, "Failed to create consistency group"⟩
  let task ← exec (StorDB.createTask (create.task m uuid name))
    ⟨.databaseError, "Failed to create task record"⟩
  createMembers cg.id volumes ⟨.cgCreationFailed, "Failed to create volume association"⟩
  recover
    (send
      (.createCgWds task.id cg.id ("cg_" ++ cg.uuid) (volumes.map Volume.getOriginVolumeID))
      ⟨.cgCreationFailed, "Failed to execute create CG script"⟩)
    (fun e => do
      attempt (update (StorDB.updateTask task.id .failed) e)
      throw e)
  return cg

def create (ctx : Ctx) : World StorDB Command → Except CLError ConsistencyGroup × World StorDB Command :=
  withChecked ctx (create.check m volumeUUIDs) (create.writes m uuid name description)

variable {m uuid name description volumeUUIDs}

theorem create.check_eq_ok (h : create.check m volumeUUIDs db = .ok vs)
    : vs ≠ [] ∧ ∀ v ∈ vs, v ∈ db.volumes := by
  simp only [create.check, bind_eq_ok, checkNonempty_eq_ok] at h
  obtain ⟨_, _, _, hne, hvs⟩ := h
  obtain ⟨hlength, hmem⟩ := checkVolumes_eq_ok hvs
  refine ⟨?_, hmem⟩
  intro hnil
  exact hne (List.eq_nil_of_length_eq_zero (by rw [← hlength, hnil]; rfl))

def created (m : MemberShip) (uuid name description : String) (db : StorDB) : StorDB :=
  (((db.createGroup (create.group m uuid name description)).2).createTask (create.task m uuid name)).2

theorem create.writes_calm
    : (create.writes m uuid name description vs).Triple (Session.Calm db [])
        (fun _ s => s.Calm
          (withMembers db.groups.next vs (created m uuid name description db))
          [.createCgWds db.tasks.next db.groups.next ("cg_" ++ uuid) (vs.map Volume.getOriginVolumeID)]) E := by
  apply Triple.exec_bind
  apply Triple.exec_bind
  apply Triple.seq createMembers_calm
  exact Triple.seq_pure Triple.recover_send_calm

end Create

section Delete

variable (m : MemberShip) (id : Nat)

def delete.check (db : StorDB) : Except CLError ConsistencyGroup := do
  let cg ← ownedGroup m .writer "delete consistency group" id db
  require cg.canDelete ⟨.cgIsBusy, "Consistency group is busy, status: " ++ cg.status.toString⟩
  checkNoSnapshots cg "delete" db
  return cg

def delete.writes (cg : ConsistencyGroup) : StorM Unit := do
  update (StorDB.updateGroup cg.id (setGroupStatus .deleting))
    ⟨.cgDeleteFailed, "Failed to update CG status"⟩
  send (.deleteCgWds cg.id cg.wdsCgID) ⟨.cgDeleteFailed, "Failed to execute delete CG script"⟩

def delete (ctx : Ctx) : World StorDB Command → Except CLError Unit × World StorDB Command :=
  withChecked ctx (delete.check m id) delete.writes

variable {m id}

theorem delete.writes_calm
    : (delete.writes cg).Triple (Session.Calm db [])
        (fun _ s => s.Calm (db.updateGroup cg.id (setGroupStatus .deleting)) [.deleteCgWds cg.id cg.wdsCgID]) E :=
  Triple.bind Triple.update_calm (fun _ => Triple.send_calm)

end Delete

section AddVolumes

variable (m : MemberShip) (id : Nat) (volumeUUIDs : List String)

def addVolumes.check (db : StorDB) : Except CLError (ConsistencyGroup × List Volume) := do
  let cg ← ownedGroup m .writer "add volumes to consistency group" id db
  checkUpdatable cg
  checkNoSnapshots cg "add volumes" db
  checkNonempty volumeUUIDs
  let volumes ← checkVolumes volumeUUIDs db
  forM volumes (fun vol => require ((db.membersOf cg.id).all (fun r => r.volumeID != vol.id))
    ⟨.invalidParameter, "Volume " ++ vol.uuid ++ " is already in consistency group"⟩)
  forM volumes (fun vol => require (!db.isVolumeInCG vol.id)
    ⟨.invalidParameter, "Volume " ++ vol.uuid ++ " is already in another consistency group"⟩)
  return (cg, volumes)

def addVolumes.writes (a : ConsistencyGroup × List Volume) : StorM ConsistencyGroup := do
  let (cg, volumes) := a
  update (StorDB.updateGroup cg.id (setGroupStatus .updating))
    ⟨.cgUpdateFailed, "Failed to update CG status"⟩
  createMembers cg.id volumes ⟨.cgUpdateFailed, "Failed to create volume association"⟩
  send (.addVolumesToCgWds cg.id cg.wdsCgID (volumes.map Volume.getOriginVolumeID))
    ⟨.cgUpdateFailed, "Failed to execute add volumes to CG script"⟩
  return setGroupStatus .updating cg

def addVolumes (ctx : Ctx)
    : World StorDB Command → Except CLError ConsistencyGroup × World StorDB Command :=
  withChecked ctx (addVolumes.check m id volumeUUIDs) addVolumes.writes

variable {m id volumeUUIDs}

theorem addVolumes.check_eq_ok
    (h : addVolumes.check m id volumeUUIDs db = .ok (cg, vs))
    : cg ∈ db.groups ∧ cg.status = .available ∧ ∀ v ∈ vs, v ∈ db.volumes := by
  simp only [addVolumes.check, bind_eq_ok, pure_eq_ok, checkUpdatable_eq_ok, Prod.mk.injEq] at h
  obtain ⟨cg', howned, _, hstatus, _, _, _, _, vs', hvs, _, _, _, _, hcg, heq⟩ := h
  subst hcg heq
  exact ⟨mem_of_ownedGroup howned, hstatus, (checkVolumes_eq_ok hvs).2⟩

theorem addVolumes.writes_calm
    : (addVolumes.writes (cg, vs)).Triple (Session.Calm db [])
        (fun _ s => s.Calm (withMembers cg.id vs (updating cg db))
          [.addVolumesToCgWds cg.id cg.wdsCgID (vs.map Volume.getOriginVolumeID)]) E := by
  apply Triple.update_bind
  apply Triple.seq createMembers_calm
  apply Triple.seq Triple.send_calm
  exact Triple.pure (fun _ h => h)

end AddVolumes

section RemoveVolume

variable (m : MemberShip) (id : Nat) (volumeUUID : String)

def removeVolume.check (db : StorDB)
    : Except CLError (ConsistencyGroup × Volume × ConsistencyGroupVolume) := do
  let cg ← ownedGroup m .writer "remove volume from consistency group" id db
  checkUpdatable cg
  checkNoSnapshots cg "remove volume" db
  let volume ← takeVolume db volumeUUID
  let cgVolume ← found ((db.membersOf cg.id).find? (fun r => r.volumeID == volume.id))
    ⟨.invalidParameter, "Volume " ++ volumeUUID ++ " is not in consistency group"⟩
  return (cg, volume, cgVolume)

def removeVolume.writes (a : ConsistencyGroup × Volume × ConsistencyGroupVolume)
    : StorM ConsistencyGroup := do
  let (cg, volume, cgVolume) := a
  update (StorDB.updateGroup cg.id (setGroupStatus .updating))
    ⟨.cgUpdateFailed, "Failed to update CG status"⟩
  -- of several rows for the volume only the one that was read is deleted
  update (StorDB.deleteMembers (fun r => r.id == cgVolume.id))
    ⟨.cgUpdateFailed, "Failed to delete volume association"⟩
  send (.removeVolumesFromCgWds cg.id cg.wdsCgID [volume.getOriginVolumeID])
    ⟨.cgUpdateFailed, "Failed to execute remove volume from CG script"⟩
  return setGroupStatus .updating cg

def removeVolume (ctx : Ctx)
    : World StorDB Command → Except CLError ConsistencyGroup × World StorDB Command :=
  withChecked ctx (removeVolume.check m id volumeUUID) removeVolume.writes

variable {m id volumeUUID}

theorem removeVolume.check_eq_ok
    (h : removeVolume.check m id volumeUUID db = .ok (cg, v, r))
    : cg ∈ db.groups ∧ cg.status = .available ∧
      v ∈ db.volumes ∧ r ∈ db.members ∧ r.cgID = cg.id ∧ r.volumeID = v.id := by
  simp only [removeVolume.check, bind_eq_ok, pure_eq_ok, found_eq_ok, checkUpdatable_eq_ok,
    Prod.mk.injEq] at h
  obtain ⟨cg', howned, _, hstatus, _, _, v', htake, r', hfind, hcg, hv, hr⟩ := h
  subst hcg hv hr
  have hmem := Table.mem_filter.mp (List.mem_of_find?_eq_some hfind)
  refine ⟨mem_of_ownedGroup howned, hstatus, mem_of_takeVolume htake, hmem.1, ?_, ?_⟩
  . simpa using hmem.2
  . simpa using List.find?_some hfind

theorem removeVolume.writes_calm
    : (removeVolume.writes (cg, v, r)).Triple (Session.Calm db [])
        (fun _ s => s.Calm
          ((updating cg db).deleteMembers (fun r' => r'.id == r.id))
          [.removeVolumesFromCgWds cg.id cg.wdsCgID [v.getOriginVolumeID]]) E := by
  apply Triple.update_bind
  apply Triple.update_bind
  apply Triple.seq Triple.send_calm
  exact Triple.pure (fun _ h => h)

end RemoveVolume

end Web.Storage
