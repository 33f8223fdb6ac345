import Cloudland.Lib.Check
import Cloudland.Lib.Table
import Cloudland.Web.Common.Context
import Cloudland.Web.Common.Member

/-!
This module models the tables of `model/volume.go` and `model/consistency_group.go` and the statements on them.
-/

namespace Web.Storage

inductive VolumeStatus where
  | resizing
  | available
  | attached
  | attaching
  | detaching
  | restoring
  | backuping
  | error
  | pending
  deriving DecidableEq

def VolumeStatus.toString : VolumeStatus → String
  | .resizing => "resizing"
  | .available => "available"
  | .attached => "attached"
  | .attaching => "attaching"
  | .detaching => "detaching"
  | .restoring => "restoring"
  | .backuping => "backuping"
  | .error => "error"
  | .pending => "pending"

structure Volume where
  id : Nat
  uuid : String
  owner : Nat
  name : String
  path : String
  size : Nat
  booting : Bool
  status : VolumeStatus
  instanceID : Nat
  deriving DecidableEq

/--
`strings.SplitN` with at most two parts, when there are two.
-/
def splitFirst (sep : List Char) : List Char → Option (List Char × List Char)
  | [] => none
  | c :: l =>
    if sep.isPrefixOf (c :: l) then
      some ([], (c :: l).drop sep.length)
    else
      (splitFirst sep l).map (fun (x, y) => (c :: x, y))

def parse (path : String) : List String :=
  match splitFirst "://".toList path.toList with
  | none => []
  | some (driver, rest) =>
    if driver = "local".toList then
      [String.ofList driver, String.ofList rest]
    else
      String.ofList driver :: (rest.splitOn '/').map String.ofList

def parsePoolID (path : String) : String :=
  match parse path with
  | [_, poolID, _] => poolID
  | _ => ""

def parseOriginID (path id : String) : String :=
  match parse path with
  | [_, _, volumeID] => volumeID
  | _ => id

namespace Volume

variable (v : Volume)

def isBusy : Bool :=
  match v.status with
  | .pending | .resizing | .attaching | .detaching | .restoring | .backuping => true
  | _ => false

def isError : Bool := v.status == .error

def getOriginVolumeID : String := parseOriginID v.path v.uuid

def getVolumePoolID : String := parsePoolID v.path

end Volume

inductive CGStatus where
  | pending
  | processing
  | available
  | error
  | updating
  | deleting
  deriving DecidableEq

def CGStatus.toString : CGStatus → String
  | .pending => "pending"
  | .processing => "processing"
  | .available => "available"
  | .error => "error"
  | .updating => "updating"
  | .deleting => "deleting"

structure ConsistencyGroup where
  id : Nat
  uuid : String
  owner : Nat
  name : String
  description : String
  status : CGStatus
  wdsCgID : String
  deriving DecidableEq

namespace ConsistencyGroup

variable (cg : ConsistencyGroup)

def isBusy : Bool :=
  match cg.status with
  | .pending | .processing | .updating | .deleting => true
  | _ => false

def isAvailable : Bool := cg.status == .available

def canDelete : Bool := !cg.isBusy

def canUpdate : Bool := cg.isAvailable

end ConsistencyGroup

structure ConsistencyGroupVolume where
  id : Nat
  cgID : Nat
  volumeID : Nat
  deriving DecidableEq

inductive CGSnapshotStatus where
  | pending
  | available
  | error
  | restoring
  | deleting
  deriving DecidableEq

def CGSnapshotStatus.toString : CGSnapshotStatus → String
  | .pending => "pending"
  | .available => "available"
  | .error => "error"
  | .restoring => "restoring"
  | .deleting => "deleting"

structure ConsistencyGroupSnapshot where
  id : Nat
  uuid : String
  owner : Nat
  name : String
  description : String
  status : CGSnapshotStatus
  cgID : Nat
  wdsSnapID : String
  taskID : Nat
  size : Int := 0
  deriving DecidableEq

namespace ConsistencyGroupSnapshot

def canDelete (s : ConsistencyGroupSnapshot) : Bool :=
  s.status != .restoring && s.status != .pending && s.status != .deleting

def canRestore (s : ConsistencyGroupSnapshot) : Bool := s.status == .available

end ConsistencyGroupSnapshot

inductive TaskStatus where
  | running
  | success
  | failed
  deriving DecidableEq

inductive TaskAction where
  | backup
  | snapshot
  | restore
  deriving DecidableEq

structure Task where
  id : Nat
  owner : Nat
  name : String
  summary : String
  status : TaskStatus
  action : Option TaskAction
  message : String := ""
  resources : String := ""
  deriving DecidableEq

structure VolumeBackup where
  id : Nat
  uuid : String
  owner : Nat
  name : String
  volumeID : Nat
  backupType : String
  status : String
  size : Int
  path : String
  snapshotID : String
  taskID : Nat
  deriving DecidableEq

inductive InstanceStatus where
  | pending
  | running
  | shutoff
  | paused
  | migrating
  | migrated
  | rollback
  | unknown
  | reinstalling
  | resizing
  | deleting
  | deleted
  | rescuing
  deriving DecidableEq

def InstanceStatus.toString : InstanceStatus → String
  | .pending => "pending"
  | .running => "running"
  | .shutoff => "shut_off"
  | .paused => "paused"
  | .migrating => "migrating"
  | .migrated => "migrated"
  | .rollback => "rollback"
  | .unknown => "unknown"
  | .reinstalling => "reinstalling"
  | .resizing => "resizing"
  | .deleting => "deleting"
  | .deleted => "deleted"
  | .rescuing => "rescuing"

structure Instance where
  id : Nat
  owner : Nat
  hostname : String
  status : InstanceStatus
  hyper : Nat
  cpu : Nat
  memory : Nat
  disk : Nat
  flavorID : Nat
  deriving DecidableEq

structure Flavor where
  id : Nat
  cpu : Nat
  memory : Nat
  deriving DecidableEq

instance : Keyed Volume := ⟨Volume.id, fun r id => { r with id := id }, fun _ _ => rfl, fun _ => rfl⟩
instance : Keyed ConsistencyGroup :=
  ⟨ConsistencyGroup.id, fun r id => { r with id := id }, fun _ _ => rfl, fun _ => rfl⟩
instance : Keyed ConsistencyGroupVolume :=
  ⟨ConsistencyGroupVolume.id, fun r id => { r with id := id }, fun _ _ => rfl, fun _ => rfl⟩
instance : Keyed ConsistencyGroupSnapshot :=
  ⟨ConsistencyGroupSnapshot.id, fun r id => { r with id := id }, fun _ _ => rfl, fun _ => rfl⟩
instance : Keyed Task := ⟨Task.id, fun r id => { r with id := id }, fun _ _ => rfl, fun _ => rfl⟩
instance : Keyed VolumeBackup :=
  ⟨VolumeBackup.id, fun r id => { r with id := id }, fun _ _ => rfl, fun _ => rfl⟩
instance : Keyed Instance := ⟨Instance.id, fun r id => { r with id := id }, fun _ _ => rfl, fun _ => rfl⟩
instance : Keyed Flavor := ⟨Flavor.id, fun r id => { r with id := id }, fun _ _ => rfl, fun _ => rfl⟩

structure StorDB where
  volumes : Table Volume
  groups : Table ConsistencyGroup
  members : Table ConsistencyGroupVolume
  snapshots : Table ConsistencyGroupSnapshot
  tasks : Table Task
  instances : Table Instance
  flavors : Table Flavor
  backups : Table VolumeBackup := .empty
  -- the values of the dictionary in the category of storage pools
  storagePools : List String := []

namespace StorDB

variable (db : StorDB)

def volumeByUUID (uuid : String) : Option Volume := db.volumes.find? (fun v => v.uuid == uuid)

def groupByUUID (uuid : String) : Option ConsistencyGroup :=
  db.groups.find? (fun cg => cg.uuid == uuid)

def snapshotOf (cgID : Nat) (uuid : String) : Option ConsistencyGroupSnapshot :=
  db.snapshots.find? (fun s => s.uuid == uuid && s.cgID == cgID)

def membersOf (cgID : Nat) : List ConsistencyGroupVolume :=
  db.members.filter (fun r => r.cgID == cgID)

def hasSnapshots (cgID : Nat) : Bool := !(db.snapshots.filter (fun s => s.cgID == cgID)).isEmpty

def isVolumeInCG (volumeID : Nat) : Bool :=
  !(db.members.filter (fun r => r.volumeID == volumeID)).isEmpty

-- the members of a group with their volumes, a volume that is deleted is missing
def preloadedVolumes (cgID : Nat) : List (Option Volume) :=
  (db.membersOf cgID).map (fun r => db.volumes.byKey? r.volumeID)

-- the column's default, taken for the zero value
def ownerOrDefault (orgID : Nat) : Nat := if orgID = 0 then 1 else orgID

def createGroup (cg : ConsistencyGroup) (db : StorDB) : ConsistencyGroup × StorDB :=
  let cg := { cg with owner := ownerOrDefault cg.owner, id := db.groups.next }
  (cg, { db with groups := db.groups.insert cg })

def createTask (task : Task) (db : StorDB) : Task × StorDB :=
  let task := { task with owner := ownerOrDefault task.owner, id := db.tasks.next }
  (task, { db with tasks := db.tasks.insert task })

def createSnapshotRow (s : ConsistencyGroupSnapshot) (db : StorDB)
    : ConsistencyGroupSnapshot × StorDB :=
  let s := { s with owner := ownerOrDefault s.owner, id := db.snapshots.next }
  (s, { db with snapshots := db.snapshots.insert s })

def createBackupRow (b : VolumeBackup) (db : StorDB) : VolumeBackup × StorDB :=
  let b := { b with owner := ownerOrDefault b.owner, id := db.backups.next }
  (b, { db with backups := db.backups.insert b })

def createMember (cgID volumeID : Nat) (db : StorDB) : StorDB :=
  { db with members := db.members.insert { id := 0, cgID, volumeID } }

def updateGroup (id : Nat) (f : ConsistencyGroup → ConsistencyGroup) (db : StorDB) : StorDB :=
  { db with groups := db.groups.update (fun cg => cg.id == id) f }

def updateTask (id : Nat) (status : TaskStatus) (db : StorDB) : StorDB :=
  { db with tasks := db.tasks.update (fun t => t.id == id) (fun t => { t with status }) }

def updateSnapshot (id : Nat) (f : ConsistencyGroupSnapshot → ConsistencyGroupSnapshot) (db : StorDB)
    : StorDB :=
  { db with snapshots := db.snapshots.update (fun s => s.id == id) f }

def updateVolume (id : Nat) (f : Volume → Volume) (db : StorDB) : StorDB :=
  { db with volumes := db.volumes.update (fun v => v.id == id) f }

def updateBackup (id : Nat) (f : VolumeBackup → VolumeBackup) (db : StorDB) : StorDB :=
  { db with backups := db.backups.update (fun b => b.id == id) f }

def deleteMembers (p : ConsistencyGroupVolume → Bool) (db : StorDB) : StorDB :=
  { db with members := db.members.delete p }

def deleteSnapshotRow (id : Nat) (db : StorDB) : StorDB :=
  { db with snapshots := db.snapshots.delete (fun s => s.id == id) }

def deleteGroup (id : Nat) (db : StorDB) : StorDB :=
  { db with groups := db.groups.delete (fun cg => cg.id == id) }

end StorDB

inductive Command where
  | createCgWds (taskID cgID : Nat) (cgName : String) (volumes : List String)
  | deleteCgWds (cgID : Nat) (wdsCgID : String)
  | addVolumesToCgWds (cgID : Nat) (wdsCgID : String) (volumes : List String)
  | removeVolumesFromCgWds (cgID : Nat) (wdsCgID : String) (volumes : List String)
  | createCgSnapshotWds (cgID snapshotID : Nat) (name wdsCgID : String)
  | deleteCgSnapshotWds (snapshotID : Nat) (wdsSnapID : String)
  | restoreCgSnapshotWds (snapshotID cgID : Nat) (wdsCgID wdsSnapID : String)
      (volumes : List (Nat × String × Nat))
  | createSnapshot (inter : Option Nat) (volDriver : String) (taskID backupID : Nat) (uuid name : String)
      (volumeID : Nat) (wdsUUID wdsOriginPoolID : String) (poolID : Option String)
  | resizeVolume (inter : Option Nat) (id : Nat) (uuid : String) (size : Nat) (booting : Bool)
      (instanceID : Nat)
  | clearVolume (id : Nat) (uuid path : String)
  | clearVM (instanceID : Nat) (bootVolumes : List String)
  deriving DecidableEq

abbrev StorM := SqlM StorDB Command CLError

end Web.Storage
