import Cloudland.Web.Volume.Backup

/-!
The status of the volumes before and after a snapshot, a restore or a backup.
-/

namespace Web.Storage.Statuses

open Table

open Check (require found)
open SqlM (Triple)

inductive Operation where
  | createCGSnapshot (m : MemberShip) (uuid cgUUID name description : String)
  | deleteCGSnapshot (m : MemberShip) (cgUUID snapUUID : String)
  | restoreCGSnapshot (m : MemberShip) (cgUUID snapUUID : String)
  | createBackup (m : MemberShip) (ref : Backup.VolumeRef) (uuid name poolID volDriver : String)
  | createSnapshot (m : MemberShip) (ref : Backup.VolumeRef) (uuid name volDriver : String)
  deriving DecidableEq

structure Report where
  status : String
  path : String
  size : String
  snapshotID : String
  message : String
  deriving DecidableEq

inductive Outcome where
  | unsent
  | answered (report : Report)
  deriving DecidableEq

def Outcome.delivered : Outcome → Bool
  | .unsent => false
  | .answered _ => true

theorem Outcome.delivered_eq_true {out : Outcome} (h : out.delivered = true) : ∃ r, out = .answered r := by
  cases out with
  | unsent => contradiction
  | answered r => exact ⟨r, rfl⟩

def Operation.exec (op : Operation) (delivered : Bool) (w : World StorDB Command) : World StorDB Command :=
  match op with
  | .createCGSnapshot m uuid cgUUID name description =>
    (Storage.createSnapshot m uuid cgUUID name description delivered none w).2
  | .deleteCGSnapshot m cgUUID snapUUID => (deleteSnapshot m cgUUID snapUUID delivered none w).2
  | .restoreCGSnapshot m cgUUID snapUUID => (restoreSnapshot m cgUUID snapUUID delivered none w).2
  | .createBackup m ref uuid name poolID volDriver =>
    (Backup.createBackup m ref uuid name poolID volDriver delivered w).2
  | .createSnapshot m ref uuid name volDriver => (Backup.createSnapshot m ref uuid name volDriver delivered w).2

def handler (c : Command) (r : Report) (w : World StorDB Command) : World StorDB Command :=
  match c with
  | .createCgSnapshotWds _ snapshotID _ _ =>
    (createCGSnapshotWDS snapshotID [r.status, r.snapshotID, r.size, r.message] w).2
  | .deleteCgSnapshotWds snapshotID _ => (deleteCGSnapshotWDS snapshotID [r.status, r.message] w).2
  | .restoreCgSnapshotWds snapshotID cgID _ _ _ => (restoreCGSnapshotWDS snapshotID cgID [r.status, r.message] w).2
  | .createSnapshot _ _ taskID backupID _ _ _ _ _ _ =>
    (Backup.backupVolumeWDSVhost taskID backupID [r.status, r.path, r.size, r.snapshotID, r.message] w).2
  | _ => w

def perform (op : Operation) (out : Outcome) (db : StorDB) : StorDB :=
  let w := op.exec out.delivered (World.calm db)
  match out with
  | .unsent => w.pool
  | .answered r => w.sent.foldl (fun db c => (handler c r (World.calm db)).pool) w.pool

def statusOf (db : StorDB) (k : Nat) : Option VolumeStatus := (db.volumes.byKey? k).map Volume.status

def GivesBack (op : Operation) (out : Outcome) (db : StorDB) : Prop :=
  ∀ k, statusOf (perform op out db) k = statusOf db k

def Allowed (op : Operation) (out : Outcome) (db : StorDB) : Prop :=
  match op with
  | .createCGSnapshot m _ cgUUID _ _ => ∀ cg vs, createSnapshot.check m cgUUID db = .ok (cg, vs) →
    out.delivered ∧ ∀ v ∈ vs, v.status = idleStatus v
  | .deleteCGSnapshot _ _ _ => True
  | .restoreCGSnapshot m cgUUID snapUUID => ∀ cg s vs,
    restoreSnapshot.check m cgUUID snapUUID db = .ok (cg, s, vs) → out.delivered ∧ ∀ v ∈ vs, v.status = idleStatus v
  | .createBackup m ref _ _ poolID volDriver => ∀ v inst,
    Backup.createBackup.check m ref poolID db = .ok (v, inst) → out.delivered → volDriver ≠ "local" →
    (0 < v.instanceID → inst.isSome) → v.status = idleStatus v
  | .createSnapshot m ref _ _ volDriver => ∀ v, Backup.createSnapshot.check m ref db = .ok v →
    out.delivered → volDriver ≠ "local" → v.status = idleStatus v

def Sets (db db' : StorDB) (l : List Volume) (g : Volume → VolumeStatus) : Prop :=
  ∀ k, statusOf db' k = (db.volumes.byKey? k).map (fun v => if v ∈ l then g v else v.status)

variable {db db' : StorDB} {l : List Volume} {g : Volume → VolumeStatus}

theorem Sets.same_iff (h : Sets db db' l g) (hl : ∀ v ∈ l, v ∈ db.volumes)
    : (∀ k, statusOf db' k = statusOf db k) ↔ ∀ v ∈ l, v.status = g v := by
  constructor
  . intro hsame v hv
    have hbyKey : db.volumes.byKey? v.id = some v := byKey?_eq_some.mpr ⟨hl v hv, rfl⟩
    have := hsame v.id
    rw [h v.id, statusOf, hbyKey] at this
    simpa [hv] using this.symm
  . intro hg k
    rw [h k, statusOf]
    cases db.volumes.byKey? k with
    | none => rfl
    | some v =>
      by_cases hv : v ∈ l
      . simp [hv, hg v hv]
      . simp [hv]

theorem Sets.of_volumes (h : db'.volumes = db.volumes) : Sets db db' [] g := by
  intro k
  rw [statusOf, h]
  simp

theorem Sets.of_map {f : Volume → Volume} (hl : ∀ v ∈ l, v ∈ db.volumes) (h : ∀ k, db'.volumes.byKey? k
      = (db.volumes.byKey? k).map (fun v => if k ∈ l.map Volume.id then f v else v))
    : Sets db db' l (fun v => (f v).status) := by
  intro k
  rw [statusOf, h, Option.map_map]
  cases hv : db.volumes.byKey? k with
  | none => rfl
  | some v =>
    have ⟨hmem, hk⟩ := byKey?_eq_some.mp hv
    have hiff : k ∈ l.map Volume.id ↔ v ∈ l := by
      constructor
      . intro hid
        have ⟨v', hv', heq⟩ := List.mem_map.mp hid
        exact eq_of_key (hl v' hv') hmem (heq.trans hk.symm) ▸ hv'
      . exact fun hin => hk ▸ List.mem_map_of_mem hin
    by_cases hin : v ∈ l
    . simp [hiff, hin]
    . simp [hiff, hin]

structure During (db db₁ : StorDB) (l : List Volume) (status : VolumeStatus) : Prop where
  members : db₁.members = db.members
  volumes : ∀ k, db₁.volumes.byKey? k
    = (db.volumes.byKey? k).map (fun v => if k ∈ l.map Volume.id then setVolumeStatus status v else v)

section During

variable {db₁ db₂ : StorDB} {status : VolumeStatus} {cgID : Nat}

theorem During.of_setAll (hmembers : db₁.members = db.members) (hvolumes : db₁.volumes = db.volumes)
    : During db (setAll (l.map Volume.id) (fun _ => status) db₁) l status := by
  refine ⟨members_setAll.trans hmembers, ?_⟩
  intro k
  rw [byKey?_setAll, hvolumes]

theorem During.of_updateVolume (hmembers : db₁.members = db.members) (hvolumes : db₁.volumes = db.volumes)
    : During db (db₁.updateVolume v.id (setVolumeStatus status)) [v] status := by
  have h : During db (setAll ([v].map Volume.id) (fun _ => status) db₁) [v] status :=
    During.of_setAll hmembers hvolumes
  exact h

section During

variable (h : During db db₁ l status) (hl : ∀ v ∈ l, v ∈ db.volumes)

include h hl

theorem During.sets : Sets db db₁ l (fun _ => status) :=
  Sets.of_map hl h.volumes

theorem During.rows (hids : (db.membersOf cgID).map ConsistencyGroupVolume.volumeID = l.map Volume.id)
    : ∀ r ∈ db₁.membersOf cgID, ∃ v, db₁.volumes.byKey? r.volumeID = some v := by
  intro r hr
  rw [StorDB.membersOf, h.members] at hr
  have hid := hids ▸ List.mem_map_of_mem hr
  have ⟨v, hv, heq⟩ := List.mem_map.mp hid
  have hbyKey := byKey?_eq_some.mpr ⟨hl v hv, heq⟩
  rw [h.volumes, hbyKey]
  exact ⟨_, rfl⟩

theorem During.sets_idle (hdb' : ∀ k, db'.volumes.byKey? k = (db₁.volumes.byKey? k).map
      (fun v => if k ∈ l.map Volume.id then setVolumeStatus (idleOf db₁ k) v else v))
    : Sets db db' l idleStatus := by
  apply Sets.of_map (f := fun v => setVolumeStatus (idleStatus v) v) hl
  intro k
  rw [hdb', idleOf, h.volumes]
  cases db.volumes.byKey? k with
  | none => rfl
  | some v =>
    by_cases hk : k ∈ l.map Volume.id
    . simp [hk, setVolumeStatus, idleStatus]
    . simp [hk]

theorem During.sets_givenBack (hids : (db.membersOf cgID).map ConsistencyGroupVolume.volumeID = l.map Volume.id)
    (hmembers : db₂.members = db₁.members) (hvolumes : db₂.volumes = db₁.volumes)
    : Sets db (givenBack cgID db₂) l idleStatus := by
  apply h.sets_idle hl
  intro k
  have hmembersOf : db₂.membersOf cgID = db.membersOf cgID := by
    rw [StorDB.membersOf, hmembers, h.members]
    rfl
  rw [givenBack, byKey?_setAll, hmembersOf, hids, idleOf, hvolumes, ← idleOf]

end During

theorem During.self (hv : v ∈ db.volumes) (hmembers : db₁.members = db.members)
    (hvolumes : db₁.volumes = db.volumes)
    : During db db₁ [v] v.status := by
  refine ⟨hmembers, ?_⟩
  intro k
  rw [hvolumes]
  cases hu : db.volumes.byKey? k with
  | none => rfl
  | some u =>
    have ⟨hmem, hk⟩ := byKey?_eq_some.mp hu
    by_cases heq : k = v.id
    . rw [eq_of_key hmem hv (hk.trans heq)]
      simp [setVolumeStatus]
    . simp [heq]

theorem During.sets_reported (h : During db db₁ [v] status) (hv : v ∈ db.volumes)
    (hv₁ : db₁.volumes.byKey? v.id = some v₁)
    (hdb' : db'.volumes = (db₁.updateVolume v.id (setVolumeStatus (idleStatus v₁))).volumes)
    : Sets db db' [v] idleStatus := by
  have hset : db₁.updateVolume v.id (setVolumeStatus (idleStatus v₁)) = setAll [v.id] (idleOf db₁) db₁ := by
    simp [setAll, idleOf, hv₁]
  apply h.sets_idle (by simpa using hv)
  intro k
  rw [hdb', hset, byKey?_setAll]
  rfl

end During

section Perform

variable {op : Operation} {r : Report} {db₁ : StorDB}

theorem Sets.answered
    (h : (op.exec true (World.calm db)).pool = db₁ ∧ (op.exec true (World.calm db)).sent = [c])
    (hsets : Sets db (handler c r (World.calm db₁)).pool l g)
    : Sets db (perform op (.answered r) db) l g := by
  simp only [perform, Outcome.delivered, h.1, h.2]
  exact hsets

theorem Sets.unsent
    (h : (op.exec out.delivered (World.calm db)).pool = db₁ ∧ (op.exec out.delivered (World.calm db)).sent = [])
    (hsets : Sets db db₁ l g)
    : Sets db (perform op out db) l g := by
  cases out with
  | unsent =>
    rw [perform, h.1]
    exact hsets
  | answered r =>
    simp only [perform, h.1, h.2]
    exact hsets

theorem Sets.givesBack (h : Sets db (perform op out db) [] g) : GivesBack op out db :=
  (h.same_iff (by simp)).mpr (by simp)

end Perform

section CGSnapshot

variable {m : MemberShip} {uuid cgUUID snapUUID name description : String} {r : Report} {cg : ConsistencyGroup}
  {snapshot : ConsistencyGroupSnapshot} {vs : List Volume}

theorem backuping_during : During db (backuping uuid name description cg vs db) vs .backuping :=
  During.of_setAll rfl rfl

theorem restoring_during : During db (restoring cg snapshot vs db) vs .restoring :=
  During.of_setAll rfl rfl

theorem createCGSnapshot_unsent (hcheck : createSnapshot.check m cgUUID db = .ok (cg, vs))
    : Sets db (perform (.createCGSnapshot m uuid cgUUID name description) .unsent db) vs (fun _ => .backuping) := by
  refine .unsent (withChecked_ok hcheck createSnapshot.writes_unsent) ?_
  exact backuping_during.sets (createSnapshot.check_eq_ok hcheck).mem

theorem createCGSnapshot_answered (hcheck : createSnapshot.check m cgUUID db = .ok (cg, vs))
    : Sets db (perform (.createCGSnapshot m uuid cgUUID name description) (.answered r) db) vs idleStatus := by
  have ⟨_, hids, hl, _⟩ := createSnapshot.check_eq_ok hcheck
  have ⟨s, hs, hcg⟩ : ∃ s, (backuping uuid name description cg vs db).snapshots.take db.snapshots.next = some s ∧
      s.cgID = cg.id := by
    refine ⟨(db.createSnapshotRow (createSnapshot.row uuid name description cg
      ((db.createTask (createSnapshot.task cg)).1))).1, ?_, rfl⟩
    rw [backuping, snapshots_setAll, take, if_neg (Nat.ne_of_gt db.snapshots.pos)]
    exact byKey?_eq_some.mpr ⟨mem_insert.mpr (.inr rfl), rfl⟩
  rw [← hcg] at hids
  refine .answered (withChecked_ok hcheck createSnapshot.writes_sent) ?_
  rw [handler, createCGSnapshotWDS,
    handle_eq (by simp) (createCGSnapshotWDS.body_calm hs (backuping_during.rows hl hids))]
  exact backuping_during.sets_givenBack hl hids rfl rfl

section Check

variable (hcheck : restoreSnapshot.check m cgUUID snapUUID db = .ok (cg, snapshot, vs))

include hcheck

theorem restoreCGSnapshot_unsent
    : Sets db (perform (.restoreCGSnapshot m cgUUID snapUUID) .unsent db) vs (fun _ => .restoring) := by
  refine .unsent (withChecked_ok hcheck restoreSnapshot.writes_unsent) ?_
  exact restoring_during.sets (restoreSnapshot.check_eq_ok hcheck).1.mem

theorem restoreCGSnapshot_answered
    : Sets db (perform (.restoreCGSnapshot m cgUUID snapUUID) (.answered r) db) vs idleStatus := by
  have ⟨⟨_, hids, hl, _⟩, hmem⟩ := restoreSnapshot.check_eq_ok hcheck
  have ⟨s, hs⟩ : ∃ s, (restoring cg snapshot vs db).snapshots.take snapshot.id = some s := by
    have hpos : 0 < snapshot.id := (db.snapshots.bounds snapshot hmem).1
    have hbyKey : db.snapshots.byKey? snapshot.id = some snapshot := byKey?_eq_some.mpr ⟨hmem, rfl⟩
    rw [restoring, snapshots_setAll, take, if_neg (Nat.ne_of_gt hpos), restoreBegun]
    show ∃ s, (db.snapshots.update _ _).byKey? snapshot.id = some s
    rw [byKey?_update, hbyKey]
    exact ⟨_, rfl⟩
  refine .answered (withChecked_ok hcheck restoreSnapshot.writes_sent) ?_
  rw [handler, restoreCGSnapshotWDS,
    handle_eq (by simp) (restoreCGSnapshotWDS.body_calm hs (restoring_during.rows hl hids))]
  exact restoring_during.sets_givenBack hl hids rfl rfl

end Check

theorem deleteCGSnapshot_sets
    : Sets db (perform (.deleteCGSnapshot m cgUUID snapUUID) out db) [] idleStatus := by
  cases hcheck : deleteSnapshot.check m cgUUID snapUUID db with
  | error e => exact .unsent (withChecked_error hcheck) (.of_volumes rfl)
  | ok a =>
    have ⟨cg, snapshot⟩ := a
    by_cases hnone : snapshot.status = .error ∧ snapshot.wdsSnapID = ""
    . have hwrites : (deleteSnapshot.writes out.delivered (cg, snapshot)).Triple (Session.Calm db [])
          (fun _ s => s.Calm (db.deleteSnapshotRow snapshot.id) [])
          (fun _ s => s.Calm (db.deleteSnapshotRow snapshot.id) []) := by
        simp only [deleteSnapshot.writes, if_pos hnone]
        exact Triple.update_calm
      exact .unsent (withChecked_ok hcheck hwrites) (.of_volumes rfl)
    . have heq : deleteSnapshot.writes out.delivered (cg, snapshot)
          = deleteSnapshot.request out.delivered cg snapshot := by
        simp only [deleteSnapshot.writes, if_neg hnone]
      cases out with
      | unsent =>
        refine .unsent (withChecked_ok hcheck (heq ▸ deleteSnapshot.request_unsent)) ?_
        exact .of_volumes rfl
      | answered r =>
        refine .answered (withChecked_ok hcheck (heq ▸ deleteSnapshot.request_sent)) ?_
        apply Sets.of_volumes
        rw [handler, deleteCGSnapshotWDS, handle_eq (by simp) deleteCGSnapshotWDS.body_calm]
        unfold deleteCGSnapshotWDS.row
        split <;> rfl

end CGSnapshot

section Backup

variable {m : MemberShip} {ref : Backup.VolumeRef} {uuid name poolID volDriver : String} {r : Report} {v : Volume}
  {inst : Option Instance} {out : Outcome}

theorem backup_reported (hv : v ∈ db.volumes) (h : During db db₁ [v] status)
    (htasks : db₁.tasks = (Backup.modelled m uuid name backupType v db).tasks)
    (hbackups : db₁.backups = (Backup.modelled m uuid name backupType v db).backups)
    : Sets db (Backup.backupVolumeWDSVhost db.tasks.next db.backups.next
        [r.status, r.path, r.size, r.snapshotID, r.message] (World.calm db₁)).2.pool [v] idleStatus := by
  have ⟨t, ht⟩ : ∃ t, db₁.tasks.take db.tasks.next = some t := htasks ▸ Backup.modelled_task
  have ⟨b, hb, hid⟩ : ∃ b, db₁.backups.take db.backups.next = some b ∧ b.volumeID = v.id :=
    hbackups ▸ Backup.modelled_backup
  have hbyKey : db.volumes.byKey? v.id = some v := byKey?_eq_some.mpr ⟨hv, rfl⟩
  have ⟨v₁, hv₁⟩ : ∃ v₁, db₁.volumes.byKey? v.id = some v₁ := by
    rw [h.volumes, hbyKey]
    exact ⟨_, rfl⟩
  apply h.sets_reported hv hv₁
  rw [← hid]
  exact Backup.backupVolumeWDSVhost_eq (by simp) ht hb (hid ▸ hv₁)

section Check

variable (hcheck : Backup.createBackup.check m ref poolID db = .ok (v, inst))

include hcheck

theorem createBackup_sent
    (h : ¬((out.delivered = false ∨ volDriver = "local") ∨ ¬(0 < v.instanceID → inst.isSome)))
    : Sets db (perform (.createBackup m ref uuid name poolID volDriver) out db) [v] idleStatus := by
  have ⟨hsent, hinst⟩ := not_or.mp h
  have ⟨hdelivered, hdriver⟩ := not_or.mp hsent
  obtain ⟨r, rfl⟩ := Outcome.delivered_eq_true ((Bool.not_eq_false _).mp hdelivered)
  have ⟨backup, task, hbackup, htask, hw⟩ := Backup.createBackup_sent uuid name hcheck hdriver (not_not.mp hinst)
  have hv := (Backup.createBackup.check_eq_ok hcheck).1
  refine .answered ⟨hw.pool, hw.sent⟩ ?_
  rw [Backup.createBackup.command, handler, htask, hbackup]
  have hmembers : (Backup.modelled m uuid name "backup" v db).members = db.members := rfl
  have hvolumes : (Backup.modelled m uuid name "backup" v db).volumes = db.volumes := rfl
  exact backup_reported hv (During.of_updateVolume hmembers hvolumes) rfl rfl

theorem createBackup_volumes
    (h : (out.delivered = false ∨ volDriver = "local") ∨ ¬(0 < v.instanceID → inst.isSome))
    : Sets db (perform (.createBackup m ref uuid name poolID volDriver) out db) [] idleStatus := by
  have hw := Backup.createBackup_fails uuid name hcheck h
  exact .unsent ⟨hw.pool, hw.sent⟩ (.of_volumes rfl)

end Check

theorem createSnapshot_sent (hcheck : Backup.createSnapshot.check m ref db = .ok v)
    (h : ¬(out.delivered = false ∨ volDriver = "local"))
    : Sets db (perform (.createSnapshot m ref uuid name volDriver) out db) [v] idleStatus := by
  have ⟨hdelivered, hdriver⟩ := not_or.mp h
  obtain ⟨r, rfl⟩ := Outcome.delivered_eq_true ((Bool.not_eq_false _).mp hdelivered)
  have ⟨backup, task, hbackup, htask, hw⟩ := Backup.createSnapshot_sent uuid name hcheck hdriver
  have hv := Backup.createSnapshot.check_eq_ok hcheck
  refine .answered ⟨hw.pool, hw.sent⟩ ?_
  rw [Backup.createSnapshot.command, handler, htask, hbackup]
  exact backup_reported hv (During.self hv rfl rfl) rfl rfl

theorem createSnapshot_volumes (hcheck : Backup.createSnapshot.check m ref db = .ok v)
    (h : out.delivered = false ∨ volDriver = "local")
    : Sets db (perform (.createSnapshot m ref uuid name volDriver) out db) [] idleStatus := by
  have hw := Backup.createSnapshot_fails uuid name hcheck h
  exact .unsent ⟨hw.pool, hw.sent⟩ (.of_volumes rfl)

end Backup

theorem perform_refused
    (h : (op.exec out.delivered (World.calm db)).pool = db ∧ (op.exec out.delivered (World.calm db)).sent = [])
    : GivesBack op out db := (Sets.unsent h (Sets.of_volumes (g := idleStatus) rfl)).givesBack

section Iff

variable {op : Operation} {out : Outcome}

theorem not_same_of_busy (hload : Loaded db cg vs) (hbusy : ∀ v : Volume, v.status = busy → v.isBusy = true)
    (h : Sets db db' vs (fun _ => busy))
    : ¬∀ k, statusOf db' k = statusOf db k := by
  rw [h.same_iff hload.mem]
  intro hsame
  have ⟨v, hv⟩ := List.exists_mem_of_ne_nil vs hload.ne_nil
  have := hbusy v (hsame v hv)
  rw [hload.idle v hv] at this
  contradiction

theorem givesBack_iff_delivered (hload : Loaded db cg vs)
    (hbusy : ∀ v : Volume, v.status = busy → v.isBusy = true)
    (hunsent : Sets db (perform op .unsent db) vs (fun _ => busy))
    (hanswered : ∀ r, Sets db (perform op (.answered r) db) vs idleStatus)
    : GivesBack op out db ↔ out.delivered ∧ ∀ v ∈ vs, v.status = idleStatus v := by
  cases out with
  | unsent =>
    have hnot := not_same_of_busy hload hbusy hunsent
    simpa [GivesBack, Outcome.delivered] using hnot
  | answered r =>
    rw [GivesBack, (hanswered r).same_iff hload.mem]
    simp [Outcome.delivered]

theorem givesBack_iff_sent (hv : v ∈ db.volumes)
    (hfails : fails → Sets db (perform op out db) [] idleStatus)
    (hsent : ¬fails → Sets db (perform op out db) [v] idleStatus)
    : GivesBack op out db ↔ (¬fails → v.status = idleStatus v) := by
  by_cases h : fails
  . simp [h, (hfails h).givesBack]
  . rw [GivesBack, (hsent h).same_iff (by simpa using hv)]
    simp [h]

end Iff

theorem createCGSnapshot_iff
    : GivesBack (.createCGSnapshot m uuid cgUUID name description) out db
        ↔
      Allowed (.createCGSnapshot m uuid cgUUID name description) out db := by
  simp only [Allowed]
  cases hcheck : createSnapshot.check m cgUUID db with
  | error e =>
    exact iff_of_true (perform_refused (withChecked_error hcheck)) (by simp)
  | ok a =>
    have ⟨cg, vs⟩ := a
    rw [givesBack_iff_delivered (createSnapshot.check_eq_ok hcheck) (by intro v hv; simp [Volume.isBusy, hv])
      (createCGSnapshot_unsent hcheck) (fun r => createCGSnapshot_answered hcheck)]
    simp

theorem restoreCGSnapshot_iff
    : GivesBack (.restoreCGSnapshot m cgUUID snapUUID) out db ↔
      Allowed (.restoreCGSnapshot m cgUUID snapUUID) out db := by
  simp only [Allowed]
  cases hcheck : restoreSnapshot.check m cgUUID snapUUID db with
  | error e =>
    exact iff_of_true (perform_refused (withChecked_error hcheck)) (by simp)
  | ok a =>
    have ⟨cg, snapshot, vs⟩ := a
    rw [givesBack_iff_delivered (restoreSnapshot.check_eq_ok hcheck).1 (by intro v hv; simp [Volume.isBusy, hv])
      (restoreCGSnapshot_unsent hcheck) (fun r => restoreCGSnapshot_answered hcheck)]
    simp

theorem createBackup_iff
    : GivesBack (.createBackup m ref uuid name poolID volDriver) out db
        ↔
      Allowed (.createBackup m ref uuid name poolID volDriver) out db := by
  simp only [Allowed]
  cases hcheck : Backup.createBackup.check m ref poolID db with
  | error e =>
    have hw := @Backup.createBackup_refused _ _ uuid name _ volDriver out.delivered _ _ hcheck
    exact iff_of_true (perform_refused ⟨hw.pool, hw.sent⟩) (by simp)
  | ok a =>
    have ⟨v, inst⟩ := a
    rw [givesBack_iff_sent (Backup.createBackup.check_eq_ok hcheck).1 (createBackup_volumes hcheck)
      (createBackup_sent hcheck)]
    simp [Option.isSome_iff_ne_none]

theorem createSnapshot_iff
    : GivesBack (.createSnapshot m ref uuid name volDriver) out db
        ↔
      Allowed (.createSnapshot m ref uuid name volDriver) out db := by
  simp only [Allowed]
  cases hcheck : Backup.createSnapshot.check m ref db with
  | error e =>
    have hw := @Backup.createSnapshot_refused _ _ uuid name volDriver out.delivered _ _ hcheck
    exact iff_of_true (perform_refused ⟨hw.pool, hw.sent⟩) (by simp)
  | ok v =>
    rw [givesBack_iff_sent (Backup.createSnapshot.check_eq_ok hcheck) (createSnapshot_volumes hcheck)
      (createSnapshot_sent hcheck)]
    simp

theorem statuses_given_back (op : Operation) (out : Outcome) (db : StorDB)
    : GivesBack op out db ↔ Allowed op out db := by
  cases op with
  | createCGSnapshot => exact createCGSnapshot_iff
  | deleteCGSnapshot => exact ⟨fun _ => trivial, fun _ => deleteCGSnapshot_sets.givesBack⟩
  | restoreCGSnapshot => exact restoreCGSnapshot_iff
  | createBackup => exact createBackup_iff
  | createSnapshot => exact createSnapshot_iff

theorem unsent_stays_backuping
    : ∃ op db, statusOf db 1 = some .available ∧ statusOf (perform op .unsent db) 1 = some .backuping ∧
        ¬GivesBack op .unsent db := by
  let vol : Volume := ⟨1, "vol", 1, "data", "", 10, false, .available, 0⟩
  let cg : ConsistencyGroup := ⟨1, "cg", 1, "group", "", .available, "wds"⟩
  let db : StorDB :=
    { volumes := empty.insert vol, groups := empty.insert cg,
      members := empty.insert ⟨0, 1, 1⟩, snapshots := .empty, tasks := .empty, instances := .empty,
      flavors := .empty }
  let op : Operation := .createCGSnapshot ⟨1, "alice", 1, "alice", .owner⟩ "snap" "cg" "snapshot" ""
  have hbefore : statusOf db 1 = some .available := by decide +kernel
  have hafter : statusOf (perform op .unsent db) 1 = some .backuping := by decide +kernel
  refine ⟨op, db, hbefore, hafter, ?_⟩
  intro h
  have := h 1
  rw [hbefore, hafter] at this
  contradiction

end Web.Storage.Statuses
