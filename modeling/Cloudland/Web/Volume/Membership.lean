import Cloudland.Lib.Run
import Cloudland.Web.Volume.Callbacks

/-!
The rows that say which volumes are in a consistency group, and what the storage system holds.
-/

namespace Web.Storage.Membership

open List Table Function

open SqlM (Triple)
open Check (require found)

inductive Request where
  | create (m : MemberShip) (uuid name description : String) (volumeUUIDs : List String)
  | delete (m : MemberShip) (id : Nat)
  | addVolumes (m : MemberShip) (id : Nat) (volumeUUIDs : List String)
  | removeVolume (m : MemberShip) (id : Nat) (volumeUUID : String)
  deriving DecidableEq

def Request.exec (req : Request) (w : World StorDB Command) : World StorDB Command :=
  match req with
  | .create m uuid name description volumeUUIDs => (Storage.create m uuid name description volumeUUIDs none w).2
  | .delete m id => (Storage.delete m id none w).2
  | .addVolumes m id volumeUUIDs => (Storage.addVolumes m id volumeUUIDs none w).2
  | .removeVolume m id volumeUUID => (Storage.removeVolume m id volumeUUID none w).2

def handler (c : Command) (args : List String) (w : World StorDB Command) : World StorDB Command :=
  match c with
  | .createCgWds taskID cgID _ _ => (createCGWDS taskID cgID args w).2
  | .deleteCgWds cgID _ => (deleteCGWDS cgID args w).2
  | .addVolumesToCgWds cgID _ _ => (addVolumesToCGWDS cgID args w).2
  | .removeVolumesFromCgWds cgID _ _ => (removeVolumesFromCGWDS cgID args w).2
  | _ => w

def Succeeds (args : List String) : Prop := args.head? = some "available"

instance (args : List String) : Decidable (Succeeds args) := inferInstanceAs (Decidable (_ = _))

structure State where
  db : StorDB
  held : Nat → List String

def hold (c : Command) (args : List String) (held : Nat → List String) : Nat → List String :=
  if Succeeds args then
    match c with
    | .createCgWds _ cgID _ volumes => update held cgID volumes
    | .addVolumesToCgWds cgID _ volumes => update held cgID (held cgID ++ volumes)
    | .removeVolumesFromCgWds cgID _ volumes =>
      update held cgID ((held cgID).filter (fun id => id ∉ volumes))
    | _ => held
  else
    held

def State.report (args : List String) (s : State) (c : Command) : State where
  db := (handler c args (World.calm s.db)).pool
  held := hold c args s.held

def State.next (s : State) (e : Request × List String) : State :=
  let w := e.1.exec (World.calm s.db)
  w.sent.foldl (State.report e.2) ⟨w.pool, s.held⟩

def originID (db : StorDB) (r : ConsistencyGroupVolume) : Option String :=
  (db.volumes.byKey? r.volumeID).map Volume.getOriginVolumeID

def originIDs (db : StorDB) (cgID : Nat) : List String := (db.membersOf cgID).filterMap (originID db)

def Agrees (s : State) (cgID : Nat) : Prop := ∀ id, id ∈ s.held cgID ↔ id ∈ originIDs s.db cgID

def Follows (s : State) : Prop := ∀ cg ∈ s.db.groups, cg.status ≠ .pending → Agrees s cg.id

def Allowed (s : State) (e : Request × List String) : Prop :=
  match e.1 with
  | .create m _ _ _ volumeUUIDs => ∀ vs, create.check m volumeUUIDs s.db = .ok vs → Succeeds e.2
  | .delete _ _ => True
  | .addVolumes m id volumeUUIDs => ∀ cg vs, addVolumes.check m id volumeUUIDs s.db = .ok (cg, vs) →
    Succeeds e.2 ∨ ∀ v ∈ vs, v.getOriginVolumeID ∈ originIDs s.db cg.id
  | .removeVolume m id volumeUUID => ∀ cg v r, removeVolume.check m id volumeUUID s.db = .ok (cg, v, r) →
    (Succeeds e.2 ↔ ∀ r' ∈ s.db.membersOf cg.id, r' ≠ r → originID s.db r' ≠ some v.getOriginVolumeID)

structure Inv (s : State) : Prop where
  agrees : ∀ cg ∈ s.db.groups, Agrees s cg.id
  rows : ∀ r ∈ s.db.members, r.cgID < s.db.groups.next
  unused : ∀ k, s.db.groups.next ≤ k → s.held k = []

structure Touches (s s' : State) (k : Nat) : Prop where
  ids : ∀ j, j ≠ k → ∀ id, id ∈ originIDs s'.db j ↔ id ∈ originIDs s.db j
  held : ∀ j, j ≠ k → s'.held j = s.held j
  groups : ∀ cg ∈ s'.db.groups, cg.id = k ∨ ∃ cg' ∈ s.db.groups, cg'.id = cg.id
  next : s.db.groups.next ≤ s'.db.groups.next
  below : k < s'.db.groups.next
  rows : ∀ r ∈ s'.db.members, r.cgID < s'.db.groups.next

variable {s s' : State} {k : Nat}

theorem Inv.follows (h : Inv s) : Follows s := fun cg hcg _ => h.agrees cg hcg

theorem Touches.inv (h : Touches s s' k) (hinv : Inv s) (hagrees : Agrees s' k) : Inv s' := by
  refine ⟨?_, h.rows, ?_⟩
  . intro cg hcg
    by_cases hk : cg.id = k
    . rw [hk]
      exact hagrees
    . obtain heq | ⟨cg', hcg', hid⟩ := h.groups cg hcg
      . exact absurd heq hk
      . intro id
        rw [h.held _ hk, h.ids _ hk, ← hid]
        exact hinv.agrees cg' hcg' id
  . intro j hj
    have := h.next
    have := h.below
    rw [h.held j (by omega)]
    exact hinv.unused j (by omega)

theorem Touches.follows_iff (h : Touches s s' k) (hinv : Inv s)
    (hhere : ∃ cg ∈ s'.db.groups, cg.id = k ∧ cg.status ≠ .pending)
    : Follows s' ↔ Agrees s' k := by
  constructor
  . intro hfollows
    obtain ⟨cg, hcg, rfl, hstatus⟩ := hhere
    exact hfollows cg hcg hstatus
  . intro hagrees
    exact (h.inv hinv hagrees).follows

section Tables

variable {db db' : StorDB} {v : Volume} {vs : List Volume} {j : Nat}

theorem mem_originIDs {id : String}
    : id ∈ originIDs db j ↔ ∃ r ∈ db.members, r.cgID = j ∧ originID db r = some id := by
  simp only [originIDs, StorDB.membersOf, mem_filterMap, Table.mem_filter, beq_iff_eq, and_assoc]

theorem originIDs_congr (hmembers : db'.members = db.members) (hvolumes : db'.volumes = db.volumes)
    : originIDs db' j = originIDs db j := by
  have horigin : originID db' = originID db := by
    funext r
    rw [originID, originID, hvolumes]
  rw [originIDs, originIDs, StorDB.membersOf, StorDB.membersOf, horigin, hmembers]

theorem originIDs_createMember (hv : v ∈ db.volumes)
    : originIDs (db.createMember k v.id) j
        =
      originIDs db j ++ if j = k then [v.getOriginVolumeID] else [] := by
  have hbyKey : db.volumes.byKey? v.id = some v := byKey?_eq_some.mpr ⟨hv, rfl⟩
  by_cases hj : j = k
  . simp [originIDs, StorDB.membersOf, StorDB.createMember, Table.filter, Table.insert, originID, hj, Keyed.setKey,
      hbyKey]
    rfl
  . simp [originIDs, StorDB.membersOf, StorDB.createMember, Table.filter, Table.insert, originID, hj, Ne.symm hj,
      Keyed.setKey]
    rfl

structure Created (db db' : StorDB) (k : Nat) (vs : List Volume) : Prop where
  ids : ∀ j, originIDs db' j = originIDs db j ++ if j = k then vs.map Volume.getOriginVolumeID else []
  volumes : db'.volumes = db.volumes
  groups : db'.groups = db.groups
  rows : ∀ r ∈ db'.members, r ∈ db.members ∨ r.cgID = k

theorem createMembers_created (hvs : ∀ v ∈ vs, v ∈ db.volumes) : Created db (withMembers k vs db) k vs := by
  induction vs generalizing db with
  | nil => exact ⟨by simp [withMembers], rfl, rfl, fun r hr => .inl hr⟩
  | cons v vs ih =>
    have hrest : Created (db.createMember k v.id) _ k vs := ih (fun u hu => hvs u (mem_cons_of_mem _ hu))
    refine ⟨?_, hrest.volumes, hrest.groups, ?_⟩
    . intro j
      show originIDs (withMembers k vs (db.createMember k v.id)) j = _
      rw [hrest.ids, originIDs_createMember (hvs v (by simp)), append_assoc]
      split <;> simp
    . intro r hr
      cases hrest.rows r hr with
      | inr hcg => exact .inr hcg
      | inl hmem =>
        obtain hmem | heq := mem_insert.mp hmem
        . exact .inl hmem
        . exact .inr (heq ▸ rfl)

structure Settles (db db' : StorDB) : Prop where
  volumes : db'.volumes = db.volumes
  members : db'.members = db.members
  next : db'.groups.next = db.groups.next
  groups : ∀ cg ∈ db'.groups, ∃ cg' ∈ db.groups, cg'.id = cg.id
  kept : ∀ cg ∈ db.groups, cg.status ≠ .pending → ∃ cg' ∈ db'.groups, cg'.id = cg.id ∧ cg'.status ≠ .pending

theorem Settles.refl (db : StorDB) : Settles db db :=
  ⟨rfl, rfl, rfl, fun cg hcg => ⟨cg, hcg, rfl⟩, fun cg hcg hstatus => ⟨cg, hcg, rfl, hstatus⟩⟩

theorem Settles.ids (h : Settles db db') (j : Nat) : originIDs db' j = originIDs db j :=
  originIDs_congr h.members h.volumes

theorem Settles.updateGroup {id : Nat} {tasks : Table Task} (hf : ∀ cg, (f cg).status ≠ .pending)
    : Settles db { db.updateGroup id f with tasks := tasks } := by
  refine ⟨rfl, rfl, rfl, ?_, ?_⟩
  . intro cg hcg
    have ⟨cg', hmem, heq⟩ := mem_update.mp hcg
    refine ⟨cg', hmem, ?_⟩
    rw [heq]
    split <;> rfl
  . intro cg hcg hstatus
    refine ⟨_, mem_update.mpr ⟨cg, hcg, rfl⟩, ?_⟩
    split
    . exact ⟨rfl, hf cg⟩
    . exact ⟨rfl, hstatus⟩

end Tables

section Reports

variable {db : StorDB} {args : List String}

theorem handle_settles
    (h : body.Triple (Session.Calm db []) (fun _ s => s.Calm db' []) (fun e _ => e = .database))
    (hdb : Settles db db')
    : Settles db (handle 1 args body (World.calm db)).2.pool := by
  obtain heq | heq := handle_or h
  . rwa [heq]
  . rw [heq]
    exact Settles.refl db

theorem createCGWDS_settles (taskID cgID : Nat)
    : Settles db (createCGWDS taskID cgID args (World.calm db)).2.pool := by
  apply handle_settles createCGWDS.body_calm
  apply Settles.updateGroup
  intro cg
  unfold createCGWDS.report
  split <;> simp

theorem changedCGWDS_settles (cgID : Nat)
    : Settles db (handle 1 args (changedCGWDS.body cgID args) (World.calm db)).2.pool := by
  apply handle_settles changedCGWDS.body_calm
  apply Settles.updateGroup
  intro cg
  unfold setGroupStatus
  split <;> simp

end Reports

section Steps

variable {req : Request} {args : List String} {db : StorDB}

theorem next_of_refused (h : (req.exec (World.calm s.db)).pool = s.db ∧ (req.exec (World.calm s.db)).sent = [])
    : s.next (req, args) = s := by
  rw [State.next, h.1, h.2]
  rfl

theorem next_of_sent (h : (req.exec (World.calm s.db)).pool = db ∧ (req.exec (World.calm s.db)).sent = [c])
    : s.next (req, args) = State.report args ⟨db, s.held⟩ c := by
  rw [State.next, h.1, h.2]
  rfl

structure Decides (s : State) (p : Prop) : Prop where
  iff : Follows s ↔ p
  inv : p → Inv s

theorem Decides.of_same (hinv : Inv s) (hp : p) : Decides s p :=
  ⟨⟨fun _ => hp, fun _ => hinv.follows⟩, fun _ => hinv⟩

theorem Touches.decides (h : Touches s s' k) (hinv : Inv s)
    (hhere : ∃ cg ∈ s'.db.groups, cg.id = k ∧ cg.status ≠ .pending) (hp : Agrees s' k ↔ p)
    : Decides s' p :=
  ⟨(h.follows_iff hinv hhere).trans hp, fun h' => h.inv hinv (hp.mpr h')⟩

theorem hold_create
    : hold (.createCgWds taskID k name volumes) args held
        =
      update held k (if Succeeds args then volumes else held k) := by
  unfold hold
  split <;> simp

theorem hold_addVolumes
    : hold (.addVolumesToCgWds k wdsCgID volumes) args held
        =
      update held k (if Succeeds args then held k ++ volumes else held k) := by
  unfold hold
  split <;> simp

theorem hold_removeVolumes
    : hold (.removeVolumesFromCgWds k wdsCgID volumes) args held
        =
      update held k (if Succeeds args then (held k).filter (fun id => id ∉ volumes) else held k) := by
  unfold hold
  split <;> simp

structure Changes (s s' : State) (cg : ConsistencyGroup) (db db' : StorDB) : Prop where
  before : Settles s.db db
  groups : db'.groups = db.groups
  ids : ∀ j, j ≠ cg.id → ∀ id, id ∈ originIDs db' j ↔ id ∈ originIDs db j
  rows : ∀ r ∈ db'.members, r ∈ db.members ∨ r.cgID = cg.id
  after : Settles db' s'.db
  held : ∀ j, j ≠ cg.id → s'.held j = s.held j

theorem Changes.touches (h : Changes s s' cg db db') (hinv : Inv s)
    (hcg : cg ∈ s.db.groups)
    : Touches s s' cg.id := by
  have hnext : s'.db.groups.next = s.db.groups.next := by
    rw [h.after.next, h.groups, h.before.next]
  have hbelow : cg.id < s'.db.groups.next := by
    rw [hnext]
    exact (s.db.groups.bounds cg hcg).2
  refine ⟨?_, h.held, ?_, Nat.le_of_eq hnext.symm, hbelow, ?_⟩
  . intro j hj id
    rw [h.after.ids, h.ids j hj, h.before.ids]
  . intro cg' hcg'
    have ⟨cg₁, hcg₁, hid₁⟩ := h.after.groups cg' hcg'
    rw [h.groups] at hcg₁
    have ⟨cg₀, hcg₀, hid₀⟩ := h.before.groups cg₁ hcg₁
    exact .inr ⟨cg₀, hcg₀, hid₀.trans hid₁⟩
  . intro r hr
    rw [h.after.members] at hr
    cases h.rows r hr with
    | inr heq => rwa [heq]
    | inl hmem =>
      rw [h.before.members] at hmem
      rw [hnext]
      exact hinv.rows r hmem

theorem Changes.here (h : Changes s s' cg db db')
    (hcg : cg ∈ s.db.groups) (hstatus : cg.status = .available)
    : ∃ cg' ∈ s'.db.groups, cg'.id = cg.id ∧ cg'.status ≠ .pending := by
  have ⟨cg₀, hcg₀, hid₀, hstatus₀⟩ := h.before.kept cg hcg (by rw [hstatus]; simp)
  rw [← h.groups] at hcg₀
  have ⟨cg₁, hcg₁, hid₁, hstatus₁⟩ := h.after.kept cg₀ hcg₀ hstatus₀
  exact ⟨cg₁, hcg₁, hid₁.trans hid₀, hstatus₁⟩

theorem updating_settles (cg : ConsistencyGroup) : Settles db (updating cg db) :=
  Settles.updateGroup (fun _ => by simp [setGroupStatus])

section AddVolumes

variable {cg : ConsistencyGroup} {vs : List Volume}

def added (s : State) (cg : ConsistencyGroup) (vs : List Volume) (args : List String) : State :=
  State.report args ⟨withMembers cg.id vs (updating cg s.db), s.held⟩
    (.addVolumesToCgWds cg.id cg.wdsCgID (vs.map Volume.getOriginVolumeID))

theorem added_held
    : (added s cg vs args).held
        =
      update s.held cg.id
        (if Succeeds args then s.held cg.id ++ vs.map Volume.getOriginVolumeID else s.held cg.id) := by
  simp only [added, State.report, hold_addVolumes]

theorem added_changes (hvs : ∀ v ∈ vs, v ∈ s.db.volumes)
    : Changes s (added s cg vs args) cg (updating cg s.db) (withMembers cg.id vs (updating cg s.db)) := by
  have hcreated : Created (updating cg s.db) _ cg.id vs := createMembers_created hvs
  refine ⟨updating_settles cg, hcreated.groups, ?_, hcreated.rows, changedCGWDS_settles cg.id, ?_⟩
  . intro j hj id
    rw [hcreated.ids, if_neg hj, append_nil]
  . intro j hj
    rw [added_held, update_of_ne hj]

theorem added_originIDs (hvs : ∀ v ∈ vs, v ∈ s.db.volumes)
    : originIDs (added s cg vs args).db cg.id = originIDs s.db cg.id ++ vs.map Volume.getOriginVolumeID := by
  have hcreated : Created (updating cg s.db) _ cg.id vs := createMembers_created hvs
  rw [(added_changes hvs).after.ids, hcreated.ids, if_pos rfl, (updating_settles cg).ids]

theorem added_agrees_iff (hagrees : Agrees s cg.id) (hvs : ∀ v ∈ vs, v ∈ s.db.volumes)
    : Agrees (added s cg vs args) cg.id
        ↔
      Succeeds args ∨ ∀ v ∈ vs, v.getOriginVolumeID ∈ originIDs s.db cg.id := by
  simp only [Agrees, added_originIDs hvs, added_held, update_self, mem_append, mem_map]
  by_cases hargs : Succeeds args
  . simp [hargs, hagrees _]
  . simp only [hargs, if_false, false_or, hagrees _]
    constructor
    . intro h v hv
      exact (h v.getOriginVolumeID).mpr (.inr ⟨v, hv, rfl⟩)
    . intro h id
      constructor
      . exact .inl
      . intro hid
        obtain hid | ⟨v, hv, heq⟩ := hid
        . exact hid
        . exact heq ▸ h v hv

theorem addVolumes_decides (hinv : Inv s) (m : MemberShip) (id : Nat) (volumeUUIDs : List String)
    : Decides (s.next (.addVolumes m id volumeUUIDs, args)) (Allowed s (.addVolumes m id volumeUUIDs, args)) := by
  simp only [Allowed]
  cases hcheck : addVolumes.check m id volumeUUIDs s.db with
  | error e =>
    have hnext : s.next (.addVolumes m id volumeUUIDs, args) = s := next_of_refused (withChecked_error hcheck)
    rw [hnext]
    exact Decides.of_same hinv (by simp)
  | ok a =>
    have ⟨cg, vs⟩ := a
    have ⟨hcg, hstatus, hvs⟩ := addVolumes.check_eq_ok hcheck
    have hnext : s.next (.addVolumes m id volumeUUIDs, args) = added s cg vs args :=
      next_of_sent (withChecked_ok hcheck addVolumes.writes_calm)
    rw [hnext]
    apply ((added_changes hvs).touches hinv hcg).decides hinv ((added_changes hvs).here hcg hstatus)
    rw [added_agrees_iff (hinv.agrees cg hcg) hvs]
    simp

end AddVolumes

section RemoveVolume

variable {cg : ConsistencyGroup} {v : Volume} {r : ConsistencyGroupVolume}

def removed (s : State) (cg : ConsistencyGroup) (v : Volume) (r : ConsistencyGroupVolume) (args : List String)
    : State :=
  State.report args ⟨(updating cg s.db).deleteMembers (fun r' => r'.id == r.id), s.held⟩
    (.removeVolumesFromCgWds cg.id cg.wdsCgID [v.getOriginVolumeID])

theorem removed_held
    : (removed s cg v r args).held
        =
      update s.held cg.id
        (if Succeeds args then (s.held cg.id).filter (fun id => id ∉ [v.getOriginVolumeID]) else s.held cg.id) := by
  simp only [removed, State.report, hold_removeVolumes]

theorem mem_originIDs_deleteRow (hr : r ∈ db.members) {id : String} {j : Nat}
    : id ∈ originIDs (db.deleteMembers (fun r' => r'.id == r.id)) j
        ↔
      ∃ r' ∈ db.members, r' ≠ r ∧ r'.cgID = j ∧ originID db r' = some id := by
  have hdelete : ∀ r' ∈ db.members, (r'.id == r.id) = false ↔ r' ≠ r := by
    intro r' hr'
    constructor
    . intro hid heq
      simp [heq] at hid
    . intro hne
      have hid : r'.id ≠ r.id := fun hid => hne (eq_of_key hr' hr hid)
      simpa using hid
  rw [mem_originIDs]
  simp only [StorDB.deleteMembers, mem_delete, and_assoc]
  constructor
  . rintro ⟨r', hr', hid, hrest⟩
    exact ⟨r', hr', (hdelete r' hr').mp hid, hrest⟩
  . rintro ⟨r', hr', hne, hrest⟩
    exact ⟨r', hr', (hdelete r' hr').mpr hne, hrest⟩

theorem removed_changes (hr : r ∈ s.db.members) (hcg : r.cgID = cg.id)
    : Changes s (removed s cg v r args) cg (updating cg s.db)
        ((updating cg s.db).deleteMembers (fun r' => r'.id == r.id)) := by
  have hmem : r ∈ (updating cg s.db).members := hr
  refine ⟨updating_settles cg, rfl, ?_, ?_, changedCGWDS_settles cg.id, ?_⟩
  . intro j hj id
    rw [mem_originIDs_deleteRow hmem, mem_originIDs]
    constructor
    . intro ⟨r', hr', _, hrest⟩
      exact ⟨r', hr', hrest⟩
    . intro ⟨r', hr', hj', hrest⟩
      refine ⟨r', hr', ?_, hj', hrest⟩
      intro heq
      rw [heq, hcg] at hj'
      exact hj hj'.symm
  . intro r' hr'
    exact .inl (mem_delete.mp hr').1
  . intro j hj
    rw [removed_held, update_of_ne hj]

theorem removed_originIDs (hr : r ∈ s.db.members) (hcg : r.cgID = cg.id) {id : String}
    : id ∈ originIDs (removed s cg v r args).db cg.id
        ↔
      ∃ r' ∈ s.db.membersOf cg.id, r' ≠ r ∧ originID s.db r' = some id := by
  have hmem : r ∈ (updating cg s.db).members := hr
  rw [(removed_changes hr hcg).after.ids, mem_originIDs_deleteRow hmem]
  simp only [StorDB.membersOf, Table.mem_filter, beq_iff_eq]
  constructor
  . rintro ⟨r', hr', hne, hid, horigin⟩
    exact ⟨r', ⟨hr', hid⟩, hne, horigin⟩
  . rintro ⟨r', ⟨hr', hid⟩, hne, horigin⟩
    exact ⟨r', hr', hne, hid, horigin⟩

theorem removed_agrees_iff (hagrees : Agrees s cg.id) (hr : r ∈ s.db.members) (hcg : r.cgID = cg.id)
    (hv : v ∈ s.db.volumes) (hvolume : r.volumeID = v.id)
    : Agrees (removed s cg v r args) cg.id
        ↔
      (Succeeds args ↔ ∀ r' ∈ s.db.membersOf cg.id, r' ≠ r → originID s.db r' ≠ some v.getOriginVolumeID) := by
  have horigin : originID s.db r = some v.getOriginVolumeID := by
    have hbyKey : s.db.volumes.byKey? v.id = some v := byKey?_eq_some.mpr ⟨hv, rfl⟩
    rw [originID, hvolume, hbyKey]
    rfl
  have hrow : r ∈ s.db.membersOf cg.id := Table.mem_filter.mpr ⟨hr, by simpa using hcg⟩
  -- a name is left if it is that of the deleted row only when another row has it
  have hleft : ∀ id, id ∈ s.held cg.id ↔
      id = v.getOriginVolumeID ∨ id ∈ originIDs (removed s cg v r args).db cg.id := by
    intro id
    rw [hagrees id, removed_originIDs hr hcg]
    simp only [originIDs, mem_filterMap]
    constructor
    . rintro ⟨r', hr', hid⟩
      by_cases heq : r' = r
      . rw [heq, horigin] at hid
        exact .inl (Option.some.inj hid).symm
      . exact .inr ⟨r', hr', heq, hid⟩
    . intro h
      obtain heq | ⟨r', hr', _, hid⟩ := h
      . exact ⟨r, hrow, heq ▸ horigin⟩
      . exact ⟨r', hr', hid⟩
  have hother : (∀ r' ∈ s.db.membersOf cg.id, r' ≠ r → originID s.db r' ≠ some v.getOriginVolumeID) ↔
      v.getOriginVolumeID ∉ originIDs (removed s cg v r args).db cg.id := by
    rw [removed_originIDs hr hcg]
    simp only [not_exists, not_and]
  rw [hother]
  simp only [Agrees, removed_held, update_self]
  by_cases hargs : Succeeds args
  . simp only [hargs, if_true, true_iff, mem_filter, hleft, mem_singleton, decide_eq_true_eq]
    constructor
    . intro h hmem
      exact ((h _).mpr hmem).2 rfl
    . intro h id
      constructor
      . rintro ⟨hid, hne⟩
        exact hid.resolve_left hne
      . intro hid
        exact ⟨.inr hid, fun heq => h (heq ▸ hid)⟩
  . simp only [hargs, if_false, false_iff, not_not, hleft]
    constructor
    . intro h
      exact (h _).mp (.inl rfl)
    . intro h id
      constructor
      . intro hid
        obtain heq | hid := hid
        . exact heq ▸ h
        . exact hid
      . exact .inr

theorem removeVolume_decides (hinv : Inv s) (m : MemberShip) (id : Nat) (volumeUUID : String)
    : Decides (s.next (.removeVolume m id volumeUUID, args)) (Allowed s (.removeVolume m id volumeUUID, args)) := by
  simp only [Allowed]
  cases hcheck : removeVolume.check m id volumeUUID s.db with
  | error e =>
    have hnext : s.next (.removeVolume m id volumeUUID, args) = s := next_of_refused (withChecked_error hcheck)
    rw [hnext]
    exact Decides.of_same hinv (by simp)
  | ok a =>
    have ⟨cg, v, r⟩ := a
    have ⟨hcg, hstatus, hv, hr, hid, hvolume⟩ := removeVolume.check_eq_ok hcheck
    have hnext : s.next (.removeVolume m id volumeUUID, args) = removed s cg v r args :=
      next_of_sent (withChecked_ok hcheck removeVolume.writes_calm)
    rw [hnext]
    have hchanges : Changes s (removed s cg v r args) cg _ _ := removed_changes hr hid
    apply (hchanges.touches hinv hcg).decides hinv (hchanges.here hcg hstatus)
    rw [removed_agrees_iff (hinv.agrees cg hcg) hr hid hv hvolume]
    simp

end RemoveVolume

section Create

variable {m : MemberShip} {uuid name description : String} {vs : List Volume}

def creates (s : State) (m : MemberShip) (uuid name description : String) (vs : List Volume) (args : List String)
    : State :=
  State.report args
    ⟨withMembers s.db.groups.next vs (created m uuid name description s.db), s.held⟩
    (.createCgWds s.db.tasks.next s.db.groups.next ("cg_" ++ uuid) (vs.map Volume.getOriginVolumeID))

theorem creates_held
    : (creates s m uuid name description vs args).held
        =
      update s.held s.db.groups.next
        (if Succeeds args then vs.map Volume.getOriginVolumeID else s.held s.db.groups.next) := by
  simp only [creates, State.report, hold_create]

theorem creates_spec (m : MemberShip) (uuid name description : String) (args : List String)
    (hvs : ∀ v ∈ vs, v ∈ s.db.volumes)
    : Created (created m uuid name description s.db)
        (withMembers s.db.groups.next vs (created m uuid name description s.db)) s.db.groups.next vs ∧
      Settles (withMembers s.db.groups.next vs (created m uuid name description s.db))
        (creates s m uuid name description vs args).db :=
  ⟨createMembers_created hvs, createCGWDS_settles _ _⟩

theorem created_originIDs : originIDs (created m uuid name description db) j = originIDs db j :=
  originIDs_congr rfl rfl

theorem creates_touches (hinv : Inv s) (hvs : ∀ v ∈ vs, v ∈ s.db.volumes)
    : Touches s (creates s m uuid name description vs args) s.db.groups.next := by
  have ⟨hcreated, hsettles⟩ := creates_spec m uuid name description args hvs
  have hnext : (creates s m uuid name description vs args).db.groups.next = s.db.groups.next + 1 := by
    rw [hsettles.next, hcreated.groups]
    rfl
  refine ⟨?_, ?_, ?_, by omega, by omega, ?_⟩
  . intro j hj id
    rw [hsettles.ids, hcreated.ids, if_neg hj, append_nil, created_originIDs]
  . intro j hj
    rw [creates_held, update_of_ne hj]
  . intro cg hcg
    have ⟨cg', hcg', hid⟩ := hsettles.groups cg hcg
    rw [hcreated.groups] at hcg'
    obtain hmem | heq := mem_insert.mp hcg'
    . exact .inr ⟨cg', hmem, hid⟩
    . rw [← hid, heq]
      exact .inl rfl
  . intro r hr
    rw [hsettles.members] at hr
    rw [hnext]
    obtain hmem | heq := hcreated.rows r hr
    . have := hinv.rows r hmem
      omega
    . omega

theorem creates_here (hvs : ∀ v ∈ vs, v ∈ s.db.volumes)
    : ∃ cg ∈ (creates s m uuid name description vs args).db.groups,
        cg.id = s.db.groups.next ∧ cg.status ≠ .pending := by
  have ⟨hcreated, hsettles⟩ := creates_spec m uuid name description args hvs
  have hnew : (s.db.createGroup (create.group m uuid name description)).1
      ∈ (withMembers s.db.groups.next vs (created m uuid name description s.db)).groups := by
    rw [hcreated.groups]
    exact mem_insert.mpr (.inr rfl)
  have ⟨cg, hcg, hid, hstatus⟩ := hsettles.kept _ hnew (by simp [StorDB.createGroup, create.group])
  exact ⟨cg, hcg, hid, hstatus⟩

theorem creates_agrees_iff (hinv : Inv s) (hvs : ∀ v ∈ vs, v ∈ s.db.volumes) (hne : vs ≠ [])
    : Agrees (creates s m uuid name description vs args) s.db.groups.next ↔ Succeeds args := by
  have ⟨hcreated, hsettles⟩ := creates_spec m uuid name description args hvs
  have hnone : originIDs s.db s.db.groups.next = [] := by
    rw [eq_nil_iff_forall_not_mem]
    intro id hid
    have ⟨r, hr, hcg, _⟩ := mem_originIDs.mp hid
    have := hinv.rows r hr
    omega
  simp only [Agrees, creates_held, update_self, hsettles.ids, hcreated.ids, if_pos, created_originIDs, hnone,
    nil_append, hinv.unused _ (Nat.le_refl _)]
  by_cases hargs : Succeeds args
  . simp [hargs]
  . have ⟨v, hv⟩ := exists_mem_of_ne_nil vs hne
    simp only [hargs, if_false, iff_false]
    intro h
    have := (h v.getOriginVolumeID).mpr (mem_map_of_mem hv)
    simp at this

theorem create_decides (hinv : Inv s) (m : MemberShip) (uuid name description : String) (volumeUUIDs : List String)
    : Decides (s.next (.create m uuid name description volumeUUIDs, args))
        (Allowed s (.create m uuid name description volumeUUIDs, args)) := by
  simp only [Allowed]
  cases hcheck : create.check m volumeUUIDs s.db with
  | error e =>
    have hnext : s.next (.create m uuid name description volumeUUIDs, args) = s :=
      next_of_refused (withChecked_error hcheck)
    rw [hnext]
    exact Decides.of_same hinv (by simp)
  | ok vs =>
    have ⟨hne, hvs⟩ := create.check_eq_ok hcheck
    have hnext : s.next (.create m uuid name description volumeUUIDs, args)
        = creates s m uuid name description vs args :=
      next_of_sent (withChecked_ok hcheck create.writes_calm)
    rw [hnext]
    apply (creates_touches hinv hvs).decides hinv (creates_here hvs)
    rw [creates_agrees_iff hinv hvs hne]
    simp

end Create

section Delete

variable {cg : ConsistencyGroup} {held : Nat → List String}

theorem Settles.inv (h : Settles db db') (hinv : Inv ⟨db, held⟩) : Inv ⟨db', held⟩ := by
  refine ⟨?_, ?_, ?_⟩
  . intro cg hcg id
    have ⟨cg', hcg', hid⟩ := h.groups cg hcg
    rw [h.ids, ← hid]
    exact hinv.agrees cg' hcg' id
  . intro r hr
    rw [h.members] at hr
    rw [h.next]
    exact hinv.rows r hr
  . intro k hk
    rw [h.next] at hk
    exact hinv.unused k hk

theorem deleteGroup_inv (hinv : Inv ⟨db, held⟩) (k : Nat)
    : Inv ⟨(db.deleteMembers (fun r => r.cgID == k)).deleteGroup k, held⟩ := by
  refine ⟨?_, ?_, hinv.unused⟩
  . intro cg hcg id
    have ⟨hmem, hne⟩ := mem_delete.mp hcg
    have hk : cg.id ≠ k := by simpa using hne
    rw [hinv.agrees cg hmem id, mem_originIDs, mem_originIDs]
    constructor
    . intro ⟨r, hr, hid, horigin⟩
      exact ⟨r, mem_delete.mpr ⟨hr, by simpa [hid] using hk⟩, hid, horigin⟩
    . intro ⟨r, hr, hrest⟩
      exact ⟨r, (mem_delete.mp hr).1, hrest⟩
  . intro r hr
    exact hinv.rows r (mem_delete.mp hr).1

theorem deleteCGWDS_inv (hinv : Inv ⟨db, held⟩) (cgID : Nat)
    : Inv ⟨(deleteCGWDS cgID args (World.calm db)).2.pool, held⟩ := by
  unfold deleteCGWDS
  cases handle_or deleteCGWDS.body_calm with
  | inr heq => exact heq ▸ hinv
  | inl heq =>
    rw [heq, deletedCG]
    split
    . exact deleteGroup_inv hinv cgID
    . exact (Settles.updateGroup (fun _ => by simp [setGroupStatus])).inv hinv

theorem delete_inv (hinv : Inv s) (m : MemberShip) (id : Nat) : Inv (s.next (.delete m id, args)) := by
  cases hcheck : delete.check m id s.db with
  | error e =>
    have hnext : s.next (.delete m id, args) = s := next_of_refused (withChecked_error hcheck)
    rwa [hnext]
  | ok cg =>
    have hnext : s.next (.delete m id, args) = _ := next_of_sent (withChecked_ok hcheck delete.writes_calm)
    have hheld : hold (.deleteCgWds cg.id cg.wdsCgID) args s.held = s.held := by
      unfold hold
      split <;> rfl
    rw [hnext, State.report, hheld]
    apply deleteCGWDS_inv
    exact (Settles.updateGroup (fun _ => by simp [setGroupStatus])).inv hinv

end Delete

theorem decides_step (hinv : Inv s) (e : Request × List String) : Decides (s.next e) (Allowed s e) := by
  have ⟨req, args⟩ := e
  cases req with
  | create m uuid name description volumeUUIDs => exact create_decides hinv m uuid name description volumeUUIDs
  | delete m id =>
    have hnext : Inv (s.next (.delete m id, args)) := delete_inv hinv m id
    exact ⟨⟨fun _ => trivial, fun _ => hnext.follows⟩, fun _ => hnext⟩
  | addVolumes m id volumeUUIDs => exact addVolumes_decides hinv m id volumeUUIDs
  | removeVolume m id volumeUUID => exact removeVolume_decides hinv m id volumeUUID

end Steps

def start (db : StorDB) : State where
  db := { db with groups := .empty, members := .empty }
  held := fun _ => []

theorem start_inv (db : StorDB) : Inv (start db) := by
  refine ⟨?_, ?_, fun _ _ => rfl⟩
  . intro cg hcg
    simp [start, mem_def, empty] at hcg
  . intro r hr
    simp [start, mem_def, empty] at hr

theorem members_follow (db : StorDB) (l : List (Request × List String))
    : Along State.next (fun s e => Follows (s.next e)) (start db) l
        ↔
      Along State.next Allowed (start db) l := by
  apply Along.iff_of_invariant Inv
  . intro s e hinv
    exact (decides_step hinv e).iff
  . intro s e hinv
    exact (decides_step hinv e).inv
  . exact start_inv db

theorem not_follows {id : String} (hid : id ∈ originIDs s.db cgID) (hheld : id ∉ s.held cgID)
    (hgroup : ∃ cg ∈ s.db.groups, cg.id = cgID ∧ cg.status ≠ .pending)
    : ¬Follows s := by
  intro h
  obtain ⟨cg, hcg, rfl, hstatus⟩ := hgroup
  exact hheld ((h cg hcg hstatus id).mpr hid)

theorem rows_of_failed_create
    : ∃ db e, "vol" ∈ originIDs ((start db).next e).db 1 ∧ ((start db).next e).held 1 = [] ∧
      ¬Along State.next (fun s e => Follows (s.next e)) (start db) [e] := by
  let vol : Volume := ⟨1, "vol", 1, "data", "", 10, false, .available, 0⟩
  let db : StorDB :=
    { volumes := empty.insert vol, groups := .empty, members := .empty,
      snapshots := .empty, tasks := .empty, instances := .empty, flavors := .empty }
  let m : MemberShip := ⟨1, "alice", 1, "alice", .owner⟩
  let e : Request × List String := (.create m "cg" "group" "" ["vol"], ["error", "", "no address"])
  have hid : "vol" ∈ originIDs ((start db).next e).db 1 := by decide +kernel
  have hheld : ((start db).next e).held 1 = [] := by decide +kernel
  have hgroup : ∃ cg ∈ ((start db).next e).db.groups, cg.id = 1 ∧ cg.status ≠ .pending := by decide +kernel
  refine ⟨db, e, hid, hheld, ?_⟩
  intro hfollows
  exact not_follows hid (hheld ▸ not_mem_nil) hgroup hfollows.1

end Web.Storage.Membership
