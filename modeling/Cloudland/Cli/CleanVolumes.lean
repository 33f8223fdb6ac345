import Cloudland.Lib.Run
import Cloudland.Lib.Table

/-!
The scans of `clean_volumes`, each from the checkpoint of the one before, while volumes are soft-deleted.
-/

namespace Cli.CleanVolumes

open List Function

inductive VolType where
  | all
  | boot
  | data
deriving DecidableEq

structure Volume where
  id : Nat
  path : List Char
  booting : Bool
  deleted : Bool
deriving DecidableEq

instance : Keyed Volume where
  key v := v.id
  setKey v k := { v with id := k }
  key_setKey _ _ := rfl
  setKey_key _ := rfl

def Volume.types (v : Volume) : List VolType := [.all, if v.booting then .boot else .data]

/--
`path LIKE 'wds_%'`, where `_` stands for any character.
-/
def isWds : List Char → Bool
  | 'w' :: 'd' :: 's' :: _ :: _ => true
  | _ => false

def Volume.matches (v : Volume) (volType : VolType) : Bool := v.deleted && isWds v.path && v.types.contains volType

def countDeletedVolumes (rows : Table Volume) (volType : VolType) : Nat := rows.rows.countP (·.matches volType)

def getDeletedVolumes (rows : Table Volume) (volType : VolType) (startAfterId : Nat) : List Volume :=
  (rows.filter (fun v => v.matches volType && startAfterId < v.id)).mergeSort (fun v w => v.id ≤ w.id)

def afterScheme : List Char → Option (List Char)
  | ':' :: '/' :: '/' :: rest => some rest
  | _ :: rest => afterScheme rest
  | [] => none

def parseWdsVolumeId (path : List Char) : Option (List Char) := do
  match (← afterScheme path).splitOn '/' with
  | [_, id] => if id.isEmpty then none else some id
  | _ => none

structure Zombie where
  vol : Volume
  wdsId : List Char

structure Checkpoint where
  lastCheckedId : Nat := 0
  zombies : List Zombie := []
  totalDb : Nat := 0
  checkedCount : Nat := 0

structure Scan extends Checkpoint where
  volType : VolType
  before : List Volume
  todo : List Volume
  skipped : Nat := 0

/--
A file that is not written to its end is not read again.
-/
inductive File where
  | missing
  | torn
  | saved (ckpt : Checkpoint)

structure State where
  rows : Table Volume
  stored : List (List Char)
  files : VolType → File := fun _ => .missing
  scan : Option Scan := none
  results : List (List Volume × List Zombie) := []

inductive Event where
  | start (volType : VolType) (noCache : Bool)
  | check (reply : Option Nat)
  | interrupt (saving : Bool)
  | finish
  | softDelete (id : Nat)
  | remove (wdsId : List Char)

def lookup (v : Volume) (reply : Option Nat) : Option (Option Zombie) := do
  let wdsId ← parseWdsVolumeId v.path
  let status ← reply
  some (if status = 200 then some ⟨v, wdsId⟩ else none)

def Scan.check (scan : Scan) (v : Volume) (todo : List Volume) (found : Option (Option Zombie)) : Scan :=
  { scan with
    todo := todo
    lastCheckedId := v.id
    zombies := scan.zombies ++ found.join.toList
    checkedCount := scan.checkedCount + 1
    skipped := if found.isNone then scan.skipped + 1 else scan.skipped }

def State.begin (s : State) (volType : VolType) (ckpt : Checkpoint) : Scan :=
  { ckpt with
    totalDb := countDeletedVolumes s.rows volType
    volType := volType
    before := s.rows.filter (·.matches volType)
    todo := getDeletedVolumes s.rows volType ckpt.lastCheckedId }

def State.exec (s : State) : Event → Option State
  | .start volType noCache =>
    let files := if noCache then update s.files volType .missing else s.files
    match s.scan, files volType with
    | none, .missing => some { s with files := files, scan := some (s.begin volType {}) }
    | none, .saved ckpt => some { s with files := files, scan := some (s.begin volType ckpt) }
    | _, _ => none
  | .check reply =>
    match s.scan with
    | some scan =>
      match scan.todo with
      | v :: todo =>
        let scan := scan.check v todo (lookup v reply)
        some { s with files := update s.files scan.volType (.saved scan.toCheckpoint), scan := some scan }
      | [] => none
    | none => none
  | .interrupt saving =>
    match s.scan with
    | some scan =>
      some { s with files := if saving then update s.files scan.volType .torn else s.files, scan := none }
    | none => none
  | .finish =>
    match s.scan with
    | some scan =>
      if scan.todo.isEmpty then
        some { s with scan := none, results := s.results ++ [(scan.before, scan.zombies)] }
      else
        none
    | none => none
  | .softDelete id =>
    some { s with rows := s.rows.update (fun v => v.id == id) (fun v => { v with deleted := true }) }
  | .remove wdsId => some { s with stored := s.stored.filter (· != wdsId) }

def Step (s : State) (e : Event) (s' : State) : Prop := s.exec e = some s'

def State.inStorage (s : State) (path : List Char) : Bool := (parseWdsVolumeId path).any s.stored.contains

def Complete (s : State) : Prop := ∀ r ∈ s.results, ∀ v ∈ r.1, s.inStorage v.path → ∃ z ∈ r.2, z.vol.id = v.id

instance : Decidable (Complete s) := by
  unfold Complete
  infer_instance

def State.passed (s : State) (volType : VolType) : List Nat :=
  (match s.files volType with
    | .saved ckpt => [ckpt.lastCheckedId]
    | _ => []) ++
  (match s.scan with
    | some scan => if scan.volType = volType then scan.lastCheckedId :: scan.todo.map Volume.id else []
    | none => [])

def Allowed (s : State) : Event → Prop
  | .check reply =>
    match s.scan with
    | some scan => ∀ v ∈ scan.todo.head?, s.inStorage v.path → reply = some 200
    | none => True
  | .softDelete id => ∀ v ∈ s.rows, v.id = id → s.inStorage v.path → ∀ t ∈ v.types, ∀ k ∈ s.passed t, k < id
  | _ => True

instance : Decidable (Allowed s e) := by
  unfold Allowed
  split
  . split <;> infer_instance
  all_goals infer_instance

section Queries

variable {rows : Table Volume} {volType : VolType} {startAfterId : Nat} {v : Volume}

theorem mem_getDeletedVolumes
    : v ∈ getDeletedVolumes rows volType startAfterId
        ↔
      v ∈ rows ∧ v.matches volType ∧ startAfterId < v.id := by
  simp [getDeletedVolumes, Table.mem_filter]

theorem getDeletedVolumes_sorted
    : (getDeletedVolumes rows volType startAfterId).Pairwise (fun v w => v.id < w.id) := by
  have hsorted : (getDeletedVolumes rows volType startAfterId).Pairwise (fun v w => decide (v.id ≤ w.id) = true) := by
    apply pairwise_mergeSort
    . intro u v w huv hvw
      simp only [decide_eq_true_eq] at huv hvw ⊢
      exact Nat.le_trans huv hvw
    . intro u v
      simpa using Nat.le_total u.id v.id
  have hnodup : ((getDeletedVolumes rows volType startAfterId).map Volume.id).Nodup := by
    have hfilter := rows.nodup.sublist ((filter_sublist (p := fun v => v.matches volType && startAfterId < v.id)).map _)
    exact ((mergeSort_perm _ _).map _).nodup_iff.mpr hfilter
  refine (hsorted.and (pairwise_map.mp hnodup)).imp ?_
  intro v w ⟨hle, hne⟩
  exact Nat.lt_of_le_of_ne (of_decide_eq_true hle) hne

end Queries

def Covered (s : State) (volType : VolType) (ckpt : Checkpoint) : Prop :=
  ∀ v ∈ s.rows, v.matches volType → s.inStorage v.path → v.id ≤ ckpt.lastCheckedId → ∃ z ∈ ckpt.zombies, z.vol.id = v.id

structure Underway (s : State) (scan : Scan) : Prop where
  covered : Covered s scan.volType scan.toCheckpoint
  sorted : scan.todo.Pairwise (fun v w => v.id < w.id)
  ahead : ∀ v ∈ scan.todo, scan.lastCheckedId < v.id
  reached : ∀ v ∈ s.rows, v.matches scan.volType → s.inStorage v.path → scan.lastCheckedId < v.id →
    (∃ w ∈ scan.todo, w.id = v.id ∧ w.path = v.path) ∨ ∀ w ∈ scan.todo, w.id < v.id
  before : ∀ v ∈ scan.before, s.inStorage v.path →
    (∃ w ∈ scan.todo, w.id = v.id ∧ w.path = v.path) ∨ ∃ z ∈ scan.zombies, z.vol.id = v.id

structure Inv (s : State) : Prop where
  files : ∀ t ckpt, s.files t = .saved ckpt → Covered s t ckpt
  scan : ∀ scan, s.scan = some scan → Underway s scan
  complete : Complete s

variable {s s' : State}

theorem Covered.empty : Covered s volType {} := by
  intro v hv _ _ hle
  have := (s.rows.bounds v hv).1
  exact absurd hle (Nat.not_le.mpr this)

theorem Covered.begin (h : Covered s volType ckpt)
    : Underway s (s.begin volType ckpt) where
  covered := h
  sorted := getDeletedVolumes_sorted
  ahead := fun _ hv => (mem_getDeletedVolumes.mp hv).2.2
  reached := fun v hv hmatches _ hlt => .inl ⟨v, mem_getDeletedVolumes.mpr ⟨hv, hmatches, hlt⟩, rfl, rfl⟩
  before := by
    intro v hv hstored
    have ⟨hv, hmatches⟩ := Table.mem_filter.mp hv
    by_cases hlt : ckpt.lastCheckedId < v.id
    . exact .inl ⟨v, mem_getDeletedVolumes.mpr ⟨hv, hmatches, hlt⟩, rfl, rfl⟩
    . exact .inr (h v hv hmatches hstored (Nat.not_lt.mp hlt))

theorem Underway.frame (h : Underway s scan)
    : Underway { s with files := files, scan := scan', results := results } scan :=
  ⟨h.covered, h.sorted, h.ahead, h.reached, h.before⟩

theorem lookup_of_inStorage (h : s.inStorage v.path) : ∃ wdsId, lookup v (some 200) = some (some ⟨v, wdsId⟩) := by
  rw [State.inStorage, Option.any_eq_true] at h
  have ⟨wdsId, hparse, _⟩ := h
  exact ⟨wdsId, by simp [lookup, hparse]⟩

theorem Underway.check (h : Underway s scan) (htodo : scan.todo = v :: todo)
    (hreply : s.inStorage v.path → reply = some 200)
    : Underway s (scan.check v todo (lookup v reply)) := by
  have hsorted := htodo ▸ h.sorted
  have ⟨hfirst, hrest⟩ := pairwise_cons.mp hsorted
  have hkeeps : ∀ {k : Nat}, (∃ z ∈ scan.zombies, z.vol.id = k) →
      ∃ z ∈ (scan.check v todo (lookup v reply)).zombies, z.vol.id = k :=
    fun ⟨z, hz, hid⟩ => ⟨z, mem_append_left _ hz, hid⟩
  have hfound : s.inStorage v.path → ∃ z ∈ (scan.check v todo (lookup v reply)).zombies, z.vol.id = v.id := by
    intro hstored
    have ⟨wdsId, hlookup⟩ := lookup_of_inStorage hstored
    refine ⟨⟨v, wdsId⟩, mem_append_right _ ?_, rfl⟩
    simp [hreply hstored, hlookup]
  constructor
  . intro u hu hmatches hstored hle
    by_cases hlt : scan.lastCheckedId < u.id
    . obtain ⟨w, hw, hid, hpath⟩ | hall := h.reached u hu hmatches hstored hlt
      . obtain heq | hw := mem_cons.mp (htodo ▸ hw)
        . exact hid ▸ heq ▸ hfound (heq ▸ hpath ▸ hstored)
        . exact absurd (hid ▸ hfirst w hw) (Nat.not_lt.mpr hle)
      . exact absurd (hall v (htodo ▸ mem_cons_self)) (Nat.not_lt.mpr hle)
    . exact hkeeps (h.covered u hu hmatches hstored (Nat.not_lt.mp hlt))
  . exact hrest
  . exact hfirst
  . intro u hu hmatches hstored hlt
    have hlast := Nat.lt_trans (h.ahead v (htodo ▸ mem_cons_self)) hlt
    obtain ⟨w, hw, hid, hpath⟩ | hall := h.reached u hu hmatches hstored hlast
    . obtain heq | hw := mem_cons.mp (htodo ▸ hw)
      . exact absurd hid (Nat.ne_of_lt (heq ▸ hlt))
      . exact .inl ⟨w, hw, hid, hpath⟩
    . exact .inr (fun w hw => hall w (htodo ▸ mem_cons_of_mem _ hw))
  . intro u hu hstored
    obtain ⟨w, hw, hid, hpath⟩ | hz := h.before u hu hstored
    . obtain heq | hw := mem_cons.mp (htodo ▸ hw)
      . exact .inr (hid ▸ heq ▸ hfound (heq ▸ hpath ▸ hstored))
      . exact .inl ⟨w, hw, hid, hpath⟩
    . exact .inr (hkeeps hz)

structure Outside (s s' : State) : Prop where
  files : s'.files = s.files
  scan : s'.scan = s.scan
  results : s'.results = s.results
  stored : ∀ {path}, s'.inStorage path → s.inStorage path
  rows : ∀ v' ∈ s'.rows, s'.inStorage v'.path → ∀ t, v'.matches t →
    (∃ v ∈ s.rows, v.matches t ∧ v.id = v'.id ∧ v.path = v'.path) ∨ ∀ k ∈ s.passed t, k < v'.id

theorem Outside.covered (h : Outside s s') (hcovered : Covered s t ckpt)
    (hpassed : ckpt.lastCheckedId ∈ s.passed t)
    : Covered s' t ckpt := by
  intro v' hv' hmatches hstored hle
  obtain ⟨v, hv, hm, hid, hpath⟩ | hlt := h.rows v' hv' hstored t hmatches
  . exact hid ▸ hcovered v hv hm (hpath ▸ h.stored hstored) (hid ▸ hle)
  . exact absurd (hlt _ hpassed) (Nat.not_lt.mpr hle)

theorem Inv.outside (hinv : Inv s) (h : Outside s s') : Inv s' := by
  constructor
  . intro t ckpt hfile
    rw [h.files] at hfile
    exact h.covered (hinv.files t ckpt hfile) (by simp [State.passed, hfile])
  . intro scan hscan
    rw [h.scan] at hscan
    have hunderway := hinv.scan scan hscan
    have hpassed : ∀ k ∈ scan.lastCheckedId :: scan.todo.map Volume.id, k ∈ s.passed scan.volType := by
      intro k hk
      simp only [State.passed, hscan, if_true]
      exact mem_append_right _ hk
    refine ⟨h.covered hunderway.covered (hpassed _ mem_cons_self), hunderway.sorted, hunderway.ahead, ?_, ?_⟩
    . intro v' hv' hmatches hstored hlt
      obtain ⟨v, hv, hm, hid, hpath⟩ | hall := h.rows v' hv' hstored _ hmatches
      . rw [← hid, ← hpath]
        exact hunderway.reached v hv hm (hpath ▸ h.stored hstored) (hid ▸ hlt)
      . exact .inr (fun w hw => hall _ (hpassed _ (mem_cons_of_mem _ (mem_map_of_mem hw))))
    . exact fun v hv hstored => hunderway.before v hv (h.stored hstored)
  . intro r hr v hv hstored
    exact hinv.complete r (h.results ▸ hr) v hv (h.stored hstored)

theorem outside_softDelete {id : Nat} (h : Allowed s (.softDelete id))
    : Outside s { s with rows := s.rows.update (fun v => v.id == id) (fun v => { v with deleted := true }) } := by
  refine ⟨rfl, rfl, rfl, fun h => h, ?_⟩
  intro v' hv' hstored t hmatches
  have ⟨v, hv, heq⟩ := Table.mem_update.mp hv'
  split at heq
  . next hid =>
    rw [heq] at hstored hmatches ⊢
    simp only [Volume.matches, Bool.and_eq_true, contains_iff_mem] at hmatches
    exact .inr (beq_iff_eq.mp hid ▸ h v hv (beq_iff_eq.mp hid) hstored t hmatches.2)
  . exact .inl ⟨v, hv, heq ▸ hmatches, by simp [heq], by simp [heq]⟩

theorem outside_remove (s : State) (wdsId : List Char)
    : Outside s { s with stored := s.stored.filter (· != wdsId) } := by
  refine ⟨rfl, rfl, rfl, ?_, fun v hv _ t hmatches => .inl ⟨v, hv, hmatches, rfl, rfl⟩⟩
  intro path hstored
  simp only [State.inStorage, Option.any_eq_true] at hstored ⊢
  have ⟨wdsId', hparse, hmem⟩ := hstored
  refine ⟨wdsId', hparse, ?_⟩
  simp only [contains_iff_mem, mem_filter] at hmem ⊢
  exact hmem.1

theorem files_update (h : ∀ t ckpt, s.files t = .saved ckpt → Covered s t ckpt)
    (hfile : ∀ ckpt, file = .saved ckpt → Covered s volType ckpt)
    : ∀ t ckpt, update s.files volType file t = .saved ckpt → Covered s t ckpt := by
  intro t ckpt
  by_cases heq : t = volType
  . rw [heq, update_self]
    exact hfile ckpt
  . rw [update_of_ne heq]
    exact h t ckpt

theorem Inv.start (h : Inv s) (hexec : s.exec (.start volType noCache) = some s') : Inv s' := by
  have hfiles : ∀ t ckpt, (if noCache then update s.files volType .missing else s.files) t = .saved ckpt →
      Covered s t ckpt := by
    split
    . exact files_update h.files (by simp)
    . exact h.files
  simp only [State.exec] at hexec
  split at hexec
  . cases hexec
    refine ⟨hfiles, ?_, h.complete⟩
    intro scan hscan
    cases hscan
    exact Covered.empty.begin.frame
  . next ckpt _ hfile =>
    cases hexec
    refine ⟨hfiles, ?_, h.complete⟩
    intro scan hscan
    cases hscan
    exact (hfiles volType ckpt hfile).begin.frame
  . contradiction

theorem Inv.step (h : Inv s) (hallowed : Allowed s e) (hexec : s.exec e = some s') : Inv s' := by
  cases e with
  | start volType noCache => exact h.start hexec
  | check reply =>
    simp only [State.exec] at hexec
    split at hexec
    . next scan hscan =>
      split at hexec
      . next v todo htodo =>
        cases hexec
        have hreply : s.inStorage v.path → reply = some 200 := by
          simp only [Allowed, hscan, htodo] at hallowed
          exact hallowed v rfl
        have hunderway := (h.scan scan hscan).check htodo hreply
        refine ⟨files_update h.files ?_, ?_, h.complete⟩
        . intro ckpt hckpt
          cases hckpt
          exact hunderway.covered
        . intro scan hscan
          cases hscan
          exact hunderway.frame
      . contradiction
    . contradiction
  | interrupt saving =>
    simp only [State.exec] at hexec
    split at hexec
    . cases hexec
      refine ⟨?_, by simp, h.complete⟩
      split
      . exact files_update h.files (by simp)
      . exact h.files
    . contradiction
  | finish =>
    simp only [State.exec] at hexec
    split at hexec
    . next scan hscan =>
      split at hexec
      . next hempty =>
        cases hexec
        refine ⟨h.files, by simp, ?_⟩
        intro r hr v hv hstored
        obtain hr | hr := mem_append.mp hr
        . exact h.complete r hr v hv hstored
        . cases mem_singleton.mp hr
          obtain hmem | hz := (h.scan scan hscan).before v hv hstored
          . simp [isEmpty_iff.mp hempty] at hmem
          . exact hz
      . contradiction
    . contradiction
  | softDelete id =>
    cases hexec
    exact h.outside (outside_softDelete hallowed)
  | remove wdsId =>
    cases hexec
    exact h.outside (outside_remove s wdsId)

theorem scans_complete {rows : Table Volume} {stored : List (List Char)} {l : List Event}
    (hrun : Run (Guarded Allowed Step) { rows := rows, stored := stored } l s)
    : Complete s := by
  have hinit : Inv { rows := rows, stored := stored } := ⟨by simp, by simp, by simp [Complete]⟩
  exact (hrun.invariant Inv (fun _ _ _ h hstep => h.step hstep.1 hstep.2) hinit).complete

def twoVolumes : State where
  rows := (Table.empty.insert ⟨0, "wds_vhost://p/a".toList, true, false⟩)
    |>.insert ⟨0, "wds_vhost://p/b".toList, true, false⟩
  stored := ["a".toList, "b".toList]

def inOrder : List Event :=
  [.softDelete 1, .start .all false, .check (some 200), .interrupt false, .softDelete 2, .start .all false,
    .check (some 200), .finish]

theorem scans_complete_in_order
    : ∃ s, Run (Guarded Allowed Step) twoVolumes inOrder s ∧
      s.results.map (fun r => r.2.map (fun z => z.vol.id)) = [[1, 2]] ∧ Complete s := by
  refine Run.exists_of_checked (fun s => s.results.map (fun r => r.2.map (fun z => z.vol.id)) = [[1, 2]])
    (by decide +kernel) ?_
  exact fun s hrun hs => ⟨hs, scans_complete hrun⟩

def outOfOrder : List Event :=
  [.softDelete 2, .start .all false, .check (some 200), .finish, .softDelete 1, .start .all false, .finish]

def failedQuery : List Event := [.softDelete 1, .start .all false, .check none, .finish, .start .all false, .finish]

theorem scans_not_complete
    : (∃ s, Run Step twoVolumes outOfOrder s ∧ ¬Complete s) ∧ ∃ s, Run Step twoVolumes failedQuery s ∧ ¬Complete s := by
  constructor
  . exact Run.exists_of_foldlM _ (by decide +kernel) (fun _ _ h => h)
  . exact Run.exists_of_foldlM _ (by decide +kernel) (fun _ _ h => h)

end Cli.CleanVolumes
