import Cloudland.Lib.Run

/-!
`clean_image_snapshots`: runs that share a cache file, next to volumes that are cloned from snapshots
and deleted.
-/

namespace Cli

open List

inductive Json where
  | null
  | bool (b : Bool)
  | num (n : Rat)
  | str (s : String)
  | arr (l : List Json)
  | obj (fields : List (String × Json))

namespace Json

def truthy : Json → Bool
  | null => false
  | bool b => b
  | num n => n != 0
  | str s => s != ""
  | arr l => !l.isEmpty
  | obj fields => !fields.isEmpty

def get (fields : List (String × Json)) (key : String) (default : Json) : Json :=
  (fields.lookup key).getD default

def items : Json → Option (List Json)
  | arr l => some l
  | obj fields =>
    match fields.lookup "ret_code", get fields "volumes" (get fields "data" null) with
    | none, arr l => some l
    | some (str "0"), arr l => some l
    | _, _ => none
  | _ => none

end Json

structure Response where
  statusCode : Nat
  json : Option Json

def Response.isError (resp : Response) : Bool := 400 ≤ resp.statusCode && resp.statusCode < 600

def getCloneVolumes (resp : Option Response) : Option Json := do
  let resp ← resp
  if resp.isError then
    none
  else
    match ← resp.json with
    | .obj fields => some (.get fields "volumes" (.get fields "data" (.arr [])))
    | data => some data

/--
Whether `delete_snapshot` reports a success. A text that is no object is judged by the status code.
-/
def deleteSnapshot (resp : Response) : Bool :=
  match resp.json with
  | some (.obj fields) =>
    match fields.lookup "ret_code", fields.lookup "result" with
    | some (.str "0"), _ => true
    | _, some (.bool b) => b
    | _, _ => false
  | _ => resp.statusCode == 200

namespace CleanImages

structure Snapshot where
  id : String
  volumeId : String
deriving DecidableEq

structure Volume where
  id : String
  parentSnapId : String
deriving DecidableEq

inductive Phase where
  | scanning (execute : Bool) (todo orphans : List Snapshot)
  | deleting (todo : List Snapshot) (failed : Nat)
  | finished

structure State where
  volumes : List Volume
  cache : Option (List Snapshot) := none
  runs : List Phase := []
  classified : List (Snapshot × Option Response) := []
  deleted : List (Snapshot × List Volume) := []

def State.clonesOf (s : State) (snap : Snapshot) : List Volume :=
  s.volumes.filter (fun v => v.parentSnapId == snap.id)

inductive Event where
  | start (execute noCache : Bool) (imageVolIds : List String) (allSnapshots : Option (List Snapshot))
  | query (k : Nat) (resp : Option Response)
  | save (k : Nat)
  | delete (k : Nat) (resp : Option Response)
  | finish (k : Nat)
  | interrupt (k : Nat)
  | clone (v : Volume)
  | removeClone (id : String)

def begin (execute noCache : Bool) (cache : Option (List Snapshot)) (imageSnapshots : List Snapshot) : Phase :=
  match cache with
  | some data => if execute && !noCache then .scanning execute [] data else .scanning execute imageSnapshots []
  | none => .scanning execute imageSnapshots []

def State.exec (s : State) : Event → Option State
  | .start execute noCache imageVolIds allSnapshots =>
    let imageSnapshots := (allSnapshots.getD []).filter (fun snap => imageVolIds.contains snap.volumeId)
    some { s with runs := s.runs ++ [begin execute noCache s.cache imageSnapshots] }
  | .query k resp =>
    match s.runs[k]? with
    | some (.scanning execute (snap :: todo) orphans) =>
      match getCloneVolumes resp with
      | some clones =>
        if clones.truthy then
          some { s with runs := s.runs.set k (.scanning execute todo orphans) }
        else
          some { s with
            runs := s.runs.set k (.scanning execute todo (orphans ++ [snap]))
            classified := s.classified ++ [(snap, resp)] }
      | none => some { s with runs := s.runs.set k (.scanning execute todo orphans) }
    | _ => none
  | .save k =>
    match s.runs[k]? with
    | some (.scanning execute [] orphans) =>
      -- without orphans the run ends before it comes to the cache
      if orphans.isEmpty then
        some { s with runs := s.runs.set k .finished }
      else
        some { s with
          cache := some orphans
          runs := s.runs.set k (if execute then .deleting orphans 0 else .finished) }
    | _ => none
  | .delete k resp =>
    match s.runs[k]? with
    | some (.deleting (snap :: todo) failed) =>
      some { s with
        runs := s.runs.set k (.deleting todo (if resp.any deleteSnapshot then failed else failed + 1))
        deleted := s.deleted ++ [(snap, s.clonesOf snap)] }
    | _ => none
  | .finish k =>
    match s.runs[k]? with
    | some (.deleting [] failed) =>
      some { s with
        cache := if failed = 0 then none else s.cache
        runs := s.runs.set k .finished }
    | _ => none
  | .interrupt k => some { s with runs := s.runs.set k .finished }
  | .clone v => some { s with volumes := s.volumes ++ [v] }
  | .removeClone id => some { s with volumes := s.volumes.filter (fun v => v.id != id) }

def cloneList (resp : Option Response) : Option (List Json) := do
  let resp ← resp
  if resp.isError then none else (← resp.json).items

def State.Answers (s : State) : Event → Prop
  | .query k resp =>
    match s.runs[k]?, cloneList resp with
    | some (.scanning _ (snap :: _) _), some l => l.length = (s.clonesOf snap).length
    | _, _ => True
  | _ => True

instance : Decidable (State.Answers s e) := by
  unfold State.Answers
  split
  . split <;> infer_instance
  . infer_instance

def Step : State → Event → State → Prop := Guarded State.Answers (fun s e s' => s.exec e = some s')

structure Safe (s : State) : Prop where
  deleted : ∀ d ∈ s.deleted, d.2 = []
  classified : ∀ c ∈ s.classified, (cloneList c.2).isSome

def Phase.pending : Phase → List Snapshot
  | scanning _ _ orphans => orphans
  | deleting todo _ => todo
  | finished => []

def State.pending (s : State) : List Snapshot := s.cache.getD [] ++ s.runs.flatMap Phase.pending

def Allowed (s : State) : Event → Prop
  | .query _ resp => (resp.bind Response.json = none ∨ resp.any Response.isError) ∨ (cloneList resp).isSome
  | .clone v => ∀ snap ∈ s.pending, snap.id ≠ v.parentSnapId
  | _ => True

instance : Decidable (Allowed s e) := by
  unfold Allowed
  split <;> infer_instance

structure Inv (s : State) : Prop extends Safe s where
  pending : ∀ snap ∈ s.pending, s.clonesOf snap = []

variable {s s' : State} {k : Nat} {snap : Snapshot} {p : Phase}

theorem mem_pending_set (hsnap : snap ∈ snaps ++ (s.runs.set k p).flatMap Phase.pending)
    : snap ∈ snaps ∨ snap ∈ p.pending ∨ snap ∈ s.pending := by
  simp only [mem_append, mem_flatMap] at hsnap
  obtain hmem | hmem := hsnap
  . exact .inl hmem
  . have ⟨q, hq, hmem⟩ := hmem
    obtain hq | heq := mem_or_eq_of_mem_set hq
    . exact .inr (.inr (mem_append_right _ (mem_flatMap.mpr ⟨q, hq, hmem⟩)))
    . exact .inr (.inl (heq ▸ hmem))

theorem mem_pending_of_run (hrun : s.runs[k]? = some p) (hsnap : snap ∈ p.pending) : snap ∈ s.pending :=
  mem_append_right _ (mem_flatMap.mpr ⟨p, mem_of_getElem? hrun, hsnap⟩)

theorem getCloneVolumes_of_refused
    (h : resp.bind Response.json = none ∨ resp.any Response.isError)
    : getCloneVolumes resp = none := by
  cases resp with
  | none => rfl
  | some resp =>
    obtain hnone | herror := h
    . have hjson : resp.json = none := hnone
      simp [getCloneVolumes, hjson]
    . have herror : resp.isError = true := herror
      simp [getCloneVolumes, herror]

theorem get_of_get_null (h : Json.get fields "volumes" (.get fields "data" .null) = .arr l)
    : Json.get fields "volumes" (.get fields "data" (.arr [])) = .arr l := by
  unfold Json.get at h ⊢
  cases hvolumes : fields.lookup "volumes" with
  | some v => simpa [hvolumes] using h
  | none =>
    cases hdata : fields.lookup "data" with
    | some v => simpa [hvolumes, hdata] using h
    | none => simp [hvolumes, hdata] at h

theorem getCloneVolumes_of_cloneList (h : cloneList resp = some l)
    : getCloneVolumes resp = some (.arr l) := by
  cases resp with
  | none => contradiction
  | some resp =>
    cases hjson : resp.json with
    | none => simp [cloneList, hjson] at h
    | some data =>
      by_cases herror : resp.isError = true
      . simp [cloneList, herror] at h
      . simp only [cloneList, getCloneVolumes, Option.bind_eq_bind, Option.bind_some, if_neg herror, hjson] at h ⊢
        unfold Json.items at h
        split at h
        . simpa using h
        . split at h
          . next hget => simpa [get_of_get_null hget] using h
          . next hget => simpa [get_of_get_null hget] using h
          . contradiction
        . contradiction

theorem Inv.set (h : Inv s) (hcache : ∀ snap ∈ cache.getD [], snap ∈ s.pending)
    (hp : ∀ snap ∈ p.pending, s.clonesOf snap = [])
    : Inv { s with cache := cache, runs := s.runs.set k p } := by
  refine ⟨⟨h.deleted, h.classified⟩, ?_⟩
  intro snap hsnap
  obtain hmem | hmem := mem_pending_set hsnap
  . exact h.pending snap (hcache snap hmem)
  . obtain hmem | hmem := hmem
    . exact hp snap hmem
    . exact h.pending snap hmem

theorem Inv.query (h : Inv s) (hanswers : s.Answers (.query k resp))
    (hallowed : Allowed s (.query k resp)) (hexec : s.exec (.query k resp) = some s')
    : Inv s' := by
  simp only [State.exec] at hexec
  split at hexec
  . next execute snap todo orphans hrun =>
    have hskip : Inv { s with runs := s.runs.set k (.scanning execute todo orphans) } :=
      h.set (fun _ => mem_append_left _) (fun snap hsnap => h.pending snap (mem_pending_of_run hrun hsnap))
    split at hexec
    . next clones hclones =>
      split at hexec
      . cases hexec
        exact hskip
      . next hfalsy =>
        cases hexec
        have ⟨l, hl⟩ : ∃ l, cloneList resp = some l := by
          obtain hrefused | hlist := hallowed
          . exact absurd hclones (by simp [getCloneVolumes_of_refused hrefused])
          . exact Option.isSome_iff_exists.mp hlist
        have hnil : s.clonesOf snap = [] := by
          cases hclones.symm.trans (getCloneVolumes_of_cloneList hl)
          simp only [State.Answers, hrun, hl] at hanswers
          simpa [Json.truthy, ← length_eq_zero_iff, hanswers] using hfalsy
        have hset := h.set (k := k) (p := .scanning execute todo (orphans ++ [snap]))
          (fun _ => mem_append_left _) (by
            intro snap' hsnap
            obtain hmem | hmem := mem_append.mp hsnap
            . exact h.pending snap' (mem_pending_of_run hrun hmem)
            . exact mem_singleton.mp hmem ▸ hnil)
        refine ⟨⟨hset.deleted, ?_⟩, hset.pending⟩
        intro c hc
        obtain hc | hc := mem_append.mp hc
        . exact h.classified c hc
        . simp [mem_singleton.mp hc, hl]
    . cases hexec
      exact hskip
  . contradiction

theorem Inv.step (h : Inv s) (hallowed : Allowed s e) (hstep : Step s e s') : Inv s' := by
  have ⟨hanswers, hexec⟩ := hstep
  have hcached : ∀ snap ∈ s.cache.getD [], snap ∈ s.pending := fun _ => mem_append_left _
  cases e with
  | start execute noCache imageVolIds allSnapshots =>
    cases hexec
    refine ⟨⟨h.deleted, h.classified⟩, ?_⟩
    intro snap hsnap
    apply h.pending
    simp only [State.pending, flatMap_append, mem_append] at hsnap ⊢
    obtain hmem | hmem := hsnap
    . exact .inl hmem
    . obtain hmem | hmem := hmem
      . exact .inr hmem
      . apply Or.inl
        unfold begin at hmem
        split at hmem
        . next data hdata =>
          split at hmem
          . simpa [hdata, Phase.pending] using hmem
          . simp [Phase.pending] at hmem
        . simp [Phase.pending] at hmem
  | query k resp => exact h.query hanswers hallowed hexec
  | save k =>
    simp only [State.exec] at hexec
    split at hexec
    . next execute orphans hrun =>
      have horphans : ∀ snap ∈ (some orphans).getD [], snap ∈ s.pending := fun _ => mem_pending_of_run hrun
      split at hexec
      . cases hexec
        exact h.set hcached (by simp [Phase.pending])
      . cases hexec
        apply h.set horphans
        split
        . exact fun snap hsnap => h.pending snap (horphans snap hsnap)
        . simp [Phase.pending]
    . contradiction
  | delete k resp =>
    simp only [State.exec] at hexec
    split at hexec
    . next snap todo failed hrun =>
      cases hexec
      have hpending : ∀ snap' ∈ snap :: todo, s.clonesOf snap' = [] :=
        fun snap' hsnap => h.pending snap' (mem_pending_of_run hrun hsnap)
      have hset := h.set (k := k) (p := .deleting todo (if resp.any deleteSnapshot then failed else failed + 1))
        hcached (fun snap' hsnap => hpending snap' (mem_cons_of_mem _ hsnap))
      refine ⟨⟨?_, hset.classified⟩, hset.pending⟩
      intro d hd
      obtain hd | hd := mem_append.mp hd
      . exact h.deleted d hd
      . simp [mem_singleton.mp hd, hpending snap mem_cons_self]
    . contradiction
  | finish k =>
    simp only [State.exec] at hexec
    split at hexec
    . cases hexec
      apply h.set _ (by simp [Phase.pending])
      split
      . simp
      . exact hcached
    . contradiction
  | interrupt k =>
    cases hexec
    exact h.set hcached (by simp [Phase.pending])
  | clone v =>
    cases hexec
    refine ⟨⟨h.deleted, h.classified⟩, ?_⟩
    intro snap hsnap
    have hne := (hallowed snap hsnap).symm
    simpa [State.clonesOf, hne] using h.pending snap hsnap
  | removeClone id =>
    cases hexec
    refine ⟨⟨h.deleted, h.classified⟩, ?_⟩
    intro snap hsnap
    have hnil := h.pending snap hsnap
    simp only [State.clonesOf, filter_eq_nil_iff] at hnil ⊢
    exact fun v hv => hnil v (mem_filter.mp hv).1

theorem snapshots_safe {volumes : List Volume} {l : List Event}
    (hrun : Run (Guarded Allowed Step) { volumes := volumes } l s)
    : Safe s := by
  have hinit : Inv { volumes := volumes } := ⟨⟨by simp, by simp⟩, by simp [State.pending]⟩
  exact (hrun.invariant Inv (fun _ _ _ h hstep => h.step hstep.1 hstep.2) hinit).toSafe

def base : Snapshot := ⟨"s", "image"⟩

def scan (json : Json) : List Event :=
  [.start false false ["image"] (some [base]), .query 0 (some ⟨200, some json⟩), .save 0]

def executeCached : List Event := [.start true false ["image"] none, .save 1, .delete 1 none]

theorem snapshots_safe_two_runs
    : ∃ s, Run (Guarded Allowed Step) { volumes := [] } (scan (.arr []) ++ executeCached) s ∧
      s.deleted = [(base, [])] ∧ Safe s := by
  refine Run.exists_of_checked₂ (fun s => s.deleted = [(base, [])]) (by decide +kernel) ?_
  exact fun s hrun hs => ⟨hs, snapshots_safe hrun⟩

theorem snapshots_not_safe
    : (∃ s, Run Step { volumes := [] } (scan (.arr []) ++ [.clone ⟨"v", "s"⟩] ++ executeCached) s ∧
        s.deleted = [(base, [⟨"v", "s"⟩])]) ∧
      ∃ s, Run Step { volumes := [⟨"v", "s"⟩] } (scan (.obj [("ret_code", .str "1")])) s ∧
        s.cache = some [base] ∧ s.classified.map (fun c => cloneList c.2 |>.isSome) = [false] := by
  constructor
  . exact Run.exists_of_checked _ (by decide +kernel) (fun _ _ h => h)
  . exact Run.exists_of_checked _ (by decide +kernel) (fun _ _ h => h)

end CleanImages
end Cli
