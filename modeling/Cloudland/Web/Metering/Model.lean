import Cloudland.Lib.GoString

/-!
This module models the metering requests of `apis/openmeter.go` and the targets that they are filtered by. The time
of an event is a text of the layout `2006-01-02 15:04:05`; it stands as the seconds that UTC gives for it.
-/

namespace Web.Metering

structure Labels where
  inst : Option String
  node : Option String
  hostname : Option String
  targetDevice : Option String
  deriving DecidableEq

structure Event where
  time : Int
  labels : Option Labels
  -- the text that `values[0][1]` has
  value : Option String
  deriving DecidableEq

structure TargetFilter where
  nodeExporterTargets : List String
  libvirtExporterTargets : List String

def hostPart (target : String) : List Char :=
  match GoString.lastIndex [':'] target.toList with
  | some i => if 0 < i then target.toList.take i else target.toList
  | none => target.toList

def isValidTarget (target : String) (targetFilter : TargetFilter) : Bool :=
  target ≠ "" &&
    (targetFilter.nodeExporterTargets.any (fun t => hostPart t = hostPart target) ||
      targetFilter.libvirtExporterTargets.any (fun t => hostPart t = hostPart target))

-- an event that names no target is kept, whatever its job
def kept (targetFilter : TargetFilter) (event : Event) : Bool :=
  match event.labels.bind (fun labels => labels.inst.or (labels.node.or labels.hostname)) with
  | some target => isValidTarget target targetFilter
  | none => true

def filterEventsByPrometheusTargets (events : List Event) (targetFilter : TargetFilter) : List Event × Bool :=
  if targetFilter.nodeExporterTargets = [] ∧ targetFilter.libvirtExporterTargets = [] then
    (events, false)
  else
    (events.filter (kept targetFilter), events.any (fun event => !kept targetFilter event))

inductive Response (α : Type u) where
  | noDataFound
  | targetNotFound
  | success (result : α)
  deriving DecidableEq

def Response.result : Response α → Option α
  | .success result => some result
  | _ => none

variable {α : Type u} (targetFilter : TargetFilter) (process : List Event → α)

/--
`QueryOpenMeterMetrics` from the events on. The events that are left are bound to a variable of the branch, and those
of the answer are processed.
-/
def queryOpenMeterMetrics (disabled : Bool) (events : List Event) : Response α :=
  if events = [] then
    .noDataFound
  else
    let filteredEvents := events
    if disabled then
      .success (process filteredEvents)
    else
      let (filteredEvents', hasTargetMismatch) := filterEventsByPrometheusTargets events targetFilter
      if filteredEvents' = [] ∧ hasTargetMismatch then
        .targetNotFound
      else
        .success (process filteredEvents)

def processGenericMetrics (events : List Event) : Nat := events.length

section Targets

variable {targetFilter : TargetFilter} {events : List Event}

def Configured (targetFilter : TargetFilter) : Prop :=
  ¬(targetFilter.nodeExporterTargets = [] ∧ targetFilter.libvirtExporterTargets = [])

def Isolated (targetFilter : TargetFilter) (process : List Event → α) (events : List Event) : Prop :=
  (filterEventsByPrometheusTargets events targetFilter).2 = true →
    ∀ events', events'.filter (kept targetFilter) = events.filter (kept targetFilter) →
      (queryOpenMeterMetrics targetFilter process false events').result
        =
      (queryOpenMeterMetrics targetFilter process false events).result

theorem queryOpenMeterMetrics_result (h : Configured targetFilter) (process : List Event → α) (events : List Event)
    : (queryOpenMeterMetrics targetFilter process false events).result
        =
      if events.filter (kept targetFilter) = [] then none else some (process events) := by
  unfold queryOpenMeterMetrics filterEventsByPrometheusTargets
  rw [if_neg h]
  cases events with
  | nil => rfl
  | cons event events =>
    by_cases hnone : (event :: events).filter (kept targetFilter) = []
    . have hmismatch : (event :: events).any (fun event => !kept targetFilter event) = true := by
        have hevent := List.filter_eq_nil_iff.mp hnone event List.mem_cons_self
        simp [hevent]
      rw [if_pos hnone]
      simp [hnone, hmismatch, Response.result]
    . simp [hnone, Response.result]

theorem isolated_iff
    : (∀ (α : Type) (process : List Event → α), Isolated targetFilter process events)
        ↔
      (Configured targetFilter →
        (∀ event ∈ events, kept targetFilter event = true) ∨ ∀ event ∈ events, kept targetFilter event = false) := by
  constructor
  . intro h hconf
    by_contra hmixed
    rw [not_or] at hmixed
    have hsome : events.filter (kept targetFilter) ≠ [] := by
      intro hnone
      apply hmixed.2
      simpa using hnone
    have hmismatch : (filterEventsByPrometheusTargets events targetFilter).2 = true := by
      rw [filterEventsByPrometheusTargets, if_neg hconf]
      simpa using hmixed.1
    -- the number of events tells whether the others have been counted
    have hsame := h Nat processGenericMetrics hmismatch (events.filter (kept targetFilter)) (by simp)
    rw [queryOpenMeterMetrics_result hconf, queryOpenMeterMetrics_result hconf, if_neg (by simpa using hsome),
      if_neg hsome] at hsame
    exact hmixed.1 (List.length_filter_eq_length_iff.mp (Option.some.inj hsame))
  . intro h α process hmismatch events' heq
    have hconf : Configured targetFilter := by
      intro hnone
      simp [filterEventsByPrometheusTargets, hnone] at hmismatch
    rw [queryOpenMeterMetrics_result hconf, queryOpenMeterMetrics_result hconf, heq]
    rw [filterEventsByPrometheusTargets, if_neg hconf] at hmismatch
    obtain hall | hall := h hconf
    . simp only [List.any_eq_true, Bool.not_eq_true'] at hmismatch
      obtain ⟨event, hmem, hforeign⟩ := hmismatch
      simp [hall event hmem] at hforeign
    . have hnone : events.filter (kept targetFilter) = [] := by simpa using hall
      rw [if_pos hnone, if_pos hnone]

def zoneTargets : TargetFilter := ⟨["10.0.0.1:9100"], []⟩

def eventOf (host : String) : Event := ⟨1700000000, some ⟨some host, none, none, none⟩, some "1"⟩

theorem foreign_events_processed
    : (filterEventsByPrometheusTargets [eventOf "10.0.0.1:9177", eventOf "10.0.0.2:9177"] zoneTargets).2 = true ∧
      queryOpenMeterMetrics zoneTargets processGenericMetrics false [eventOf "10.0.0.1:9177", eventOf "10.0.0.2:9177"]
          =
        .success 2 ∧
      ¬Isolated zoneTargets processGenericMetrics [eventOf "10.0.0.1:9177", eventOf "10.0.0.2:9177"] := by
  refine ⟨by decide +kernel, by decide +kernel, ?_⟩
  intro h
  have hsame := h (by decide +kernel) [eventOf "10.0.0.1:9177"] (by decide +kernel)
  revert hsame
  decide +kernel

end Targets

end Web.Metering
