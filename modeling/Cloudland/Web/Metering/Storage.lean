import Mathlib.Data.List.Dedup
import Mathlib.Algebra.Order.BigOperators.Group.List
import Mathlib.Algebra.Order.Ring.Int
import Mathlib.Algebra.BigOperators.Group.List.Basic
import Mathlib.Algebra.Ring.Int.Defs
import Cloudland.Lib.CInt
import Cloudland.Web.Metering.Model

/-!
The total storage of `processBlockStorageMetrics`. The devices come in the order in which the map is gone through.
-/

namespace Web.Metering

open CInt List
open GoString (parseInt64)

def extractMemoryFromEvent (event : Event) : Option Int := event.value.bind parseInt64

def extractBlockStorageFromEvent (event : Event) : Option Int := extractMemoryFromEvent event

def extractTargetDeviceFromEvent (event : Event) : String := (event.labels.bind Labels.targetDevice).getD ""

def deviceOf (event : Event) : String :=
  if extractTargetDeviceFromEvent event = "" then "unknown" else extractTargetDeviceFromEvent event

section

variable (events : List Event)

def deviceEvents (device : String) : List Event :=
  events.filter (fun event => deviceOf event = device)

def latestValue (device : String) : Option Int :=
  (deviceEvents events device).getLast?.bind extractBlockStorageFromEvent

def addStorage (total : Int) (device : String) : Int :=
  match latestValue events device with
  | some storageBytes => wrap64 (total + storageBytes)
  | none => total

def totalStorageBytes (order : List String) (events : List Event) : Int := order.foldl (addStorage events) 0

def devices : List String := (events.map deviceOf).dedup

def Latest (device : String) (bytes : Int) : Prop :=
  (∃ event ∈ deviceEvents events device, extractBlockStorageFromEvent event = some bytes ∧
    ∀ event' ∈ deviceEvents events device, (extractBlockStorageFromEvent event').isSome → event'.time ≤ event.time) ∨
  bytes = 0 ∧ ∀ event ∈ deviceEvents events device, extractBlockStorageFromEvent event = none

def TotalsLatest : Prop :=
  ∃ latest : String → Int, (∀ device ∈ devices events, Latest events device (latest device)) ∧
    ∀ order, order.Perm (devices events) → totalStorageBytes order events = ((devices events).map latest).sum

-- what the last event of the group adds
def lastBytes (device : String) : Int := (latestValue events device).getD 0

def LastIsLatest : Prop :=
  (∀ device ∈ devices events, Latest events device (lastBytes events device)) ∧
    IsInt64 ((devices events).map (lastBytes events)).sum

-- as `ORDER BY time ASC` gives them
def Chronological : Prop :=
  events.Pairwise (fun event event' => deviceOf event = deviceOf event' → event.time < event'.time)

end

variable {events : List Event} {event : Event}

theorem mem_deviceEvents : event ∈ deviceEvents events device ↔ event ∈ events ∧ deviceOf event = device := by
  simp [deviceEvents]

theorem mem_devices : device ∈ devices events ↔ ∃ event ∈ events, deviceOf event = device := by
  simp [devices]

theorem foldl_addStorage (order : List String) (h : wrap64 total = total)
    : order.foldl (addStorage events) total
        =
      wrap64 (total + (order.map (lastBytes events)).sum) := by
  induction order generalizing total with
  | nil => simp [h]
  | cons device order ih =>
    rw [foldl_cons, map_cons, sum_cons, addStorage]
    split
    . next n hn => rw [ih (wrap64_wrap64 _), wrap64_add_left, lastBytes, hn, Int.add_assoc, Option.getD_some]
    . next hn => simpa [lastBytes, hn] using ih h

theorem totalStorageBytes_eq (order : List String) (events : List Event)
    : totalStorageBytes order events = wrap64 (order.map (lastBytes events)).sum := by
  rw [totalStorageBytes, foldl_addStorage order rfl, Int.zero_add]

theorem totalStorageBytes_perm (h : order.Perm (devices events))
    : totalStorageBytes order events = wrap64 ((devices events).map (lastBytes events)).sum := by
  rw [totalStorageBytes, foldl_addStorage order rfl, Int.zero_add, (h.map _).sum_eq]

theorem lastBytes_nonneg (hpos : ∀ event ∈ events, ∀ n, extractBlockStorageFromEvent event = some n → 0 ≤ n)
    : 0 ≤ lastBytes events device := by
  unfold lastBytes
  cases h : latestValue events device with
  | none => exact le_rfl
  | some n =>
    obtain ⟨event, hlast, hvalue⟩ := Option.bind_eq_some_iff.mp h
    exact hpos event (mem_deviceEvents.mp (mem_of_getLast? hlast)).1 n hvalue

-- the last event of a device gives the latest value, or it cannot be read and gives nothing
theorem lastBytes_le (hsorted : Chronological events)
    (hpos : ∀ event ∈ events, ∀ n, extractBlockStorageFromEvent event = some n → 0 ≤ n)
    (hlatest : Latest events device bytes)
    : lastBytes events device ≤ bytes := by
  obtain ⟨event, hevent, hvalue, hmax⟩ | ⟨rfl, hnone⟩ := hlatest
  . have ⟨front, last, hgroup⟩ := (eq_nil_or_concat' (deviceEvents events device)).resolve_left (ne_nil_of_mem hevent)
    have hvalueOf : lastBytes events device = (extractBlockStorageFromEvent last).getD 0 := by
      simp [lastBytes, latestValue, hgroup]
    rw [hvalueOf]
    cases hread : extractBlockStorageFromEvent last with
    | none => exact hpos event (mem_deviceEvents.mp hevent).1 _ hvalue
    | some n =>
      have hlast : last ∈ deviceEvents events device := by simp [hgroup]
      have hle := hmax last hlast (by rw [hread]; rfl)
      have hpairs := hsorted.sublist (filter_sublist (p := fun event => decide (deviceOf event = device)))
      change (deviceEvents events device).Pairwise _ at hpairs
      rw [hgroup, pairwise_append] at hpairs
      rw [hgroup, mem_append, mem_singleton] at hevent
      obtain hfront | rfl := hevent
      . have hlt := hpairs.2.2 event hfront last (by simp)
          (((mem_deviceEvents.mp (hgroup ▸ mem_append_left _ hfront)).2).trans (mem_deviceEvents.mp hlast).2.symm)
        omega
      . rw [hvalue, Option.some.injEq] at hread
        rw [hread]
        exact le_rfl
  . rw [lastBytes, latestValue]
    cases hlast : (deviceEvents events device).getLast? with
    | none => exact le_rfl
    | some last => simp [hnone last (mem_of_getLast? hlast)]

def disk (time : Int) (bytes : String) : Event := ⟨time, some ⟨none, none, none, some "vda"⟩, some bytes⟩

end Web.Metering
