import Mathlib.Data.Int.Basic
import Mathlib.Algebra.Group.Int.Defs

/-!
The resources that `InstanceAdmin.Create` and `MigrationAdmin.Create` ask the scheduler for (`routes/instance.go`,
`routes/migration.go`).
-/

namespace Web.Vm

open List

structure Size where
  cpu : Int32
  memory : Int32
  disk : Int32
  deriving DecidableEq

def Size.Accepted (size : Size) : Prop := 1 ≤ size.cpu.toInt ∧ 1 ≤ size.memory.toInt ∧ 1 ≤ size.disk.toInt

inductive InstanceStatus where
  | pending
  | running
  | paused
  | shutoff
  | migrating
  | other
  deriving DecidableEq

structure Instance where
  size : Size
  flavor : Option Size
  status : InstanceStatus
  hyper : Int32
  deriving DecidableEq

structure Amounts where
  cpu : Int
  memory : Int
  disk : Int
  network : Int
  deriving DecidableEq

inductive Target where
  | inter (hyper : Int)
  | select (hyperGroup : String)
  deriving DecidableEq

structure ExecutionCommand where
  inst : Instance
  target : Target
  rcNeeded : Option Amounts
  size : Size

def requestedSize (payload : Size) (flavor : Option Size) : Option Size :=
  match flavor with
  | none => if payload.cpu ≤ 0 ∨ payload.memory ≤ 0 ∨ payload.disk ≤ 0 then none else some payload
  | some flavor => some
    { cpu := if payload.cpu ≤ 0 then flavor.cpu else payload.cpu
      memory := if payload.memory ≤ 0 then flavor.memory else payload.memory
      disk := if payload.disk ≤ 0 then flavor.disk else payload.disk }

-- the product of the memory is one of 32 bits
def rcNeeded (size : Size) : Amounts where
  cpu := size.cpu.toInt
  memory := (size.memory * 1024).toInt
  disk := (size.disk.toInt64 * 1024 * 1024).toInt
  network := 0

def createInstances (count : Nat) (hyperID : Int) (hyperGroup : String) (size : Size) : List ExecutionCommand :=
  (range count).map (fun i =>
    { inst := ⟨size, none, .pending, -1⟩
      target := if i = 0 ∧ 0 ≤ hyperID then .inter hyperID else .select hyperGroup
      rcNeeded := some (rcNeeded size)
      size := size })

structure Found where
  sourceHyper : Bool
  metadata : Bool
  bootVolume : Bool
  hyperGroup : Option String
  executed : Bool

/--
The commands of `MigrationAdmin.Create`. A failure ends the loop, and with no qualified target it goes on
with the next instance.
-/
def createMigrations (tgtHyper : Int32) : List (Instance × Found) → List ExecutionCommand
  | [] => []
  | (inst, found) :: rest =>
    if inst.status ≠ .shutoff ∧ inst.status ≠ .running ∧ inst.status ≠ .paused then
      createMigrations tgtHyper rest
    else if !found.sourceHyper then
      []
    else if inst.hyper = tgtHyper then
      createMigrations tgtHyper rest
    else if !found.metadata || !found.bootVolume then
      []
    else if tgtHyper = -1 then
      match found.hyperGroup with
      | none => createMigrations tgtHyper rest
      | some hyperGroup =>
        { inst := inst
          target := .select hyperGroup
          rcNeeded := some (rcNeeded inst.size)
          size := inst.flavor.getD inst.size } :: if found.executed then createMigrations tgtHyper rest else []
    else
      { inst := inst
        target := .inter tgtHyper.toInt
        rcNeeded := none
        size := inst.flavor.getD inst.size } :: if found.executed then createMigrations tgtHyper rest else []

def ExecutionCommand.Matches (c : ExecutionCommand) : Prop :=
  ∀ rc ∈ c.rcNeeded, c.size = c.inst.size ∧
    rc = ⟨c.size.cpu.toInt, c.size.memory.toInt * 1024, c.size.disk.toInt * 1024 * 1024, 0⟩

theorem memory_toInt_iff {memory : Int32} (h : 1 ≤ memory.toInt)
    : (memory * 1024).toInt = memory.toInt * 1024 ↔ memory.toInt < 2 ^ 21 := by
  rw [Int32.toInt_mul, show (1024 : Int32).toInt = 1024 from rfl, Int.bmod_def]
  have := memory.toInt_lt
  split
  . omega
  . omega

theorem disk_toInt (disk : Int32) : (disk.toInt64 * 1024 * 1024).toInt = disk.toInt * 1024 * 1024 := by
  have := disk.toInt_lt
  have := disk.le_toInt
  rw [Int64.toInt_mul, Int64.toInt_mul, show (1024 : Int64).toInt = 1024 from rfl, Int32.toInt_toInt64,
    Int.bmod_eq_of_le (n := disk.toInt * 1024) (by omega) (by omega), Int.bmod_eq_of_le (by omega) (by omega)]

theorem rcNeeded_eq_iff {size : Size} (h : size.Accepted)
    : rcNeeded size = ⟨size.cpu.toInt, size.memory.toInt * 1024, size.disk.toInt * 1024 * 1024, 0⟩
        ↔
      size.memory.toInt < 2 ^ 21 := by
  simp only [rcNeeded, Amounts.mk.injEq, true_and, disk_toInt, and_true]
  exact memory_toInt_iff h.2.1

theorem matches_iff {c : ExecutionCommand} (h : c.inst.size.Accepted)
    (hneeded : c.rcNeeded = some (rcNeeded c.inst.size))
    : c.Matches ↔ c.size = c.inst.size ∧ c.inst.size.memory.toInt < 2 ^ 21 := by
  unfold ExecutionCommand.Matches
  rw [hneeded]
  simp only [Option.mem_def, Option.some.injEq, forall_eq']
  refine and_congr_right (fun hsize => ?_)
  rw [hsize]
  exact rcNeeded_eq_iff h

structure Sent (tgtHyper : Int32) (l : List (Instance × Found)) (c : ExecutionCommand) : Prop where
  mem : ∃ found, (c.inst, found) ∈ l
  size : c.size = c.inst.flavor.getD c.inst.size
  needed : c.rcNeeded = if tgtHyper = -1 then some (rcNeeded c.inst.size) else none

theorem Sent.cons (h : Sent tgtHyper l c) (p : Instance × Found) : Sent tgtHyper (p :: l) c :=
  have ⟨found, hmem⟩ := h.mem
  ⟨⟨found, mem_cons_of_mem _ hmem⟩, h.size, h.needed⟩

theorem createMigrations_sent : ∀ c ∈ createMigrations tgtHyper l, Sent tgtHyper l c := by
  induction l with
  | nil => simp [createMigrations]
  | cons p l ih =>
    have ⟨inst, found⟩ := p
    have hrest : ∀ c ∈ createMigrations tgtHyper l, Sent tgtHyper ((inst, found) :: l) c :=
      fun c hc => (ih c hc).cons _
    have hsend : ∀ c', Sent tgtHyper ((inst, found) :: l) c' →
        ∀ c ∈ c' :: if found.executed then createMigrations tgtHyper l else [],
          Sent tgtHyper ((inst, found) :: l) c := by
      intro c' hc'
      rw [forall_mem_cons]
      refine ⟨hc', ?_⟩
      split
      . exact hrest
      . simp
    have hmem : ∃ found', (inst, found') ∈ (inst, found) :: l := ⟨found, mem_cons_self⟩
    unfold createMigrations
    split
    . exact hrest
    . split
      . simp
      . split
        . exact hrest
        . split
          . simp
          . split
            . next hany =>
              split
              . exact hrest
              . exact hsend _ ⟨hmem, rfl, by rw [if_pos hany]⟩
            . next htarget => exact hsend _ ⟨hmem, rfl, by rw [if_neg htarget]⟩

theorem resources_match {size : Size} (hsize : size.Accepted) (count : Nat) (hyperID : Int) (hyperGroup : String)
    (tgtHyper : Int32) (haccepted : ∀ p ∈ l, p.1.size.Accepted)
    : (∀ c ∈ createInstances count hyperID hyperGroup size, (c.Matches ↔ size.memory.toInt < 2 ^ 21))
        ∧
      ∀ c ∈ createMigrations tgtHyper l,
        (c.Matches
          ↔
        tgtHyper ≠ -1 ∨
          (∀ flavor ∈ c.inst.flavor, flavor = c.inst.size) ∧ c.inst.size.memory.toInt < 2 ^ 21) := by
  constructor
  . intro c hc
    obtain ⟨i, _, rfl⟩ := mem_map.mp hc
    rw [matches_iff hsize rfl]
    simp
  . intro c hc
    have ⟨⟨found, hmem⟩, hsize, hneeded⟩ := createMigrations_sent c hc
    by_cases hany : tgtHyper = -1
    . rw [if_pos hany] at hneeded
      rw [matches_iff (haccepted _ hmem) hneeded, hsize]
      cases c.inst.flavor with
      | none => simp [hany]
      | some flavor => simp [hany]
    . rw [if_neg hany] at hneeded
      simp [ExecutionCommand.Matches, hneeded, hany]

def twoTerabytes : Size := ⟨1, 2097152, 1⟩

theorem resources_match_small
    : (∀ c ∈ createInstances 2 0 "group-zone-1" ⟨4, 8192, 100⟩, c.Matches) ∧
      ∀ c ∈ createMigrations (-1)
          [(⟨⟨4, 8192, 100⟩, none, .running, 2⟩, ⟨true, true, true, some "group-zone-1", true⟩)],
        c.Matches := by
  have haccepted : (⟨4, 8192, 100⟩ : Size).Accepted := by unfold Size.Accepted; decide
  constructor
  . intro c hc
    exact ((resources_match haccepted 2 0 _ (-1) (forall_mem_nil _)).1 c hc).mpr (by decide)
  . intro c hc
    refine ((resources_match haccepted 0 0 "" (-1) (by simpa using haccepted)).2 c hc).mpr (.inr ?_)
    cases mem_singleton.mp hc
    exact ⟨by simp, by decide⟩

theorem resources_do_not_match
    : requestedSize twoTerabytes none = some twoTerabytes ∧ twoTerabytes.Accepted ∧
      (createInstances 1 (-1) "group-zone-1" twoTerabytes).map (fun c => c.rcNeeded.map Amounts.memory)
        = [some (-2147483648)] ∧
      ∃ c ∈ createInstances 1 (-1) "group-zone-1" twoTerabytes, ¬c.Matches := by
  refine ⟨by decide, by unfold Size.Accepted; decide, by decide, _, mem_singleton_self _, ?_⟩
  intro h
  have := (h _ rfl).2
  revert this
  decide

end Web.Vm
