import Cloudland.Lib.CInt
import Cloudland.Lib.CString
import Cloudland.Lib.OrdMap
import Cloudland.Lib.Rounding

/-!
The resources that a scheduler filter keeps of its children (`filter/rcmanager.cpp`).
-/

open CInt (wrap wrap64 wrap64_eq_iff)
open Std (ExtTreeMap)

/--
The operations of `double` round to 53 significant bits.
-/
def double (x : ℚ) : ℚ := Rounding.round 52 x

structure Resource where
  cpu : Int
  total_cpu : Int
  memory : Int
  total_memory : Int
  disk : Int
  total_disk : Int
  network : Int
  total_network : Int
  load : Int
  total_load : Int
deriving DecidableEq

structure Demand where
  cpu : Int
  memory : Int
  disk : Int
  network : Int
deriving DecidableEq

namespace Resource

def zero : Resource := ⟨0, 0, 0, 0, 0, 0, 0, 0, 0, 0⟩

def add (total resc : Resource) : Resource where
  cpu := wrap64 (total.cpu + resc.cpu)
  total_cpu := wrap64 (total.total_cpu + resc.total_cpu)
  memory := wrap64 (total.memory + resc.memory)
  total_memory := wrap64 (total.total_memory + resc.total_memory)
  disk := wrap64 (total.disk + resc.disk)
  total_disk := wrap64 (total.total_disk + resc.total_disk)
  network := wrap64 (total.network + resc.network)
  total_network := wrap64 (total.total_network + resc.total_network)
  load := wrap64 (total.load + resc.load)
  total_load := wrap64 (total.total_load + resc.total_load)

def room (need available : Int) : ℚ := double (1 - double (double need / double (wrap64 (available + 1))))

def testResource (resc : Resource) (need : Demand) : ℚ :=
  if resc.cpu < 0 ∨ resc.memory < 0 ∨ resc.disk < 0 then
    0
  else
    let current := room need.cpu resc.cpu
    if current ≤ 0 then
      current
    else
      let current := double (current * room need.memory resc.memory)
      if current ≤ 0 then current else double (current * room need.disk resc.disk)

def Covers (resc : Resource) (need : Demand) : Prop :=
  need.cpu ≤ resc.cpu ∧ need.memory ≤ resc.memory ∧ need.disk ≤ resc.disk

def Small (resc : Resource) : Prop := resc.cpu < 2 ^ 53 ∧ resc.memory < 2 ^ 53 ∧ resc.disk < 2 ^ 53

instance (resc : Resource) (need : Demand) : Decidable (resc.Covers need) :=
  inferInstanceAs (Decidable (_ ∧ _))

instance (resc : Resource) : Decidable resc.Small := inferInstanceAs (Decidable (_ ∧ _))

theorem double_pos_iff : 0 < double x ↔ 0 < x := Rounding.round_pos_iff

theorem le_of_room_pos (havailable : 0 ≤ available) (hneed : need < 2 ^ 63) (h : 0 < room need available)
    : need ≤ available := by
  by_contra hlt
  have hle : available + 1 ≤ need := Int.not_le.mp hlt
  have hpos : (0 : ℚ) < ((available + 1 : Int) : ℚ) := by exact_mod_cast (show (0 : Int) < available + 1 by omega)
  have hround : double ((available + 1 : Int) : ℚ) ≤ double need :=
    Rounding.round_mono hpos (by exact_mod_cast hle)
  have hratio : 1 ≤ double need / double ((available + 1 : Int) : ℚ) := by
    rw [le_div_iff₀ (double_pos_iff.mpr hpos), one_mul]
    exact hround
  have hone : 1 ≤ double (double need / double ((available + 1 : Int) : ℚ)) := Rounding.one_le_round hratio
  rw [room, wrap64_eq_iff.mpr (by constructor <;> omega), double_pos_iff] at h
  linarith

theorem room_pos (hneed : 0 ≤ need) (hle : need ≤ available) (hsmall : available < 2 ^ 53)
    : 0 < room need available := by
  have hexact : ∀ n : Int, 0 ≤ n → n ≤ 2 ^ 53 → double (n : ℚ) = n := by
    intro n hn hn'
    have hcast : ((n.toNat : ℕ) : ℚ) = n := by exact_mod_cast Int.toNat_of_nonneg hn
    have hround := @Rounding.round_natCast 52 n.toNat (by omega)
    rw [hcast] at hround
    exact hround
  rw [room, wrap64_eq_iff.mpr (by constructor <;> omega), hexact need hneed (by omega),
    hexact (available + 1) (by omega) (by omega), double_pos_iff]
  have hpos : (0 : ℚ) < ((available + 1 : Int) : ℚ) := by exact_mod_cast (show (0 : Int) < available + 1 by omega)
  have hlast : ((available + 1 : Int) : ℚ) ≤ 2 ^ 53 := by exact_mod_cast (show available + 1 ≤ 2 ^ 53 by omega)
  have hratio : (need : ℚ) / ((available + 1 : Int) : ℚ) ≤ 1 - 1 / 2 ^ (52 + 1) := by
    have hinv := one_div_le_one_div_of_le hpos hlast
    have hneed' : (need : ℚ) ≤ ((available + 1 : Int) : ℚ) - 1 := by
      push_cast
      have : (need : ℚ) ≤ available := by exact_mod_cast hle
      linarith
    calc (need : ℚ) / ((available + 1 : Int) : ℚ)
        ≤ (((available + 1 : Int) : ℚ) - 1) / ((available + 1 : Int) : ℚ) :=
          div_le_div_of_nonneg_right hneed' hpos.le
      _ = 1 - 1 / ((available + 1 : Int) : ℚ) := by rw [sub_div, div_self hpos.ne']
      _ ≤ 1 - 1 / 2 ^ (52 + 1) := by linarith
  have hlt : double ((need : ℚ) / ((available + 1 : Int) : ℚ)) < 1 := Rounding.round_lt_one hratio
  linarith

section Resource

variable {resc : Resource} {need : Demand}

theorem testResource_pos_iff
    : 0 < resc.testResource need
        ↔
      (0 ≤ resc.cpu ∧ 0 ≤ resc.memory ∧ 0 ≤ resc.disk) ∧ 0 < room need.cpu resc.cpu ∧
        0 < room need.memory resc.memory ∧ 0 < room need.disk resc.disk := by
  unfold testResource
  split
  . next hneg =>
    simp only [lt_self_iff_false, false_iff]
    omega
  . next hneg =>
    have hnonneg : 0 ≤ resc.cpu ∧ 0 ≤ resc.memory ∧ 0 ≤ resc.disk := by omega
    dsimp only
    split
    . next hcpu => simp [hcpu.not_gt]
    . next hcpu =>
      have hcpu := not_le.mp hcpu
      have hmemory : 0 < double (room need.cpu resc.cpu * room need.memory resc.memory)
          ↔ 0 < room need.memory resc.memory := by
        rw [double_pos_iff, mul_pos_iff_of_pos_left hcpu]
      split
      . next hle =>
        rw [← not_lt, hmemory] at hle
        rw [hmemory]
        simp [hle]
      . next hlt =>
        rw [← not_lt, not_not] at hlt
        rw [double_pos_iff, mul_pos_iff_of_pos_left hlt]
        simp [hnonneg, hcpu, hmemory.mp hlt]

theorem covers_of_testResource_pos
    (hneed : need.cpu < 2 ^ 63 ∧ need.memory < 2 ^ 63 ∧ need.disk < 2 ^ 63) (h : 0 < resc.testResource need)
    : resc.Covers need := by
  have ⟨⟨hcpu, hmemory, hdisk⟩, hcpu', hmemory', hdisk'⟩ := testResource_pos_iff.mp h
  exact ⟨le_of_room_pos hcpu hneed.1 hcpu', le_of_room_pos hmemory hneed.2.1 hmemory',
    le_of_room_pos hdisk hneed.2.2 hdisk'⟩

theorem testResource_pos
    (hneed : 0 ≤ need.cpu ∧ 0 ≤ need.memory ∧ 0 ≤ need.disk) (hcovers : resc.Covers need) (hsmall : resc.Small)
    : 0 < resc.testResource need := by
  have ⟨hcpu, hmemory, hdisk⟩ := hcovers
  refine testResource_pos_iff.mpr ⟨by omega, ?_⟩
  exact ⟨room_pos hneed.1 hcpu hsmall.1, room_pos hneed.2.1 hmemory hsmall.2.1,
    room_pos hneed.2.2 hdisk hsmall.2.2⟩

end Resource

end Resource

structure ResourceManager where
  rcMap : ExtTreeMap Int Resource compare
  totalRC : Resource
  updated : Bool
  -- the counter of `getBestBranch`, which is static
  count : Nat

namespace ResourceManager

def new : ResourceManager := ⟨∅, .zero, false, 0⟩

def totalResource (rm : ResourceManager) : ResourceManager :=
  { rm with totalRC := rm.rcMap.foldl (fun total _ resc => total.add resc) .zero }

def setAvailibility (rm : ResourceManager) (id : Int) (resc : Resource) : ResourceManager :=
  { { rm with rcMap := rm.rcMap.insert id resc }.totalResource with updated := true }

def search (rm : ResourceManager) (need : Demand) (recovery : List Int) : List Int → Nat × Int
  | [] => (0, -1)
  | child :: children =>
    let skip := search rm need recovery children
    match rm.rcMap[child]? with
    | none => (skip.1 + 1, skip.2)
    | some resc =>
      if child ∈ recovery then
        (skip.1 + 1, skip.2)
      else if 0 < resc.testResource need then
        (0, child)
      else
        skip

def getBestBranch (rm : ResourceManager) (need : Demand) (children recovery : List Int)
    : ResourceManager × Int :=
  if children = [] then
    (rm, -1)
  else
    let res := rm.search need recovery (children.rotate (rm.count % children.length))
    ({ rm with count := rm.count + 1 + res.1 }, res.2)

variable {rm : ResourceManager} {need : Demand} {children recovery : List Int}

def Usable (rm : ResourceManager) (need : Demand) (recovery : List Int) (child : Int) : Prop :=
  child ∉ recovery ∧ ∃ resc, rm.rcMap[child]? = some resc ∧ 0 < resc.testResource need

theorem search_spec
    : ((rm.search need recovery children).2 ∈ children ∧
        rm.Usable need recovery (rm.search need recovery children).2)
        ∨
      ((rm.search need recovery children).2 = -1 ∧ ∀ child ∈ children, ¬rm.Usable need recovery child) := by
  induction children with
  | nil => exact .inr ⟨rfl, by simp⟩
  | cons child children ih =>
    have hskip : ¬rm.Usable need recovery child →
        ((rm.search need recovery children).2 ∈ child :: children ∧
          rm.Usable need recovery (rm.search need recovery children).2)
          ∨
        ((rm.search need recovery children).2 = -1 ∧
          ∀ c ∈ child :: children, ¬rm.Usable need recovery c) := by
      intro hnot
      refine ih.imp (fun h => ⟨List.mem_cons_of_mem _ h.1, h.2⟩) (fun h => ⟨h.1, ?_⟩)
      exact List.forall_mem_cons.mpr ⟨hnot, h.2⟩
    rw [search]
    split
    . next hnone => exact hskip (by simp [Usable, hnone])
    . next resc hresc =>
      split
      . next hrecovery => exact hskip (by simp [Usable, hrecovery])
      . next hrecovery =>
        split
        . next hpos => exact .inl ⟨List.mem_cons_self, hrecovery, resc, hresc, hpos⟩
        . next hpos => exact hskip (by simp [Usable, hresc, hpos])

theorem getBestBranch_spec
    : ((rm.getBestBranch need children recovery).2 ∈ children ∧
        rm.Usable need recovery (rm.getBestBranch need children recovery).2)
        ∨
      ((rm.getBestBranch need children recovery).2 = -1 ∧
        ∀ child ∈ children, ¬rm.Usable need recovery child) := by
  unfold getBestBranch
  split
  . next hnil => simp [hnil]
  . simpa using @search_spec rm need (children.rotate (rm.count % children.length)) recovery

@[simp]
theorem rcMap_getBestBranch : (rm.getBestBranch need children recovery).1.rcMap = rm.rcMap := by
  unfold getBestBranch
  split <;> rfl

def getTotalMsg (rm : ResourceManager) : CString :=
  let t := rm.totalRC
  CString.ofString "report_rc.sh 'cpu=" ++ CString.decimal (wrap t.cpu) ++ CString.ofString "/"
    ++ CString.decimal (wrap t.total_cpu) ++ CString.ofString "' 'memory=" ++ CString.decimal t.memory
    ++ CString.ofString "/" ++ CString.decimal t.total_memory ++ CString.ofString "' 'disk="
    ++ CString.decimal t.disk ++ CString.ofString "/" ++ CString.decimal t.total_disk
    ++ CString.ofString "' 'network=" ++ CString.decimal (wrap t.network) ++ CString.ofString "/"
    ++ CString.decimal (wrap t.total_network) ++ CString.ofString "' 'load="
    ++ CString.decimal (wrap t.load) ++ CString.ofString "/" ++ CString.decimal (wrap t.total_load)
    ++ CString.ofString "'\n"

end ResourceManager
