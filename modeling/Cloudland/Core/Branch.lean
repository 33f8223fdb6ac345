import Cloudland.Core.ResourceManager
import Cloudland.Lib.CInt

/-!
`getBestBranch` (`filter/rcmanager.cpp`) with its static counter as the `int` that it is, over exact fractions.
-/

open CInt
open Std (ExtTreeMap)

namespace Branch

open List Option

structure Call where
  rcMap : ExtTreeMap Int Resource compare
  need : Demand
  children : List Int
  recovery : List Int

-- in exact numbers what `Resource.room` computes in `long` and `double`
def room (need available : Int) : ℚ := 1 - need / ((available : ℚ) + 1)

def testResource (resc : Resource) (need : Demand) : ℚ :=
  if resc.cpu < 0 ∨ resc.memory < 0 ∨ resc.disk < 0 then
    0
  else
    let current := room need.cpu resc.cpu
    if current ≤ 0 then
      current
    else
      let current := current * room need.memory resc.memory
      if current ≤ 0 then current else current * room need.disk resc.disk

namespace Call

def num (call : Call) : Int := call.children.length

def childAt (call : Call) (idx : Int) : Option Int := if 0 ≤ idx then call.children[idx.toNat]? else none

/--
The loop of `getBestBranch`, with the number of rounds it has left. It gives the counter and `bestID`, or nothing if
it reads outside of the array.
-/
def search (call : Call) : Nat → Int → Int → Option (Int × Int)
  | 0, _, count => some (count, -1)
  | rounds + 1, i, count => do
    let child ← call.childAt (i.tmod call.num)
    match call.rcMap[child]? with
    | none => call.search rounds (i + 1) (wrap (count + 1))
    | some resc =>
      if child ∈ call.recovery then
        call.search rounds (i + 1) (wrap (count + 1))
      else if 0 < testResource resc call.need then
        some (count, child)
      else
        call.search rounds (i + 1) count

def getBestBranch (call : Call) (count : Int) : Option (Int × Int) :=
  if call.children = [] then
    some (count, -1)
  else
    let fastID := count.tmod call.num
    call.search (wrap (call.num + fastID) - fastID).toNat fastID (wrap (count + 1))

def Fit (call : Call) (child : Int) : Prop :=
  child ∉ call.recovery ∧
    ∃ resc, call.rcMap[child]? = some resc ∧ (0 ≤ resc.cpu ∧ 0 ≤ resc.memory ∧ 0 ≤ resc.disk) ∧
      resc.Covers call.need

def Right (call : Call) (bestID : Int) : Prop :=
  (bestID ∈ call.children ∧ call.Fit bestID) ∨ (bestID = -1 ∧ ∀ child ∈ call.children, ¬call.Fit child)

def Selects (call : Call) (count : Int) : Prop :=
  ∃ count' bestID, call.getBestBranch count = some (count', bestID) ∧ call.Right bestID

end Call

def counter (calls : List Call) : Option Int :=
  calls.foldlM (fun count call => (call.getBestBranch count).map Prod.fst) 0

theorem room_pos_iff {need available : Int} (h : 0 ≤ available) : 0 < room need available ↔ need ≤ available := by
  have hpos : (0 : ℚ) < (available : ℚ) + 1 := by
    have : (0 : ℚ) ≤ available := by exact_mod_cast h
    linarith
  rw [room, sub_pos, div_lt_one hpos, ← Int.lt_add_one_iff]
  exact_mod_cast Iff.rfl

theorem room_pos_iff_double {need available : Int} (hneed : 0 ≤ need) (hlong : need < 2 ^ 63) (h : 0 ≤ available)
    (hsmall : available < 2 ^ 53)
    : 0 < room need available ↔ 0 < Resource.room need available := by
  rw [room_pos_iff h]
  exact ⟨fun hle => Resource.room_pos hneed hle hsmall, Resource.le_of_room_pos h hlong⟩

theorem testResource_pos_iff
    : 0 < testResource resc need ↔ (0 ≤ resc.cpu ∧ 0 ≤ resc.memory ∧ 0 ≤ resc.disk) ∧ resc.Covers need := by
  unfold testResource
  split
  . next hneg =>
    simp only [lt_self_iff_false, false_iff]
    omega
  . next hneg =>
    have hnonneg : 0 ≤ resc.cpu ∧ 0 ≤ resc.memory ∧ 0 ≤ resc.disk := by omega
    rw [Resource.Covers, ← @room_pos_iff need.cpu _ hnonneg.1, ← @room_pos_iff need.memory _ hnonneg.2.1,
      ← @room_pos_iff need.disk _ hnonneg.2.2]
    dsimp only
    split
    . next hcpu => simp [hcpu.not_gt]
    . next hcpu =>
      have hcpu := not_le.mp hcpu
      split
      . next hle =>
        rw [← not_lt, mul_pos_iff_of_pos_left hcpu] at hle
        rw [mul_pos_iff_of_pos_left hcpu]
        simp [hle]
      . next hlt =>
        have hlt := not_le.mp hlt
        rw [mul_pos_iff_of_pos_left hlt]
        simp [hnonneg, hcpu, (mul_pos_iff_of_pos_left hcpu).mp hlt]

namespace Call

variable {call : Call}

theorem num_pos (h : call.children ≠ []) : 0 < call.num := by
  have := length_pos_iff.mpr h
  unfold num
  omega

theorem childAt_tmod {i : Int} (h : call.children ≠ []) (hi : 0 ≤ i)
    : ∃ child ∈ call.children, call.childAt (i.tmod call.num) = some child := by
  have hpos := num_pos h
  have hlt := Int.tmod_lt_of_pos i hpos
  have hnonneg : 0 ≤ i.tmod call.num := Int.tmod_nonneg _ hi
  have hbound : (i.tmod call.num).toNat < call.children.length := by
    unfold num at hlt hnonneg ⊢
    omega
  refine ⟨call.children[(i.tmod call.num).toNat], getElem_mem hbound, ?_⟩
  rw [childAt, if_pos hnonneg, getElem?_eq_getElem hbound]

theorem search_succ {rounds : Nat} {i count child : Int} (hchild : call.childAt (i.tmod call.num) = some child)
    : (call.Fit child ∧ call.search (rounds + 1) i count = some (count, child))
        ∨
      (¬call.Fit child ∧ ∃ count', call.search (rounds + 1) i count = call.search rounds (i + 1) count') := by
  rw [search, hchild, bind_eq_bind, bind_some]
  split
  . next hnone => exact .inr ⟨by simp [Fit, hnone], _, rfl⟩
  . next resc hresc =>
    split
    . next hrecovery => exact .inr ⟨by simp [Fit, hrecovery], _, rfl⟩
    . next hrecovery =>
      split
      . next hpos => exact .inl ⟨⟨hrecovery, resc, hresc, testResource_pos_iff.mp hpos⟩, rfl⟩
      . next hpos =>
        rw [testResource_pos_iff] at hpos
        exact .inr ⟨by simpa [Fit, hrecovery, hresc] using hpos, count, rfl⟩

theorem search_spec {rounds : Nat} {i count : Int} (h : call.children ≠ []) (hi : 0 ≤ i)
    : ∃ count' bestID, call.search rounds i count = some (count', bestID) ∧
        ((bestID ∈ call.children ∧ call.Fit bestID) ∨
          (bestID = -1 ∧
            ∀ j : Nat, j < rounds → ∀ child, call.childAt ((i + j).tmod call.num) = some child → ¬call.Fit child)) := by
  induction rounds generalizing i count with
  | zero => exact ⟨count, -1, rfl, .inr ⟨rfl, fun j hj => absurd hj (Nat.not_lt_zero j)⟩⟩
  | succ rounds ih =>
    have ⟨child, hmem, hchild⟩ := childAt_tmod h hi
    obtain hfit | ⟨hnot, count', hsearch⟩ := search_succ hchild
    . exact ⟨count, child, hfit.2, .inl ⟨hmem, hfit.1⟩⟩
    . have ⟨last, bestID, hlast, hcases⟩ := @ih (i + 1) count' (by omega)
      refine ⟨last, bestID, hsearch.trans hlast, hcases.imp_right (fun hnone => ⟨hnone.1, ?_⟩)⟩
      intro j hj other hother
      cases j with
      | zero =>
        rw [Int.natCast_zero, Int.add_zero, hchild, some.injEq] at hother
        exact hother ▸ hnot
      | succ j =>
        refine hnone.2 j (by omega) other ?_
        rwa [Int.natCast_succ, Int.add_left_comm, Int.add_comm] at hother

theorem childAt_cover {i child : Int} (hi : 0 ≤ i) (hchild : child ∈ call.children)
    : ∃ j : Nat, j < call.children.length ∧ call.childAt ((i + j).tmod call.num) = some child := by
  have ⟨p, hp, hget⟩ := getElem_of_mem hchild
  have hpos := num_pos (ne_nil_of_mem hchild)
  have hnonneg := Int.emod_nonneg (p - i) hpos.ne'
  have hlt := Int.emod_lt_of_pos (p - i) hpos
  have hposition : (i + (p - i) % call.num).tmod call.num = p := by
    rw [Int.tmod_eq_emod_of_nonneg (by omega), Int.add_emod_emod, show i + ((p : Int) - i) = p by omega]
    exact Int.emod_eq_of_lt (by omega) (by unfold num; omega)
  refine ⟨((p - i) % call.num).toNat, by unfold num at hlt hnonneg ⊢; omega, ?_⟩
  rw [Int.toNat_of_nonneg hnonneg, hposition, childAt, if_pos (by omega), Int.toNat_natCast,
    getElem?_eq_getElem hp, hget]

section Int

variable {count : Int}

theorem fastID_nonneg_iff : 0 ≤ count.tmod call.num ↔ 0 ≤ count ∨ call.num ∣ count := by
  rw [Int.dvd_iff_tmod_eq_zero]
  constructor
  . intro hnonneg
    by_contra hnot
    have ⟨hneg, hne⟩ := not_or.mp hnot
    have hopposite : (-count).tmod call.num = -count.tmod call.num := Int.neg_tmod _ _
    have := Int.tmod_nonneg call.num (show 0 ≤ -count by omega)
    omega
  . intro hcases
    obtain hcount | hzero := hcases
    . exact Int.tmod_nonneg _ hcount
    . omega

variable (h : call.children ≠ [])

include h

theorem getBestBranch_of_neg (hnum : call.num < 2 ^ 31) (hneg : count.tmod call.num < 0)
    : call.getBestBranch count = none := by
  have hpos := num_pos h
  have hlt := Int.lt_tmod_of_pos count hpos
  have hwrap : wrap (call.num + count.tmod call.num) = call.num + count.tmod call.num :=
    wrap_eq_iff.mpr ⟨by omega, by omega⟩
  have ⟨rounds, hrounds⟩ : ∃ rounds, (call.num + count.tmod call.num - count.tmod call.num).toNat = rounds + 1 :=
    ⟨_, (Nat.succ_pred_eq_of_pos (by omega)).symm⟩
  have hsame : (count.tmod call.num).tmod call.num = count.tmod call.num := Int.tmod_tmod _ _
  rw [getBestBranch, if_neg h]
  dsimp only
  rw [hwrap, hrounds, search, hsame, childAt, if_neg (by omega)]
  rfl

theorem getBestBranch_of_nonneg (hnonneg : 0 ≤ count.tmod call.num)
    (hbound : call.num + count.tmod call.num < 2 ^ 31)
    : call.Selects count := by
  have hpos := num_pos h
  have hwrap :=
    wrap_eq_iff.mpr ⟨by omega, hbound⟩
  have hrounds : (call.num + count.tmod call.num - count.tmod call.num).toNat = call.children.length := by
    unfold num
    omega
  have ⟨count', bestID, hsearch, hcases⟩ :=
    @search_spec call call.children.length (count.tmod call.num) (wrap (count + 1)) h hnonneg
  refine ⟨count', bestID, ?_, hcases.imp_right (fun hnone => ⟨hnone.1, ?_⟩)⟩
  . rw [getBestBranch, if_neg h]
    dsimp only
    rw [hwrap, hrounds, hsearch]
  . intro child hchild
    have ⟨j, hj, hget⟩ := childAt_cover hnonneg hchild
    exact hnone.2 j hj child hget

theorem getBestBranch_of_overflow (hnum : call.num < 2 ^ 31) (hbound : 2 ^ 31 ≤ call.num + count.tmod call.num)
    : call.getBestBranch count = some (wrap (count + 1), -1) := by
  have hlt := Int.tmod_lt_of_pos count (num_pos h)
  have hwrap : wrap (call.num + count.tmod call.num) < 0 := by
    unfold wrap
    rw [Int.bmod_def]
    split
    . omega
    . omega
  have hrounds : (wrap (call.num + count.tmod call.num) - count.tmod call.num).toNat = 0 := by omega
  rw [getBestBranch, if_neg h]
  dsimp only
  rw [hrounds, search]

end Int

end Call

theorem selects_iff {call : Call} (count : Int) (h : call.children ≠ []) (hnum : call.num < 2 ^ 31)
    : call.Selects count
        ↔
      (0 ≤ count ∨ call.num ∣ count) ∧ (call.num + count.tmod call.num < 2 ^ 31 ∨ call.Right (-1)) := by
  have hoverflow := @Call.getBestBranch_of_overflow call count h hnum
  rw [← Call.fastID_nonneg_iff]
  constructor
  . intro ⟨count', bestID, hbest, hright⟩
    have hnonneg : 0 ≤ count.tmod call.num := by
      by_contra hneg
      rw [Call.getBestBranch_of_neg h hnum (Int.not_le.mp hneg)] at hbest
      simp at hbest
    refine ⟨hnonneg, or_iff_not_imp_left.mpr ?_⟩
    intro hbound
    rw [hoverflow (not_lt.mp hbound), some.injEq, Prod.mk.injEq] at hbest
    rw [hbest.2]
    exact hright
  . intro ⟨hnonneg, hcases⟩
    by_cases hbound : call.num + count.tmod call.num < 2 ^ 31
    . exact Call.getBestBranch_of_nonneg h hnonneg hbound
    . exact ⟨_, _, hoverflow (not_lt.mp hbound), hcases.resolve_left hbound⟩

def threeIdle : Call where
  rcMap := ((∅ : ExtTreeMap Int Resource compare).insert 0 .zero |>.insert 1 .zero).insert 2 .zero
  need := ⟨0, 0, 0, 0⟩
  children := [0, 1, 2]
  recovery := []

theorem threeIdle_fit : ∀ child ∈ threeIdle.children, threeIdle.Fit child := by
  intro child hchild
  have hresc : threeIdle.rcMap[child]? = some .zero := by
    fin_cases hchild <;> simp [threeIdle, ExtTreeMap.getElem_insert]
  exact ⟨by simp [threeIdle], .zero, hresc, by decide, by decide⟩

theorem selects_first : threeIdle.Selects 0 :=
  (selects_iff 0 (by decide) (by decide)).mpr ⟨.inl (by decide), .inl (by decide)⟩

theorem getBestBranch_of_fit {call : Call} {count : Int} (h : call.children ≠ [])
    (hfit : ∀ child ∈ call.children, call.Fit child) (hcount : 0 ≤ count)
    (hbound : call.num + count.tmod call.num < 2 ^ 31)
    : (call.getBestBranch count).map Prod.fst = some (wrap (count + 1)) := by
  have hpos := Call.num_pos h
  have hnonneg : 0 ≤ count.tmod call.num := Int.tmod_nonneg _ hcount
  have hwrap : wrap (call.num + count.tmod call.num) = call.num + count.tmod call.num :=
    wrap_eq_iff.mpr ⟨by omega, hbound⟩
  have ⟨rounds, hrounds⟩ : ∃ rounds, (call.num + count.tmod call.num - count.tmod call.num).toNat = rounds + 1 :=
    ⟨_, (Nat.succ_pred_eq_of_pos (by omega)).symm⟩
  have ⟨child, hmem, hchild⟩ := Call.childAt_tmod h hnonneg
  rw [Call.getBestBranch, if_neg h]
  dsimp only
  rw [hwrap, hrounds]
  obtain hfirst | hskip := @Call.search_succ call rounds (count.tmod call.num) (wrap (count + 1)) child hchild
  . rw [hfirst.2]
    rfl
  . exact absurd (hfit child hmem) hskip.1

theorem counter_replicate {call : Call} (h : call.children ≠ []) (hfit : ∀ child ∈ call.children, call.Fit child)
    (hnum : call.num ≤ 2 ^ 30) (hk : k ≤ 2 ^ 31)
    : counter (replicate k call) = some (wrap k) := by
  induction k with
  | zero => rfl
  | succ k ih =>
    have hwrap : wrap k = k := wrap_eq_iff.mpr ⟨by omega, by omega⟩
    have hlt := Int.tmod_lt_of_pos k (Call.num_pos h)
    have hprev := ih (by omega)
    unfold counter at hprev ⊢
    rw [replicate_succ', foldlM_append, hprev, hwrap, bind_eq_bind, bind_some,
      foldlM_cons, getBestBranch_of_fit h hfit (by omega) (by omega)]
    rfl

theorem counter_wraps
    : ∃ count, counter (replicate (2 ^ 31) threeIdle) = some count ∧
        threeIdle.getBestBranch count = none ∧ ¬threeIdle.Selects count := by
  have hwrap : wrap ((2 ^ 31 : Nat) : Int) = -2 ^ 31 := by decide
  have hnone : threeIdle.getBestBranch (-2 ^ 31) = none :=
    Call.getBestBranch_of_neg (by decide) (by decide) (by decide)
  refine ⟨-2 ^ 31, ?_, hnone, ?_⟩
  . rw [← hwrap]
    exact counter_replicate (by decide) threeIdle_fit (by decide) (le_refl _)
  . intro ⟨count', bestID, hbest, _⟩
    rw [hnone] at hbest
    simp at hbest

end Branch
