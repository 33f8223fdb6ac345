import Mathlib.Data.Int.Log
import Mathlib.Data.Rat.Floor

/-!
Rationals rounded to a binary floating point format, to nearest, ties to even.
-/

namespace Rounding

def roundEven (x : ℚ) : ℤ :=
  if x - ⌊x⌋ < 1 / 2 then ⌊x⌋ else if 1 / 2 < x - ⌊x⌋ then ⌊x⌋ + 1 else ⌊x⌋ + ⌊x⌋ % 2

def ulp (bits : ℕ) (x : ℚ) : ℚ := 2 ^ (Int.log 2 x - bits)

def roundPos (bits : ℕ) (x : ℚ) : ℚ := roundEven (x / ulp bits x) * ulp bits x

def round (bits : ℕ) (x : ℚ) : ℚ := if x < 0 then -roundPos bits (-x) else roundPos bits x

variable {bits : ℕ} {x y : ℚ}

theorem floor_le_roundEven (x : ℚ) : ⌊x⌋ ≤ roundEven x := by
  unfold roundEven
  split
  . exact le_rfl
  . split
    . omega
    . omega

theorem roundEven_le_floor_add_one (x : ℚ) : roundEven x ≤ ⌊x⌋ + 1 := by
  unfold roundEven
  split
  . omega
  . split
    . exact le_rfl
    . omega

theorem roundEven_intCast (n : ℤ) : roundEven (n : ℚ) = n := by
  simp [roundEven]

theorem roundEven_mono (h : x ≤ y) : roundEven x ≤ roundEven y := by
  by_cases hfloor : ⌊x⌋ = ⌊y⌋
  . have hmod := Int.emod_nonneg ⌊y⌋ (show (2 : ℤ) ≠ 0 by decide)
    unfold roundEven
    rw [hfloor]
    split_ifs <;> first | omega | (exfalso; linarith)
  . have hle := Int.floor_le_floor h
    have hx := roundEven_le_floor_add_one x
    have hy := floor_le_roundEven y
    omega

theorem ulp_pos (bits : ℕ) (x : ℚ) : 0 < ulp bits x := by
  exact zpow_pos (by norm_num) _

theorem two_pow_mul_ulp (bits : ℕ) (x : ℚ) : 2 ^ bits * ulp bits x = 2 ^ Int.log 2 x := by
  rw [ulp, ← zpow_natCast, ← zpow_add₀ (by norm_num)]
  congr 1
  omega

theorem pow_log_le_roundPos (h : 0 < x) : 2 ^ Int.log 2 x ≤ roundPos bits x := by
  have hlog : (2 : ℚ) ^ Int.log 2 x ≤ x := by exact_mod_cast Int.zpow_log_le_self (by decide) h
  have hscaled : (2 ^ bits : ℚ) ≤ x / ulp bits x := by
    rw [le_div_iff₀ (ulp_pos bits x), two_pow_mul_ulp]
    exact hlog
  have hround : (2 ^ bits : ℤ) ≤ roundEven (x / ulp bits x) := by
    refine le_trans (Int.le_floor.mpr ?_) (floor_le_roundEven _)
    exact_mod_cast hscaled
  rw [roundPos, ← two_pow_mul_ulp bits x]
  exact mul_le_mul_of_nonneg_right (by exact_mod_cast hround) (ulp_pos bits x).le

theorem roundPos_le_pow_log (x : ℚ) : roundPos bits x ≤ 2 ^ (Int.log 2 x + 1) := by
  have hlog : x < (2 : ℚ) ^ (Int.log 2 x + 1) := by exact_mod_cast Int.lt_zpow_succ_log_self (by decide) x
  have hscaled : x / ulp bits x < (2 ^ (bits + 1) : ℤ) := by
    rw [div_lt_iff₀ (ulp_pos bits x)]
    push_cast
    rw [pow_succ', mul_assoc, two_pow_mul_ulp, ← zpow_one_add₀ (by norm_num), add_comm]
    exact hlog
  have hround :=
    le_trans (roundEven_le_floor_add_one _) (Int.add_one_le_of_lt (Int.floor_lt.mpr hscaled))
  have hpow : (2 : ℚ) ^ (Int.log 2 x + 1) = 2 ^ (bits + 1) * ulp bits x := by
    rw [pow_succ', mul_assoc, two_pow_mul_ulp, ← zpow_one_add₀ (by norm_num), add_comm]
  rw [roundPos, hpow]
  exact mul_le_mul_of_nonneg_right (by exact_mod_cast hround) (ulp_pos bits x).le

theorem roundPos_pos (h : 0 < x) : 0 < roundPos bits x :=
  lt_of_lt_of_le (zpow_pos (by norm_num) _) (pow_log_le_roundPos h)

theorem roundPos_mono (hx : 0 < x) (h : x ≤ y) : roundPos bits x ≤ roundPos bits y := by
  have hy := lt_of_lt_of_le hx h
  by_cases hlog : Int.log 2 x = Int.log 2 y
  . have hulp : ulp bits x = ulp bits y := by rw [ulp, ulp, hlog]
    rw [roundPos, roundPos, hulp]
    refine mul_le_mul_of_nonneg_right ?_ (ulp_pos bits y).le
    exact_mod_cast roundEven_mono (div_le_div_of_nonneg_right h (ulp_pos bits y).le)
  . -- the numbers are on different sides of a power of two
    have hlt := lt_of_le_of_ne (Int.log_mono_right hx h) hlog
    calc roundPos bits x
        ≤ 2 ^ (Int.log 2 x + 1) := roundPos_le_pow_log x
      _ ≤ 2 ^ Int.log 2 y := zpow_le_zpow_right₀ (by norm_num) hlt
      _ ≤ roundPos bits y := pow_log_le_roundPos hy

theorem roundPos_eq_self {m : ℤ} (h : x = m * ulp bits x) : roundPos bits x = x := by
  have hscaled : x / ulp bits x = m := by
    rw [div_eq_iff (ulp_pos bits x).ne']
    exact h
  rw [roundPos, hscaled, roundEven_intCast]
  exact h.symm

theorem roundPos_zero : roundPos bits 0 = 0 := by
  simp [roundPos, roundEven]

theorem round_pos (h : 0 < x) : 0 < round bits x := by
  rw [round, if_neg (by linarith)]
  exact roundPos_pos h

theorem round_nonpos (h : x ≤ 0) : round bits x ≤ 0 := by
  unfold round
  split
  . next hneg =>
    have := @roundPos_pos bits (-x) (by linarith)
    linarith
  . next hneg =>
    rw [show x = 0 by linarith, roundPos_zero]

theorem round_pos_iff : 0 < round bits x ↔ 0 < x := by
  refine ⟨?_, round_pos⟩
  intro h
  by_contra hle
  exact absurd (@round_nonpos bits x (not_lt.mp hle)) (by linarith)

theorem round_mono (hx : 0 < x) (h : x ≤ y) : round bits x ≤ round bits y := by
  rw [round, round, if_neg (by linarith), if_neg (by linarith)]
  exact roundPos_mono hx h

theorem round_natCast {n : ℕ} (h : n ≤ 2 ^ (bits + 1)) : round bits n = n := by
  rw [round, if_neg (by exact_mod_cast Nat.not_lt_zero n)]
  by_cases hzero : n = 0
  . rw [hzero, Nat.cast_zero, roundPos_zero]
  . have hlog : Int.log 2 (n : ℚ) = Nat.log 2 n := Int.log_natCast 2 n
    have hlow := Nat.pow_log_le_self 2 hzero
    by_cases hle : Nat.log 2 n ≤ bits
    . refine @roundPos_eq_self bits n (n * 2 ^ (bits - Nat.log 2 n)) ?_
      push_cast
      rw [ulp, hlog, mul_assoc, ← zpow_natCast, ← zpow_add₀ (by norm_num), Nat.cast_sub hle]
      simp
    . -- only the power of two itself has this many bits
      have hge : bits + 1 ≤ Nat.log 2 n := by omega
      have heq :=
        le_antisymm h (le_trans (Nat.pow_le_pow_right (by decide) hge) hlow)
      have hexp : Int.log 2 (n : ℚ) = bits + 1 := by
        rw [hlog, heq, Nat.log_pow (by decide)]
        push_cast
        rfl
      refine @roundPos_eq_self bits n (2 ^ bits) ?_
      rw [ulp, hexp, heq]
      push_cast
      rw [show (bits : ℤ) + 1 - bits = 1 by omega, zpow_one, pow_succ]

theorem one_le_round (h : 1 ≤ x) : 1 ≤ round bits x := by
  have hone : round bits 1 = 1 := by exact_mod_cast @round_natCast bits 1 Nat.one_le_two_pow
  calc (1 : ℚ)
      = round bits 1 := hone.symm
    _ ≤ round bits x := round_mono one_pos h

theorem round_lt_one (h : x ≤ 1 - 1 / 2 ^ (bits + 1)) : round bits x < 1 := by
  have hpow : (0 : ℚ) < 2 ^ (bits + 1) := pow_pos (by norm_num) _
  have hsmall : (1 : ℚ) / 2 ^ (bits + 1) ≤ 1 / 2 := by
    refine one_div_le_one_div_of_le (by norm_num) ?_
    calc (2 : ℚ)
        = 2 ^ 1 := (pow_one 2).symm
      _ ≤ 2 ^ (bits + 1) := pow_le_pow_right₀ (by norm_num) (by omega)
  have hlog : Int.log 2 ((1 : ℚ) - 1 / 2 ^ (bits + 1)) = -1 := by
    apply le_antisymm
    . have hlt : Int.log 2 ((1 : ℚ) - 1 / 2 ^ (bits + 1)) < 0 := by
        rw [← Int.lt_zpow_iff_log_lt (by decide) (by linarith)]
        have : 0 < (1 : ℚ) / 2 ^ (bits + 1) := one_div_pos.mpr hpow
        rw [zpow_zero]
        linarith
      omega
    . rw [← Int.zpow_le_iff_le_log (by decide) (by linarith)]
      have : ((2 : ℕ) : ℚ) ^ (-1 : ℤ) = 1 / 2 := by norm_num
      linarith
  have hself : roundPos bits ((1 : ℚ) - 1 / 2 ^ (bits + 1)) = 1 - 1 / 2 ^ (bits + 1) := by
    refine @roundPos_eq_self bits _ (2 ^ (bits + 1) - 1) ?_
    rw [ulp, hlog, show (-1 : ℤ) - bits = -((bits + 1 : ℕ) : ℤ) by push_cast; omega, zpow_neg, zpow_natCast]
    push_cast
    field_simp
  by_cases hx : 0 < x
  . have hle : round bits x ≤ 1 - 1 / 2 ^ (bits + 1) := by
      rw [round, if_neg (by linarith), ← hself]
      exact roundPos_mono hx h
    have : 0 < (1 : ℚ) / 2 ^ (bits + 1) := one_div_pos.mpr hpow
    linarith
  . exact lt_of_le_of_lt (round_nonpos (not_lt.mp hx)) one_pos

end Rounding
