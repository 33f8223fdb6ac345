import Mathlib.Data.List.Basic
import Mathlib.Tactic.Ring
import Mathlib.Tactic.Linarith

/-!
Splitting a list into at most `out` consecutive chunks by a changing divisor.
-/

namespace Split

open List

variable {α : Type u}

def step (out : Nat) (left : Nat) : Nat := (left + out - 1) / out

def split : Nat → List α → List (List α)
  | 0, _ => []
  | _ + 1, [] => []
  | out + 1, x :: xs =>
    let s := step (out + 1) (xs.length + 1)
    (x :: xs).take s :: split out ((x :: xs).drop s)

theorem step_bounds (out left : Nat) (hleft : 0 < left)
    : (out + 1) * (step (out + 1) left - 1) < left
        ∧
      left ≤ (out + 1) * step (out + 1) left
        ∧
      0 < step (out + 1) left := by
  unfold step
  have hdiv := Nat.div_add_mod (left + (out + 1) - 1) (out + 1)
  have hmod : (left + (out + 1) - 1) % (out + 1) < out + 1 := Nat.mod_lt _ (Nat.succ_pos out)
  generalize (left + (out + 1) - 1) % (out + 1) = r at *
  generalize (left + (out + 1) - 1) / (out + 1) = q at *
  cases q with
  | zero => simp only [Nat.mul_zero] at hdiv; omega
  | succ q =>
    simp only [Nat.mul_succ, Nat.add_sub_cancel] at *
    omega

theorem step_le (out left : Nat) (hleft : 0 < left) : step (out + 1) left ≤ left := by
  have := step_bounds out left hleft
  cases hs : step (out + 1) left with
  | zero => omega
  | succ s =>
    rw [hs] at this
    simp only [Nat.add_sub_cancel, Nat.add_mul, Nat.one_mul] at this
    omega

theorem flatten_split (h : 0 < out) : (split out l).flatten = l := by
  induction out generalizing l with
  | zero => omega
  | succ out ih =>
    cases l with
    | nil => rfl
    | cons x xs =>
      rw [split, flatten_cons]
      cases out with
      | zero =>
        have : step (0 + 1) (xs.length + 1) = (x :: xs).length := by simp [step]
        rw [this, take_length, drop_length, split]
        simp
      | succ out =>
        rw [ih (by omega)]
        apply take_append_drop

theorem length_split_le (out : Nat) (l : List α) : (split out l).length ≤ out := by
  induction out generalizing l with
  | zero => simp [split]
  | succ out ih =>
    cases l with
    | nil => simp [split]
    | cons x xs =>
      rw [split, length_cons]
      have := ih ((x :: xs).drop (step (out + 1) (xs.length + 1)))
      omega

theorem mem_split (h : c ∈ split out l) : c ≠ [] ∧ c.Sublist l := by
  induction out generalizing l with
  | zero => simp [split] at h
  | succ out ih =>
    cases l with
    | nil => simp [split] at h
    | cons x xs =>
      rw [split, mem_cons] at h
      obtain h | h := h
      . have := (step_bounds out (xs.length + 1) (by omega)).2.2
        subst h
        refine ⟨?_, take_sublist _ _⟩
        simp only [ne_eq, take_eq_nil_iff, reduceCtorEq, or_false]
        omega
      . exact ⟨(ih h).1, (ih h).2.trans (drop_sublist _ _)⟩

-- The first chunk is the largest one, so its bound holds for all.
theorem length_chunk_bound (h : c ∈ split out l) : out * (c.length - 1) < l.length := by
  induction out generalizing l with
  | zero => simp [split] at h
  | succ out ih =>
    cases l with
    | nil => simp [split] at h
    | cons x xs =>
      rw [split, mem_cons] at h
      have hstep := step_bounds out (xs.length + 1) (by omega)
      have hle := step_le out (xs.length + 1) (by omega)
      obtain h | h := h
      . subst h
        rw [length_take, length_cons, Nat.min_eq_left hle]
        exact hstep.1
      . have hrest := ih h
        rw [length_drop, length_cons] at hrest
        generalize step (out + 1) (xs.length + 1) = s at *
        rw [length_cons]
        have hcs : c.length - 1 < s := by
          by_contra hcs
          have : out * s ≤ out * (c.length - 1) := Nat.mul_le_mul_left _ (by omega)
          have : (out + 1) * s = out * s + s := by rw [Nat.add_mul, Nat.one_mul]
          omega
        rw [Nat.add_mul, Nat.one_mul]
        omega

def grouped (out n : Nat) : Nat := if n ≤ out then 0 else if 2 * out ≤ n then n else 2 * (n - out)

theorem step_eq_one_iff (out n : Nat) (hn : 0 < n) : step (out + 1) n = 1 ↔ n ≤ out + 1 := by
  have hbounds := step_bounds out n hn
  constructor
  . intro h
    rw [h] at hbounds
    omega
  . intro h
    by_contra hne
    have : 1 ≤ step (out + 1) n - 1 := by omega
    have : out + 1 ≤ (out + 1) * (step (out + 1) n - 1) := Nat.le_mul_of_pos_right _ this
    omega

theorem grouped_of_le (h : n ≤ out) : grouped out n = 0 := if_pos h

theorem grouped_step (out n : Nat) (h : out + 1 < n)
    : grouped (out + 1) n = step (out + 1) n + grouped out (n - step (out + 1) n) := by
  have hbounds := step_bounds out n (by omega)
  have hone := step_eq_one_iff out n (by omega)
  generalize step (out + 1) n = s at *
  have hs : s = 2 ∨ 3 ≤ s := by omega
  unfold grouped
  obtain hs | hs := hs
  . subst hs
    split_ifs <;> omega
  . -- every later slot finds at least two elements
    have hmul : (s - 1) * out + (s - 1) < n := by
      have := hbounds.1
      rw [Nat.mul_comm, Nat.mul_succ] at this
      exact this
    have : 2 * out ≤ (s - 1) * out := Nat.mul_le_mul_right _ (by omega)
    split_ifs <;> omega

end Split
