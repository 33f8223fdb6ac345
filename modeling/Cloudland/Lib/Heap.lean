import Mathlib.Tactic.Ring
import Mathlib.Tactic.Linarith

/-!
Positions of an `f`-ary heap: the children of position `m` are `m * f + 1, ..., m * f + f`.
-/

namespace Heap

open Function

variable {f : Nat}

def child (f m j : Nat) : Nat := m * f + 1 + j

def parent (f p : Nat) : Nat := (p - 1) / f

def Descends (f m p : Nat) : Prop := ∃ k, (parent f)^[k] p = m

theorem parent_child (hj : j < f) : parent f (child f m j) = m := by
  unfold parent child
  rw [show m * f + 1 + j - 1 = j + f * m by rw [Nat.mul_comm]; omega,
    Nat.add_mul_div_left _ _ (by omega), Nat.div_eq_of_lt hj, Nat.zero_add]

theorem lt_child (hf : 0 < f) (m j : Nat) : m < child f m j := by
  unfold child
  have : m ≤ m * f := Nat.le_mul_of_pos_right m hf
  omega

theorem child_injective (h : child f m j = child f m j') : j = j' := by
  unfold child at h
  omega

theorem parent_le (p : Nat) : parent f p ≤ p := by
  unfold parent
  have := Nat.div_le_self (p - 1) f
  omega

theorem iterate_parent_le (k p : Nat) : (parent f)^[k] p ≤ p := by
  induction k generalizing p with
  | zero => rfl
  | succ k ih =>
    rw [iterate_succ_apply]
    exact le_trans (ih _) (parent_le p)

theorem Descends.refl (m : Nat) : Descends f m m := ⟨0, rfl⟩

theorem Descends.le (h : Descends f m p) : m ≤ p := by
  cases h with
  | intro k hk =>
    rw [← hk]
    apply iterate_parent_le

theorem Descends.of_child (hj : j < f) (h : Descends f (child f m j) p) : Descends f m p := by
  cases h with
  | intro k hk =>
    refine ⟨k + 1, ?_⟩
    rw [iterate_succ_apply', hk, parent_child hj]

-- A position cannot lie below two children of `m`: on its way to the root it would pass one of them
-- before the other, but both have the parent `m`.
theorem Descends.child_unique (hj : j < f) (hj' : j' < f)
    (h : Descends f (child f m j) p) (h' : Descends f (child f m j') p)
    : j = j' := by
  have hlt : ∀ {i i' k k' : Nat}, i < f → i' < f → (parent f)^[k] p = child f m i →
      (parent f)^[k'] p = child f m i' → k ≤ k' → i = i' := by
    intro i i' k k' hi hi' hk hk' hle
    rw [show k' = (k' - k) + k by omega, iterate_add_apply, hk] at hk'
    cases hd : k' - k with
    | zero =>
      rw [hd] at hk'
      exact child_injective hk'
    | succ d =>
      rw [hd, iterate_succ_apply, parent_child hi] at hk'
      have hle := @iterate_parent_le f d m
      have := lt_child (by omega : 0 < f) m i'
      omega
  cases h with
  | intro k hk =>
    cases h' with
    | intro k' hk' =>
      obtain hle | hle := Nat.le_total k k'
      . exact hlt hj hj' hk hk' hle
      . exact (hlt hj' hj hk' hk hle).symm

end Heap
