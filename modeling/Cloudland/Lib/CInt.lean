import Mathlib.Data.Int.Basic
import Mathlib.Algebra.Group.Int.Defs
import Mathlib.Algebra.Group.Nat.Defs

/-!
The type `int` of C, of 32 bits, and that of Go, of 64 bits, over the integers. What an overflow leaves
is what two's complement leaves.
-/

namespace CInt

def wrap (n : Int) : Int := n.bmod (2 ^ 32)

def IsInt (n : Int) : Prop := -2 ^ 31 ≤ n ∧ n < 2 ^ 31

instance (n : Int) : Decidable (IsInt n) := inferInstanceAs (Decidable (_ ∧ _))

theorem wrap_eq_iff : wrap n = n ↔ IsInt n := by
  unfold wrap IsInt
  rw [Int.bmod_def]
  split
  . omega
  . omega

def wrap64 (n : Int) : Int := n.bmod (2 ^ 64)

def IsInt64 (n : Int) : Prop := -2 ^ 63 ≤ n ∧ n < 2 ^ 63

instance (n : Int) : Decidable (IsInt64 n) := inferInstanceAs (Decidable (_ ∧ _))

theorem wrap64_eq_iff : wrap64 n = n ↔ IsInt64 n := by
  unfold wrap64 IsInt64
  rw [Int.bmod_def]
  split
  . omega
  . omega

theorem wrap64_le (h : 0 ≤ n) : wrap64 n ≤ n := by
  unfold wrap64
  rw [Int.bmod_def]
  split
  . omega
  . omega

theorem wrap64_wrap64 (n : Int) : wrap64 (wrap64 n) = wrap64 n := Int.bmod_bmod

theorem wrap64_add_left (n m : Int) : wrap64 (wrap64 n + m) = wrap64 (n + m) := Int.bmod_add_bmod

theorem wrap_add_left (n m : Int) : wrap (wrap n + m) = wrap (n + m) := Int.bmod_add_bmod

theorem wrap_add_right (n m : Int) : wrap (n + wrap m) = wrap (n + m) := Int.add_bmod_bmod

theorem wrap_sub_left (n m : Int) : wrap (wrap n - m) = wrap (n - m) := Int.bmod_sub_bmod

end CInt
