import Mathlib.Order.Interval.Set.LinearOrder
import Mathlib.Order.ConditionallyCompleteLattice.Basic
import Mathlib.Tactic.Common
import Mathlib.Data.Int.ConditionallyCompleteOrder

/-!
This module models the half open integer ranges of `common/range.cpp`.
-/

namespace Sci

structure Range where
  first : Int
  last : Int
  deriving DecidableEq

namespace Range

def contains (x r : Range) : Bool := x.first ≤ r.first && r.last ≤ x.last

def intersects (x r : Range) : Bool :=
  (x.first ≤ r.first && r.first < x.last) ||
  (x.first < r.last && r.last ≤ x.last) ||
  x.contains r || r.contains x

def touches (x r : Range) : Bool :=
  (x.first ≤ r.first && r.first ≤ x.last) ||
  (x.first ≤ r.last && r.last ≤ x.last) ||
  x.contains r || r.contains x

def isBefore (x r : Range) : Bool := x.last ≤ r.first

def splits (x r : Range) : Bool := r.first < x.first && x.last < r.last

/--
The source asserts that the two ranges touch before it joins them.
-/
def union (x r : Range) : Range := ⟨min x.first r.first, max x.last r.last⟩

/--
The source asserts that `r` does not split `x` and, in the second branch, that `r` ends before `x`.
-/
def difference (x r : Range) : Range :=
  if x.intersects r then
    if x.first < r.first then ⟨x.first, r.first⟩ else ⟨r.last, x.last⟩
  else
    x

def ids (x : Range) : Set Int := Set.Ico x.first x.last

def NonEmpty (x : Range) : Prop := x.first < x.last

instance (x : Range) : Decidable x.NonEmpty := inferInstanceAs (Decidable (x.first < x.last))

@[simp]
theorem mem_ids {x : Range} : i ∈ x.ids ↔ x.first ≤ i ∧ i < x.last := by
  simp [ids]

@[simp]
theorem union_first (x r : Range) : (x.union r).first = min x.first r.first := rfl

@[simp]
theorem union_last (x r : Range) : (x.union r).last = max x.last r.last := rfl

theorem touches_iff {x r : Range} (hx : x.NonEmpty) (hr : r.NonEmpty)
    : x.touches r = true ↔ x.first ≤ r.last ∧ r.first ≤ x.last := by
  unfold NonEmpty at hx hr
  simp only [touches, contains, Bool.or_eq_true, Bool.and_eq_true, decide_eq_true_eq]
  omega

theorem intersects_iff {x r : Range} (hx : x.NonEmpty) (hr : r.NonEmpty)
    : x.intersects r = true ↔ x.first < r.last ∧ r.first < x.last := by
  unfold NonEmpty at hx hr
  simp only [intersects, contains, Bool.or_eq_true, Bool.and_eq_true, decide_eq_true_eq]
  omega

theorem union_nonEmpty {x : Range} (hx : x.NonEmpty) : (x.union r).NonEmpty := by
  unfold NonEmpty at *
  simp only [union_first, union_last]
  omega

section Range

variable {x r : Range} (hx : x.NonEmpty) (hr : r.NonEmpty)

include hx hr

theorem ids_union (h : x.touches r = true) : (x.union r).ids = x.ids ∪ r.ids := by
  rw [touches_iff hx hr] at h
  ext i
  simp only [mem_ids, union_first, union_last, Set.mem_union]
  omega

theorem ids_difference (hsplit : r.splits x = false) (hcont : r.contains x = false)
    : (x.difference r).ids = x.ids \ r.ids ∧ (x.difference r).NonEmpty := by
  simp only [splits, contains, Bool.and_eq_false_iff, decide_eq_false_iff_not] at hsplit hcont
  have hint := intersects_iff hx hr
  unfold NonEmpty at hx hr
  unfold difference
  split
  . next h =>
    rw [hint] at h
    split
    . constructor
      . ext i
        simp only [mem_ids, Set.mem_sdiff]
        omega
      . simpa [NonEmpty]
    . constructor
      . ext i
        simp only [mem_ids, Set.mem_sdiff]
        omega
      . unfold NonEmpty
        dsimp
        omega
  . next h =>
    rw [hint] at h
    constructor
    . ext i
      simp only [mem_ids, Set.mem_sdiff]
      omega
    . exact hx

theorem difference_bounds : x.first ≤ (x.difference r).first ∧ (x.difference r).last ≤ x.last := by
  have hint := intersects_iff hx hr
  unfold difference
  split
  . next h =>
    rw [hint] at h
    split <;> dsimp only <;> omega
  . omega

end Range

end Range
end Sci
