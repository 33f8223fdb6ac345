import Mathlib.Computability.RegularExpressions

/-!
What the words of a regular expression are made of.
-/

namespace Regular

open RegularExpression Computability

variable {α : Type u} {P : α → Prop} {r s : RegularExpression α} {w : List α}

def Over (P : α → Prop) : RegularExpression α → Prop
  | .zero => True
  | .epsilon => True
  | .char a => P a
  | .plus r s => Over P r ∧ Over P s
  | .comp r s => Over P r ∧ Over P s
  | .star r => Over P r

@[simp]
theorem over_one : Over P 1 ↔ True := Iff.rfl

@[simp]
theorem over_char : Over P (char a) ↔ P a := Iff.rfl

@[simp]
theorem over_add : Over P (r + s) ↔ Over P r ∧ Over P s := Iff.rfl

@[simp]
theorem over_mul : Over P (r * s) ↔ Over P r ∧ Over P s := Iff.rfl

@[simp]
theorem over_star : Over P r.star ↔ Over P r := Iff.rfl

theorem forall_mem_of_matches (h : Over P r) (hw : w ∈ r.matches') : ∀ a ∈ w, P a := by
  induction r generalizing w with
  | zero => exact absurd hw (Language.notMem_zero w)
  | epsilon =>
    have hnil := (Language.mem_one w).mp hw
    simp [hnil]
  | char a =>
    have hone : w = [a] := hw
    simpa [hone] using h
  | plus r s ihr ihs =>
    obtain hr | hs := (Language.mem_add _ _ w).mp hw
    . exact ihr h.1 hr
    . exact ihs h.2 hs
  | comp r s ihr ihs =>
    have ⟨x, hx, y, hy, heq⟩ := Language.mem_mul.mp hw
    intro a ha
    rw [← heq, List.mem_append] at ha
    obtain hax | hay := ha
    . exact ihr h.1 hx a hax
    . exact ihs h.2 hy a hay
  | star r ih =>
    have ⟨l, heq, hl⟩ := Language.mem_kstar.mp hw
    intro a ha
    rw [heq, List.mem_flatten] at ha
    have ⟨y, hy, hay⟩ := ha
    exact ih h (hl y hy) a hay

theorem notMem_of_matches (h : Over (· ≠ a) r) (hw : w ∈ r.matches') : a ∉ w :=
  fun hmem => forall_mem_of_matches h hw a hmem rfl

theorem matches_mul : w ∈ (r * s).matches' ↔ ∃ x ∈ r.matches', ∃ y ∈ s.matches', x ++ y = w := Language.mem_mul

theorem matches_add : w ∈ (r + s).matches' ↔ w ∈ r.matches' ∨ w ∈ s.matches' := Iff.rfl

theorem matches_one : w ∈ (1 : RegularExpression α).matches' ↔ w = [] := Iff.rfl

theorem matches_char : w ∈ (char a).matches' ↔ w = [a] := Iff.rfl

theorem matches_char_mul : w ∈ (char a * r).matches' ↔ ∃ y ∈ r.matches', w = a :: y := by
  rw [matches_mul]
  constructor
  . intro ⟨x, hx, y, hy, heq⟩
    rw [matches_char.mp hx] at heq
    exact ⟨y, hy, heq.symm⟩
  . intro ⟨y, hy, heq⟩
    exact ⟨[a], rfl, y, hy, heq.symm⟩

theorem matches_mul_char : w ∈ (r * char a).matches' ↔ ∃ x ∈ r.matches', w = x ++ [a] := by
  rw [matches_mul]
  constructor
  . intro ⟨x, hx, y, hy, heq⟩
    rw [matches_char.mp hy] at heq
    exact ⟨x, hx, heq.symm⟩
  . intro ⟨x, hx, heq⟩
    exact ⟨x, hx, [a], rfl, heq.symm⟩

end Regular
