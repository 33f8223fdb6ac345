import Mathlib.Data.Set.Insert

/-!
Relays that pass a message on to those of their successors whose range meets its target.
-/

namespace Relay

open List

variable {σ μ ι ν κ : Type*} (after : σ → μ → σ) (target : σ → μ → Set ι)

def Meets (R : Set ι) (s : σ) (m : μ) : Prop := (target s m ∩ R).Nonempty

open Classical in
noncomputable def passed (R : Set ι) (s : σ) (m : μ) : List μ := if Meets target R s m then [m] else []

noncomputable def relevant (R : Set ι) (s : σ) : List μ → List μ
  | [] => []
  | m :: ms => passed target R s m ++ relevant R (after s m) ms

def Admits (ok : σ → μ → Prop) (s : σ) : List μ → Prop
  | [] => True
  | m :: ms => ok s m ∧ Admits ok (after s m) ms

variable {after target} {ok ok' : σ → μ → Prop} {R R' : Set ι} {s : σ} {m : μ} {hist : List μ}

theorem Meets.mono (h : R ⊆ R') (hm : Meets target R s m) : Meets target R' s m :=
  Set.Nonempty.mono (Set.inter_subset_inter_right _ h) hm

theorem meets_singleton : Meets target {i} s m ↔ i ∈ target s m :=
  Set.inter_singleton_nonempty

theorem passed_of_meets (h : Meets target R s m) : passed target R s m = [m] := if_pos h

theorem passed_of_not_meets (h : ¬Meets target R s m) : passed target R s m = [] := if_neg h

theorem Admits.mono (h : ∀ s m, ok s m → ok' s m) (hist : List μ) (hok : Admits after ok s hist)
    : Admits after ok' s hist := by
  induction hist generalizing s with
  | nil => trivial
  | cons m ms ih => exact ⟨h s m hok.1, ih hok.2⟩

theorem admits_append
    : Admits after ok s (hist ++ [m]) ↔ Admits after ok s hist ∧ ok (hist.foldl after s) m := by
  induction hist generalizing s with
  | nil => simp [Admits]
  | cons m' ms ih => simp only [cons_append, Admits, ih, foldl_cons, and_assoc]

theorem relevant_append
    : relevant after target R s (hist ++ [m])
        =
      relevant after target R s hist ++ passed target R (hist.foldl after s) m := by
  induction hist generalizing s with
  | nil => simp [relevant]
  | cons m' ms ih => simp only [cons_append, relevant, ih, foldl_cons, append_assoc]

theorem mem_of_mem_relevant (h : m ∈ relevant after target R s hist) : m ∈ hist := by
  induction hist generalizing s with
  | nil => exact h
  | cons m' ms ih =>
    obtain hfirst | hrest := mem_append.mp h
    . unfold passed at hfirst
      split at hfirst
      . exact mem_singleton.mp hfirst ▸ mem_cons_self
      . cases hfirst
    . exact mem_cons_of_mem _ (ih hrest)

section Node

variable {process : ν → μ → Option ν} {Inv : σ → ν → Prop} {out : κ → ν → List μ}
  {range : κ → Set ι}

theorem foldlM_relevant (hstep : ∀ s n m, Inv s n → ok s m → Meets target R s m →
      ∃ n', process n m = some n' ∧ Inv (after s m) n' ∧
        ∀ k, out k n' = out k n ++ passed target (range k) s m)
    (hskip : ∀ s n m, Inv s n → ok s m → ¬Meets target R s m → Inv (after s m) n)
    (hrange : ∀ k, range k ⊆ R) (hinv : Inv s n) (hok : Admits after ok s hist)
    : ∃ n', (relevant after target R s hist).foldlM process n = some n' ∧
        Inv (hist.foldl after s) n' ∧
        ∀ k, out k n' = out k n ++ relevant after target (range k) s hist := by
  induction hist generalizing s n with
  | nil => exact ⟨n, rfl, hinv, by simp [relevant]⟩
  | cons m ms ih =>
    by_cases hm : Meets target R s m
    . have ⟨n₁, hprocess, hinv₁, hout₁⟩ := hstep s n m hinv hok.1 hm
      have ⟨n', hfold, hinv', hout⟩ := ih hinv₁ hok.2
      refine ⟨n', ?_, hinv', ?_⟩
      . simp [relevant, passed_of_meets hm, hprocess, hfold]
      . intro k
        rw [hout, hout₁, relevant, append_assoc]
    . have ⟨n', hfold, hinv', hout⟩ := ih (hskip s n m hinv hok.1 hm) hok.2
      refine ⟨n', ?_, hinv', ?_⟩
      . simp [relevant, passed_of_not_meets hm, hfold]
      . intro k
        have hk : ¬Meets target (range k) s m := fun h => hm (h.mono (hrange k))
        rw [hout, relevant, passed_of_not_meets hk, nil_append]

end Node

end Relay
