import Mathlib.Data.List.Basic

/-!
Runs of a labelled transition system and the induction that carries an invariant along them.
-/

variable {σ : Type u} {α : Type v}

inductive Run (step : σ → α → σ → Prop) : σ → List α → σ → Prop where
  | nil (s : σ) : Run step s [] s
  | cons {s t u : σ} {a : α} {l : List α} (h : step s a t) (rest : Run step t l u)
    : Run step s (a :: l) u

def Guarded (ok : σ → α → Prop) (step : σ → α → σ → Prop) (s : σ) (a : α) (t : σ) : Prop :=
  ok s a ∧ step s a t

namespace Run

variable {step : σ → α → σ → Prop}

theorem invariant (Inv : σ → Prop) (hstep : ∀ s a t, Inv s → step s a t → Inv t)
    (hrun : Run step s l t) (hs : Inv s)
    : Inv t := by
  induction hrun with
  | nil => exact hs
  | cons h _ ih => exact ih (hstep _ _ _ hs h)

theorem mono (h : ∀ s a t, step s a t → step' s a t) (hrun : Run step s l t) : Run step' s l t := by
  induction hrun with
  | nil => exact .nil _
  | cons hstep _ ih => exact .cons (h _ _ _ hstep) ih

theorem of_foldl (s : σ) (l : List α) : Run (fun s a t => f s a = t) s l (l.foldl f s) := by
  induction l generalizing s with
  | nil => exact .nil _
  | cons a l ih => exact .cons rfl (ih (f s a))

section Shared

variable {f : σ → α → Option σ}

theorem of_foldlM (h : l.foldlM f s = some t)
    : Run (fun s a t => f s a = some t) s l t := by
  induction l generalizing s with
  | nil =>
    cases h
    exact .nil _
  | cons a l ih =>
    obtain ⟨u, hu, h⟩ := Option.bind_eq_some_iff.mp h
    exact .cons hu (ih h)

theorem foldlM_keeps {l : List α} {P : σ → Prop}
    (hstep : ∀ a ∈ l, ∀ {s t}, P s → f s a = some t → P t) (h : P s) (hfold : l.foldlM f s = some t)
    : P t := by
  induction l generalizing s with
  | nil =>
    cases hfold
    exact h
  | cons a l ih =>
    obtain ⟨u, hu, hfold⟩ := Option.bind_eq_some_iff.mp hfold
    exact ih (fun b hb => hstep b (.tail _ hb)) (hstep a List.mem_cons_self h hu) hfold

section Exists

variable {l : List α} {q : σ → Prop} (p : σ → Prop) [DecidablePred p]

theorem exists_of_steps (hf : ∀ s a t, f s a = some t → step s a t)
    (h : (l.foldlM f s).any (fun t => p t) = true) (hp : ∀ t, Run step s l t → p t → q t)
    : ∃ t, Run step s l t ∧ q t := by
  have ⟨t, ht, hpt⟩ := (Option.any_eq_true _ _).mp h
  have hrun := (of_foldlM ht).mono hf
  exact ⟨t, hrun, hp t hrun (of_decide_eq_true hpt)⟩

theorem exists_of_foldlM (h : (l.foldlM f s).any (fun t => p t) = true)
    (hp : ∀ t, Run (fun s a t => f s a = some t) s l t → p t → q t)
    : ∃ t, Run (fun s a t => f s a = some t) s l t ∧ q t :=
  exists_of_steps p (fun _ _ _ h => h) h hp

theorem exists_of_checked {ok : σ → α → Prop} [∀ s a, Decidable (ok s a)]
    (h : (l.foldlM (fun s a => if ok s a then f s a else none) s).any (fun t => p t) = true)
    (hp : ∀ t, Run (Guarded ok (fun s a t => f s a = some t)) s l t → p t → q t)
    : ∃ t, Run (Guarded ok (fun s a t => f s a = some t)) s l t ∧ q t :=
  exists_of_steps p (fun _ _ _ => Option.ite_none_right_eq_some.mp) h hp

theorem exists_of_checked₂ {ok ok' : σ → α → Prop} [∀ s a, Decidable (ok s a)] [∀ s a, Decidable (ok' s a)]
    (h : (l.foldlM (fun s a => if ok s a then if ok' s a then f s a else none else none) s).any (fun t => p t) = true)
    (hp : ∀ t, Run (Guarded ok (Guarded ok' (fun s a t => f s a = some t))) s l t → p t → q t)
    : ∃ t, Run (Guarded ok (Guarded ok' (fun s a t => f s a = some t))) s l t ∧ q t := by
  refine exists_of_steps p (fun s a t hstep => ?_) h hp
  rwa [Option.ite_none_right_eq_some, Option.ite_none_right_eq_some] at hstep

end Exists

end Shared

theorem guard {ok : σ → α → Prop} {s t : σ} {l : List α} (hok : ∀ s, ∀ a ∈ l, ok s a) (hrun : Run step s l t)
    : Run (Guarded ok step) s l t := by
  induction hrun with
  | nil => exact .nil _
  | cons h _ ih =>
    exact .cons ⟨hok _ _ (by simp), h⟩ (ih (fun s a ha => hok s a (List.mem_cons_of_mem _ ha)))

end Run

def Along (f : σ → α → σ) (p : σ → α → Prop) : σ → List α → Prop
  | _, [] => True
  | s, a :: l => p s a ∧ Along f p (f s a) l

theorem Along.iff_of_invariant (Inv : σ → Prop)
    (hiff : ∀ s a, Inv s → (p s a ↔ q s a)) (hkeeps : ∀ s a, Inv s → q s a → Inv (f s a)) (hs : Inv s)
    (l : List α)
    : Along f p s l ↔ Along f q s l := by
  induction l generalizing s with
  | nil => exact Iff.rfl
  | cons a l ih =>
    have hstep := hiff s a hs
    constructor
    . intro ⟨hp, hrest⟩
      have hq := hstep.mp hp
      exact ⟨hq, (ih (hkeeps s a hs hq)).mp hrest⟩
    . intro ⟨hq, hrest⟩
      exact ⟨hstep.mpr hq, (ih (hkeeps s a hs hq)).mpr hrest⟩
