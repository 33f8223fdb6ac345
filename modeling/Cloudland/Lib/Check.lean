import Mathlib.Data.List.Forall2

/-!
Checks of a request: a chain of conditions, each with the error of the first one that fails.
-/

namespace Check

variable {ε : Type u} {α β : Type v}

def require (p : Prop) [Decidable p] (e : ε) : Except ε PUnit.{v + 1} := if p then .ok ⟨⟩ else .error e

def found (o : Option α) (e : ε) : Except ε α :=
  match o with
  | some a => .ok a
  | none => .error e

@[simp]
theorem bind_eq_ok {f : α → Except ε β} : (x >>= f) = .ok b ↔ ∃ a, x = .ok a ∧ f a = .ok b := by
  cases x with
  | error e => simp [bind, Except.bind]
  | ok a => simp [bind, Except.bind]

@[simp]
theorem map_eq_ok {x : Except ε α} {b : β} : (f <$> x) = .ok b ↔ ∃ a, x = .ok a ∧ f a = b := by
  cases x with
  | error e => simp [Functor.map, Except.map]
  | ok a => simp [Functor.map, Except.map]

@[simp]
theorem throw_eq_ok : (throw e : Except ε α) = .ok a ↔ False := by
  simp [throw, throwThe, MonadExceptOf.throw]

@[simp]
theorem pure_eq_ok : (pure a : Except ε α) = .ok b ↔ a = b := by
  simp [pure, Except.pure]

@[simp]
theorem require_eq_ok [Decidable p] {u : PUnit.{v + 1}} : require p e = .ok u ↔ p := by
  unfold require
  split <;> simp_all

@[simp]
theorem found_eq_ok : found o e = .ok a ↔ o = some a := by
  cases o <;> simp [found]

theorem mapM_eq_ok {f : γ → Except ε β}
    : l.mapM f = .ok l' ↔ List.Forall₂ (fun a b => f a = .ok b) l l' := by
  induction l generalizing l' with
  | nil => cases l' <;> simp [pure, Except.pure]
  | cons a l ih =>
    simp only [List.mapM_cons, bind_eq_ok, pure, Except.pure, Except.ok.injEq, ih]
    constructor
    . intro ⟨b, hb, bs, hbs, heq⟩
      subst heq
      exact .cons hb hbs
    . intro h
      cases h with
      | cons hb hbs => exact ⟨_, hb, _, hbs, rfl⟩

theorem eq_map_of_mapM_eq_ok {l : List γ} {f : γ → Except ε β} {g : γ → β}
    (hf : ∀ a b, f a = .ok b → b = g a) (h : l.mapM f = .ok l')
    : l' = l.map g := by
  have hall := mapM_eq_ok.mp h
  clear h
  induction hall with
  | nil => rfl
  | cons ha _ ih => rw [List.map_cons, ← hf _ _ ha, ← ih]

theorem exists_of_mapM_eq_ok {l : List γ} {f : γ → Except ε β}
    (h : l.mapM f = .ok l') (hb : b ∈ l')
    : ∃ a ∈ l, f a = .ok b := by
  have hall := mapM_eq_ok.mp h
  induction hall with
  | nil => simp at hb
  | cons ha hrest ih =>
    obtain heq | hmem := List.mem_cons.mp hb
    . exact ⟨_, List.mem_cons_self, heq ▸ ha⟩
    . have ⟨a, hin, heq⟩ := ih (mapM_eq_ok.mpr hrest) hmem
      exact ⟨a, List.mem_cons_of_mem _ hin, heq⟩

end Check
