import Mathlib

/-!
Ordered maps and loops that store what they compute from the entries of one map under the keys of another.
-/

namespace OrdMap

open Std List Option ExtTreeMap

variable {α : Type u} {β : Type v} {γ : Type w} {δ : Type x} {cmp : α → α → Ordering}

section

variable [TransCmp cmp]

def insertEach (f : α → β → Option γ) (m : ExtTreeMap α β cmp) (acc : ExtTreeMap α γ cmp)
    : ExtTreeMap α γ cmp :=
  m.foldl visit acc
where
  visit (acc : ExtTreeMap α γ cmp) (k : α) (v : β) : ExtTreeMap α γ cmp :=
    match f k v with
    | some w => acc.insert k w
    | none => acc

theorem foldl_invariant {P : δ → Prop} {step : δ → α → β → δ} (hstep : ∀ s k v, P s → P (step s k v))
    (m : ExtTreeMap α β cmp) (hs : P s)
    : P (m.foldl step s) := by
  rw [foldl_eq_foldl_toList]
  generalize m.toList = l
  induction l generalizing s with
  | nil => exact hs
  | cons e l ih => exact ih (hstep s e.1 e.2 hs)

theorem notMem_of_getElem?_eq_none {m : ExtTreeMap α β cmp} {k : α} (h : m[k]? = none) : k ∉ m := by
  rw [mem_iff_isSome_getElem?, h]
  simp

end

variable [TransCmp cmp] [LawfulEqCmp cmp]

theorem getElem?_insert_of_ne {m : ExtTreeMap α β cmp} (h : k ≠ a) : (m.insert k v)[a]? = m[a]? := by
  rw [ExtTreeMap.getElem?_insert]
  simp [h]

theorem getElem?_erase_of_ne {m : ExtTreeMap α β cmp} (h : k ≠ a) : (m.erase k)[a]? = m[a]? := by
  rw [getElem?_erase]
  simp [h]

theorem distinct_keys (m : ExtTreeMap α β cmp) : m.toList.Pairwise (fun a b => a.1 ≠ b.1) :=
  m.distinct_keys_toList.imp (fun h heq => h (LawfulEqCmp.compare_eq_iff_eq.mpr heq))

theorem toList_nodup (m : ExtTreeMap α β cmp) : m.toList.Nodup :=
  (distinct_keys m).imp (fun h heq => h (congrArg Prod.fst heq))

section Loop

/-
A loop over the entries of a map whose body, at the key `k`, changes nothing but what the state
shows under `k`.
-/
variable {ω : Type y} {view : δ → α → ω} {step : δ → α → β → δ} {F : α → β → ω → ω}

theorem view_foldl_of_not_mem (hne : ∀ s k v a, k ≠ a → view (step s k v) a = view s a)
    {l : List (α × β)} (h : ∀ e ∈ l, e.1 ≠ k)
    : view (l.foldl (fun s e => step s e.1 e.2) s) k = view s k := by
  induction l generalizing s with
  | nil => rfl
  | cons e l ih =>
    rw [forall_mem_cons] at h
    rw [foldl_cons, ih h.2, hne s e.1 e.2 k h.1]

theorem view_foldl_of_mem (hself : ∀ s k v, view (step s k v) k = F k v (view s k))
    (hne : ∀ s k v a, k ≠ a → view (step s k v) a = view s a) {l : List (α × β)}
    (hd : l.Pairwise (fun a b => a.1 ≠ b.1)) (h : (k, v) ∈ l)
    : view (l.foldl (fun s e => step s e.1 e.2) s) k = F k v (view s k) := by
  induction l generalizing s with
  | nil => simp at h
  | cons e l ih =>
    rw [pairwise_cons] at hd
    rw [foldl_cons]
    rcases mem_cons.mp h with rfl | h
    . rw [view_foldl_of_not_mem hne (fun e he => (hd.1 e he).symm), hself]
    . rw [ih hd.2 h, hne s e.1 e.2 k (hd.1 (k, v) h)]

theorem view_foldl (view : δ → α → ω) (F : α → β → ω → ω)
    (hself : ∀ s k v, view (step s k v) k = F k v (view s k))
    (hne : ∀ s k v a, k ≠ a → view (step s k v) a = view s a) (m : ExtTreeMap α β cmp) (s : δ) (k : α)
    : view (m.foldl step s) k = m[k]?.elim (view s k) (fun v => F k v (view s k)) := by
  rw [foldl_eq_foldl_toList]
  cases hk : m[k]? with
  | none =>
    apply view_foldl_of_not_mem hne
    intro e he heq
    rw [← heq, mem_toList_iff_getElem?_eq_some.mp he] at hk
    contradiction
  | some v =>
    exact view_foldl_of_mem hself hne (distinct_keys m)
      (mem_toList_iff_getElem?_eq_some.mpr hk)

end Loop

@[simp]
theorem getElem?_insertEach {acc : ExtTreeMap α γ cmp} {k : α}
    : (insertEach f m acc)[k]? = (m[k]?.bind (f k)).or acc[k]? := by
  have hself : ∀ (acc : ExtTreeMap α γ cmp) k v,
      (insertEach.visit f acc k v)[k]? = (f k v).or acc[k]? := by
    intro acc k v
    unfold insertEach.visit
    cases f k v <;> simp
  have hne : ∀ (acc : ExtTreeMap α γ cmp) k v a, k ≠ a →
      (insertEach.visit f acc k v)[a]? = acc[a]? := by
    intro acc k v a hka
    unfold insertEach.visit
    cases f k v with
    | none => rfl
    | some w => exact getElem?_insert_of_ne hka
  have hloop := view_foldl (fun (acc : ExtTreeMap α γ cmp) k => acc[k]?)
    (fun k v old => (f k v).or old) hself hne m acc k
  rw [insertEach, hloop]
  cases m[k]? <;> rfl

theorem insertEach_eq_self_iff {f : β → β} {m acc : ExtTreeMap α β cmp}
    : insertEach (fun _ v => some (f v)) m acc = m ↔ (∀ k ∈ acc, k ∈ m) ∧ ∀ e ∈ m.toList, f e.2 = e.2 := by
  constructor
  . intro h
    have hget : ∀ k : α, (m[k]?.bind (fun v => some (f v))).or acc[k]? = m[k]? := by
      intro k
      have hk := @getElem?_insertEach _ _ _ _ _ _ (fun _ v => some (f v)) m acc k
      rw [← hk, h]
    constructor
    . intro k hk
      by_contra hnot
      have hnone := hget k
      rw [getElem?_eq_none hnot, bind_none, none_or] at hnone
      exact notMem_of_getElem?_eq_none hnone hk
    . intro e he
      have hsome := hget e.1
      rw [mem_toList_iff_getElem?_eq_some.mp he, bind_some, some_or,
        some.injEq] at hsome
      exact hsome
  . intro ⟨hsub, hsame⟩
    apply ExtTreeMap.ext_getElem?
    intro k
    rw [getElem?_insertEach]
    cases hk : m[k]? with
    | none =>
      have hnot : k ∉ acc := fun hmem => notMem_of_getElem?_eq_none hk (hsub k hmem)
      rw [getElem?_eq_none hnot]
      rfl
    | some v =>
      have hv := hsame (k, v) (mem_toList_iff_getElem?_eq_some.mpr hk)
      rw [bind_some, some_or, hv]

theorem isEmpty_iff_forall_getElem? {m : ExtTreeMap α β cmp} : m.isEmpty = true ↔ ∀ k : α, m[k]? = none := by
  rw [ExtTreeMap.isEmpty_iff]
  constructor
  . rintro rfl k
    simp
  . intro h
    apply ExtTreeMap.ext_getElem?
    simpa using h

theorem toList_insert_perm {m : ExtTreeMap α β cmp} (h : m[k]? = none)
    : (m.insert k v).toList.Perm ((k, v) :: m.toList) := by
  have hk : ∀ w, (k, w) ∉ m.toList := by
    intro w hw
    rw [mem_toList_iff_getElem?_eq_some, h] at hw
    contradiction
  rw [perm_ext_iff_of_nodup (toList_nodup _) (nodup_cons.mpr ⟨hk v, toList_nodup m⟩)]
  rintro ⟨a, w⟩
  by_cases ha : k = a
  . subst ha
    simp [h, eq_comm]
  . simp [getElem?_insert_of_ne ha, Ne.symm ha]

end OrdMap
