import Mathlib.Data.List.Nodup

/-!
Tables of a relational store: rows with a numeric primary key that the store assigns in increasing
order and never assigns twice.
-/

class Keyed (α : Type u) where
  key : α → Nat
  setKey : α → Nat → α
  key_setKey : ∀ a k, key (setKey a k) = k
  setKey_key : ∀ a, setKey a (key a) = a

open Keyed (key setKey key_setKey setKey_key)

structure Table (α : Type u) [Keyed α] where
  rows : List α
  next : Nat
  pos : 0 < next
  nodup : (rows.map key).Nodup
  bounds : ∀ a ∈ rows, 0 < key a ∧ key a < next

namespace Table

open List

variable {α : Type u} [Keyed α]

instance : Membership α (Table α) := ⟨fun t a => a ∈ t.rows⟩

theorem mem_def {t : Table α} : a ∈ t ↔ a ∈ t.rows := Iff.rfl

instance [DecidableEq α] (t : Table α) (a : α) : Decidable (a ∈ t) := inferInstanceAs (Decidable (a ∈ t.rows))

instance (t : Table α) (P : α → Prop) [DecidablePred P] : Decidable (∀ a ∈ t, P a) :=
  inferInstanceAs (Decidable (∀ a ∈ t.rows, P a))

instance (t : Table α) (P : α → Prop) [DecidablePred P] : Decidable (∃ a ∈ t, P a) :=
  inferInstanceAs (Decidable (∃ a ∈ t.rows, P a))

def empty : Table α := ⟨[], 1, Nat.one_pos, .nil, by simp⟩

def find? (t : Table α) (p : α → Bool) : Option α := t.rows.find? p

def filter (t : Table α) (p : α → Bool) : List α := t.rows.filter p

def byKey? (t : Table α) (k : Nat) : Option α := t.find? (fun a => key a == k)

-- the key zero is no condition, then the row is one that the store picks
def take (t : Table α) (k : Nat) : Option α := if k = 0 then t.rows.head? else t.byKey? k

def update (t : Table α) (p : α → Bool) (f : α → α) : Table α where
  rows := t.rows.map (fun a => if p a then setKey (f a) (key a) else a)
  next := t.next
  pos := t.pos
  nodup := by
    rw [map_map]
    convert t.nodup using 2
    funext a
    simp only [Function.comp_apply]
    split
    . exact key_setKey _ _
    . rfl
  bounds := by
    intro b hb
    obtain ⟨a, ha, rfl⟩ := mem_map.mp hb
    split
    . rw [key_setKey]
      exact t.bounds a ha
    . exact t.bounds a ha

def delete (t : Table α) (p : α → Bool) : Table α where
  rows := t.rows.filter (fun a => !p a)
  next := t.next
  pos := t.pos
  nodup := t.nodup.sublist (filter_sublist.map key)
  bounds := fun a ha => t.bounds a (mem_of_mem_filter ha)

def insert (t : Table α) (a : α) : Table α where
  rows := t.rows ++ [setKey a t.next]
  next := t.next + 1
  pos := Nat.succ_pos t.next
  nodup := by
    rw [map_append, nodup_append]
    refine ⟨t.nodup, by simp, ?_⟩
    intro k hk k' hk'
    have ⟨a, ha, hak⟩ := mem_map.mp hk
    have := (t.bounds a ha).2
    simp only [map_cons, map_nil, mem_singleton, key_setKey] at hk'
    omega
  bounds := by
    intro b hb
    rw [mem_append, mem_singleton] at hb
    obtain hb | hb := hb
    . have := t.bounds b hb
      omega
    . have := t.pos
      rw [hb, key_setKey]
      omega

variable {t : Table α} {a b : α} {p : α → Bool}

theorem ext_rows (hrows : t.rows = u.rows) (hnext : t.next = u.next) : t = u := by
  cases t
  cases u
  congr

theorem eq_of_key (ha : a ∈ t) (hb : b ∈ t) (h : key a = key b) : a = b :=
  inj_on_of_nodup_map t.nodup ha hb h

theorem mem_update : b ∈ t.update p f ↔ ∃ a ∈ t, b = if p a then setKey (f a) (key a) else a := by
  simp only [mem_def, update, mem_map, eq_comm]

theorem forall_mem_update {P : α → Prop} {f : α → α}
    : (∀ b ∈ t.update p f, P b) ↔ ∀ a ∈ t, P (if p a then setKey (f a) (key a) else a) := by
  simp only [mem_update]
  constructor
  . exact fun h a ha => h _ ⟨a, ha, rfl⟩
  . intro h b ⟨a, ha, hb⟩
    rw [hb]
    exact h a ha

theorem mem_update_key (ha : a ∈ t)
    : b ∈ t.update (fun r => key r == key a) f ↔ (b ∈ t ∧ key b ≠ key a) ∨ b = setKey (f a) (key a) := by
  rw [mem_update]
  constructor
  . intro ⟨r, hr, hb⟩
    by_cases hkey : key r = key a
    . rw [eq_of_key hr ha hkey] at hb
      exact .inr (by simpa using hb)
    . rw [if_neg (by simpa using hkey)] at hb
      exact .inl (hb ▸ ⟨hr, hkey⟩)
  . intro h
    obtain h | h := h
    . exact ⟨b, h.1, by simp [h.2]⟩
    . exact ⟨a, ha, by simp [h]⟩

@[simp]
theorem mem_delete : a ∈ t.delete p ↔ a ∈ t ∧ p a = false := by
  simp [mem_def, delete]

@[simp]
theorem mem_insert : b ∈ t.insert a ↔ b ∈ t ∨ b = setKey a t.next := by
  simp [mem_def, insert]

@[simp]
theorem mem_filter : a ∈ t.filter p ↔ a ∈ t ∧ p a = true := by
  simp [mem_def, filter]

theorem find?_eq_some (h : t.find? p = some a) : a ∈ t ∧ p a = true :=
  ⟨mem_of_find?_eq_some h, find?_some h⟩

theorem byKey?_eq_some : t.byKey? k = some a ↔ a ∈ t ∧ key a = k := by
  constructor
  . intro h
    have ⟨hmem, hkey⟩ := find?_eq_some h
    exact ⟨hmem, by simpa using hkey⟩
  . intro ⟨hmem, hkey⟩
    cases hfind : t.byKey? k with
    | none =>
      have := find?_eq_none.mp hfind a hmem
      simp [hkey] at this
    | some b =>
      have ⟨hb, hkb⟩ := find?_eq_some hfind
      rw [eq_of_key hb hmem (by simpa [hkey] using hkb)]

theorem byKey?_update
    : (t.update p f).byKey? k = (t.byKey? k).map (fun a => if p a then setKey (f a) (key a) else a) := by
  show List.find? _ (t.rows.map _) = _
  rw [find?_map]
  congr 2
  funext a
  simp only [Function.comp_apply]
  split
  . rw [key_setKey]
  . rfl

theorem byKey?_update_key (ha : a ∈ t)
    : (t.update (fun r => key r == key a) f).byKey? k
        =
      if k = key a then some (setKey (f a) (key a)) else t.byKey? k := by
  rw [byKey?_update]
  split
  . next h => simp [h, byKey?_eq_some.mpr ⟨ha, rfl⟩]
  . next h =>
    cases hk : t.byKey? k with
    | none => rfl
    | some b => simp [(byKey?_eq_some.mp hk).2, h]

theorem byKey?_insert
    : (t.insert a).byKey? k = if k = t.next then some (setKey a t.next) else t.byKey? k := by
  split
  . next hk => exact byKey?_eq_some.mpr ⟨mem_insert.mpr (.inr rfl), (key_setKey _ _).trans hk.symm⟩
  . next hk =>
    have hnew : List.find? (fun b => key b == k) [setKey a t.next] = none := by
      simp only [find?_singleton, key_setKey, beq_iff_eq]
      rw [if_neg (fun h => hk h.symm)]
    show List.find? _ (t.rows ++ [setKey a t.next]) = _
    rw [find?_append, hnew, Option.or_none]
    rfl

theorem filter_update_of_false (h : ∀ a, p a = true → q (setKey (f a) (key a)) = false)
    : (t.update p f).filter q = (t.filter q).filter (fun a => !p a) := by
  show List.filter _ (List.map _ _) = List.filter _ (List.filter _ _)
  rw [filter_map, filter_filter, filter_congr (q := fun a => !p a && q a), map_congr_left,
    map_id']
  . intro a ha
    have hboth := of_mem_filter ha
    rw [Bool.and_eq_true, Bool.not_eq_true'] at hboth
    simp [hboth.1]
  . intro a _
    cases hp : p a with
    | true => simp [hp, h a hp]
    | false => simp [hp]

theorem filter_key (ha : a ∈ t) : t.filter (fun r => key r == key a) = [a] := by
  have hnodup : (t.filter (fun r => key r == key a)).Nodup := t.nodup.of_map.filter _
  have hperm : (t.filter (fun r => key r == key a)).Perm [a] := by
    rw [perm_ext_iff_of_nodup hnodup (nodup_singleton a)]
    intro b
    rw [mem_filter, mem_singleton, beq_iff_eq]
    constructor
    . exact fun h => eq_of_key h.1 ha h.2
    . intro h
      rw [h]
      exact ⟨ha, rfl⟩
  exact perm_singleton.mp hperm

theorem rows_delete_insert : ((t.insert a).delete (fun r => key r == t.next)).rows = t.rows := by
  have hold : t.rows.filter (fun r => !(key r == t.next)) = t.rows := by
    rw [filter_eq_self]
    intro r hr
    have := (t.bounds r hr).2
    simp only [Bool.not_eq_true', beq_eq_false_iff_ne]
    omega
  show (t.rows ++ [setKey a t.next]).filter _ = t.rows
  rw [filter_append, hold]
  simp [key_setKey]

theorem mem_of_take (h : t.take k = some a) : a ∈ t := by
  unfold take at h
  split at h
  . exact mem_of_mem_head? h
  . exact (byKey?_eq_some.mp h).1

end Table
