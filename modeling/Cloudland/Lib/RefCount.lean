import Mathlib.Data.List.Basic
import Mathlib.Data.List.Flatten

/-!
A heap of reference-counted cells, with the number of references to each.
-/

namespace RefCount

open List Option

structure Cell (α : Type u) where
  val : α
  refCount : Int
  deleted : Nat
  deriving DecidableEq

abbrev Heap (α : Type u) := List (Cell α)

variable {α : Type u}

namespace Heap

def setCount (h : Heap α) (id : Nat) (count : Int) : Heap α :=
  h.modify id (fun c => { c with refCount := count })

def inc (h : Heap α) (id : Nat) : Heap α := h.modify id (fun c => { c with refCount := c.refCount + 1 })

def dec (h : Heap α) (id : Nat) : Heap α :=
  h.modify id (fun c =>
    { c with
      refCount := c.refCount - 1
      deleted := if c.refCount - 1 = 0 then c.deleted + 1 else c.deleted })

def new (h : Heap α) (vals : List α) (count : Int) : Heap α := h ++ vals.map (⟨·, count, 0⟩)

end Heap

structure Ledger (h : Heap α) (refs : Nat → Nat) : Prop where
  count : ∀ (id : Nat) (c : Cell α), h[id]? = some c →
    c.refCount = refs id ∧ c.deleted = if refs id = 0 then 1 else 0
  outside : ∀ id, h.length ≤ id → refs id = 0

namespace Ledger

variable {h : Heap α} {refs refs' : Nat → Nat} {id : Nat}

theorem nil : Ledger ([] : Heap α) (fun _ => 0) := by
  constructor
  . simp
  . simp

section Ledger

variable (hl : Ledger h refs)

include hl

theorem congr (heq : ∀ id, refs' id = refs id) : Ledger h refs' := by
  rw [show refs' = refs from funext heq]
  exact hl

theorem lt_length (hid : 0 < refs id) : id < h.length := by
  by_contra hlen
  have := hl.outside id (by omega)
  omega

theorem modify {f : Cell α → Cell α} (hother : ∀ id', id' ≠ id → refs' id' = refs id')
    (hf : ∀ c, h[id]? = some c → c.refCount = refs id → (c.deleted = if refs id = 0 then 1 else 0) →
      (f c).refCount = refs' id ∧ (f c).deleted = if refs' id = 0 then 1 else 0)
    (hout : h.length ≤ id → refs' id = 0)
    : Ledger (h.modify id f) refs' := by
  constructor
  . intro id' c hc
    rw [getElem?_modify] at hc
    split at hc
    . next heq =>
      subst heq
      have ⟨c0, hc0, hfc⟩ := map_eq_some_iff.mp hc
      have ⟨hcount, hdel⟩ := hl.count id c0 hc0
      exact hfc ▸ hf c0 hc0 hcount hdel
    . next hne =>
      rw [hother id' (Ne.symm hne)]
      rw [Option.map_eq_map, Option.map_id_fun'] at hc
      exact hl.count id' c hc
  . intro id' hid'
    rw [length_modify] at hid'
    by_cases heq : id' = id
    . subst heq
      exact hout hid'
    . rw [hother id' heq]
      exact hl.outside id' hid'

theorem setCount (hpos : 0 < refs id) {count : Int} {n : Nat}
    (hcount : count = refs id + n) (hself : refs' id = refs id + n)
    (hother : ∀ id', id' ≠ id → refs' id' = refs id')
    : Ledger (h.setCount id count) refs' := by
  apply hl.modify hother
  . intro c _ _ hdel
    refine ⟨by simp only [hcount, hself]; omega, ?_⟩
    simp only [hdel, hself]
    rw [if_neg (by omega), if_neg (by omega)]
  . intro hlen
    have := hl.lt_length hpos
    omega

theorem inc (hpos : 0 < refs id) (hself : refs' id = refs id + 1)
    (hother : ∀ id', id' ≠ id → refs' id' = refs id')
    : Ledger (h.inc id) refs' := by
  apply hl.modify hother
  . intro c _ hcount hdel
    refine ⟨by simp only [hcount, hself]; omega, ?_⟩
    simp only [hdel, hself]
    rw [if_neg (by omega), if_neg (by omega)]
  . intro hlen
    have := hl.lt_length hpos
    omega

theorem dec (hself : refs id = refs' id + 1) (hother : ∀ id', id' ≠ id → refs' id' = refs id')
    : Ledger (h.dec id) refs' := by
  apply hl.modify hother
  . intro c _ hcount hdel
    rw [hself, if_neg (by omega)] at hdel
    refine ⟨by simp only [hcount, hself]; omega, ?_⟩
    simp only [hcount, hself, hdel]
    split <;> split <;> omega
  . intro hlen
    have := hl.outside id hlen
    omega

theorem new (vals : List α) {count : Nat} (hpos : 0 < count)
    (hnew : ∀ id, h.length ≤ id → id < h.length + vals.length → refs' id = count)
    (hold : ∀ id, ¬(h.length ≤ id ∧ id < h.length + vals.length) → refs' id = refs id)
    : Ledger (h.new vals count) refs' := by
  constructor
  . intro id c hc
    rw [Heap.new, getElem?_append] at hc
    split at hc
    . next hlt =>
      rw [hold id (by omega)]
      exact hl.count id c hc
    . next hlt =>
      rw [getElem?_map] at hc
      have ⟨val, hval, heq⟩ := map_eq_some_iff.mp hc
      have hlen := (List.getElem?_eq_some_iff.mp hval).1
      rw [hnew id (by omega) (by omega), ← heq, if_neg (by omega)]
      exact ⟨rfl, rfl⟩
  . intro id hid
    rw [Heap.new, length_append, length_map] at hid
    rw [hold id (by omega)]
    exact hl.outside id (by omega)

end Ledger

end Ledger

theorem count_flatten_set [BEq β] {ls : List (List β)} {i : Nat} {l l' : List β} (h : ls[i]? = some l) (x : β)
    : (ls.set i l').flatten.count x + l.count x = ls.flatten.count x + l'.count x := by
  induction ls generalizing i with
  | nil => simp at h
  | cons l0 ls ih =>
    cases i with
    | zero =>
      rw [getElem?_cons_zero, some.injEq] at h
      rw [set_cons_zero, flatten_cons, flatten_cons, count_append,
        count_append, h]
      omega
    | succ i =>
      rw [getElem?_cons_succ] at h
      have := ih h
      rw [set_cons_succ, flatten_cons, flatten_cons, count_append,
        count_append]
      omega

end RefCount
