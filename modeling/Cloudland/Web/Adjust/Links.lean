import Mathlib.Data.List.Dedup

/-!
The links between virtual machines and adjustment rules (`SyncVMLinksWithDevice`).
-/

namespace Web.Adjust

open List

-- the UUID of a rule group
abbrev Group := { uuid : String // uuid ≠ "" }

structure Link where
  group : String
  vm : String
  iface : String

@[grind ext]
structure Pair where
  vm : String
  iface : String
  deriving DecidableEq

def Link.pair (link : Link) : Pair := ⟨link.vm, link.iface⟩

def getLinkedVMs (links : List Link) (group : String) : List Link :=
  if group = "" then links else links.filter (·.group = group)

def createVMLink (group : String) (links : List Link) (pair : Pair) : List Link := links ++ [⟨group, pair.1, pair.2⟩]

def deletes (group : String) (pair : Pair) (link : Link) : Bool :=
  link.group = group && link.vm = pair.1 && (pair.2 = "" || link.iface = pair.2)

def deleteVMLink (group : String) (res : List Link × Nat) (pair : Pair) : List Link × Nat :=
  (res.1.filter (!deletes group pair ·), res.2 + res.1.countP (deletes group pair))

structure MapOrder where
  keys : List Pair → List Pair
  perm : ∀ l, (keys l).Perm l

structure Synced where
  links : List Link
  added : Nat
  removed : Nat
  toAdd : List Pair
  toRemove : List Pair

section Sync

variable (order : MapOrder) (links : List Link) (group : String) (newVMLinks : List Pair)

def toAdd : List Pair := order.keys (newVMLinks.dedup.filter (· ∉ (getLinkedVMs links group).map Link.pair))

def toRemove : List Pair := order.keys (((getLinkedVMs links group).map Link.pair).dedup.filter (· ∉ newVMLinks))

def syncVMLinksWithDevice : Synced :=
  let toAdd := toAdd order links group newVMLinks
  let toRemove := toRemove order links group newVMLinks
  let res := toRemove.foldl (deleteVMLink group) (toAdd.foldl (createVMLink group) links, 0)
  ⟨res.1, toAdd.length, res.2, toAdd, toRemove⟩

end Sync

def Linked (links : List Link) (group : String) (pair : Pair) : Prop := ⟨group, pair.1, pair.2⟩ ∈ links

structure Reached (links : List Link) (group : String) (requested : List Pair) (res : Synced) : Prop where
  pairs : ∀ pair, Linked res.links group pair ↔ pair ∈ requested
  others : res.links.filter (·.group ≠ group) = links.filter (·.group ≠ group)
  added : ∀ pair, pair ∈ res.toAdd ↔ pair ∈ requested ∧ ¬Linked links group pair
  removed : ∀ pair, pair ∈ res.toRemove ↔ Linked links group pair ∧ pair ∉ requested
  again : ∀ order, (syncVMLinksWithDevice order res.links group requested).links = res.links

variable {group : Group}

theorem mem_getLinkedVMs : pair ∈ (getLinkedVMs links group).map Link.pair ↔ Linked links group pair := by
  rw [getLinkedVMs, if_neg group.2, mem_map]
  constructor
  . rintro ⟨⟨g, vm, iface⟩, hlink, rfl⟩
    obtain ⟨hlink, hgroup⟩ := mem_filter.mp hlink
    cases of_decide_eq_true hgroup
    exact hlink
  . intro hlink
    exact ⟨_, mem_filter.mpr ⟨hlink, decide_eq_true rfl⟩, rfl⟩

theorem mem_toAdd
    : pair ∈ toAdd order links group requested ↔ pair ∈ requested ∧ ¬Linked links group pair := by
  rw [toAdd, (order.perm _).mem_iff, mem_filter, mem_dedup, decide_eq_true_eq, mem_getLinkedVMs]

theorem mem_toRemove
    : pair ∈ toRemove order links group requested ↔ Linked links group pair ∧ pair ∉ requested := by
  rw [toRemove, (order.perm _).mem_iff, mem_filter, mem_dedup, decide_eq_true_eq, mem_getLinkedVMs]

theorem foldl_createVMLink (pairs : List Pair) (links : List Link)
    : link ∈ pairs.foldl (createVMLink group) links ↔ link ∈ links ∨ link.group = group ∧ link.pair ∈ pairs := by
  induction pairs generalizing links with
  | nil => simp
  | cons pair pairs ih =>
    cases link
    simp [ih, createVMLink, Link.pair]
    grind

theorem foldl_deleteVMLink (pairs : List Pair) (res : List Link × Nat)
    : link ∈ (pairs.foldl (deleteVMLink group) res).1
        ↔
      link ∈ res.1 ∧ ∀ pair ∈ pairs, deletes group pair link = false := by
  induction pairs generalizing res with
  | nil => simp
  | cons pair pairs ih => simp [ih, deleteVMLink, and_assoc]

theorem filter_createVMLink (pairs : List Pair) (links : List Link)
    : (pairs.foldl (createVMLink group) links).filter (·.group ≠ group.1) = links.filter (·.group ≠ group.1) := by
  induction pairs generalizing links with
  | nil => rfl
  | cons pair pairs ih =>
    rw [foldl_cons, ih, createVMLink, filter_append]
    simp

theorem filter_deleteVMLink (pairs : List Pair) (res : List Link × Nat)
    : (pairs.foldl (deleteVMLink group) res).1.filter (·.group ≠ group.1) = res.1.filter (·.group ≠ group.1) := by
  induction pairs generalizing res with
  | nil => rfl
  | cons pair pairs ih =>
    rw [foldl_cons, ih, deleteVMLink, filter_filter]
    refine filter_congr (fun link _ => ?_)
    by_cases h : link.group = group.1 <;> simp [deletes, h]

theorem mem_links
    : link ∈ (syncVMLinksWithDevice order links group requested).links
        ↔
      (link ∈ links ∨ link.group = group ∧ link.pair ∈ requested ∧ ¬Linked links group link.pair) ∧
        ∀ pair, Linked links group pair ∧ pair ∉ requested → deletes group pair link = false := by
  simp only [syncVMLinksWithDevice, foldl_deleteVMLink, foldl_createVMLink, mem_toAdd, mem_toRemove]

theorem sync_of_pairs (h : ∀ pair, Linked links group pair ↔ pair ∈ requested)
    : (syncVMLinksWithDevice order links group requested).links = links := by
  have hadd : toAdd order links group requested = [] := by
    rw [eq_nil_iff_forall_not_mem]
    simp [mem_toAdd, h]
  have hremove : toRemove order links group requested = [] := by
    rw [eq_nil_iff_forall_not_mem]
    simp [mem_toRemove, h]
  rw [syncVMLinksWithDevice, hadd, hremove]
  rfl

theorem linked_sync_iff
    : (∀ pair, Linked (syncVMLinksWithDevice order links group requested).links group pair ↔ pair ∈ requested)
        ↔
      ∀ vm, Linked links group ⟨vm, ""⟩ → ⟨vm, ""⟩ ∈ requested ∨ ∀ pair ∈ requested, pair.1 ≠ vm := by
  simp only [Linked, mem_links]
  constructor
  . intro h vm hvm
    rw [or_iff_not_imp_left]
    rintro hnone pair hpair rfl
    have hkept := ((h pair).mpr hpair).2 _ ⟨hvm, hnone⟩
    simp [deletes] at hkept
  . intro h pair
    constructor
    . intro hmem
      by_contra hnot
      obtain hold | hnew := hmem.1
      . have hkept := hmem.2 pair ⟨hold, hnot⟩
        simp [deletes] at hkept
      . exact hnot hnew.2.1
    . intro hpair
      refine ⟨?_, ?_⟩
      . by_cases hold : Linked links group pair
        . exact .inl hold
        . exact .inr ⟨trivial, hpair, hold⟩
      . rintro ⟨vm, device⟩ ⟨hq, hnot⟩
        by_contra hdeletes
        simp only [deletes, decide_true, Bool.true_and, Bool.not_eq_false, Bool.and_eq_true, decide_eq_true_eq,
          Bool.or_eq_true] at hdeletes
        obtain ⟨rfl, rfl | rfl⟩ := hdeletes
        . obtain hmem | hnone := h _ hq
          . exact hnot hmem
          . exact hnone pair hpair rfl
        . exact hnot hpair

theorem reached_iff (order : MapOrder) (links : List Link) (group : Group) (requested : List Pair)
    : Reached links group requested (syncVMLinksWithDevice order links group requested)
        ↔
      ∀ vm, Linked links group ⟨vm, ""⟩ → ⟨vm, ""⟩ ∈ requested ∨ ∀ pair ∈ requested, pair.1 ≠ vm := by
  rw [← linked_sync_iff]
  constructor
  . exact Reached.pairs
  . intro h
    constructor
    case pairs => exact h
    case others => rw [syncVMLinksWithDevice, filter_deleteVMLink, filter_createVMLink]
    case added => exact fun pair => mem_toAdd
    case removed => exact fun pair => mem_toRemove
    case again => exact fun order => sync_of_pairs h

theorem requested_link_lost
    : ¬Reached [⟨"g", "vm", ""⟩] "g" [⟨"vm", "tap1"⟩]
        (syncVMLinksWithDevice ⟨id, .refl⟩ [⟨"g", "vm", ""⟩] "g" [⟨"vm", "tap1"⟩]) := by
  intro h
  have hlinked := (h.pairs ⟨"vm", "tap1"⟩).mpr (by simp)
  have hempty : (syncVMLinksWithDevice ⟨id, .refl⟩ [⟨"g", "vm", ""⟩] "g" [⟨"vm", "tap1"⟩]).links = [] := by rfl
  rw [Linked, hempty] at hlinked
  cases hlinked

end Web.Adjust
