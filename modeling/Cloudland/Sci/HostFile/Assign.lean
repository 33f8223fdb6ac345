import Cloudland.Sci.HostFile.TaskPart

/-!
How `update_mapping` gives the hosts of a line their ids.
-/

namespace Sci.HostFile

open CString StdString Check List

section Least

variable {used : List Int}

theorem leastUnused_notMem (used : List Int) : (leastUnused used : Int) ∉ used := Nat.find_spec (exists_unused used)

theorem leastUnused_eq (hi : 0 ≤ i) (hused : ∀ j, 0 ≤ j → j < i → j ∈ used) (hnot : i ∉ used)
    : (leastUnused used : Int) = i := by
  have hfind : leastUnused used = i.toNat := by
    rw [leastUnused, Nat.find_eq_iff, Int.toNat_of_nonneg hi]
    refine ⟨hnot, fun n hn h => h (hused n ?_ ?_)⟩
    . omega
    . omega
  rw [hfind]
  exact Int.toNat_of_nonneg hi

end Least

structure BEMap.Holds (m : BEMap) (e : List (Int × CString)) : Prop where
  entries : m.mapping.entries = (e.map (fun p => ⟨p.1, p.2⟩)).reverse
  nonneg : ∀ i ∈ ids e, 0 ≤ i
  firstEmpty_nonneg : 0 ≤ m.firstEmpty
  below : ∀ i, 0 ≤ i → i < m.firstEmpty → i ∈ ids e

namespace BEMap.Holds

variable {m : BEMap} {e : List (Int × CString)}

theorem empty : Holds {} [] where
  entries := rfl
  nonneg := by simp [ids]
  firstEmpty_nonneg := Int.le_refl 0
  below := by
    intro i hi hlt
    exact absurd hi (Int.not_le.mpr hlt)

section Holds

variable (h : m.Holds e)

include h

theorem keys : m.mapping.keys = (ids e).reverse := by
  rw [AList.keys, List.keys, h.entries, List.map_reverse, List.map_map]
  rfl

theorem nodup : (ids e).Nodup := by
  rw [← nodup_reverse, ← h.keys]
  exact m.mapping.keys_nodup

theorem size : m.size = e.length := by
  rw [BEMap.size, h.keys, length_reverse, ids, length_map]

theorem mem_iff : i ∈ m.mapping ↔ i ∈ ids e := by
  rw [AList.mem_keys, h.keys, mem_reverse]

theorem find_iff : m.find i = some host ↔ (i, host) ∈ e := by
  rw [find, ← Option.mem_def, AList.mem_lookup_iff, h.entries, mem_reverse, mem_map]
  constructor
  . intro ⟨p, hp, heq⟩
    cases heq
    exact hp
  . intro hmem
    exact ⟨_, hmem, rfl⟩

theorem isFull_iff : m.isFull num ↔ 0 < num ∧ num ≤ e.length := by
  rw [isFull, h.size]

theorem insert {i firstEmpty : Int} (host : CString) (hi : 0 ≤ i) (hnot : i ∉ ids e)
    (hfirst : 0 ≤ firstEmpty) (hbelow : ∀ j, 0 ≤ j → j < firstEmpty → j ∈ ids e ∨ j = i)
    : Holds ⟨m.mapping.insert i host, firstEmpty⟩ (e ++ [(i, host)]) where
  entries := by
    rw [AList.entries_insert_of_notMem (mt h.mem_iff.mp hnot), h.entries]
    simp
  nonneg := by
    intro j hj
    simp only [ids, map_append, map_cons, map_nil, mem_append, mem_singleton] at hj
    obtain hj | hj := hj
    . exact h.nonneg j hj
    . exact hj ▸ hi
  firstEmpty_nonneg := hfirst
  below := by
    intro j hj hlt
    simpa [ids] using hbelow j hj hlt

theorem maxId_eq_some {maxId : Int} (hmax : m.maxId = some maxId)
    : maxId ∈ ids e ∧ ∀ i ∈ ids e, i ≤ maxId := by
  rw [BEMap.maxId, max?_eq_some_iff, h.keys] at hmax
  simpa using hmax

end Holds

end BEMap.Holds

namespace BEMap

variable {m m' : BEMap} {e : List (Int × CString)} {num : Int} {rc : Rc}

section Search

variable {first stop i : Int} {p : Int → Bool}

theorem mem_indices : i ∈ indices first stop ↔ first ≤ i ∧ i < stop := by
  rw [indices, mem_map]
  constructor
  . intro ⟨k, hk, heq⟩
    rw [mem_range] at hk
    omega
  . intro ⟨hle, hlt⟩
    refine ⟨(i - first).toNat, mem_range.mpr ?_, ?_⟩
    . omega
    . omega

theorem find?_indices (h : (indices first stop).find? p = some i)
    : p i = true ∧ first ≤ i ∧ i < stop ∧ ∀ j, first ≤ j → j < i → p j = false := by
  have hmem := mem_indices.mp (mem_of_find?_eq_some h)
  refine ⟨find?_some h, hmem.1, hmem.2, ?_⟩
  intro j hle hlt
  rw [find?_eq_some_iff_getElem] at h
  have ⟨_, k, hk, heq, hbefore⟩ := h
  simp only [indices, length_map, length_range, getElem_map, getElem_range] at hk heq hbefore
  have hj := hbefore (j - first).toNat (by omega)
  rw [show first + ((j - first).toNat : Int) = j by omega] at hj
  simpa using hj

end Search

theorem used_of_search (h : m.Holds e) {i : Int} (hsearch : ∀ j, m.firstEmpty ≤ j → j < i → j ∈ m.mapping)
    : ∀ j, 0 ≤ j → j < i → j ∈ ids e := by
  intro j hj hlt
  by_cases hbelow : j < m.firstEmpty
  . exact h.below j hj hbelow
  . exact h.mem_iff.mp (hsearch j (Int.not_lt.mp hbelow) hlt)

theorem nextIndex_eq_ok (h : m.Holds e) {index firstEmpty : Int} (hnext : m.nextIndex = .ok (index, firstEmpty))
    : (leastUnused (ids e) : Int) = index ∧ 0 ≤ firstEmpty ∧
      ∀ j, 0 ≤ j → j < firstEmpty → j ∈ ids e ∨ j = index := by
  have hfirst := h.firstEmpty_nonneg
  unfold nextIndex at hnext
  split at hnext
  . next hmax =>
    rw [maxId, max?_eq_none_iff, h.keys, reverse_eq_nil_iff] at hmax
    rw [pure_eq_ok, Prod.mk.injEq] at hnext
    obtain ⟨hindex, hempty⟩ := hnext
    subst hindex hempty
    rw [hmax]
    refine ⟨leastUnused_eq (Int.le_refl 0) (by omega) (by simp), by decide, ?_⟩
    intro j hj hlt
    exact .inr (by omega)
  . next maxId hmax =>
    obtain ⟨hmem, hle⟩ := h.maxId_eq_some hmax
    split at hnext
    . next i hfind =>
      obtain ⟨hi, hge, _, hbefore⟩ := find?_indices hfind
      rw [pure_eq_ok, Prod.mk.injEq] at hnext
      obtain ⟨hindex, hempty⟩ := hnext
      subst hindex hempty
      have hused := used_of_search h (fun j hj hlt => by simpa using hbefore j hj hlt)
      refine ⟨leastUnused_eq (by omega) hused (by simpa [h.mem_iff] using hi), by omega, ?_⟩
      intro j hj hlt
      by_cases heq : j = i
      . exact .inr heq
      . exact .inl (hused j hj (by omega))
    . next hfind =>
      simp only [bind_eq_ok, pure_eq_ok, int_eq_ok, Prod.mk.injEq] at hnext
      obtain ⟨i, ⟨_, hi⟩, hindex, hempty⟩ := hnext
      subst hi hindex hempty
      rw [find?_eq_none] at hfind
      have hused := @used_of_search _ _ h (maxId + 1) (by
        intro j hj hlt
        by_cases hlast : j = maxId
        . exact hlast ▸ h.mem_iff.mpr hmem
        . simpa using hfind j (mem_indices.mpr (by omega)))
      have hnonneg := h.nonneg maxId hmem
      refine ⟨leastUnused_eq (by omega) hused ?_, hfirst, ?_⟩
      . intro hindex
        have := hle _ hindex
        omega
      . intro j hj hlt
        exact .inl (h.below j hj hlt)

def Within (num : Int) (e : List (Int × CString)) : Prop := 0 < num → (e.length : Int) ≤ num

def Assigned (num : Int) (e : List (Int × CString)) (rc : Rc) (m : BEMap) : Prop :=
  match rc with
  | .success => Within num e ∧ m.Holds e
  | .full => 0 < num ∧ num < e.length ∧ m.Holds (e.take num.toNat)

theorem assigned_full (h : m.Holds e) (hwithin : Within num e) (hfull : m.isFull num)
    : Assigned num (e ++ p :: rest) .full m := by
  rw [h.isFull_iff] at hfull
  have hle := hwithin hfull.1
  have htake : (e ++ p :: rest).take num.toNat = e := by
    rw [show num.toNat = e.length by omega, take_left]
  refine ⟨hfull.1, ?_, ?_⟩
  . simp only [length_append, length_cons]
    omega
  . rw [htake]
    exact h

theorem within_append (h : m.Holds e) (hnot : ¬m.isFull num) : Within num (e ++ [p]) := by
  intro hpos
  rw [h.isFull_iff] at hnot
  simp only [length_append, length_singleton]
  omega

theorem assignHosts_eq_ok {hosts : List CString} (h : m.Holds e) (hwithin : Within num e)
    (hok : assignHosts num hosts m = .ok (rc, m'))
    : Assigned num (e ++ numbered (ids e) hosts) rc m' := by
  induction hosts generalizing m e with
  | nil =>
    rw [assignHosts, pure_eq_ok, Prod.mk.injEq] at hok
    rw [numbered, append_nil, ← hok.1, ← hok.2]
    exact ⟨hwithin, h⟩
  | cons host hosts ih =>
    rw [assignHosts] at hok
    split at hok
    . next hfull =>
      rw [pure_eq_ok, Prod.mk.injEq] at hok
      rw [numbered, ← hok.1, ← hok.2]
      exact assigned_full h hwithin hfull
    . next hnot =>
      simp only [bind_eq_ok, Prod.exists] at hok
      obtain ⟨index, firstEmpty, hnext, hrest⟩ := hok
      obtain ⟨hindex, hfirst, hbelow⟩ := nextIndex_eq_ok h hnext
      have hholds := h.insert host (hindex ▸ Int.natCast_nonneg _) (hindex ▸ leastUnused_notMem (ids e)) hfirst hbelow
      have hassigned := ih hholds (within_append h hnot) hrest
      rw [numbered, hindex]
      rw [append_assoc, ids, map_append] at hassigned
      exact hassigned

theorem assignTasks_eq_ok {hosts : List CString} (hlength : tids.length = hosts.length)
    (h : m.Holds e) (hwithin : Within num e) (hok : assignTasks num tids hosts m = .ok (rc, m'))
    : Assigned num (e ++ tids.zip hosts) rc m' := by
  induction tids generalizing m e hosts with
  | nil =>
    rw [assignTasks, pure_eq_ok, Prod.mk.injEq] at hok
    rw [zip_nil_left, append_nil, ← hok.1, ← hok.2]
    exact ⟨hwithin, h⟩
  | cons tid tids ih =>
    cases hosts with
    | nil => nomatch hlength
    | cons host hosts =>
      rw [assignTasks] at hok
      split at hok
      . nomatch hok
      . next hnonneg =>
        split at hok
        . nomatch hok
        . next hfresh =>
          rw [zip_cons_cons]
          split at hok
          . next hfull =>
            rw [pure_eq_ok, Prod.mk.injEq] at hok
            rw [← hok.1, ← hok.2]
            exact assigned_full h hwithin hfull
          . next hnot =>
            have hholds := h.insert host (Int.not_lt.mp hnonneg) (mt h.mem_iff.mpr hfresh) h.firstEmpty_nonneg
              (fun j hj hlt => .inl (h.below j hj hlt))
            have hassigned := ih (Nat.succ.inj hlength) hholds (within_append h hnot) hok
            rw [append_assoc] at hassigned
            exact hassigned

end BEMap

end Sci.HostFile
