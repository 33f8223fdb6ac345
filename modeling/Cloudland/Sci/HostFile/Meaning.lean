import Cloudland.Sci.HostFile.Input

/-!
When `input` accepts a file, and what the map has to do with the meaning of the file.
-/

namespace Sci.HostFile

open CString StdString Check List

section Placed

variable {e : List (Int × CString)} {num : Int} {lines before after : List HostLine} {l : HostLine}

theorem placed_append : placed e (before ++ after) = placed (placed e before) after := by
  induction before generalizing e with
  | nil => rfl
  | cons l before ih => exact ih

theorem prefix_placed : e <+: placed e lines := by
  induction lines generalizing e with
  | nil => exact prefix_rfl
  | cons l lines ih => exact (prefix_append e _).trans ih

theorem limited_of_within (h : BEMap.Within num e) : limited num e = e := by
  unfold limited
  split
  . next hpos => exact take_of_length_le (by have := h hpos; omega)
  . rfl

theorem limited_of_le (hfirst : e <+: e') (hpos : 0 < num) (hle : num ≤ e.length)
    : limited num e' = e.take num.toNat := by
  have ⟨rest, heq⟩ := hfirst
  rw [limited, if_pos hpos, ← heq, take_append_of_le_length (by omega)]

theorem length_numbered : (numbered used hosts).length = hosts.length := by
  induction hosts generalizing used with
  | nil => rfl
  | cons host hosts ih => rw [numbered, length_cons, length_cons, ih]

theorem length_place_le {used : List Int} : (l.place used).length ≤ l.hosts.length := by
  unfold HostLine.place
  split
  . rw [length_zip]
    exact Nat.min_le_right _ _
  . exact Nat.le_of_eq length_numbered

theorem hostCount_cons : hostCount (l :: lines) = l.hosts.length + hostCount lines := by
  rw [hostCount, flatMap_cons, length_append]
  rfl

theorem hostCount_append : hostCount (before ++ after) = hostCount before + hostCount after := by
  rw [hostCount, flatMap_append, length_append]
  rfl

theorem length_placed_le : (placed e lines).length ≤ e.length + hostCount lines := by
  induction lines generalizing e with
  | nil => exact Nat.le_refl _
  | cons l lines ih =>
    have hrest := @ih (e ++ l.place (ids e))
    have hplace := @length_place_le l (ids e)
    rw [length_append] at hrest
    rw [placed, hostCount_cons]
    omega

theorem length_placed (h : ∀ l ∈ lines, ∀ t, l.tasks = some t → t.ids.length = l.hosts.length)
    : (placed e lines).length = e.length + hostCount lines := by
  induction lines generalizing e with
  | nil => rfl
  | cons l lines ih =>
    have hplace : (l.place (ids e)).length = l.hosts.length := by
      unfold HostLine.place
      split
      . next t ht => rw [length_zip, h l mem_cons_self t ht, Nat.min_self]
      . exact length_numbered
    rw [placed, ih (fun k hk => h k (mem_cons_of_mem _ hk)), length_append, hplace, hostCount_cons]
    omega

end Placed

namespace BEMap

variable {m m' : BEMap} {e : List (Int × CString)} {num : Int} {lines : List HostLine}

def ReadToEnd (num : Int) (e : List (Int × CString)) (before : List HostLine) (l : HostLine) : Prop :=
  0 < num → ((placed e before).length : Int) < num ∧ ((placed e (before ++ [l])).length : Int) ≤ num

theorem not_readToEnd {before : List HostLine} {l : HostLine} {e' : List (Int × CString)} (hpos : 0 < num)
    (hlong : num ≤ e'.length) (hfirst : e' <+: placed e before)
    : ¬ReadToEnd num e before l := by
  intro hread
  have hlt := (hread hpos).1
  have hle := hfirst.length_le
  omega

theorem readLine_eq_ok {next} (h : readLine num l m next = .ok m')
    : isValidForm l.text = true ∧
      (m.expandLine l.text num = .ok (.full, m') ∨
        ∃ m1, m.expandLine l.text num = .ok (.success, m1) ∧ next m1 = .ok m') := by
  simp only [readLine, bind_eq_ok, require_eq_ok, Prod.exists] at h
  obtain ⟨_, hvalid, rc, m1, hexpand, hrest⟩ := h
  refine ⟨hvalid, ?_⟩
  cases rc with
  | full =>
    rw [pure_eq_ok] at hrest
    exact .inl (hrest ▸ hexpand)
  | success => exact .inr ⟨m1, hexpand, hrest⟩

theorem readLines_eq_ok (hchecked : ∀ l ∈ lines, l.Checked) (h : m.Holds e) (hwithin : Within num e)
    (hok : readLines num lines m = .ok m')
    : m'.Holds (limited num (placed e lines)) ∧
      ∀ before l after, lines = before ++ l :: after → ReadToEnd num e before l →
        l.hosts ≠ [] ∧ ∀ t, l.tasks = some t → t.Fits l.hosts (ids (placed e before)) := by
  induction lines generalizing m e with
  | nil =>
    rw [readLines, pure_eq_ok] at hok
    rw [placed, limited_of_within hwithin, ← hok]
    exact ⟨h, by simp⟩
  | cons k lines ih =>
    rw [readLines] at hok
    split at hok
    . next hfull =>
      rw [pure_eq_ok] at hok
      rw [h.isFull_iff] at hfull
      have hlength := hwithin hfull.1
      rw [limited_of_le prefix_placed hfull.1 hfull.2, take_of_length_le (by omega), ← hok]
      exact ⟨h, fun before l after _ hread => absurd hread (not_readToEnd hfull.1 hfull.2 prefix_placed)⟩
    . obtain ⟨hvalid, hcases⟩ := readLine_eq_ok hok
      obtain hfull | ⟨m1, hexpand, hrest⟩ := hcases
      . obtain ⟨⟨hpos, hlong, hholds⟩, _⟩ := expandLine_eq_ok hvalid (hchecked k mem_cons_self) h hwithin hfull
        rw [placed, limited_of_le prefix_placed hpos (Int.le_of_lt hlong)]
        refine ⟨hholds, ?_⟩
        intro before l after heq hread
        cases before with
        | nil =>
          cases heq
          have hle := (hread hpos).2
          rw [nil_append, placed, placed] at hle
          omega
        | cons b before =>
          cases heq
          exact absurd hread (not_readToEnd hpos (Int.le_of_lt hlong) prefix_placed)
      . obtain ⟨⟨hwithin', hholds⟩, hne, hfits⟩ :=
          expandLine_eq_ok hvalid (hchecked k mem_cons_self) h hwithin hexpand
        obtain ⟨hend, hlines⟩ := ih (fun l hl => hchecked l (mem_cons_of_mem _ hl)) hholds hwithin' hrest
        refine ⟨hend, ?_⟩
        intro before l after heq hread
        cases before with
        | nil =>
          cases heq
          exact ⟨hne, hfits rfl⟩
        | cons b before =>
          cases heq
          exact hlines before l after rfl hread

end BEMap

section Ids

variable {m : BEMap} {e : List (Int × CString)} {num : Int}

theorem find_isSome_iff (h : m.Holds e) : (m.find i).isSome ↔ i ∈ ids e := by
  rw [BEMap.find, AList.lookup_isSome, h.mem_iff]

theorem mem_ids_iff (h : m.Holds e) (hlt : ∀ i ∈ ids e, i < e.length) (i : Int)
    : i ∈ ids e ↔ 0 ≤ i ∧ i < e.length := by
  have hsubset : (ids e).toFinset ⊆ Finset.Ico (0 : Int) e.length := by
    intro j hj
    rw [mem_toFinset] at hj
    exact Finset.mem_Ico.mpr ⟨h.nonneg j hj, hlt j hj⟩
  have hcard : (Finset.Ico (0 : Int) e.length).card ≤ (ids e).toFinset.card := by
    rw [Int.card_Ico, toFinset_card_of_nodup h.nodup, ids, length_map]
    omega
  have heq := Finset.eq_of_subset_of_card_le hsubset hcard
  rw [← mem_toFinset, heq, Finset.mem_Ico]

theorem length_limited : (limited num e).length = if 0 < num then min num.toNat e.length else e.length := by
  unfold limited
  split
  . exact length_take
  . rfl

end Ids

section File

variable {f : File} {num : Int} {m : BEMap}

theorem tail_subset_lines (f : File) : ∀ l ∈ f.tail.line.toList, l ∈ f.lines := by
  intro l hl
  rw [File.lines, mem_filterMap]
  exact ⟨f.tail, by simp, Option.mem_toList.mp hl⟩

def BehindLimit (num : Int) (before : List HostLine) (l : HostLine) : Prop :=
  0 < num ∧ (num ≤ hostCount before ∨ num < hostCount (before ++ [l]))

theorem readToEnd_of_not {before : List HostLine} {l : HostLine} (h : ¬BehindLimit num before l)
    : BEMap.ReadToEnd num [] before l := by
  intro hpos
  have hbefore := @length_placed_le [] before
  have hline := @length_placed_le [] (before ++ [l])
  rw [length_nil] at hbefore hline
  unfold BehindLimit at h
  omega

theorem holds_of_input (hchecked : ∀ l ∈ f.lines, l.Checked) (h : BEMap.input f.text num = .ok m)
    : m.Holds (limited num (placed [] (f.lines ++ f.tail.line.toList))) ∧
      ∀ before l after, f.lines = before ++ l :: after → ¬BehindLimit num before l →
        l.hosts ≠ [] ∧ ∀ t, l.tasks = some t → t.Fits l.hosts (ids (placed [] before)) := by
  have ⟨hread, _⟩ := BEMap.input_eq_ok h
  have hall : ∀ l ∈ f.lines ++ f.tail.line.toList, l.Checked := by
    intro l hl
    obtain hl | hl := mem_append.mp hl
    . exact hchecked l hl
    . exact hchecked l (tail_subset_lines f l hl)
  have hempty : BEMap.Within num [] := fun hpos => Int.le_of_lt hpos
  have ⟨hholds, hlines⟩ := BEMap.readLines_eq_ok hall BEMap.Holds.empty hempty hread
  refine ⟨hholds, ?_⟩
  intro before l after heq hlimit
  apply hlines before l (after ++ f.tail.line.toList)
  . rw [heq, append_assoc, cons_append]
  . exact readToEnd_of_not hlimit

theorem length_of_tasks (htasks : ∀ before l after t, f.lines = before ++ l :: after → l.tasks = some t →
      t.Fits l.hosts (ids (placed [] before)))
    : (placed [] f.lines).length = hostCount f.lines := by
  rw [length_placed, length_nil, Nat.zero_add]
  intro l hl t ht
  have ⟨before, after, heq⟩ := append_of_mem hl
  exact (htasks before l after t heq ht).length

theorem tail_of_meant (hmeant : Meant f.lines num m) (hchecked : ∀ l ∈ f.lines, l.Checked)
    (h : BEMap.input f.text num = .ok m)
    : f.tail.line = none ∨ (0 < num ∧ num ≤ hostCount f.lines) := by
  by_contra hnot
  simp only [not_or] at hnot
  obtain ⟨l, hl⟩ := Option.ne_none_iff_exists'.mp hnot.1
  obtain ⟨hholds, hread⟩ := holds_of_input hchecked h
  have hlength := length_of_tasks hmeant.tasks
  have hlines : f.lines = f.rows.filterMap Row.line ++ l :: [] := by
    rw [File.lines, filterMap_append, filterMap_cons_some hl]
    rfl
  have hbehind : ¬BehindLimit num (f.rows.filterMap Row.line) l := by
    rintro ⟨hpos, hle⟩
    rw [hlines] at hnot
    rw [hostCount_append] at hnot hle
    omega
  obtain ⟨hne, hfits⟩ := hread _ l [] hlines hbehind
  have hplace : 0 < (l.place (ids (placed [] f.lines))).length := by
    rw [show (l.place (ids (placed [] f.lines))).length = l.hosts.length from ?_]
    . exact length_pos_iff.mpr hne
    . unfold HostLine.place
      split
      . next t ht => rw [length_zip, (hfits t ht).length, Nat.min_self]
      . exact length_numbered
  rw [hl, Option.toList_some, placed_append, placed, placed] at hholds
  -- what the map holds is more than the hosts of the file
  have hsubset : limited num (placed [] f.lines ++ l.place (ids (placed [] f.lines))) ⊆
      limited num (placed [] f.lines) := by
    intro p hp
    exact (hmeant.hosts p.1 p.2).mp (hholds.find_iff.mpr hp)
  have hnodup :=
    List.Nodup.of_map _ hholds.nodup
  have hle := (hnodup.subperm hsubset).length_le
  rw [length_limited, length_limited, length_append] at hle
  split at hle <;> omega

theorem input_meant_iff (h : BEMap.input f.text num = .ok m)
    : Meant f.lines num m
      ↔
      (∀ l ∈ f.lines, ∀ t, l.tasks = some t → t.Reversed → t.HasStride) ∧
      (∀ before l after t, f.lines = before ++ l :: after → l.tasks = some t → BehindLimit num before l →
        t.Fits l.hosts (ids (placed [] before))) ∧
      (f.tail.line = none ∨ (0 < num ∧ num ≤ hostCount f.lines)) := by
  constructor
  . intro hmeant
    have hchecked : ∀ l ∈ f.lines, l.Checked := by
      intro l hl t ht hreversed
      have ⟨before, after, heq⟩ := append_of_mem hl
      exact absurd hreversed (hmeant.tasks before l after t heq ht).ordered
    refine ⟨hchecked, ?_, tail_of_meant hmeant hchecked h⟩
    intro before l after t heq ht _
    exact hmeant.tasks before l after t heq ht
  . intro ⟨hchecked, hlimit, htail⟩
    have ⟨hholds, hread⟩ := holds_of_input hchecked h
    have htasks : ∀ before l after t, f.lines = before ++ l :: after → l.tasks = some t →
        t.Fits l.hosts (ids (placed [] before)) := by
      intro before l after t heq ht
      by_cases hbehind : BehindLimit num before l
      . exact hlimit before l after t heq ht hbehind
      . exact (hread before l after heq hbehind).2 t ht
    have hlimited : limited num (placed [] (f.lines ++ f.tail.line.toList)) = limited num (placed [] f.lines) := by
      obtain hnone | hreached := htail
      . rw [hnone, Option.toList_none, append_nil]
      . rw [placed_append, limited_of_le prefix_placed hreached.1 (by rw [length_of_tasks htasks]; exact hreached.2)]
        rw [limited, if_pos hreached.1]
    rw [hlimited] at hholds
    have ⟨_, maxId, hmax, hlt⟩ := BEMap.input_eq_ok h
    have hall : ∀ i ∈ ids (limited num (placed [] f.lines)), i < (limited num (placed [] f.lines)).length := by
      intro i hi
      have hle := (hholds.maxId_eq_some hmax).2 i hi
      rw [hholds.size] at hlt
      omega
    exact {
      ids := fun i => by rw [find_isSome_iff hholds, mem_ids_iff hholds hall, hholds.size]
      limit := by
        intro hpos
        rw [hholds.size, length_limited, if_pos hpos]
        omega
      hosts := fun i host => hholds.find_iff
      tasks := htasks }

def digit (c : UInt8) (h : isdigit c = true) : Digits := ⟨[c], by simp, by simpa using h⟩

def ranged (first last : Digits) : HostLine where
  front := [97]
  range := some ⟨digit 49 rfl, digit 50 rfl, none⟩
  back := []
  repetition := none
  tasks := some (.range ⟨false, first⟩ ⟨false, last⟩ none)
  plain_front := by
    intro c hc
    rw [mem_singleton.mp hc]
    decide
  plain_back := by simp

def blank : Row where
  text := []
  line := none
  newline := by decide
  reads := .inl rfl

def reversedFile : File where
  rows := [{
    text := (ranged (digit 53 rfl) (digit 51 rfl)).text
    line := some (ranged (digit 53 rfl) (digit 51 rfl))
    newline := by decide +kernel
    reads := by decide +kernel }]
  tail := blank

def orderedFile : File where
  rows := [{
    text := (ranged (digit 48 rfl) (digit 49 rfl)).text
    line := some (ranged (digit 48 rfl) (digit 49 rfl))
    newline := by decide +kernel
    reads := by decide +kernel }]
  tail := blank

theorem reversed_range_gets_automatic_ids
    : (BEMap.input reversedFile.text 0).map (fun m => (m.find 0, m.find 1)) = .ok (some [97, 49], some [97, 50]) ∧
      ∀ m, BEMap.input reversedFile.text 0 = .ok m → ¬Meant reversedFile.lines 0 m := by
  refine ⟨by decide +kernel, ?_⟩
  intro m _ hmeant
  exact (hmeant.tasks [] _ [] _ rfl rfl).ordered (by decide)

theorem ordered_range_meant : ∃ m, BEMap.input orderedFile.text 0 = .ok m ∧ Meant orderedFile.lines 0 m := by
  have hok : (BEMap.input orderedFile.text 0).isOk = true := by decide +kernel
  cases h : BEMap.input orderedFile.text 0 with
  | error e =>
    rw [h] at hok
    nomatch hok
  | ok m =>
    refine ⟨m, rfl, (input_meant_iff h).mpr ⟨?_, ?_, .inl rfl⟩⟩
    . intro l hl t ht hreversed
      rw [mem_singleton.mp hl] at ht
      cases ht
      exact absurd hreversed (by decide)
    . intro before l after t _ _ hbehind
      exact absurd hbehind.1 (Int.lt_irrefl 0)

end File

end Sci.HostFile
