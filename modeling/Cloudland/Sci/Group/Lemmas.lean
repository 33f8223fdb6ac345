import Cloudland.Sci.Group.Impl

/-!
The verification of `Group::Add` and `Group::Delete`, also from a position that an earlier call returned.
-/

namespace Sci.RangeList

open List

@[simp]
theorem ids_nil : ids [] = ∅ := by
  simp [ids]

@[simp]
theorem ids_cons (x : Range) (xs : List Range) : ids (x :: xs) = x.ids ∪ ids xs := by
  ext i
  simp [ids]

@[simp]
theorem ids_append (xs ys : List Range) : ids (xs ++ ys) = ids xs ∪ ids ys := by
  induction xs with
  | nil => simp
  | cons x xs ih => simp [ih, Set.union_assoc]

theorem wellFormed_nil : WellFormed [] := ⟨by simp, by simp⟩

variable {x : Range}

theorem wellFormed_cons
    : WellFormed (x :: xs) ↔ x.NonEmpty ∧ (∀ y ∈ xs, x.last < y.first) ∧ WellFormed xs := by
  constructor
  . intro h
    have hsep := pairwise_cons.mp h.separated
    have hne := forall_mem_cons.mp h.nonEmpty
    exact ⟨hne.1, hsep.1, hne.2, hsep.2⟩
  . rintro ⟨hx, hxs, h⟩
    exact ⟨forall_mem_cons.mpr ⟨hx, h.nonEmpty⟩, pairwise_cons.mpr ⟨hxs, h.separated⟩⟩

theorem wellFormed_append
    : WellFormed (xs ++ ys) ↔ WellFormed xs ∧ WellFormed ys ∧ ∀ x ∈ xs, ∀ y ∈ ys, x.last < y.first := by
  induction xs with
  | nil => simp [wellFormed_nil]
  | cons x xs ih =>
    simp only [cons_append, wellFormed_cons, ih, mem_append, forall_mem_cons]
    grind

variable {l : List Range}

theorem wellFormed_take_drop (h : WellFormed l) (pos : Nat)
    : WellFormed (l.take pos)
        ∧
      WellFormed (l.drop pos)
        ∧
      ∀ x ∈ l.take pos, ∀ y ∈ l.drop pos, x.last < y.first := by
  rw [← wellFormed_append, take_append_drop]
  exact h

theorem ids_take_drop (l : List Range) (pos : Nat) : ids (l.take pos) ∪ ids (l.drop pos) = ids l := by
  rw [← ids_append, take_append_drop]

theorem absorb_first_le (h : ∀ y ∈ ys, x.first ≤ y.first) : ∀ z ∈ absorb x ys, x.first ≤ z.first := by
  induction ys generalizing x with
  | nil => simp [absorb]
  | cons y ys ih =>
    rw [forall_mem_cons] at h
    unfold absorb
    split
    . have hu : (x.union y).first = x.first := by
        simpa using h.1
      rw [← hu] at h ⊢
      exact ih h.2
    . simpa using h

theorem absorb_spec (hx : x.NonEmpty) (hys : WellFormed ys) (h : ∀ y ∈ ys, x.first ≤ y.first)
    : WellFormed (absorb x ys) ∧ ids (absorb x ys) = x.ids ∪ ids ys := by
  induction ys generalizing x with
  | nil => simp [absorb, wellFormed_cons, wellFormed_nil, hx]
  | cons y ys ih =>
    rw [wellFormed_cons] at hys
    rw [forall_mem_cons] at h
    obtain ⟨hy, hsep, hys⟩ := hys
    unfold absorb
    split
    . next ht =>
      have hfirst : ∀ z ∈ ys, (x.union y).first ≤ z.first := by
        intro z hz
        have := h.2 z hz
        simp only [Range.union_first]
        omega
      have hu := ih (Range.union_nonEmpty hx) hys hfirst
      refine ⟨hu.1, ?_⟩
      rw [hu.2, Range.ids_union hx hy ht, ids_cons, Set.union_assoc]
    . next ht =>
      rw [Range.touches_iff hx hy] at ht
      have hxy : x.last < y.first := by
        unfold Range.NonEmpty at hx hy
        omega
      refine ⟨?_, by simp⟩
      rw [wellFormed_cons, wellFormed_cons]
      refine ⟨hx, ?_, hy, hsep, hys⟩
      intro z hz
      rw [mem_cons] at hz
      rcases hz with rfl | hz
      . exact hxy
      . have := hsep z hz
        unfold Range.NonEmpty at hy
        omega

structure ScanSpec (r : Range) (s : Set Int) (res : List Range × Nat) : Prop where
  wf : WellFormed res.1
  ids_eq : ids res.1 = s
  pos_le : res.2 ≤ res.1.length
  pos : ∀ z ∈ res.1.take res.2, z.last ≤ r.first

variable {r : Range}

theorem addFrom_first (h : WellFormed l)
    : ∀ z ∈ (addFrom r l).1, r.first ≤ z.first ∨ ∃ x ∈ l, x.first ≤ z.first := by
  induction l with
  | nil => simp [addFrom]
  | cons x xs ih =>
    rw [wellFormed_cons] at h
    obtain ⟨hx, hsep, hxs⟩ := h
    unfold addFrom
    split
    . intro z hz
      have hle : ∀ y ∈ xs, (r.union x).first ≤ y.first := by
        intro y hy
        have := hsep y hy
        unfold Range.NonEmpty at hx
        simp only [Range.union_first]
        omega
      have := absorb_first_le hle z hz
      rcases inf_le_iff.mp this with h | h
      . exact Or.inl h
      . exact Or.inr ⟨x, by simp, h⟩
    . split
      . intro z hz
        rcases mem_cons.mp hz with rfl | hz
        . exact Or.inl (le_refl _)
        . exact Or.inr ⟨z, hz, le_refl _⟩
      . intro z hz
        rcases mem_cons.mp hz with rfl | hz
        . exact Or.inr ⟨z, by simp, le_refl _⟩
        . rcases ih hxs z hz with h | ⟨y, hy, h⟩
          . exact Or.inl h
          . exact Or.inr ⟨y, mem_cons_of_mem _ hy, h⟩

theorem addFrom_spec (hr : r.NonEmpty) (h : WellFormed l) : ScanSpec r (ids l ∪ r.ids) (addFrom r l) := by
  induction l with
  | nil =>
    simp only [addFrom]
    exact ⟨by simp [wellFormed_cons, wellFormed_nil, hr], by simp, by simp, by simp⟩
  | cons x xs ih =>
    have hxxs := h
    rw [wellFormed_cons] at h
    obtain ⟨hx, hsep, hxs⟩ := h
    have htouch := Range.touches_iff hr hx
    unfold addFrom
    split
    . next ht =>
      have hle : ∀ y ∈ xs, (r.union x).first ≤ y.first := by
        intro y hy
        have := hsep y hy
        unfold Range.NonEmpty at hx
        simp only [Range.union_first]
        omega
      obtain ⟨hwf, hids⟩ := absorb_spec (Range.union_nonEmpty hr) hxs hle
      refine ⟨hwf, ?_, by simp, by simp⟩
      rw [hids, Range.ids_union hr hx ht, ids_cons]
      ac_rfl
    . next ht =>
      rw [htouch] at ht
      split
      . next hb =>
        simp only [Range.isBefore, decide_eq_true_eq] at hb
        refine ⟨?_, by rw [ids_cons, Set.union_comm], by simp, by simp⟩
        rw [wellFormed_cons]
        refine ⟨hr, ?_, hxxs⟩
        rw [forall_mem_cons]
        unfold Range.NonEmpty at hr hx
        refine ⟨by omega, ?_⟩
        intro y hy
        have := hsep y hy
        omega
      . next hb =>
        simp only [Range.isBefore, decide_eq_true_eq] at hb
        have hxr : x.last < r.first := by
          unfold Range.NonEmpty at hr hx
          omega
        have hrec := ih hxs
        refine ⟨?_, ?_, by simpa using hrec.pos_le, ?_⟩
        . rw [wellFormed_cons]
          refine ⟨hx, ?_, hrec.wf⟩
          intro z hz
          rcases addFrom_first hxs z hz with h | ⟨y, hy, h⟩
          . omega
          . have := hsep y hy
            omega
        . rw [ids_cons, hrec.ids_eq, ids_cons, Set.union_assoc]
        . rw [take_succ_cons, forall_mem_cons]
          exact ⟨by omega, hrec.pos⟩

variable {pos : Nat}

theorem ScanSpec.append
    (hle : pos ≤ l.length) (hpos : ∀ x ∈ l.take pos, x.last ≤ r.first)
    (hsep : ∀ x ∈ l.take pos, ∀ z ∈ res.1, x.last < z.first) (hwf : WellFormed l) (h : ScanSpec r s res)
    : ScanSpec r (ids (l.take pos) ∪ s) (l.take pos ++ res.1, pos + res.2) := by
  have hlen : (l.take pos).length = pos := by
    simpa using hle
  refine ⟨?_, ?_, ?_, ?_⟩
  . exact wellFormed_append.mpr ⟨(wellFormed_take_drop hwf pos).1, h.wf, hsep⟩
  . rw [ids_append, h.ids_eq]
  . have := h.pos_le
    simp only [length_append, hlen]
    omega
  . intro z hz
    rw [take_append, hlen, Nat.add_sub_cancel_left] at hz
    rcases mem_append.mp hz with hz | hz
    . exact hpos z (mem_of_mem_take hz)
    . exact h.pos z hz

theorem addAt.scan_spec (hr : r.NonEmpty)
    (h : WellFormed l) (hle : pos ≤ l.length) (hpos : ∀ x ∈ l.take pos, x.last < r.first)
    : ScanSpec r (ids l ∪ r.ids) (addAt.scan l r pos) := by
  obtain ⟨-, hdrop, hsep⟩ := wellFormed_take_drop h pos
  have hfirst : ∀ x ∈ l.take pos, ∀ z ∈ (addFrom r (l.drop pos)).1, x.last < z.first := by
    intro x hx z hz
    rcases addFrom_first hdrop z hz with h | ⟨y, hy, h⟩
    . have := hpos x hx
      omega
    . have := hsep x hx y hy
      omega
  rw [← ids_take_drop l pos, Set.union_assoc]
  exact (addFrom_spec hr hdrop).append hle (fun x hx => le_of_lt (hpos x hx)) hfirst h

theorem last_le_getLast (h : WellFormed l) (hz : l.getLast? = some z)
    : ∀ x ∈ l, x.last ≤ z.last := by
  obtain ⟨xs, rfl⟩ := getLast?_eq_some_iff.mp hz
  obtain ⟨-, hzs, hsep⟩ := wellFormed_append.mp h
  have hne : z.first < z.last := hzs.nonEmpty z (by simp)
  intro x hx
  rcases mem_append.mp hx with hx | hx
  . have := hsep x hx z (by simp)
    omega
  . rw [mem_singleton.mp hx]

theorem addAt_spec (hr : r.NonEmpty) (h : WellFormed l)
    (hle : pos ≤ l.length) (hpos : ∀ x ∈ l.take pos, x.last < r.first)
    : ScanSpec r (ids l ∪ r.ids) (addAt l r pos) := by
  unfold addAt
  split
  . next z hz =>
    split
    . next hshort =>
      -- `r` neither touches the last range nor lies before it, so it lies behind the whole list
      have hzne := h.nonEmpty z (mem_of_getLast? hz)
      have htouch := Range.touches_iff hr hzne
      have hbehind : ∀ x ∈ l, x.last < r.first := by
        intro x hx
        have := last_le_getLast h hz x hx
        simp only [Range.isBefore, Bool.and_eq_true, Bool.not_eq_true', ← Bool.not_eq_true,
          decide_eq_true_eq, htouch] at hshort
        omega
      refine ⟨?_, by simp, by simp, ?_⟩
      . rw [wellFormed_append, wellFormed_cons]
        exact ⟨h, ⟨hr, by simp, wellFormed_nil⟩, by simpa using hbehind⟩
      . rw [take_left]
        exact fun x hx => le_of_lt (hbehind x hx)
    . exact addAt.scan_spec hr h hle hpos
  . exact addAt.scan_spec hr h hle hpos

theorem deleteRest_bounds (hr : r.NonEmpty) (h : WellFormed l)
    : ∀ z ∈ deleteRest r l, ∃ x ∈ l, x.first ≤ z.first := by
  induction l with
  | nil => simp [deleteRest]
  | cons x xs ih =>
    rw [wellFormed_cons] at h
    have hrec := ih h.2.2
    unfold deleteRest
    split
    . intro z hz
      obtain ⟨y, hy, hyz⟩ := hrec z hz
      exact ⟨y, mem_cons_of_mem _ hy, hyz⟩
    . intro z hz
      rcases mem_cons.mp hz with rfl | hz
      . exact ⟨x, by simp, (Range.difference_bounds h.1 hr).1⟩
      . obtain ⟨y, hy, hyz⟩ := hrec z hz
        exact ⟨y, mem_cons_of_mem _ hy, hyz⟩

theorem ids_subset_of_contains (h : r.contains x = true) : x.ids ⊆ r.ids := by
  simp only [Range.contains, Bool.and_eq_true, decide_eq_true_eq] at h
  intro i hi
  simp only [Range.mem_ids] at hi ⊢
  omega

theorem deleteRest_spec (hr : r.NonEmpty) (h : WellFormed l) (hsplit : ∀ x ∈ l, r.splits x = false)
    : WellFormed (deleteRest r l) ∧ ids (deleteRest r l) = ids l \ r.ids := by
  induction l with
  | nil => simp [deleteRest, wellFormed_nil]
  | cons x xs ih =>
    rw [wellFormed_cons] at h
    rw [forall_mem_cons] at hsplit
    obtain ⟨hx, hsep, hxs⟩ := h
    obtain ⟨hwf, hids⟩ := ih hxs hsplit.2
    unfold deleteRest
    split
    . next hc =>
      refine ⟨hwf, ?_⟩
      rw [hids, ids_cons, Set.union_sdiff_distrib, Set.sdiff_eq_empty.mpr (ids_subset_of_contains hc),
        Set.empty_union]
    . next hc =>
      obtain ⟨hd, hdne⟩ := Range.ids_difference hx hr hsplit.1 (by simpa using hc)
      refine ⟨?_, ?_⟩
      . rw [wellFormed_cons]
        refine ⟨hdne, ?_, hwf⟩
        intro z hz
        obtain ⟨y, hy, hyz⟩ := deleteRest_bounds hr hxs z hz
        have := hsep y hy
        have := (Range.difference_bounds hx hr).2
        omega
      . rw [ids_cons, hids, hd, ids_cons, Set.union_sdiff_distrib]

theorem deleteFrom_first (hr : r.NonEmpty) (h : WellFormed l)
    : ∀ z ∈ (deleteFrom r l).1, ∃ x ∈ l, x.first ≤ z.first := by
  induction l with
  | nil => simp [deleteFrom]
  | cons x xs ih =>
    have hxxs := h
    rw [wellFormed_cons] at h
    unfold deleteFrom
    split
    . next hint =>
      rw [Range.intersects_iff hr h.1] at hint
      split
      . intro z hz
        simp only [mem_cons] at hz
        rcases hz with rfl | rfl | hz
        . exact ⟨x, by simp, le_refl _⟩
        . exact ⟨x, by simp, by dsimp only; omega⟩
        . exact ⟨z, mem_cons_of_mem _ hz, le_refl _⟩
      . exact deleteRest_bounds hr hxxs
    . split
      . exact fun z hz => ⟨z, hz, le_refl _⟩
      . intro z hz
        rcases mem_cons.mp hz with rfl | hz
        . exact ⟨z, by simp, le_refl _⟩
        . obtain ⟨y, hy, hyz⟩ := ih h.2.2 z hz
          exact ⟨y, mem_cons_of_mem _ hy, hyz⟩

theorem ids_disjoint_of_behind (h : ∀ x ∈ l, r.last ≤ x.first) : ids l \ r.ids = ids l := by
  rw [sdiff_eq_left, Set.disjoint_left]
  rintro i ⟨x, hx, hi⟩ hr
  have := h x hx
  simp only [Range.mem_ids] at hi hr
  omega

theorem deleteFrom_spec (hr : r.NonEmpty) (h : WellFormed l)
    : ScanSpec r (ids l \ r.ids) (deleteFrom r l) := by
  induction l with
  | nil =>
    simp only [deleteFrom]
    exact ⟨wellFormed_nil, by simp, by simp, by simp⟩
  | cons x xs ih =>
    have hxxs := h
    rw [wellFormed_cons] at h
    obtain ⟨hx, hsep, hxs⟩ := h
    have hint := Range.intersects_iff hr hx
    unfold deleteFrom
    split
    . next h =>
      rw [hint] at h
      split
      . next hs =>
        -- only the range that is split meets `r`, the ranges behind it start after its end
        simp only [Range.splits, Bool.and_eq_true, decide_eq_true_eq] at hs
        have hbehind : ∀ y ∈ xs, r.last ≤ y.first := by
          intro y hy
          have := hsep y hy
          omega
        refine ⟨?_, ?_, by simp, by simp⟩
        . simp only [wellFormed_cons, forall_mem_cons]
          refine ⟨hs.1, ⟨hr, ?_⟩, hs.2, hsep, hxs⟩
          intro y hy
          have := hbehind y hy
          unfold Range.NonEmpty at hr
          omega
        . rw [ids_cons, ids_cons, ids_cons, Set.union_sdiff_distrib, ids_disjoint_of_behind hbehind,
            ← Set.union_assoc]
          congr 1
          ext i
          simp only [Set.mem_union, Range.mem_ids, Set.mem_sdiff]
          omega
      . next hs =>
        have hsplit : ∀ y ∈ x :: xs, r.splits y = false := by
          rw [forall_mem_cons]
          refine ⟨by simpa using hs, ?_⟩
          intro y hy
          have := hsep y hy
          simp only [Range.splits, Bool.and_eq_false_iff, decide_eq_false_iff_not]
          omega
        obtain ⟨hwf, hids⟩ := deleteRest_spec hr hxxs hsplit
        exact ⟨hwf, hids, by simp, by simp⟩
    . next h =>
      rw [hint] at h
      split
      . next hb =>
        simp only [Range.isBefore, decide_eq_true_eq] at hb
        refine ⟨hxxs, ?_, by simp, by simp⟩
        rw [ids_disjoint_of_behind]
        rw [forall_mem_cons]
        refine ⟨hb, ?_⟩
        intro y hy
        have := hsep y hy
        unfold Range.NonEmpty at hx
        omega
      . next hb =>
        simp only [Range.isBefore, decide_eq_true_eq] at hb
        have hxr : x.last ≤ r.first := by
          unfold Range.NonEmpty at hr hx
          omega
        have hrec := ih hxs
        refine ⟨?_, ?_, by simpa using hrec.pos_le, ?_⟩
        . rw [wellFormed_cons]
          refine ⟨hx, ?_, hrec.wf⟩
          intro z hz
          obtain ⟨y, hy, hyz⟩ := deleteFrom_first hr hxs z hz
          have := hsep y hy
          omega
        . rw [ids_cons, hrec.ids_eq, ids_cons, Set.union_sdiff_distrib]
          congr 1
          ext i
          simp only [Range.mem_ids, Set.mem_sdiff]
          omega
        . rw [take_succ_cons, forall_mem_cons]
          exact ⟨hxr, hrec.pos⟩

theorem deleteAt_spec (hr : r.NonEmpty) (h : WellFormed l)
    (hle : pos ≤ l.length) (hpos : ∀ x ∈ l.take pos, x.last ≤ r.first)
    : ScanSpec r (ids l \ r.ids) (deleteAt l r pos) := by
  obtain ⟨-, hdrop, hsep⟩ := wellFormed_take_drop h pos
  have hfirst : ∀ x ∈ l.take pos, ∀ z ∈ (deleteFrom r (l.drop pos)).1, x.last < z.first := by
    intro x hx z hz
    obtain ⟨y, hy, hyz⟩ := deleteFrom_first hr hdrop z hz
    have := hsep x hx y hy
    omega
  have htake : ids (l.take pos) \ r.ids = ids (l.take pos) := by
    rw [sdiff_eq_left, Set.disjoint_left]
    rintro i ⟨x, hx, hi⟩ hir
    have := hpos x hx
    simp only [Range.mem_ids] at hi hir
    omega
  rw [← ids_take_drop l pos, Set.union_sdiff_distrib, htake]
  exact (deleteFrom_spec hr hdrop).append hle hpos hfirst h

theorem ScanSpec.next {r' : Range} {res : List Range × Nat} (h : ScanSpec r s res)
    (hr : r.NonEmpty) (hlt : r.last < r'.first)
    : ∀ z ∈ res.1.take res.2, z.last < r'.first := by
  intro z hz
  have := h.pos z hz
  unfold Range.NonEmpty at hr
  omega

section WellFormed

variable (hrs : WellFormed rs) (h : WellFormed l)

include hrs h

theorem addAll.go_spec (hle : pos ≤ l.length) (hpos : ∀ r ∈ rs, ∀ x ∈ l.take pos, x.last < r.first)
    : WellFormed (addAll.go l pos rs) ∧ ids (addAll.go l pos rs) = ids l ∪ ids rs := by
  induction rs generalizing l pos with
  | nil => simp [addAll.go, h]
  | cons r rs ih =>
    rw [wellFormed_cons] at hrs
    obtain ⟨hr, hsep, hrs⟩ := hrs
    have hstep := addAt_spec hr h hle (hpos r (by simp))
    obtain ⟨hwf, hids⟩ := ih hrs hstep.wf hstep.pos_le (fun r' hr' => hstep.next hr (hsep r' hr'))
    refine ⟨hwf, ?_⟩
    rw [addAll.go, hids, hstep.ids_eq, ids_cons, Set.union_assoc]

theorem addAll_spec : WellFormed (addAll l rs) ∧ ids (addAll l rs) = ids l ∪ ids rs :=
  addAll.go_spec hrs h (by simp) (by simp)

theorem deleteAll.go_spec (hle : pos ≤ l.length) (hpos : ∀ r ∈ rs, ∀ x ∈ l.take pos, x.last ≤ r.first)
    : WellFormed (deleteAll.go l pos rs) ∧ ids (deleteAll.go l pos rs) = ids l \ ids rs := by
  induction rs generalizing l pos with
  | nil => simp [deleteAll.go, h]
  | cons r rs ih =>
    rw [wellFormed_cons] at hrs
    obtain ⟨hr, hsep, hrs⟩ := hrs
    have hstep := deleteAt_spec hr h hle (hpos r (by simp))
    obtain ⟨hwf, hids⟩ := ih hrs hstep.wf hstep.pos_le
      (fun r' hr' z hz => le_of_lt (hstep.next hr (hsep r' hr') z hz))
    refine ⟨hwf, ?_⟩
    rw [deleteAll.go, hids, hstep.ids_eq, ids_cons, Set.sdiff_sdiff]

theorem deleteAll_spec : WellFormed (deleteAll l rs) ∧ ids (deleteAll l rs) = ids l \ ids rs :=
  deleteAll.go_spec hrs h (by simp) (by simp)

end WellFormed

theorem hasMember_iff : hasMember l i = true ↔ i ∈ ids l := by
  induction l with
  | nil => simp [hasMember]
  | cons x xs ih =>
    rw [hasMember, ids_cons, Set.mem_union, Range.mem_ids]
    split
    . have : ¬(x.first ≤ i ∧ i < x.last) := by omega
      simp only [ih, this, false_or]
    . split
      . have : x.first ≤ i ∧ i < x.last := by omega
        simp [this]
      . have : ¬(x.first ≤ i ∧ i < x.last) := by omega
        simp only [ih, this, false_or]

theorem mem_members : i ∈ members l ↔ i ∈ ids l := by
  simp only [members, mem_flatMap, mem_map, mem_range, ids, Set.mem_ofPred_eq,
    Range.mem_ids]
  constructor
  . rintro ⟨x, hx, k, hk, rfl⟩
    exact ⟨x, hx, by omega⟩
  . rintro ⟨x, hx, hi⟩
    exact ⟨x, hx, (i - x.first).toNat, by omega, by omega⟩

theorem members_pairwise (h : WellFormed l) : (members l).Pairwise (fun i j => i < j) := by
  induction l with
  | nil => simp [members]
  | cons x xs ih =>
    rw [wellFormed_cons] at h
    obtain ⟨hx, hsep, hxs⟩ := h
    rw [members, flatMap_cons, pairwise_append]
    refine ⟨?_, ih hxs, ?_⟩
    . rw [pairwise_map]
      exact pairwise_lt_range.imp (by omega)
    . intro i hi j hj
      obtain ⟨y, hy, hjy⟩ := mem_members.mp hj
      have := hsep y hy
      simp only [mem_map, mem_range] at hi
      obtain ⟨k, hk, rfl⟩ := hi
      rw [Range.mem_ids] at hjy
      omega

theorem length_members (h : WellFormed l) : ((members l).length : Int) = size l := by
  induction l with
  | nil => simp [members, size]
  | cons x xs ih =>
    rw [wellFormed_cons] at h
    have hx : x.first < x.last := h.1
    have hrec := ih h.2.2
    simp only [members, size, flatMap_cons, length_append, length_map,
      length_range, map_cons, sum_cons] at hrec ⊢
    omega

theorem first_le_of_mem_ids (h : WellFormed (x :: xs)) (hi : i ∈ ids (x :: xs)) : x.first ≤ i := by
  rw [wellFormed_cons] at h
  have hx : x.first < x.last := h.1
  obtain ⟨y, hy, hi⟩ := hi
  rw [Range.mem_ids] at hi
  rcases mem_cons.mp hy with rfl | hy
  . exact hi.1
  . have := h.2.1 y hy
    omega

theorem last_not_mem_ids (h : WellFormed (x :: xs)) : x.last ∉ ids (x :: xs) := by
  rw [wellFormed_cons] at h
  rintro ⟨y, hy, hi⟩
  rw [Range.mem_ids] at hi
  rcases mem_cons.mp hy with rfl | hy
  . omega
  . have := h.2.1 y hy
    omega

theorem head_le_of_ids_subset (hx : WellFormed (x :: xs))
    (hy : WellFormed (y :: ys)) (h : ids (x :: xs) = ids (y :: ys))
    : y.first ≤ x.first ∧ x.last ≤ y.last := by
  have hxne : x.first < x.last := hx.nonEmpty x (by simp)
  have hyne : y.first < y.last := hy.nonEmpty y (by simp)
  have hxy : y.first ≤ x.first := by
    apply first_le_of_mem_ids hy
    rw [← h]
    exact ⟨x, by simp, by simp [hxne]⟩
  have hyx : x.first ≤ y.first := by
    apply first_le_of_mem_ids hx
    rw [h]
    exact ⟨y, by simp, by simp [hyne]⟩
  refine ⟨hxy, ?_⟩
  -- otherwise the end of `y` would be an id of `x`, but no range of the second list holds it
  by_contra hlast
  apply last_not_mem_ids hy
  rw [← h]
  exact ⟨x, by simp, by rw [Range.mem_ids]; omega⟩

theorem eq_of_ids_eq (hl : WellFormed l) (hl' : WellFormed l') (h : ids l = ids l') : l = l' := by
  induction l generalizing l' with
  | nil =>
    cases l' with
    | nil => rfl
    | cons y ys =>
      have hy : y.first < y.last := hl'.nonEmpty y (by simp)
      have : y.first ∈ ids (y :: ys) := ⟨y, by simp, by simp [hy]⟩
      simp [← h] at this
  | cons x xs ih =>
    cases l' with
    | nil =>
      have hx : x.first < x.last := hl.nonEmpty x (by simp)
      have : x.first ∈ ids (x :: xs) := ⟨x, by simp, by simp [hx]⟩
      simp [h] at this
    | cons y ys =>
      have hxy := head_le_of_ids_subset hl hl' h
      have hyx := head_le_of_ids_subset hl' hl h.symm
      obtain rfl : x = y := by
        cases x
        cases y
        simp only [Range.mk.injEq] at hxy hyx ⊢
        omega
      rw [wellFormed_cons] at hl hl'
      have hdisj : ∀ {zs : List Range}, (∀ z ∈ zs, x.last < z.first)
          → ids zs = ids (x :: zs) \ x.ids := by
        intro zs hzs
        rw [ids_cons, Set.union_sdiff_left, ids_disjoint_of_behind]
        exact fun z hz => le_of_lt (hzs z hz)
      rw [ih hl.2.2 hl'.2.2 (by rw [hdisj hl.2.1, hdisj hl'.2.1, h])]

end Sci.RangeList
