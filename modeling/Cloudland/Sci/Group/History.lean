import Mathlib.Data.Int.Interval
import Cloudland.Sci.Group.Observers

/-!
The groups that calls of `Group::Add` and `Group::Delete` build from the empty group, and the sets that
the calls describe.
-/

namespace Sci

inductive History where
  | empty
  | add (h : History) (clientId : Int)
  | addRange (h : History) (r : Range)
  | addNext (h : History) (r : Range)
  | addGroup (h group : History)
  | delete (h : History) (clientId : Int)
  | deleteRange (h : History) (r : Range)
  | deleteNext (h : History) (r : Range)
  | deleteGroup (h group : History)
  deriving DecidableEq

namespace History

open RangeList CInt

def range (clientId : Int) : Range := ⟨clientId, wrap (clientId + 1)⟩

def run : History → List Range × Option Nat
  | empty => ([], none)
  | add h clientId =>
    let res := addAt h.run.1 (range clientId) 0
    (res.1, some res.2)
  | addRange h r =>
    let res := addAt h.run.1 r 0
    (res.1, some res.2)
  | addNext h r =>
    match h.run.2 with
    | some pos =>
      let res := addAt h.run.1 r pos
      (res.1, some res.2)
    | none => h.run
  | addGroup h group => (addAll h.run.1 group.run.1, none)
  | delete h clientId => ((deleteAt h.run.1 (range clientId) 0).1, none)
  | deleteRange h r => ((deleteAt h.run.1 r 0).1, none)
  | deleteNext h r =>
    match h.run.2 with
    | some pos =>
      let res := deleteAt h.run.1 r pos
      (res.1, some res.2)
    | none => h.run
  | deleteGroup h group => (deleteAll h.run.1 group.run.1, none)

def ids : History → Set Int
  | empty => ∅
  | add h clientId => h.ids ∪ {clientId}
  | addRange h r => h.ids ∪ r.ids
  | addNext h r => h.ids ∪ r.ids
  | addGroup h group => h.ids ∪ group.ids
  | delete h clientId => h.ids \ {clientId}
  | deleteRange h r => h.ids \ r.ids
  | deleteNext h r => h.ids \ r.ids
  | deleteGroup h group => h.ids \ group.ids

def Args : History → Prop
  | empty => True
  | add h clientId => h.Args ∧ IsInt clientId
  | addRange h r => h.Args ∧ IsInt r.first ∧ IsInt r.last ∧ r.NonEmpty
  | addNext h r => h.Args ∧ (IsInt r.first ∧ IsInt r.last ∧ r.NonEmpty) ∧ h.run.2.isSome
  | addGroup h group => h.Args ∧ group.Args
  | delete h clientId => h.Args ∧ IsInt clientId
  | deleteRange h r => h.Args ∧ IsInt r.first ∧ IsInt r.last ∧ r.NonEmpty
  | deleteNext h r => h.Args ∧ (IsInt r.first ∧ IsInt r.last ∧ r.NonEmpty) ∧ h.run.2.isSome
  | deleteGroup h group => h.Args ∧ group.Args

def Orderly : History → Prop
  | empty => True
  | add h clientId => h.Orderly ∧ IsInt (clientId + 1)
  | addRange h _ => h.Orderly
  | addNext h r => h.Orderly ∧ ∀ pos ∈ h.run.2, ∀ x ∈ h.run.1.take pos, x.last < r.first
  | addGroup h group => h.Orderly ∧ group.Orderly
  | delete h clientId => h.Orderly ∧ IsInt (clientId + 1)
  | deleteRange h _ => h.Orderly
  | deleteNext h r => h.Orderly ∧ ∀ pos ∈ h.run.2, ∀ x ∈ h.run.1.take pos, r.intersects x = false
  | deleteGroup h group => h.Orderly ∧ group.Orderly

structure Keeps (st : List Range × Option Nat) (s : Set Int) : Prop where
  wf : WellFormed st.1
  ids_eq : RangeList.ids st.1 = s
  pos_le : ∀ pos ∈ st.2, pos ≤ st.1.length
  isInt : ∀ i ∈ s, IsInt i ∧ IsInt (i + 1)

theorem isInt_of_mem_range {r : Range} (hfirst : IsInt r.first) (hlast : IsInt r.last)
    : ∀ i ∈ r.ids, IsInt i ∧ IsInt (i + 1) := by
  intro i hi
  rw [Range.mem_ids] at hi
  unfold IsInt at *
  omega

theorem range_nonEmpty (h : IsInt (clientId + 1)) : (range clientId).NonEmpty := by
  unfold range Range.NonEmpty
  rw [CInt.wrap_eq_iff.mpr h]
  exact Int.lt_succ clientId

theorem ids_range (h : IsInt (clientId + 1)) : (range clientId).ids = {clientId} := by
  ext i
  simp only [range, CInt.wrap_eq_iff.mpr h, Range.mem_ids, Set.mem_singleton_iff]
  omega

namespace Keeps

variable {l : List Range} {pos : Option Nat} {s : Set Int}

section Range

variable {r : Range} (h : Keeps (l, pos) s) (hr : r.NonEmpty) (hle : n ≤ l.length)

include h hr hle

theorem addAt (hbehind : ∀ x ∈ l.take n, x.last < r.first) (hint : ∀ i ∈ r.ids, IsInt i ∧ IsInt (i + 1))
    : Keeps ((RangeList.addAt l r n).1, some (RangeList.addAt l r n).2) (s ∪ r.ids) := by
  have hspec := addAt_spec hr h.wf hle hbehind
  refine ⟨hspec.wf, ?_, ?_, ?_⟩
  . rw [hspec.ids_eq, ← h.ids_eq]
  . intro p hp
    cases hp
    exact hspec.pos_le
  . intro i hi
    exact hi.elim (h.isInt i) (hint i)

theorem deleteAt (hapart : ∀ x ∈ l.take n, r.intersects x = false)
    : Keeps ((RangeList.deleteAt l r n).1, some (RangeList.deleteAt l r n).2) (s \ r.ids) := by
  have hwf : WellFormed l := h.wf
  have ⟨htake, hdrop, hsep⟩ := wellFormed_take_drop hwf n
  have hspec := deleteFrom_spec hr hdrop
  refine ⟨?_, ?_, ?_, fun i hi => h.isInt i hi.1⟩
  . rw [RangeList.deleteAt, wellFormed_append]
    refine ⟨htake, hspec.wf, ?_⟩
    intro x hx z hz
    have ⟨y, hy, hyz⟩ := deleteFrom_first hr hdrop z hz
    have hxy := hsep x hx y hy
    omega
  . have htaken : RangeList.ids (l.take n) \ r.ids = RangeList.ids (l.take n) := by
      rw [sdiff_eq_left, Set.disjoint_left]
      intro i ⟨x, hx, hi⟩ hir
      have hnot := hapart x hx
      have hiff := Range.intersects_iff hr (htake.nonEmpty x hx)
      rw [hnot] at hiff
      rw [Range.mem_ids] at hi hir
      have hboth := hiff.mpr (by omega)
      contradiction
    rw [RangeList.deleteAt, ids_append, hspec.ids_eq, ← htaken, ← Set.union_sdiff_distrib, ids_take_drop]
    exact congrArg (· \ r.ids) h.ids_eq
  . intro p hp
    cases hp
    have hlen := hspec.pos_le
    simp only [RangeList.deleteAt, List.length_append, List.length_take]
    omega

end Range

theorem forget (h : Keeps (l, pos) s) : Keeps (l, none) s := ⟨h.wf, h.ids_eq, by simp, h.isInt⟩

end Keeps

theorem run_keeps (h : History) (hargs : h.Args) (hord : h.Orderly) : Keeps h.run h.ids := by
  induction h with
  | empty => exact ⟨wellFormed_nil, ids_nil, by simp [run], by simp [ids]⟩
  | add h clientId ih =>
    have hkeeps := (ih hargs.1 hord.1).addAt (range_nonEmpty hord.2) (Nat.zero_le _) (by simp)
      (by rw [ids_range hord.2]; simpa using ⟨hargs.2, hord.2⟩)
    rwa [ids_range hord.2] at hkeeps
  | addRange h r ih =>
    have ⟨hargs, hfirst, hlast, hr⟩ := hargs
    exact (ih hargs hord).addAt hr (Nat.zero_le _) (by simp) (isInt_of_mem_range hfirst hlast)
  | addNext h r ih =>
    have ⟨hargs, ⟨hfirst, hlast, hr⟩, hsome⟩ := hargs
    have ⟨pos, hpos⟩ := Option.isSome_iff_exists.mp hsome
    have hkeeps := ih hargs hord.1
    have hnext := hkeeps.addAt hr (hkeeps.pos_le pos hpos) (hord.2 pos hpos) (isInt_of_mem_range hfirst hlast)
    simp only [run, hpos]
    exact hnext
  | addGroup h group ih ihg =>
    have hkeeps := ih hargs.1 hord.1
    have hgroup := ihg hargs.2 hord.2
    have ⟨hwf, hids⟩ := addAll_spec hgroup.wf hkeeps.wf
    refine ⟨hwf, ?_, by simp [run], ?_⟩
    . simp only [run, ids]
      rw [hids, hkeeps.ids_eq, hgroup.ids_eq]
    . intro i hi
      exact hi.elim (hkeeps.isInt i) (hgroup.isInt i)
  | delete h clientId ih =>
    have hkeeps := (ih hargs.1 hord.1).deleteAt (range_nonEmpty hord.2) (Nat.zero_le _) (by simp)
    rw [ids_range hord.2] at hkeeps
    exact hkeeps.forget
  | deleteRange h r ih =>
    have ⟨hargs, _, _, hr⟩ := hargs
    exact ((ih hargs hord).deleteAt hr (Nat.zero_le _) (by simp)).forget
  | deleteNext h r ih =>
    have ⟨hargs, ⟨_, _, hr⟩, hsome⟩ := hargs
    have ⟨pos, hpos⟩ := Option.isSome_iff_exists.mp hsome
    have hkeeps := ih hargs hord.1
    have hnext := hkeeps.deleteAt hr (hkeeps.pos_le pos hpos) (hord.2 pos hpos)
    simp only [run, hpos]
    exact hnext
  | deleteGroup h group ih ihg =>
    have hkeeps := ih hargs.1 hord.1
    have hgroup := ihg hargs.2 hord.2
    have ⟨hwf, hids⟩ := deleteAll_spec hgroup.wf hkeeps.wf
    refine ⟨hwf, ?_, by simp [run], fun i hi => hkeeps.isInt i hi.1⟩
    simp only [run, ids]
    rw [hids, hkeeps.ids_eq, hgroup.ids_eq]

end History

open RangeList CInt

structure Represents (l : List Range) (s : Set Int) : Prop where
  wf : WellFormed l
  finite : s.Finite
  hasMember : ∀ i, hasMember l i = true ↔ i ∈ s
  size : sizeT l = s.ncard ↔ s.ncard < 2 ^ 31
  visits : ∃ visited : List Int, visited.Pairwise (· < ·) ∧ (∀ i, i ∈ visited ↔ i ∈ s) ∧
    ∀ fuel, visited.length < fuel → visits fuel l = some visited
  index : ∀ i ∈ s, index l i = some ((s ∩ Set.Iio i).ncard : Int) ↔ (s ∩ Set.Iio i).ncard < 2 ^ 31

theorem ncard_of_nodup {l : List Int} (h : l.Nodup) : {i | i ∈ l}.ncard = l.length := by
  rw [← List.toFinset_card_of_nodup h, ← Set.ncard_coe_finset]
  simp

theorem ncard_le_of_isInt {s : Set Int} (h : ∀ i ∈ s, IsInt i) : s.ncard ≤ 2 ^ 32 := by
  have hsub : s ⊆ Finset.Ico (-2 ^ 31 : Int) (2 ^ 31) := by
    intro i hi
    have hint := h i hi
    unfold IsInt at hint
    simpa using hint
  have hle := Set.ncard_le_ncard hsub (Finset.finite_toSet _)
  rw [Set.ncard_coe_finset, Int.card_Ico] at hle
  exact hle

theorem History.Keeps.represents {st : List Range × Option Nat} (h : History.Keeps st s)
    : Represents st.1 s := by
  have hmembers : {i | i ∈ members st.1} = s := by
    ext i
    rw [Set.mem_ofPred_eq, mem_members, h.ids_eq]
  have hsorted := members_pairwise h.wf
  have hnodup := hsorted.imp ne_of_lt
  have hcard : s.ncard = (members st.1).length := by
    rw [← hmembers, ncard_of_nodup hnodup]
  have hinInt : InInt st.1 := by
    intro x hx
    have hne : x.first < x.last := h.wf.nonEmpty x hx
    have hfirst := h.isInt x.first (h.ids_eq ▸ ⟨x, hx, by rw [Range.mem_ids]; omega⟩)
    have hlast := h.isInt (x.last - 1) (h.ids_eq ▸ ⟨x, hx, by rw [Range.mem_ids]; omega⟩)
    rw [Int.sub_add_cancel] at hlast
    exact ⟨hfirst.1, hlast.2⟩
  constructor
  case wf => exact h.wf
  case finite =>
    rw [← hmembers]
    exact List.finite_toSet _
  case hasMember =>
    intro i
    rw [hasMember_iff, h.ids_eq]
  case size =>
    have hle := ncard_le_of_isInt (fun i hi => (h.isInt i hi).1)
    rw [sizeT_eq h.wf, ← hcard, wrap, Int.bmod_def]
    split
    . omega
    . omega
  case visits =>
    refine ⟨members st.1, hsorted, ?_, fun fuel hfuel => visits_eq h.wf hinInt hfuel⟩
    intro i
    rw [mem_members, h.ids_eq]
  case index =>
    intro i hi
    have hrank : (s ∩ Set.Iio i).ncard = ((members st.1).filter (· < i)).length := by
      rw [← ncard_of_nodup (hnodup.filter _), ← hmembers]
      congr 1
      ext j
      simp
    rw [index_eq h.wf (h.ids_eq.symm ▸ hi), ← hrank, Option.some.injEq, CInt.wrap_eq_iff]
    unfold IsInt
    omega

theorem groups_are_sets (h : History) (hargs : h.Args) (hord : h.Orderly)
    : Represents h.run.1 h.ids ∧
      ∀ h' : History, h'.Args → h'.Orderly → (equal h.run.1 h'.run.1 = true ↔ h.ids = h'.ids) := by
  have hkeeps := h.run_keeps hargs hord
  refine ⟨hkeeps.represents, ?_⟩
  intro h' hargs' hord'
  have hkeeps' := h'.run_keeps hargs' hord'
  rw [equal_iff, ← hkeeps.ids_eq, ← hkeeps'.ids_eq]
  constructor
  . intro heq
    rw [heq]
  . exact eq_of_ids_eq hkeeps.wf hkeeps'.wf

theorem groups_are_sets_next
    : Represents [⟨-2, 4⟩, ⟨6, 9⟩, ⟨11, 12⟩] ((∅ ∪ {3} ∪ Set.Ico 6 12 ∪ Set.Ico (-2) 3) \ Set.Ico 9 11) := by
  let h := (((History.empty.add 3).addNext ⟨6, 12⟩).addRange ⟨-2, 3⟩).deleteNext ⟨9, 11⟩
  have hrun : h.run.1 = [⟨-2, 4⟩, ⟨6, 9⟩, ⟨11, 12⟩] := by decide
  have hsets := groups_are_sets h
    ⟨⟨⟨⟨trivial, by decide⟩, by decide, by decide⟩, by decide⟩, by decide, by decide⟩
    ⟨⟨⟨trivial, by decide⟩, by decide⟩, by decide⟩
  rw [hrun] at hsets
  exact hsets.1

theorem groups_out_of_order
    : ∃ h h' : History, h.Args ∧ h'.Args ∧ h'.Orderly ∧ h.ids = h'.ids ∧ ¬WellFormed h.run.1 ∧
        equal h.run.1 h'.run.1 = false := by
  let h := ((History.empty.addRange ⟨0, 1⟩).addRange ⟨10, 11⟩).addRange ⟨20, 21⟩
  have hargs : h.Args := ⟨⟨⟨trivial, by decide⟩, by decide⟩, by decide⟩
  refine ⟨h.addNext ⟨5, 6⟩, h.addRange ⟨5, 6⟩, ⟨hargs, by decide, by decide⟩, ⟨hargs, by decide⟩, trivial, rfl,
    ?_, by decide⟩
  intro hwf
  exact absurd hwf.separated (by decide)

end Sci
