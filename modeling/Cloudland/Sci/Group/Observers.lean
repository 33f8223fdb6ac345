import Mathlib.Data.Set.Card
import Mathlib.Algebra.Order.Ring.Int
import Cloudland.Lib.CInt
import Cloudland.Sci.Group.Lemmas

/-!
What is read off a group: `Group::size`, `Group::Index`, the iterator and `operator ==`, with the `int`
arithmetic of the source.
-/

namespace Sci

open List

open CInt (wrap IsInt)

namespace RangeList

/--
`Group::size`, which adds up in an `int` and returns a `size_t`.
-/
def sizeT (l : List Range) : Nat :=
  (l.foldl (fun (len : Int) (x : Range) => wrap (len + wrap (x.last - x.first))) 0 % 2 ^ 64).toNat

def indexFrom (clientId index : Int) : List Range → Option Int
  | [] => none
  | x :: xs =>
    if clientId < x.first then
      none
    else if clientId < x.last then
      some (wrap (wrap (index + clientId) - x.first))
    else
      indexFrom clientId (wrap (index + wrap (x.last - x.first))) xs

def index (l : List Range) (clientId : Int) : Option Int := indexFrom clientId 0 l

def equal (l l' : List Range) : Bool :=
  l.length == l'.length && (range l.length).all (fun i => l[i]? == l'[i]?)

structure Iterator where
  ranges : List Range
  clientId : Int
  deriving DecidableEq

namespace Iterator

def init : List Range → Iterator
  | [] => ⟨[], -1⟩
  | x :: xs => ⟨x :: xs, x.first⟩

def next (it : Iterator) : Option Iterator :=
  match it.ranges with
  | [] => none
  | x :: xs =>
    if wrap (it.clientId + 1) = x.last then
      some (init xs)
    else
      some ⟨x :: xs, wrap (it.clientId + 1)⟩

def visit : Nat → Iterator → Option (List Int)
  | 0, _ => none
  | fuel + 1, it =>
    if it = init [] then
      some []
    else do
      let it' ← it.next
      let rest ← visit fuel it'
      return it.clientId :: rest

end Iterator

def visits (fuel : Nat) (l : List Range) : Option (List Int) := (Iterator.init l).visit fuel

def InInt (l : List Range) : Prop := ∀ x ∈ l, IsInt x.first ∧ IsInt x.last

theorem equal_iff : equal l l' = true ↔ l = l' := by
  simp only [equal, Bool.and_eq_true, beq_iff_eq, all_eq_true, mem_range]
  constructor
  . intro ⟨hlen, hall⟩
    apply ext_getElem?
    intro i
    by_cases hi : i < l.length
    . exact hall i hi
    . rw [getElem?_eq_none (by omega), getElem?_eq_none (by omega)]
  . intro h
    simp [h]

theorem foldl_size (l : List Range) (n : Int)
    : l.foldl (fun len x => wrap (len + wrap (x.last - x.first))) (wrap n) = wrap (n + size l) := by
  induction l generalizing n with
  | nil => simp [size]
  | cons x xs ih =>
    rw [foldl_cons, CInt.wrap_add_left, CInt.wrap_add_right, ih]
    simp only [size, map_cons, sum_cons]
    rw [Int.add_assoc]

theorem sizeT_eq (h : WellFormed l) : sizeT l = (wrap (members l).length % 2 ^ 64).toNat := by
  have hfold := foldl_size l 0
  have hzero : wrap 0 = 0 := rfl
  rw [hzero, Int.zero_add] at hfold
  rw [sizeT, hfold, length_members h]

def walk (i : Int) (n : Nat) : List Int := (range n).map (fun k : Nat => i + k)

theorem walk_succ (i : Int) (n : Nat) : walk i (n + 1) = i :: walk (i + 1) n := by
  simp only [walk, range_succ_eq_map, map_cons, map_map, cons.injEq]
  refine ⟨by simp, map_congr_left ?_⟩
  intro k _
  simp only [Function.comp_apply, Nat.succ_eq_add_one, Nat.cast_add, Nat.cast_one]
  omega

theorem members_cons (x : Range) (xs : List Range)
    : members (x :: xs) = walk x.first (x.last - x.first).toNat ++ members xs := rfl

theorem length_filter_walk (clientId i : Int) (n : Nat)
    : ((walk i n).filter (· < clientId)).length = min n (clientId - i).toNat := by
  induction n generalizing i with
  | zero => simp [walk]
  | succ n ih =>
    rw [walk_succ, filter_cons]
    split
    . next hlt =>
      rw [length_cons, ih]
      simp only [decide_eq_true_eq] at hlt
      omega
    . next hlt =>
      rw [ih]
      simp only [decide_eq_true_eq] at hlt
      omega

theorem indexFrom_eq (h : WellFormed l) (hmem : clientId ∈ ids l) (n : Int)
    : indexFrom clientId (wrap n) l = some (wrap (n + ((members l).filter (· < clientId)).length)) := by
  induction l generalizing n with
  | nil => simp at hmem
  | cons x xs ih =>
    have ⟨hx, hsep, hxs⟩ := wellFormed_cons.mp h
    have hx : x.first < x.last := hx
    have hfirst := first_le_of_mem_ids h hmem
    rw [indexFrom, if_neg (by omega), members_cons, filter_append, length_append,
      length_filter_walk]
    split
    . next hlt =>
      have hbehind : (members xs).filter (· < clientId) = [] := by
        rw [filter_eq_nil_iff]
        intro i hi
        have ⟨y, hy, hi⟩ := mem_members.mp hi
        have hy := hsep y hy
        rw [Range.mem_ids] at hi
        simp only [decide_eq_true_eq]
        omega
      rw [hbehind, CInt.wrap_add_left, CInt.wrap_sub_left, length_nil]
      congr 2
      omega
    . next hlt =>
      have hmem : clientId ∈ ids xs := by
        rw [ids_cons, Set.mem_union, Range.mem_ids] at hmem
        exact hmem.resolve_left (by omega)
      rw [CInt.wrap_add_left, CInt.wrap_add_right, ih hxs hmem]
      congr 2
      omega

theorem index_eq (h : WellFormed l) (hmem : clientId ∈ ids l)
    : index l clientId = some (wrap ((members l).filter (· < clientId)).length) := by
  have hindex := indexFrom_eq h hmem 0
  have hzero : wrap 0 = 0 := rfl
  rwa [hzero, Int.zero_add] at hindex

namespace Iterator

theorem visit_eq (hwf : WellFormed (x :: xs)) (hint : InInt (x :: xs))
    (hfirst : x.first ≤ i) (hlast : i < x.last) (hfuel : (x.last - i).toNat + (members xs).length < fuel)
    : visit fuel ⟨x :: xs, i⟩ = some (walk i (x.last - i).toNat ++ members xs) := by
  induction fuel generalizing x xs i with
  | zero => omega
  | succ fuel ih =>
    have ⟨_, hsep, hxs⟩ := wellFormed_cons.mp hwf
    have hbounds := hint x (by simp)
    have hnext : wrap (i + 1) = i + 1 := by
      rw [CInt.wrap_eq_iff]
      unfold IsInt at *
      omega
    have hstep : (x.last - i).toNat = (x.last - (i + 1)).toNat + 1 := by omega
    have hnot : ¬(⟨x :: xs, i⟩ : Iterator) = init [] := by simp [init]
    rw [visit, if_neg hnot, next, hnext, hstep, walk_succ]
    dsimp only
    split
    . next hend =>
      have hzero : (x.last - (i + 1)).toNat = 0 := by omega
      rw [hzero]
      cases xs with
      | nil =>
        have hlen : fuel = (fuel - 1) + 1 := by omega
        rw [hlen]
        rfl
      | cons y ys =>
        have hy : y.first < y.last := hxs.nonEmpty y (by simp)
        rw [members_cons, length_append] at hfuel
        simp only [walk, length_map, length_range] at hfuel
        have hrec := ih hxs (fun z hz => hint z (mem_cons_of_mem _ hz)) (Int.le_refl y.first) hy (by omega)
        simp only [Option.bind_eq_bind, Option.bind_some, init, hrec]
        rfl
    . next hmore =>
      have hrec := ih hwf hint (i := i + 1) (by omega) (by omega) (by omega)
      simp only [Option.bind_eq_bind, Option.bind_some, hrec]
      rfl

end Iterator

theorem visits_eq (hwf : WellFormed l) (hint : InInt l) (hfuel : (members l).length < fuel)
    : visits fuel l = some (members l) := by
  cases l with
  | nil =>
    have hlen : fuel = (fuel - 1) + 1 := by omega
    rw [hlen]
    rfl
  | cons x xs =>
    have hx := hwf.nonEmpty x (by simp)
    rw [members_cons, length_append] at hfuel
    simp only [walk, length_map, length_range] at hfuel
    exact Iterator.visit_eq hwf hint (Int.le_refl _) hx (by omega)

end RangeList
end Sci
