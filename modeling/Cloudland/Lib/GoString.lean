import Mathlib.Data.List.DropRight
import Mathlib.Algebra.Group.Int.Defs

/-!
The functions of Go's package `strings` on texts, as lists: searches, and trimming at both ends; `strconv.ParseInt`.
-/

namespace GoString

open List

variable {α : Type u}

def trim (p : α → Bool) (s : List α) : List α := (s.dropWhile p).rdropWhile p

def Clean (p : α → Bool) (s : List α) : Prop := (∀ c ∈ s.head?, ¬p c) ∧ ∀ c ∈ s.getLast?, ¬p c

def isSpace (c : Char) : Bool :=
  c ∈ ['\t', '\n', '\x0b', '\x0c', '\r', ' ', '\u0085', '\u00a0', '\u1680', '\u2028', '\u2029', '\u202f',
    '\u205f', '\u3000'] || ('\u2000' ≤ c && c ≤ '\u200a')

def trimSpace (s : List Char) : List Char := trim isSpace s

instance (p : α → Bool) (s : List α) : Decidable (Clean p s) := inferInstanceAs (Decidable (_ ∧ _))

section Trim

variable {p : α → Bool} {s t : List α} {c : α}

theorem clean_append (hs : s ≠ []) (ht : t ≠ [])
    : Clean p (s ++ t) ↔ (∀ c ∈ s.head?, ¬p c) ∧ ∀ c ∈ t.getLast?, ¬p c := by
  rw [Clean, head?_append_of_ne_nil _ hs, getLast?_append_of_ne_nil _ ht]

@[simp]
theorem trim_cons_pos (h : p c) : trim p (c :: s) = trim p s := by
  rw [trim, dropWhile_cons_of_pos h, trim]

@[simp]
theorem trim_concat_pos (h : p c) : trim p (s ++ [c]) = trim p s := by
  unfold trim
  rw [dropWhile_append]
  split
  . next hnil =>
    rw [dropWhile_cons_of_pos h, isEmpty_iff.mp hnil]
    rfl
  . rw [rdropWhile_concat_pos _ _ _ h]

theorem clean_of_forall (h : ∀ c ∈ s, ¬p c) : Clean p s :=
  ⟨fun c hc => h c (mem_of_mem_head? hc), fun c hc => h c (mem_of_mem_getLast? hc)⟩

theorem trim_of_clean (h : Clean p s) : trim p s = s := by
  have hfront : s.dropWhile p = s := by
    cases s with
    | nil => rfl
    | cons c s => exact dropWhile_cons_of_neg (h.1 c rfl)
  rw [trim, hfront, rdropWhile_eq_self_iff]
  intro hne
  exact h.2 _ (getLast?_eq_some_getLast hne)

theorem exists_eq_trim : ∃ front back, s = front ++ trim p s ++ back := by
  refine ⟨s.takeWhile p, (s.dropWhile p).rtakeWhile p, ?_⟩
  rw [append_assoc, trim, rdropWhile_append_rtakeWhile, takeWhile_append_dropWhile]

theorem mem_of_mem_trim (h : c ∈ trim p s) : c ∈ s := by
  have ⟨front, back, hs⟩ := @exists_eq_trim _ p s
  rw [hs]
  simp [h]

theorem length_trim_le : (trim p s).length ≤ s.length := by
  have ⟨front, back, h⟩ := @exists_eq_trim _ p s
  have := congrArg length h
  simp only [length_append] at this
  omega

theorem trim_eq_self_iff : trim p s = s ↔ Clean p s := by
  constructor
  . intro h
    constructor
    . intro c hc hp
      have ⟨t, ht⟩ := head?_eq_some_iff.mp hc
      have hle := @length_trim_le _ p t
      rw [← trim_cons_pos hp, ← ht, h, ht, length_cons] at hle
      omega
    . intro c hc hp
      have ⟨t, ht⟩ := getLast?_eq_some_iff.mp hc
      have hle := @length_trim_le _ p t
      rw [← trim_concat_pos hp, ← ht, h, ht, length_append, length_singleton] at hle
      omega
  . exact trim_of_clean

end Trim

variable [DecidableEq α]

def index (sub : List α) : List α → Option Nat
  | [] => if sub = [] then some 0 else none
  | c :: s => if sub.isPrefixOf (c :: s) then some 0 else (index sub s).map (· + 1)

def lastIndex (sub : List α) : List α → Option Nat
  | [] => if sub = [] then some 0 else none
  | c :: s =>
    match lastIndex sub s with
    | some i => some (i + 1)
    | none => if sub.isPrefixOf (c :: s) then some 0 else none

def trimPrefix (s front : List α) : List α := if front.isPrefixOf s then s.drop front.length else s

def trimSuffix (s back : List α) : List α := if back.isSuffixOf s then s.take (s.length - back.length) else s

theorem lastIndex_eq_none {c : α} (h : c ∉ s) : lastIndex [c] s = none := by
  induction s with
  | nil => rfl
  | cons b s ih =>
    have ⟨hb, hs⟩ := not_or.mp (mt mem_cons.mpr h)
    simp [lastIndex, ih hs, isPrefixOf, hb]

def pairs (x y : α) : List α → Nat
  | a :: b :: s => (if a = x ∧ b = y then 1 else 0) + pairs x y (b :: s)
  | _ => 0

section Pairs

variable {x y c : α} {s t : List α}

theorem pairs_cons_of_ne (h : c ≠ x) : pairs x y (c :: s) = pairs x y s := by
  cases s with
  | nil => rfl
  | cons b s => simp [pairs, h]

theorem pairs_cons_of_head (h : ∀ b ∈ s.head?, b ≠ y) : pairs x y (c :: s) = pairs x y s := by
  cases s with
  | nil => rfl
  | cons b s => simp [pairs, h b rfl]

theorem pairs_cons_cons (h : y ≠ x) : pairs x y (x :: y :: s) = 1 + pairs x y s := by
  rw [pairs, pairs_cons_of_ne h]
  simp

theorem pairs_append_le : pairs x y s + pairs x y t ≤ pairs x y (s ++ t) := by
  fun_induction pairs x y s with
  | case1 a b s ih =>
    rw [cons_append, cons_append, pairs]
    rw [cons_append] at ih
    omega
  | case2 s hs =>
    cases s with
    | nil => simp
    | cons a s =>
      cases s with
      | nil =>
        cases t with
        | nil => simp [pairs]
        | cons b t => simp [pairs]
      | cons b s => exact absurd rfl (hs a b s)

theorem pairs_append_of_last (h : ∀ c ∈ s.getLast?, c ≠ x) : pairs x y (s ++ t) = pairs x y s + pairs x y t := by
  fun_induction pairs x y s with
  | case1 a b s ih =>
    have hlast : ∀ c ∈ (b :: s).getLast?, c ≠ x := by
      rw [getLast?_cons_cons] at h
      exact h
    rw [cons_append, cons_append, pairs, ← cons_append, ih hlast, Nat.add_assoc]
  | case2 s hs =>
    cases s with
    | nil => simp
    | cons a s =>
      cases s with
      | nil =>
        rw [singleton_append, pairs_cons_of_ne (h a rfl), Nat.zero_add]
      | cons b s => exact absurd rfl (hs a b s)

theorem pairs_trim_le : pairs x y (trim p s) ≤ pairs x y s := by
  have ⟨front, back, h⟩ := @exists_eq_trim _ p s
  have hleft := @pairs_append_le _ _ x y front (trim p s)
  have hright := @pairs_append_le _ _ x y (front ++ trim p s) back
  rw [← h] at hright
  omega

theorem pairs_eq_zero_of_notMem (h : x ∉ s) : pairs x y s = 0 := by
  induction s with
  | nil => rfl
  | cons c s ih =>
    have ⟨hc, hs⟩ := not_or.mp (mt mem_cons.mpr h)
    rw [pairs_cons_of_ne (Ne.symm hc), ih hs]

theorem pairs_eq_zero_of_notMem' (h : y ∉ s) : pairs x y s = 0 := by
  induction s with
  | nil => rfl
  | cons c s ih =>
    have ⟨_, hs⟩ := not_or.mp (mt mem_cons.mpr h)
    rw [pairs_cons_of_head, ih hs]
    intro b hb heq
    exact hs (heq ▸ mem_of_mem_head? hb)

theorem isPrefixOf_pair : [x, y].isPrefixOf (c :: b :: s) = decide (c = x ∧ b = y) := by
  rw [Bool.eq_iff_iff, decide_eq_true_iff, @eq_comm _ c x, @eq_comm _ b y]
  simp [isPrefixOf]

theorem index_pair_of_append (hxy : x ≠ y) (h : pairs x y s = 0)
    : index [x, y] (s ++ x :: y :: t) = some s.length := by
  induction s with
  | nil => simp [index]
  | cons c s ih =>
    have hs : pairs x y s = 0 := by
      have := @pairs_append_le _ _ x y [c] s
      rw [singleton_append, h] at this
      omega
    have hfirst : [x, y].isPrefixOf (c :: (s ++ x :: y :: t)) = false := by
      cases s with
      | nil => simp [isPrefixOf_pair, hxy]
      | cons b s =>
        have hnot : ¬(c = x ∧ b = y) := by
          intro hcase
          rw [pairs, if_pos hcase] at h
          omega
        rw [cons_append, isPrefixOf_pair, decide_eq_false hnot]
    rw [cons_append, index, hfirst, ih hs]
    rfl

theorem index_pair_eq_none (h : pairs x y s = 0) : index [x, y] s = none := by
  fun_induction pairs x y s with
  | case1 a b s ih =>
    have hnot : ¬(a = x ∧ b = y) := by
      intro hcase
      rw [if_pos hcase] at h
      omega
    rw [index, isPrefixOf_pair, decide_eq_false hnot, ih (by omega)]
    rfl
  | case2 s hs =>
    cases s with
    | nil => rfl
    | cons a s =>
      cases s with
      | nil => simp [index, isPrefixOf]
      | cons b s => exact absurd rfl (hs a b s)

theorem drop_of_index_pair (h : index [x, y] s = some i) : ∃ t, s.drop i = x :: y :: t := by
  induction s generalizing i with
  | nil => simp [index] at h
  | cons c s ih =>
    rw [index] at h
    split at h
    . next hfront =>
      rw [← Option.some.inj h]
      cases s with
      | nil => simp [isPrefixOf] at hfront
      | cons b s =>
        rw [isPrefixOf_pair, decide_eq_true_iff] at hfront
        exact ⟨s, by rw [hfront.1, hfront.2, drop_zero]⟩
    . obtain ⟨j, hj, rfl⟩ := Option.map_eq_some_iff.mp h
      exact ih hj

end Pairs

/--
A sign and digits, if the number fits into 64 bits; the text is given by the codes of its bytes or characters.
-/
def parseInt (s : List Nat) : Option Int :=
  match s with
  | 45 :: digits => (natural digits).bind (fun n => fits (-n))
  | 43 :: digits => (natural digits).bind (fun n => fits n)
  | digits => (natural digits).bind (fun n => fits n)
where
  natural (digits : List Nat) : Option Nat :=
    if digits ≠ [] ∧ digits.all (fun c => 48 ≤ c && c ≤ 57) then
      some (digits.foldl (fun n c => 10 * n + (c - 48)) 0)
    else
      none
  fits (n : Int) : Option Int := if -2 ^ 63 ≤ n ∧ n < 2 ^ 63 then some n else none

def parseInt64 (s : String) : Option Int := parseInt (s.toList.map Char.toNat)

end GoString
