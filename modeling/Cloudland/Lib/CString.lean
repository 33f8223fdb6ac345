import Mathlib.Data.Nat.Digits.Lemmas

/-!
Strings of C as lists of bytes without the terminating zero, and the functions of the C library that
search them and convert numbers.
-/

abbrev CString := List UInt8

namespace CString

open List

def ofString (s : String) : CString := s.toList.map (fun c => UInt8.ofNat c.toNat)

instance : Coe String CString := ⟨ofString⟩

def strstr : CString → CString → Option CString
  | [], key => if key = [] then some [] else none
  | c :: s, key => if key.isPrefixOf (c :: s) then some (c :: s) else strstr s key

def cutAt (c : UInt8) (s : CString) : CString := s.takeWhile (· != c)

def before (key : CString) : CString → CString
  | [] => []
  | c :: s => if key.isPrefixOf (c :: s) then [] else c :: before key s

def NEWLINE : UInt8 := 10

def getLine : Nat → CString → CString × CString
  | 0, s => ([], s)
  | _ + 1, [] => ([], [])
  | n + 1, c :: s => if c = NEWLINE then ([c], s) else (c :: (getLine n s).1, (getLine n s).2)

def fgets (size : Nat) (stream : CString) : Option (CString × CString) :=
  if stream = [] then none else some (getLine (size - 1) stream)

def fgetsAll (size : Nat) : Nat → CString → List CString
  | 0, _ => []
  | fuel + 1, stream =>
    match fgets size stream with
    | some (piece, rest) => piece :: fgetsAll size fuel rest
    | none => []

def isspace (c : UInt8) : Bool := c == 32 || (9 ≤ c && c ≤ 13)

def isdigit (c : UInt8) : Bool := 48 ≤ c && c ≤ 57

def value (digits : CString) : Nat := digits.foldl (fun n c => 10 * n + (c.toNat - 48)) 0

def saturate (n : Int) : Int := max (-2 ^ 63) (min n (2 ^ 63 - 1))

def atol (s : CString) : Int :=
  match s.dropWhile isspace with
  | 45 :: s => saturate (-(value (s.takeWhile isdigit)))
  | 43 :: s => saturate (value (s.takeWhile isdigit))
  | s => saturate (value (s.takeWhile isdigit))

def atoi (s : CString) : Int := (atol s).bmod (2 ^ 32)

def numeral (n : Nat) : CString :=
  if n = 0 then [48] else (Nat.digits 10 n).reverse.map (fun d => UInt8.ofNat (48 + d))

def decimal (n : Int) : CString := if n < 0 then 45 :: numeral n.natAbs else numeral n.natAbs

section Search

variable {s key : CString}

theorem strstr_isSome : (strstr s key).isSome ↔ key <:+: s := by
  induction s with
  | nil =>
    rw [strstr, infix_nil]
    split
    . next h => simp [h]
    . next h => simp [h]
  | cons c s ih =>
    rw [strstr, infix_cons_iff, ← ih]
    split
    . next h => simp [List.isPrefixOf_iff_prefix.mp h]
    . next h => simp [mt isPrefixOf_iff_prefix.mpr h]

theorem strstr_eq_none : strstr s key = none ↔ ¬key <:+: s := by
  rw [← strstr_isSome]
  simp

theorem strstr_eq_some_drop (h : strstr s key = some t)
    : ∃ n, t = s.drop n ∧ key <+: s.drop n ∧ ∀ m < n, ¬key <+: s.drop m := by
  induction s with
  | nil =>
    rw [strstr] at h
    split at h
    . next hkey =>
      cases h
      exact ⟨0, rfl, by simp [hkey], by simp⟩
    . contradiction
  | cons c s ih =>
    rw [strstr] at h
    split at h
    . next hp =>
      cases h
      exact ⟨0, rfl, isPrefixOf_iff_prefix.mp hp, by simp⟩
    . next hp =>
      have ⟨n, ht, hkey, hfirst⟩ := ih h
      refine ⟨n + 1, ht, hkey, ?_⟩
      intro m hm hat
      cases m with
      | zero => exact hp (List.isPrefixOf_iff_prefix.mpr hat)
      | succ m => exact hfirst m (by omega) hat

theorem strstr_eq_some (h : strstr s key = some t) : t <:+ s ∧ key <+: t := by
  obtain ⟨n, rfl, hkey, _⟩ := strstr_eq_some_drop h
  exact ⟨drop_suffix n s, hkey⟩

theorem infix_iff_drop : key <:+: s ↔ ∃ n, key <+: s.drop n := by
  constructor
  . intro ⟨a, b, heq⟩
    refine ⟨a.length, b, ?_⟩
    rw [← heq, append_assoc, drop_left]
  . intro ⟨n, hn⟩
    exact hn.isInfix.trans (drop_suffix n s).isInfix

theorem strstr_eq_none_drop : strstr s key = none ↔ ∀ n, ¬key <+: s.drop n := by
  rw [strstr_eq_none, infix_iff_drop, not_exists]

theorem before_of_not_infix (h : ¬key <:+: s) : before key s = s := by
  induction s with
  | nil => rfl
  | cons c s ih =>
    rw [infix_cons_iff, not_or] at h
    rw [before, if_neg (mt isPrefixOf_iff_prefix.mp h.1), ih h.2]

theorem before_isPrefix : before key s <+: s := by
  induction s with
  | nil => exact prefix_refl _
  | cons c s ih =>
    rw [before]
    split
    . exact nil_prefix
    . exact (prefix_cons_inj c).mpr ih

theorem not_infix_before (hkey : key ≠ []) : ¬key <:+: before key s := by
  induction s with
  | nil => simpa [before] using hkey
  | cons c s ih =>
    rw [before]
    split
    . simpa using hkey
    . next hp =>
      rw [infix_cons_iff, not_or]
      refine ⟨?_, ih⟩
      intro hstarts
      exact hp (List.isPrefixOf_iff_prefix.mpr (hstarts.trans ((prefix_cons_inj c).mpr before_isPrefix)))

end Search

section Stream

variable {size n : Nat}

theorem getLine_append (n : Nat) (s : CString) : (getLine n s).1 ++ (getLine n s).2 = s := by
  induction n generalizing s with
  | zero => rfl
  | succ n ih =>
    cases s with
    | nil => rfl
    | cons c s =>
      rw [getLine]
      split
      . rfl
      . rw [cons_append, ih]

theorem getLine_of_short (h : NEWLINE ∉ line) (hn : line.length < n)
    : getLine n (line ++ NEWLINE :: rest) = (line ++ [NEWLINE], rest) := by
  induction line generalizing n with
  | nil =>
    cases n with
    | zero => simp at hn
    | succ n => simp [getLine]
  | cons c line ih =>
    rw [mem_cons, not_or] at h
    cases n with
    | zero => simp at hn
    | succ n =>
      rw [cons_append, getLine, if_neg (Ne.symm h.1), ih h.2 (by simpa using hn)]
      rfl

theorem getLine_of_long (rest : CString) (h : NEWLINE ∉ line) (hn : n ≤ line.length)
    : getLine n (line ++ rest) = (line.take n, line.drop n ++ rest) := by
  induction line generalizing n with
  | nil =>
    cases n with
    | zero => rfl
    | succ n => simp at hn
  | cons c line ih =>
    rw [mem_cons, not_or] at h
    cases n with
    | zero => rfl
    | succ n =>
      rw [cons_append, getLine, if_neg (Ne.symm h.1), ih h.2 (by simpa using hn)]
      rfl

theorem getLine_ne_nil {s : CString} (hn : 0 < n) (hs : s ≠ []) : (getLine n s).1 ≠ [] := by
  cases n with
  | zero => simp at hn
  | succ n =>
    cases s with
    | nil => contradiction
    | cons c s =>
      rw [getLine]
      split
      . simp
      . simp

theorem fgetsAll_succ (hs : s ≠ [])
    : fgetsAll size (fuel + 1) s
        =
      (getLine (size - 1) s).1 :: fgetsAll size fuel (getLine (size - 1) s).2 := by
  rw [fgetsAll, fgets, if_neg hs]

theorem fgetsAll_nil (fuel : Nat) : fgetsAll size fuel [] = [] := by
  cases fuel with
  | zero => rfl
  | succ fuel => rfl

theorem length_getLine_lt (hsize : 2 ≤ size) (hs : s ≠ [])
    : (getLine (size - 1) s).2.length < s.length := by
  have hlen := congrArg length (getLine_append (size - 1) s)
  have hpos := length_pos_of_ne_nil (@getLine_ne_nil (size - 1) s (by omega) hs)
  rw [length_append] at hlen
  omega

theorem fgetsAll_fuel (hsize : 2 ≤ size) (h : s.length ≤ fuel) (h' : s.length ≤ fuel')
    : fgetsAll size fuel s = fgetsAll size fuel' s := by
  induction fuel generalizing fuel' s with
  | zero =>
    rw [length_eq_zero_iff.mp (Nat.le_zero.mp h), fgetsAll_nil, fgetsAll_nil]
  | succ fuel ih =>
    by_cases hs : s = []
    . rw [hs, fgetsAll_nil, fgetsAll_nil]
    . have hlt := length_getLine_lt hsize hs
      cases fuel' with
      | zero => exact absurd (length_eq_zero_iff.mp (Nat.le_zero.mp h')) hs
      | succ fuel' =>
        rw [fgetsAll_succ hs, fgetsAll_succ hs]
        exact congrArg _ (ih (by omega) (by omega))

theorem flatten_fgetsAll (hsize : 2 ≤ size) {fuel : Nat} {s : CString} (h : s.length ≤ fuel)
    : (fgetsAll size fuel s).flatten = s := by
  induction fuel generalizing s with
  | zero => simp [fgetsAll, length_eq_zero_iff.mp (Nat.le_zero.mp h)]
  | succ fuel ih =>
    by_cases hs : s = []
    . rw [hs, fgetsAll_nil]
      rfl
    . have hlt := length_getLine_lt hsize hs
      rw [fgetsAll_succ hs, flatten_cons, ih (by omega), getLine_append]

theorem length_getLine_le (n : Nat) (s : CString) : (getLine n s).1.length ≤ n := by
  induction n generalizing s with
  | zero => simp [getLine]
  | succ n ih =>
    cases s with
    | nil => simp [getLine]
    | cons c s =>
      rw [getLine]
      split
      . simp
      . simpa using ih s

theorem length_of_mem_fgetsAll (h : piece ∈ fgetsAll size fuel s)
    : piece.length ≤ size - 1 := by
  induction fuel generalizing s with
  | zero => simp [fgetsAll] at h
  | succ fuel ih =>
    by_cases hs : s = []
    . simp [hs, fgetsAll_nil] at h
    . rw [fgetsAll_succ hs, mem_cons] at h
      obtain heq | hrest := h
      . exact heq ▸ length_getLine_le _ s
      . exact ih hrest

end Stream

section Numbers

variable {n : Nat}

theorem numeral_ne_nil (n : Nat) : numeral n ≠ [] := by
  unfold numeral
  split
  . simp
  . next h => simp [Nat.digits_ne_nil_iff_ne_zero.mpr h]

theorem isdigit_of_mem_numeral (h : c ∈ numeral n) : isdigit c = true := by
  unfold numeral at h
  split at h
  . rw [mem_singleton.mp h]
    decide
  . rw [mem_map] at h
    have ⟨d, hd, hc⟩ := h
    have hlt := Nat.digits_lt_base (by decide) (mem_reverse.mp hd)
    rw [← hc]
    interval_cases d <;> decide

theorem value_numeral (n : Nat) : value (numeral n) = n := by
  unfold numeral
  split
  . next h =>
    rw [h]
    decide
  . rw [value, foldl_map, foldl_reverse]
    conv_rhs => rw [← Nat.ofDigits_digits 10 n, Nat.ofDigits_eq_foldr]
    apply foldr_ext
    intro d hd m
    have hlt := Nat.digits_lt_base (by decide) hd
    have hnat := UInt8.toNat_ofNat_of_lt' (by show 48 + d < 256; omega)
    rw [hnat, Nat.cast_id]
    omega

theorem takeWhile_digits {rest : CString} (hdigits : ∀ c ∈ digits, isdigit c = true)
    (hrest : ∀ c ∈ rest.head?, isdigit c = false)
    : (digits ++ rest).takeWhile isdigit = digits := by
  rw [takeWhile_append_of_pos hdigits]
  cases rest with
  | nil => simp
  | cons c rest => simp [hrest c rfl]

theorem saturate_of_le {n : Int} (hlow : -2 ^ 63 ≤ n) (hhigh : n < 2 ^ 63) : saturate n = n := by
  unfold saturate
  omega

theorem atol_of_isdigit {c : UInt8} {s : CString} (h : isdigit c = true)
    : atol (c :: s) = saturate (value ((c :: s).takeWhile isdigit)) := by
  have hspace : ¬isspace c = true := by
    simp only [isdigit, isspace, Bool.and_eq_true, decide_eq_true_eq, UInt8.le_iff_toNat_le, Bool.or_eq_true,
      beq_iff_eq, ← UInt8.toNat_inj] at h ⊢
    simp only [UInt8.reduceToNat] at h ⊢
    omega
  rw [atol, dropWhile_cons_of_neg hspace]
  split
  . next heq =>
    rw [cons.injEq] at heq
    rw [heq.1] at h
    exact absurd h (by decide)
  . next heq =>
    rw [cons.injEq] at heq
    rw [heq.1] at h
    exact absurd h (by decide)
  . rfl

theorem atoi_digits {digits rest : CString} (hne : digits ≠ []) (hdigits : digits.all isdigit = true)
    (hlt : value digits < 2 ^ 31) (hrest : ∀ c ∈ rest.head?, isdigit c = false)
    : atoi (digits ++ rest) = value digits := by
  have ⟨c, l, hcons⟩ := exists_cons_of_ne_nil hne
  have hall := all_eq_true.mp hdigits
  have hdigit := hall c (hcons ▸ mem_cons_self)
  have hread := @atol_of_isdigit c (l ++ rest) hdigit
  rw [← cons_append, ← hcons, takeWhile_digits hall hrest, saturate_of_le (by omega) (by omega)] at hread
  rw [atoi, hread]
  apply Int.bmod_eq_of_le <;> omega

end Numbers

section Split

variable {sep : UInt8}

theorem splitOn_cons (c : UInt8) (s : CString)
    : (c :: s).splitOn sep
        =
      if c = sep then [] :: s.splitOn sep else (s.splitOn sep).modifyHead (c :: ·) := by
  rw [splitOn, splitOnP_cons_eq_if_modifyHead]
  simp only [beq_iff_eq]
  rfl

theorem splitOn_ne_nil (s : CString) : s.splitOn sep ≠ [] := splitOnP_ne_nil _ s

theorem splitOn_eq_singleton {s : CString} (h : sep ∉ s) : s.splitOn sep = [s] := by
  induction s with
  | nil => rfl
  | cons c s ih =>
    rw [mem_cons, not_or] at h
    rw [splitOn_cons, if_neg (Ne.symm h.1), ih h.2]
    rfl

theorem splitOn_append {s rest : CString} (h : sep ∉ rest)
    : ∃ init last, s.splitOn sep = init ++ [last] ∧ (s ++ rest).splitOn sep = init ++ [last ++ rest] := by
  induction s with
  | nil => exact ⟨[], [], rfl, splitOn_eq_singleton h⟩
  | cons c s ih =>
    have ⟨init, last, hs, happend⟩ := ih
    rw [cons_append, splitOn_cons, splitOn_cons, hs, happend]
    split
    . exact ⟨[] :: init, last, rfl, rfl⟩
    . cases init with
      | nil => exact ⟨[], c :: last, rfl, rfl⟩
      | cons piece init => exact ⟨(c :: piece) :: init, last, rfl, rfl⟩

end Split

end CString
