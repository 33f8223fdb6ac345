import Mathlib.Data.List.TakeWhile
import Mathlib.Tactic.Common

/-!
Searches and substrings of `std::string`, and the lines of `std::getline`.
-/

namespace StdString

open List

variable {α : Type u} [DecidableEq α]

def npos : Int := -1

def findFirstOf (s : List α) (c : α) (start : Int) : Int :=
  match (s.drop start.toNat).findIdx? (· == c) with
  | some k => start + k
  | none => npos

/--
A length below zero, as `npos`, reaches to the end.
-/
def substr (s : List α) (pos len : Int) : List α :=
  if len < 0 then s.drop pos.toNat else (s.drop pos.toNat).take len.toNat

structure Fstream (α : Type u) where
  rest : List α
  eof : Bool := false
  fail : Bool := false

/--
The next line goes to `line`. A stream that is no longer good leaves `line` as it is.
-/
def getline (sep : α) (fs : Fstream α) (line : List α) : Fstream α × List α :=
  if fs.eof || fs.fail then
    ({ fs with fail := true }, line)
  else
    match fs.rest.dropWhile (· != sep) with
    | [] => (⟨[], true, fs.rest.isEmpty⟩, fs.rest)
    | _ :: rest => ({ fs with rest := rest }, fs.rest.takeWhile (· != sep))

section Search

variable {s a b d : List α} {c : α} {pos : Int}

theorem findIdx?_append_of_notMem (h : c ∉ b) : (b ++ c :: d).findIdx? (· == c) = some b.length := by
  induction b with
  | nil => simp [findIdx?_cons]
  | cons x b ih =>
    simp only [mem_cons, not_or] at h
    have hx : ¬x = c := fun heq => h.1 heq.symm
    simp [findIdx?_cons, hx, ih h.2]

theorem findFirstOf_append (hs : s = a ++ (b ++ c :: d)) (hpos : pos = a.length) (h : c ∉ b)
    : findFirstOf s c pos = pos + b.length := by
  simp [hs, hpos, findFirstOf, findIdx?_append_of_notMem h]

theorem findFirstOf_append_zero (h : c ∉ b) : findFirstOf (b ++ c :: d) c 0 = b.length := by
  simp [findFirstOf, findIdx?_append_of_notMem h]

theorem findFirstOf_of_notMem (hs : s = a ++ b) (hpos : pos = a.length) (h : c ∉ b) : findFirstOf s c pos = npos := by
  have hnone : b.findIdx? (· == c) = none := by
    rw [findIdx?_eq_none_iff]
    intro x hx
    rw [beq_eq_false_iff_ne]
    exact fun heq => h (heq ▸ hx)
  simp [hs, hpos, findFirstOf, hnone]

theorem findFirstOf_skip (h : c ∉ a) : findFirstOf (a ++ b) c 0 = findFirstOf (a ++ b) c a.length := by
  by_cases hb : c ∈ b
  . obtain ⟨s, t, rfl, hs⟩ := eq_append_cons_of_mem hb
    rw [findFirstOf_append rfl rfl hs, ← append_assoc, findFirstOf_append_zero (by simp [h, hs])]
    simp
  . rw [findFirstOf_of_notMem rfl rfl hb]
    exact findFirstOf_of_notMem (a := []) rfl rfl (by simp [h, hb])

theorem findFirstOf_zero_of_notMem (h : c ∉ b) : findFirstOf b c 0 = npos :=
  findFirstOf_of_notMem (a := []) rfl rfl h

theorem ne_npos (h : 0 ≤ pos) : pos ≠ npos := by
  unfold npos
  omega

end Search

section Parts

omit [DecidableEq α]

variable {s a b d : List α} {pos len : Int}

theorem substr_append (hs : s = a ++ (b ++ d)) (hpos : pos = a.length) (hlen : len = b.length)
    : substr s pos len = b := by
  rw [hs, hpos, hlen, substr, if_neg (by omega)]
  simp

theorem substr_zero : substr (b ++ d) 0 b.length = b := substr_append (a := []) rfl rfl rfl

theorem substr_append_of_le (h : (b.length : Int) ≤ len)
    : substr (a ++ (b ++ d)) a.length len = b ++ d.take (len.toNat - b.length) := by
  rw [substr, if_neg (by omega), Int.toNat_natCast, drop_left, take_append, take_of_length_le (by omega)]

theorem substr_npos (hs : s = a ++ b) (hpos : pos = a.length) : substr s pos npos = b := by
  simp [hs, hpos, substr, npos]

theorem substr_zero_npos : substr b 0 npos = b := by
  simp [substr, npos]

end Parts

section Lines

variable {sep : α} {line row rest : List α}

theorem getline_of_row (h : sep ∉ row)
    : getline sep ⟨row ++ sep :: rest, false, false⟩ line = (⟨rest, false, false⟩, row) := by
  have hne : ∀ x ∈ row, (x != sep) = true := by
    intro x hx
    rw [bne_iff_ne]
    exact fun heq => h (heq ▸ hx)
  simp [getline, dropWhile_append_of_pos hne, takeWhile_append_of_pos hne]

theorem getline_of_last (h : sep ∉ row)
    : getline sep ⟨row, false, false⟩ line = (⟨[], true, row.isEmpty⟩, row) := by
  have hnil : row.dropWhile (· != sep) = [] := by
    rw [dropWhile_eq_nil_iff]
    intro x hx
    rw [bne_iff_ne]
    exact fun heq => h (heq ▸ hx)
  simp [getline, hnil]

theorem getline_of_eof (h : fs.eof = true) : getline sep fs line = ({ fs with fail := true }, line) := by
  simp [getline, h]

end Lines

end StdString
