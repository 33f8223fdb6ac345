import Mathlib.Algebra.Group.Nat.Defs
import Mathlib.Tactic.Common

/-!
The texts of IPv4 addresses, as lists of characters.
-/

namespace Ipv4

open List Option

def decimal (n : Nat) : List Char := Nat.toDigits 10 n

/--
An octet is read only in its shortest form, as 7 but not as 07.
-/
def parseOctet (s : List Char) : Option Nat := (range 256).find? (fun n => decimal n = s)

def parse (s : List Char) : Option Nat :=
  match s.splitOn '.' with
  | [a, b, c, d] => do
    let a ← parseOctet a
    let b ← parseOctet b
    let c ← parseOctet c
    let d ← parseOctet d
    return ((a * 256 + b) * 256 + c) * 256 + d
  | _ => none

def octets (ip : Nat) : List Nat := [ip / 256 ^ 3, ip / 256 ^ 2 % 256, ip / 256 % 256, ip % 256]

def format (ip : Nat) : List Char := ['.'].intercalate ((octets ip).map decimal)

theorem decimal_inj (h : decimal n = decimal m) : n = m := by
  have hvalue := congrArg (Nat.ofDigitChars 10 · 0) h
  rwa [decimal, decimal, Nat.ofDigitChars_ten_toDigits, Nat.ofDigitChars_ten_toDigits] at hvalue

theorem parseOctet_eq_some : parseOctet s = some n ↔ n < 256 ∧ decimal n = s := by
  constructor
  . intro h
    exact ⟨mem_range.mp (mem_of_find?_eq_some h), by simpa using find?_some h⟩
  . intro ⟨hlt, heq⟩
    have hsome : (parseOctet s).isSome := find?_isSome.mpr ⟨n, mem_range.mpr hlt, decide_eq_true heq⟩
    have ⟨m, hm⟩ := isSome_iff_exists.mp hsome
    have hread : decimal m = s := by simpa using find?_some hm
    rw [hm, decimal_inj (hread.trans heq.symm)]

theorem splitOn_format (ip : Nat) : (format ip).splitOn '.' = (octets ip).map decimal := by
  apply splitOn_intercalate
  . intro l hl hdot
    have ⟨n, _, heq⟩ := mem_map.mp hl
    rw [← heq] at hdot
    have := Nat.isDigit_of_mem_toDigits (by decide) (by decide) hdot
    contradiction
  . simp [octets]

theorem parse_format (h : ip < 2 ^ 32) : parse (format ip) = some ip := by
  have hoctet {n : Nat} (hn : n < 256) : parseOctet (decimal n) = some n := parseOctet_eq_some.mpr ⟨hn, rfl⟩
  rw [parse, splitOn_format]
  simp only [octets, map_cons, map_nil]
  rw [hoctet (by omega), hoctet (by omega), hoctet (by omega), hoctet (by omega)]
  show some _ = some _
  congr 1
  omega

theorem parse_eq_some : parse s = some ip ↔ ip < 2 ^ 32 ∧ s = format ip := by
  constructor
  . intro h
    rw [parse] at h
    split at h
    . next a b c d hsplit =>
      simp only [bind_eq_bind, bind_eq_some_iff, parseOctet_eq_some] at h
      obtain ⟨a, ⟨ha, rfl⟩, b, ⟨hb, rfl⟩, c, ⟨hc, rfl⟩, d, ⟨hd, rfl⟩, hip⟩ := h
      have hip := some.inj hip
      have hoctets : octets ip = [a, b, c, d] := by
        simp only [octets, cons.injEq, and_true]
        omega
      refine ⟨by omega, ?_⟩
      rw [format, hoctets, map_cons, map_cons, map_cons, map_cons, map_nil, ← hsplit, intercalate_splitOn]
    . contradiction
  . intro ⟨hlt, heq⟩
    rw [heq, parse_format hlt]

theorem format_inj (ha : a < 2 ^ 32) (hb : b < 2 ^ 32) (h : format a = format b) : a = b := by
  have := parse_format ha
  rw [h, parse_format hb] at this
  exact (some.inj this).symm

end Ipv4
