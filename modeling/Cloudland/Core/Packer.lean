import Cloudland.Lib.CString
import Mathlib.Control.Monad.Basic

/-!
The wire format (`common/packer.cpp`).
-/

structure Text where
  chars : CString
  no_zero : 0 ∉ chars
  fits : chars.length + 1 < 2 ^ 31
deriving DecidableEq

namespace Packer

open List

def packInt (value : Int32) : List UInt8 :=
  let n := value.toUInt32.toNat
  [UInt8.ofNat (n / 2 ^ 24), UInt8.ofNat (n / 2 ^ 16), UInt8.ofNat (n / 2 ^ 8), UInt8.ofNat n]

def packStr (value : CString) : List UInt8 := packInt (Int32.ofNat (value.length + 1)) ++ value ++ [0]

/--
The state is what is left of the message. Reading beyond its end fails, where the code reads whatever
stands in memory there.
-/
abbrev Unpacker := StateT (List UInt8) Option

def unpackInt : Unpacker Int32 := fun msg =>
  match msg with
  | a :: b :: c :: d :: msg =>
    some ((UInt32.ofNat (((a.toNat * 2 ^ 8 + b.toNat) * 2 ^ 8 + c.toNat) * 2 ^ 8 + d.toNat)).toInt32, msg)
  | _ => none

def unpackBuf : Unpacker (List UInt8) := fun msg =>
  match unpackInt msg with
  | some (len, msg) =>
    if 0 ≤ len.toInt ∧ len.toInt ≤ msg.length then
      some (msg.take len.toInt.toNat, msg.drop len.toInt.toNat)
    else
      none
  | none => none

def unpackStr : Unpacker CString := do
  let buf ← unpackBuf
  return buf.takeWhile (· != 0)

@[simp]
theorem Unpacker.bind_apply (x : Unpacker α) (f : α → Unpacker β) (msg : List UInt8)
    : (x >>= f) msg = (x msg).bind (fun res => f res.1 res.2) := rfl

@[simp]
theorem Unpacker.pure_apply (a : α) (msg : List UInt8)
    : (pure a : Unpacker α) msg = some (a, msg) := rfl

@[simp]
theorem Unpacker.map_apply (f : α → β) (x : Unpacker α) (msg : List UInt8)
    : (f <$> x) msg = (x msg).map (fun res => (f res.1, res.2)) := by
  show (x msg).bind (fun res => some (f res.1, res.2)) = _
  cases x msg with
  | none => rfl
  | some res => rfl

variable {rest : List UInt8}

@[simp]
theorem unpackInt_packInt (value : Int32) : unpackInt (packInt value ++ rest) = some (value, rest) := by
  have hlt := value.toUInt32.toNat_lt
  simp only [packInt, cons_append, nil_append, unpackInt, UInt8.toNat_ofNat']
  have hn : (((value.toUInt32.toNat / 2 ^ 24 % 2 ^ 8 * 2 ^ 8 + value.toUInt32.toNat / 2 ^ 16 % 2 ^ 8) * 2 ^ 8
      + value.toUInt32.toNat / 2 ^ 8 % 2 ^ 8) * 2 ^ 8 + value.toUInt32.toNat % 2 ^ 8)
      = value.toUInt32.toNat := by
    omega
  rw [hn]
  simp

theorem unpackBuf_pack {buf : List UInt8} (h : buf.length < 2 ^ 31)
    : unpackBuf (packInt (Int32.ofNat buf.length) ++ (buf ++ rest)) = some (buf, rest) := by
  have hlen := Int32.toInt_ofNat_of_lt h
  simp [unpackBuf, hlen]

@[simp]
theorem unpackStr_packStr (value : Text)
    : unpackStr (packStr value.chars ++ rest) = some (value.chars, rest) := by
  have hread := @unpackBuf_pack rest (value.chars ++ [0]) (by simpa using value.fits)
  have hcut : (value.chars ++ [0]).takeWhile (· != 0) = value.chars := by
    rw [takeWhile_append_of_pos (by
      intro c hc
      rw [bne_iff_ne]
      intro h
      exact value.no_zero (h ▸ hc))]
    simp
  rw [length_append, length_singleton, ← append_assoc, ← append_assoc] at hread
  simp only [unpackStr, packStr, Unpacker.bind_apply, Unpacker.pure_apply, hread, Option.bind_some, hcut]

@[simp]
theorem unpackStr_packStr_nil (value : Text) : unpackStr (packStr value.chars) = some (value.chars, []) := by
  simpa using @unpackStr_packStr [] value

@[simp]
theorem unpackInt_nil : unpackInt [] = none := rfl

@[simp]
theorem unpackStr_nil : unpackStr [] = none := rfl

end Packer
