import Cloudland.Core.Packer

/-!
The streams of `common/stream.cpp` between two nodes: a buffer on the side that writes, and the bytes that
have arrived on the side that reads.
-/

namespace Sci

open List

open Packer (packInt unpackInt Unpacker)

def BUFFER_SIZE : Nat := 16384

def MAX_NETWORK_SIZE : Nat := 1024 * 1024 * 8

structure OutStream where
  sent : List UInt8
  buffer : List UInt8
  deriving DecidableEq

namespace OutStream

def flush (o : OutStream) : OutStream := ⟨o.sent ++ o.buffer, []⟩

def checkBuffer (o : OutStream) (size : Nat) : OutStream :=
  if o.buffer.length + size ≥ BUFFER_SIZE then o.flush else o

def copy (o : OutStream) (bytes : List UInt8) : Option OutStream :=
  if o.buffer.length + bytes.length ≤ BUFFER_SIZE then some ⟨o.sent, o.buffer ++ bytes⟩ else none

def putInt (value : Int32) (o : OutStream) : Option OutStream := (o.checkBuffer 4).copy (packInt value)

/--
A `long` has eight bytes, and the shifts of the source are by `sizeof(int)` bits.
-/
def putLong (value : Int64) (o : OutStream) : Option OutStream := do
  let o ← o.putInt 8
  let o ← o.putInt (value <<< 4 >>> 4).toInt32
  o.putInt (value >>> 4).toInt32

def writeLoop : Nat → List UInt8 → OutStream → Option OutStream
  | _, [], o => some o
  | 0, _, _ => none
  | fuel + 1, bytes, o => do
    let count := if bytes.length > BUFFER_SIZE then BUFFER_SIZE else bytes.length
    let o ← (o.checkBuffer bytes.length).copy (bytes.take count)
    writeLoop fuel (bytes.drop count) o

def write (bytes : List UInt8) (o : OutStream) : Option OutStream := writeLoop bytes.length bytes o

def putIovec (value : List UInt8) (o : OutStream) : Option OutStream := do
  let o ← o.putLong (Int64.ofNat value.length)
  o.write value

end OutStream

namespace InStream

def read (size : Nat) : Unpacker (List UInt8) := fun msg =>
  if size ≤ msg.length then some (msg.take size, msg.drop size) else none

def getLong : Unpacker Int32 := do
  let nbyte ← unpackInt
  let low ← unpackInt
  let high ← if nbyte - 4 ≠ 0 then unpackInt else pure 0
  return high <<< 4 ||| low

/--
The length is compared as an unsigned number.
-/
def getIovec : Unpacker (List UInt8) := do
  let len ← getLong
  if len.toInt < 0 ∨ len.toInt > MAX_NETWORK_SIZE then failure else read len.toInt.toNat

end InStream

def Writes (f : OutStream → Option OutStream) (bytes : List UInt8) : Prop :=
  ∀ o : OutStream, o.buffer.length ≤ BUFFER_SIZE →
    ∃ o' : OutStream, f o = some o' ∧ o'.buffer.length ≤ BUFFER_SIZE ∧
      o'.sent ++ o'.buffer = o.sent ++ o.buffer ++ bytes

namespace Writes

open OutStream

theorem bind {f g : OutStream → Option OutStream} {a b : List UInt8} (hf : Writes f a) (hg : Writes g b)
    : Writes (fun o => (f o).bind g) (a ++ b) := by
  intro o ho
  have ⟨o', hf, ho', hall⟩ := hf o ho
  have ⟨o'', hg, ho'', hall'⟩ := hg o' ho'
  refine ⟨o'', ?_, ho'', ?_⟩
  . simp only [hf, Option.bind_some, hg]
  . rw [hall', hall, append_assoc _ a b]

theorem done : Writes some [] := by
  intro o ho
  exact ⟨o, rfl, ho, by simp⟩

theorem checked {size : Nat} {bytes : List UInt8} (hsize : bytes.length ≤ size) (hle : bytes.length ≤ BUFFER_SIZE)
    : Writes (fun o => (o.checkBuffer size).copy bytes) bytes := by
  intro o ho
  dsimp only [checkBuffer]
  split
  . refine ⟨⟨o.sent ++ o.buffer, bytes⟩, ?_, hle, rfl⟩
    simp [flush, copy, hle]
  . next h =>
    have hfits : o.buffer.length + bytes.length ≤ BUFFER_SIZE := by omega
    refine ⟨⟨o.sent, o.buffer ++ bytes⟩, by simp [copy, hfits], by simpa using hfits, ?_⟩
    simp

theorem putInt (value : Int32) : Writes (OutStream.putInt value) (packInt value) :=
  checked (Nat.le_refl 4) (show 4 ≤ BUFFER_SIZE by decide)

theorem writeLoop (bytes : List UInt8) (hfuel : bytes.length ≤ fuel)
    : Writes (OutStream.writeLoop fuel bytes) bytes := by
  induction fuel generalizing bytes with
  | zero =>
    have hnil : bytes = [] := eq_nil_of_length_eq_zero (by omega)
    rw [hnil]
    exact done
  | succ fuel ih =>
    cases bytes with
    | nil => exact done
    | cons b bytes =>
      let count := if (b :: bytes).length > BUFFER_SIZE then BUFFER_SIZE else (b :: bytes).length
      have hcount : 0 < count ∧ count ≤ (b :: bytes).length ∧ count ≤ BUFFER_SIZE := by
        have hpos : 0 < BUFFER_SIZE := by decide
        show 0 < (if _ then _ else _) ∧ (if _ then _ else _) ≤ _ ∧ (if _ then _ else _) ≤ _
        split
        . next h => exact ⟨hpos, Nat.le_of_lt h, Nat.le_refl _⟩
        . next h => exact ⟨by simp, Nat.le_refl _, Nat.le_of_not_lt h⟩
      have hcopy := @checked (b :: bytes).length ((b :: bytes).take count) (by simp)
        (by rw [length_take]; omega)
      have hrest := ih ((b :: bytes).drop count) (by rw [length_drop]; omega)
      have hall := hcopy.bind hrest
      rw [take_append_drop] at hall
      exact hall

theorem write (bytes : List UInt8) : Writes (OutStream.write bytes) bytes := writeLoop bytes (Nat.le_refl _)

theorem putLong (value : Int64)
    : Writes (OutStream.putLong value)
        (packInt 8 ++ (packInt (value <<< 4 >>> 4).toInt32 ++ packInt (value >>> 4).toInt32)) :=
  (putInt 8).bind ((putInt _).bind (putInt _))

theorem putIovec (value : List UInt8)
    : Writes (OutStream.putIovec value)
        (packInt 8 ++ (packInt (Int64.ofNat value.length <<< 4 >>> 4).toInt32 ++
          packInt (Int64.ofNat value.length >>> 4).toInt32) ++ value) :=
  (putLong _).bind (write value)

end Writes

namespace InStream

theorem read_append (bytes rest : List UInt8) : read bytes.length (bytes ++ rest) = some (bytes, rest) := by
  simp [read]

theorem halves (value : Int64) : (value >>> 4).toInt32 <<< 4 ||| (value <<< 4 >>> 4).toInt32 = value.toInt32 := by
  rw [← Int32.toBitVec_inj]
  apply BitVec.eq_of_getLsbD_eq
  intro i hi
  have hhigh : i - 4 < 32 ∧ ¬64 ≤ i - 4 ∧ 4 + (i - 4) < 64 := by omega
  have hlow : ¬64 ≤ i ∧ 4 + i < 64 ∧ i < 64 := by omega
  simp only [Int32.toBitVec_or, Int32.toBitVec_shiftLeft, Int64.toBitVec_toInt32, Int64.toBitVec_shiftRight,
    Int64.toBitVec_ofNat, BitVec.ofNat_eq_ofNat, BitVec.reduceSMod, BitVec.sshiftRight_eq',
    BitVec.toNat_ofNat, Nat.reducePow, Nat.reduceMod, Int32.toBitVec_ofNat, BitVec.shiftLeft_eq',
    Int64.toBitVec_shiftLeft, BitVec.getLsbD_or]
  simp only [BitVec.getLsbD_shiftLeft, BitVec.signExtend_eq_setWidth_of_le _ (show 32 ≤ 64 by decide),
    BitVec.getLsbD_setWidth, BitVec.getLsbD_sshiftRight, hi, hhigh, hlow, Nat.add_sub_cancel_left]
  obtain h | h := Nat.lt_or_ge i 4
  . simp [h]
  . rw [Nat.add_sub_cancel' h]
    simp

theorem getLong_putLong (value : Int64) (rest : List UInt8)
    : getLong (packInt 8 ++ (packInt (value <<< 4 >>> 4).toInt32 ++ packInt (value >>> 4).toInt32) ++ rest)
        =
      some (value.toInt32, rest) := by
  have hmore : (8 : Int32) - 4 ≠ 0 := by decide
  simp only [getLong, append_assoc, Packer.Unpacker.bind_apply, Packer.unpackInt_packInt, Option.bind_some,
    if_pos hmore, Packer.Unpacker.pure_apply, halves]

theorem getLong_put (n : Nat) (rest : List UInt8)
    : getLong (packInt 8 ++ (packInt (Int64.ofNat n <<< 4 >>> 4).toInt32 ++
        packInt (Int64.ofNat n >>> 4).toInt32) ++ rest)
        =
      some (Int32.ofNat n, rest) := by
  rw [getLong_putLong, Int64.toInt32_ofNat']

theorem getIovec_put (h : value.length ≤ MAX_NETWORK_SIZE) (rest : List UInt8)
    : getIovec (packInt 8 ++ (packInt (Int64.ofNat value.length <<< 4 >>> 4).toInt32 ++
        packInt (Int64.ofNat value.length >>> 4).toInt32) ++ value ++ rest)
        =
      some (value, rest) := by
  have hlt : value.length < 2 ^ 31 := Nat.lt_of_le_of_lt h (by decide)
  have hlen : (Int32.ofNat value.length).toInt = value.length := Int32.toInt_ofNat_of_lt hlt
  rw [append_assoc, getIovec, Packer.Unpacker.bind_apply, getLong_put, Option.bind_some]
  dsimp only
  rw [hlen, if_neg (by omega), Int.toNat_natCast]
  exact read_append value rest

end InStream

end Sci
