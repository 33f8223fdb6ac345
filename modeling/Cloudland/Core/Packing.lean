import Cloudland.Core.Packer
import Cloudland.Lib.CInt
import Cloudland.Lib.Run
import Mathlib.Data.List.TakeWhile

/-!
The buffer that a message is packed into (`common/packer.cpp`), and the loops that read back lists of entries.
-/

namespace Packer

open List

/--
The loop of `checkBuffer`. The size is an `int`, and nothing comes out if doubling it overflows.
-/
def grow : Nat → Nat → Nat → Option Nat
  | 0, _, _ => none
  | fuel + 1, bufSize, len =>
    if bufSize < len then
      if 2 ^ 31 ≤ bufSize * 2 then none else grow fuel (bufSize * 2) len
    else
      some bufSize

structure Buffer where
  msg : List UInt8
  bufSize : Nat

def PACK_SIZE : Nat := 256

def Buffer.new : Buffer := ⟨[], PACK_SIZE⟩

def Buffer.write (buffer : Buffer) (chunk : List UInt8) : Option Buffer := do
  let bufSize ← grow 32 buffer.bufSize (buffer.msg.length + chunk.length)
  return ⟨buffer.msg ++ chunk, bufSize⟩

def getPackedMsg (chunks : List (List UInt8)) : Option (List UInt8) :=
  (chunks.foldlM Buffer.write .new).map Buffer.msg

def cut (value : CString) : CString := value.takeWhile (· != 0)

def strChunks (value : CString) : List (List UInt8) :=
  [packInt (Int32.ofNat ((cut value).length + 1)), cut value ++ [0]]

theorem grow_spec {k fuel len : Nat} (hk : k ≤ 30) (hfuel : 30 - k < fuel)
    : if len ≤ 2 ^ 30 then ∃ k', k' ≤ 30 ∧ len ≤ 2 ^ k' ∧ grow fuel (2 ^ k) len = some (2 ^ k')
      else grow fuel (2 ^ k) len = none := by
  induction fuel generalizing k with
  | zero => omega
  | succ fuel ih =>
    rw [grow]
    by_cases hlt : 2 ^ k < len
    . rw [if_pos hlt, ← Nat.pow_succ]
      by_cases hlast : k = 30
      . subst hlast
        rw [if_neg (Nat.not_le.mpr hlt), if_pos (Nat.le_refl _)]
      . have hsmall : ¬2 ^ 31 ≤ 2 ^ (k + 1) :=
          Nat.not_le.mpr (Nat.pow_lt_pow_right (by decide) (by omega))
        rw [if_neg hsmall]
        exact ih (by omega) (by omega)
    . have hle : 2 ^ k ≤ 2 ^ 30 := Nat.pow_le_pow_right (by decide) hk
      rw [if_neg hlt, if_pos (Nat.le_trans (Nat.not_lt.mp hlt) hle)]
      exact ⟨k, hk, Nat.not_lt.mp hlt, rfl⟩

theorem foldlM_write {chunks : List (List UInt8)} {buffer : Buffer} {k : Nat} (hk : k ≤ 30)
    (hsize : buffer.bufSize = 2 ^ k) (hmsg : buffer.msg.length ≤ 2 ^ k)
    : (chunks.foldlM Buffer.write buffer).map Buffer.msg
        =
      if (buffer.msg ++ chunks.flatten).length ≤ 2 ^ 30 then some (buffer.msg ++ chunks.flatten) else none := by
  induction chunks generalizing buffer k with
  | nil =>
    have hle : 2 ^ k ≤ 2 ^ 30 := Nat.pow_le_pow_right (by decide) hk
    rw [flatten_nil, append_nil, if_pos (Nat.le_trans hmsg hle)]
    rfl
  | cons chunk chunks ih =>
    have hgrow := @grow_spec k 32 (buffer.msg.length + chunk.length) hk (by omega)
    rw [foldlM_cons, Buffer.write, hsize, flatten_cons, ← append_assoc]
    split at hgrow
    . next hfits =>
      have ⟨k', hk', hlen, hsome⟩ := hgrow
      rw [hsome]
      exact ih hk' rfl (by rwa [length_append])
    . next hfits =>
      rw [hgrow, if_neg]
      . rfl
      . rw [length_append, length_append]
        omega

theorem getPackedMsg_eq (chunks : List (List UInt8))
    : getPackedMsg chunks = if chunks.flatten.length ≤ 2 ^ 30 then some chunks.flatten else none := by
  have hwrite := @foldlM_write chunks .new 8 (by decide) rfl (by decide)
  rwa [Buffer.new, nil_append] at hwrite

section Loop

variable {σ α : Type}

def unpackLoop (body : σ → Unpacker σ) (s : σ) : Unpacker σ := do
  let size ← unpackInt
  go size.toInt.toNat s
where
  go : Nat → σ → Unpacker σ
    | 0, s => pure s
    | n + 1, s => do
      let s ← body s
      go n s

variable {body : σ → Unpacker σ} {pack : α → List UInt8} {step : σ → α → σ} {l : List α} {s : σ} {rest : List UInt8}

section Shared

variable (hbody : ∀ a ∈ l, ∀ s rest, body s (pack a ++ rest) = some (step s a, rest))

include hbody

theorem unpackLoop.go_flatMap
    : unpackLoop.go body l.length s (l.flatMap pack ++ rest) = some (l.foldl step s, rest) := by
  induction l generalizing s with
  | nil => rfl
  | cons a l ih =>
    have ⟨ha, hl⟩ := forall_mem_cons.mp hbody
    rw [length_cons, go, Unpacker.bind_apply, flatMap_cons, append_assoc, ha, Option.bind_some]
    exact ih hl

theorem unpackLoop_flatMap (hlen : l.length < 2 ^ 31)
    : unpackLoop body s (packInt (Int32.ofNat l.length) ++ (l.flatMap pack ++ rest))
        =
      some (l.foldl step s, rest) := by
  have hcount : (Int32.ofNat l.length).toInt.toNat = l.length := by
    rw [Int32.toInt_ofNat_of_lt hlen, Int.toNat_natCast]
  rw [unpackLoop, Unpacker.bind_apply, unpackInt_packInt, Option.bind_some, hcount]
  exact unpackLoop.go_flatMap hbody

end Shared

theorem flatten_flatMap
    : (l.flatMap chunks).flatten = l.flatMap (fun a => (chunks a).flatten) := by
  rw [← flatMap_id, flatMap_assoc]
  simp only [flatMap_id]

theorem length_le_of_mem {a : α} (ha : a ∈ l) : (pack a).length ≤ (l.flatMap pack).length := by
  rw [flatMap_def]
  exact (sublist_flatten_of_mem (mem_map_of_mem ha)).length_le

theorem length_le_flatMap (hpos : ∀ a ∈ l, 0 < (pack a).length) : l.length ≤ (l.flatMap pack).length := by
  induction l with
  | nil => exact Nat.le_refl _
  | cons a l ih =>
    have ⟨ha, hl⟩ := forall_mem_cons.mp hpos
    rw [flatMap_cons, length_append, length_cons]
    have := ih hl
    omega

end Loop

theorem unpackStr_strChunks (h : (strChunks value).flatten.length ≤ 2 ^ 30)
    : unpackStr ((strChunks value).flatten ++ rest) = some (cut value, rest) := by
  have hlen : (cut value).length + 1 < 2 ^ 31 := by
    simp only [strChunks, flatten_cons, flatten_nil, append_nil, length_append,
      length_singleton] at h
    omega
  have hzero : 0 ∉ cut value := by
    intro hmem
    have := mem_takeWhile_imp hmem
    contradiction
  have hread := @unpackStr_packStr rest ⟨cut value, hzero, hlen⟩
  rw [packStr] at hread
  simpa [strChunks] using hread

section Growth

/--
The loop of `checkBuffer` on an `int` that wraps around, for at most `fuel` rounds.
-/
def checkBuffer (len : Int) : Nat → Int → Option Int
  | 0, _ => none
  | fuel + 1, bufSize =>
    if bufSize < len then checkBuffer len fuel (CInt.wrap (bufSize * 2)) else some bufSize

inductive Call where
  | packInt (value : Int32)
  | packStr (value : CString)
  | packStrLen (value : CString) (len : Fin (value.length + 1))

namespace Call

def chunks : Call → List (List UInt8)
  | packInt value => [Packer.packInt value]
  | packStr value => strChunks value
  | packStrLen value len => [Packer.packInt (Int32.ofNat len), value.take len]

def value : Call → Int32 ⊕ CString
  | packInt value => .inl value
  | packStr value => .inr value
  | packStrLen value len => .inr (value.take len)

def unpack : Call → Unpacker (Int32 ⊕ CString)
  | packInt _ => .inl <$> unpackInt
  | packStr _ => .inr <$> unpackStr
  | packStrLen _ _ => .inr <$> unpackBuf

end Call

structure Fits (buffer : Buffer) (chunk : List UInt8) (buffer' : Buffer) : Prop where
  terminates : ∃ fuel, checkBuffer (buffer.msg.length + chunk.length) fuel buffer.bufSize = some (buffer'.bufSize : Int)
  capacity : buffer.msg.length + chunk.length ≤ buffer'.bufSize
  msg : buffer'.msg = buffer.msg ++ chunk

def PacksBack (calls : List Call) : Prop :=
  ∃ buffer, Run Fits .new (calls.flatMap Call.chunks) buffer ∧
    calls.mapM Call.unpack buffer.msg = some (calls.map Call.value, [])

theorem checkBuffer_of_grow (h : grow fuel bufSize len = some bufSize')
    : len ≤ bufSize' ∧ checkBuffer len fuel bufSize = some (bufSize' : Int) := by
  induction fuel generalizing bufSize with
  | zero => cases h
  | succ fuel ih =>
    rw [grow] at h
    rw [checkBuffer]
    split at h
    . split at h
      . cases h
      . next hlt hsmall =>
        rw [if_pos (by omega), CInt.wrap_eq_iff.mpr ⟨by omega, by omega⟩]
        exact_mod_cast ih h
    . cases h
      exact ⟨by omega, if_neg (by omega)⟩

theorem checkBuffer_zero (hlen : 0 < len) : checkBuffer len fuel 0 = none := by
  induction fuel with
  | zero => rfl
  | succ fuel ih => rwa [checkBuffer, if_pos hlen]

-- from 2 ^ 30 the size goes to - 2 ^ 31 and then to zero, where it stays
theorem checkBuffer_pow (hk : k ≤ 30) (h : checkBuffer len fuel (2 ^ k) = some bufSize)
    : len ≤ 2 ^ 30 ∧ ∃ k', k' ≤ 30 ∧ bufSize = 2 ^ k' := by
  have hle : (2 : Int) ^ k ≤ 2 ^ 30 := by exact_mod_cast Nat.pow_le_pow_right (by decide) hk
  induction fuel generalizing k with
  | zero => cases h
  | succ fuel ih =>
    rw [checkBuffer] at h
    split at h
    . next hlt =>
      rw [← Int.pow_succ] at h
      by_cases hlast : k = 30
      . subst hlast
        cases fuel with
        | zero => cases h
        | succ fuel =>
          rw [show CInt.wrap (2 ^ 31) = -2 ^ 31 by decide, checkBuffer, if_pos (by omega),
            show CInt.wrap (-2 ^ 31 * 2) = 0 by decide, checkBuffer_zero (by omega)] at h
          cases h
      . have hnext : (2 : Int) ^ (k + 1) ≤ 2 ^ 30 := by exact_mod_cast Nat.pow_le_pow_right (by decide) (by omega)
        have hpos : (0 : Int) < 2 ^ (k + 1) := by positivity
        rw [CInt.wrap_eq_iff.mpr ⟨by omega, by omega⟩] at h
        exact ih (by omega) h hnext
    . cases h
      exact ⟨by omega, k, hk, rfl⟩

theorem run_fits (hlen : start.msg.length ≤ 2 ^ 30) (hk : k ≤ 30) (hsize : start.bufSize = 2 ^ k)
    (h : Run Fits start chunks buffer)
    : buffer.msg = start.msg ++ chunks.flatten ∧ buffer.msg.length ≤ 2 ^ 30 := by
  induction h generalizing k with
  | nil => simpa using hlen
  | cons hfits _ ih =>
    obtain ⟨fuel, hcheck⟩ := hfits.terminates
    rw [hsize, Nat.cast_pow] at hcheck
    obtain ⟨hnext, k', hk', hsize'⟩ := checkBuffer_pow hk hcheck
    rw [hfits.msg, length_append] at ih
    simpa using ih (by omega) hk' (by exact_mod_cast hsize')

theorem run_new_fits (h : Run Fits .new chunks buffer)
    : buffer.msg = chunks.flatten ∧ chunks.flatten.length ≤ 2 ^ 30 := by
  obtain ⟨hmsg, hlen⟩ := run_fits (k := 8) (by decide) (by decide) rfl h
  rw [hmsg] at hlen
  exact ⟨hmsg, hlen⟩

theorem exists_run (h : chunks.flatten.length ≤ 2 ^ 30) : ∃ buffer, Run Fits .new chunks buffer := by
  have hpacked := getPackedMsg_eq chunks
  rw [if_pos h] at hpacked
  obtain ⟨buffer, hfold, _⟩ := Option.map_eq_some_iff.mp hpacked
  refine ⟨buffer, (Run.of_foldlM hfold).mono ?_⟩
  intro b chunk b' hwrite
  obtain ⟨bufSize, hgrow, hwrite⟩ := Option.bind_eq_some_iff.mp hwrite
  cases hwrite
  obtain ⟨hle, hcheck⟩ := checkBuffer_of_grow hgrow
  exact ⟨⟨32, by exact_mod_cast hcheck⟩, hle, rfl⟩

def Call.read : Call → Int32 ⊕ CString
  | packStr value => .inr (cut value)
  | call => call.value

theorem Call.unpack_chunks {call : Call} (h : call.chunks.flatten.length ≤ 2 ^ 30)
    : call.unpack (call.chunks.flatten ++ rest) = some (call.read, rest) := by
  cases call with
  | packInt value => simp [unpack, chunks, read, Call.value]
  | packStr value => simp [unpack, chunks, read, unpackStr_strChunks h]
  | packStrLen value len =>
    have hlen : (value.take len).length = len := length_take_of_le (Nat.le_of_lt_succ len.2)
    have hread := @unpackBuf_pack rest (value.take len) (by simp [chunks] at h; omega)
    rw [hlen] at hread
    simp [unpack, chunks, read, Call.value, hread]

theorem mapM_unpack {calls : List Call} (h : (calls.flatMap Call.chunks).flatten.length ≤ 2 ^ 30)
    : calls.mapM Call.unpack (calls.flatMap Call.chunks).flatten = some (calls.map Call.read, []) := by
  induction calls with
  | nil => rfl
  | cons call calls ih =>
    rw [flatMap_cons, flatten_append, length_append] at h
    simp [Call.unpack_chunks (Nat.le_trans (Nat.le_add_right _ _) h), ih (by omega)]

theorem map_read_eq_iff {calls : List Call}
    : calls.map Call.read = calls.map Call.value ↔ ∀ value, .packStr value ∈ calls → 0 ∉ value := by
  rw [map_inj_left]
  constructor
  . intro h value hmem
    have hcut := Sum.inr.inj (h _ hmem)
    rw [cut, takeWhile_eq_self_iff] at hcut
    exact fun hzero => by simpa using hcut 0 hzero
  . intro h call hmem
    cases call with
    | packStr value =>
      apply congrArg Sum.inr
      rw [cut, takeWhile_eq_self_iff]
      intro c hc
      rw [bne_iff_ne]
      rintro rfl
      exact h value hmem hc
    | _ => rfl

theorem packsBack_iff (calls : List Call)
    : PacksBack calls
        ↔
      (calls.flatMap Call.chunks).flatten.length ≤ 2 ^ 30 ∧ ∀ value, .packStr value ∈ calls → 0 ∉ value := by
  rw [← map_read_eq_iff]
  constructor
  . rintro ⟨buffer, hrun, hread⟩
    obtain ⟨hmsg, hlen⟩ := run_new_fits hrun
    rw [hmsg, mapM_unpack hlen] at hread
    exact ⟨hlen, (Prod.mk.inj (Option.some.inj hread)).1⟩
  . rintro ⟨hlen, hvalues⟩
    obtain ⟨buffer, hrun⟩ := exists_run hlen
    refine ⟨buffer, hrun, ?_⟩
    rw [(run_new_fits hrun).1, mapM_unpack hlen, hvalues]

theorem growth_without_end : ∃ calls, (calls.flatMap Call.chunks).flatten.length = 2 ^ 30 + 1 ∧ ¬PacksBack calls := by
  have hlength : ∀ n, ([Call.packStrLen (replicate n 0) (Fin.last _)].flatMap Call.chunks).flatten.length = n + 4 := by
    intro n
    simp [Call.chunks, packInt]
  refine ⟨_, hlength (2 ^ 30 - 3), ?_⟩
  rintro ⟨buffer, hrun, _⟩
  have hle := (run_new_fits hrun).2
  rw [hlength] at hle
  omega

end Growth

end Packer
