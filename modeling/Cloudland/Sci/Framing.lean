import Cloudland.Lib.CInt
import Cloudland.Sci.Stream
import Mathlib.Data.List.TakeWhile

/-!
Sequences of values on a stream: the operators of `common/stream.cpp` for the types that the nodes exchange.
-/

namespace Sci

open List Option

open Packer (packInt unpackInt Unpacker)

namespace OutStream

def putChar (value : UInt8) (o : OutStream) : Option OutStream := (o.checkBuffer 1).copy [value]

def putBool (value : Bool) (o : OutStream) : Option OutStream := (o.checkBuffer 1).copy [if value then 1 else 0]

def putString (value : CString) (o : OutStream) : Option OutStream := do
  let chars := value.takeWhile (· != 0)
  let o ← o.putInt (Int32.ofNat (chars.length + 1))
  o.write (chars ++ [0])

end OutStream

namespace InStream

def getChar : Unpacker UInt8 := fun msg =>
  match msg with
  | c :: msg => some (c, msg)
  | [] => none

def getBool : Unpacker Bool := do
  let c ← getChar
  return c != 0

def getString : Unpacker CString := do
  let len ← unpackInt
  if len.toInt < 0 ∨ len.toInt > MAX_NETWORK_SIZE then
    failure
  else
    let buf ← read len.toInt.toNat
    if 0 ∈ buf then return buf.takeWhile (· != 0) else failure

end InStream

inductive Kind where
  | char
  | bool
  | int
  | long
  | string
  | iovec
  deriving DecidableEq

inductive Value where
  | char (value : UInt8)
  | bool (value : Bool)
  | int (value : Int32)
  | long (value : Int64)
  | string (value : CString)
  | iovec (value : List UInt8)
  deriving DecidableEq

namespace Value

def kind : Value → Kind
  | .char _ => .char
  | .bool _ => .bool
  | .int _ => .int
  | .long _ => .long
  | .string _ => .string
  | .iovec _ => .iovec

def put : Value → OutStream → Option OutStream
  | .char value => OutStream.putChar value
  | .bool value => OutStream.putBool value
  | .int value => OutStream.putInt value
  | .long value => OutStream.putLong value
  | .string value => OutStream.putString value
  | .iovec value => OutStream.putIovec value

def Sized : Value → Prop
  | .string value => 0 ∉ value ∧ value.length ≤ MAX_NETWORK_SIZE
  | .iovec value => value.length ≤ MAX_NETWORK_SIZE
  | _ => True

def Carried : Value → Prop
  | .long value => -2 ^ 31 ≤ value.toInt ∧ value.toInt < 2 ^ 31
  | .string value => value.length < MAX_NETWORK_SIZE
  | _ => True

end Value

namespace Kind

def get : Kind → Unpacker Value
  | .char => Value.char <$> InStream.getChar
  | .bool => Value.bool <$> InStream.getBool
  | .int => Value.int <$> unpackInt
  | .long => (fun value => Value.long value.toInt64) <$> InStream.getLong
  | .string => Value.string <$> InStream.getString
  | .iovec => Value.iovec <$> InStream.getIovec

end Kind

def putAll : List Value → OutStream → Option OutStream
  | [], o => some o
  | v :: vs, o => (v.put o).bind (putAll vs)

def getAll : List Kind → Unpacker (List Value)
  | [] => pure []
  | k :: ks => do
    let v ← k.get
    let vs ← getAll ks
    return v :: vs

namespace Value

def wire : Value → List UInt8
  | .char value => [value]
  | .bool value => [if value then 1 else 0]
  | .int value => packInt value
  | .long value =>
    packInt 8 ++ (packInt (value <<< 4 >>> 4).toInt32 ++ packInt (value >>> 4).toInt32)
  | .string value =>
    let chars := value.takeWhile (· != 0)
    packInt (Int32.ofNat (chars.length + 1)) ++ (chars ++ [0])
  | .iovec value =>
    packInt 8 ++ (packInt (Int64.ofNat value.length <<< 4 >>> 4).toInt32 ++
      packInt (Int64.ofNat value.length >>> 4).toInt32) ++ value

theorem writes_put (v : Value) : Writes v.put v.wire := by
  cases v with
  | char value => exact Writes.checked (Nat.le_refl 1) (show 1 ≤ BUFFER_SIZE by decide)
  | bool value => exact Writes.checked (Nat.le_refl 1) (show 1 ≤ BUFFER_SIZE by decide)
  | int value => exact Writes.putInt value
  | long value => exact Writes.putLong value
  | string value => exact (Writes.putInt _).bind (Writes.write _)
  | iovec value => exact Writes.putIovec value

theorem takeWhile_of_notMem (h : 0 ∉ value) (rest : CString)
    : (value ++ 0 :: rest).takeWhile (· != 0) = value := by
  have hne : ∀ c ∈ value, (c != 0) = true := by
    intro c hc
    rw [bne_iff_ne]
    intro heq
    exact h (heq ▸ hc)
  rw [takeWhile_append_of_pos hne]
  simp

theorem getString_wire (hzero : 0 ∉ value) (hsize : value.length ≤ MAX_NETWORK_SIZE)
    (rest : List UInt8)
    : InStream.getString ((Value.string value).wire ++ rest)
        =
      if value.length < MAX_NETWORK_SIZE then some (value, rest) else none := by
  have hchars : value.takeWhile (· != 0) = value := by
    rw [takeWhile_eq_self_iff]
    intro c hc
    rw [bne_iff_ne]
    intro heq
    exact hzero (heq ▸ hc)
  have hlt :=
    Nat.lt_of_le_of_lt (Nat.succ_le_succ hsize) (show MAX_NETWORK_SIZE + 1 < 2 ^ 31 by decide)
  have hlen : (Int32.ofNat (value.length + 1)).toInt = value.length + 1 := Int32.toInt_ofNat_of_lt hlt
  have hread := InStream.read_append (value ++ [0]) rest
  rw [length_append, length_singleton] at hread
  simp only [wire, hchars, InStream.getString, append_assoc, Packer.Unpacker.bind_apply,
    Packer.unpackInt_packInt, bind_some, hlen]
  split
  . next hlong =>
    rw [if_neg (by omega)]
    rfl
  . next hshort =>
    have htoNat : ((value.length : Int) + 1).toNat = value.length + 1 := by omega
    rw [if_pos (by omega), Packer.Unpacker.bind_apply, htoNat, ← append_assoc, hread, bind_some]
    simp [takeWhile_of_notMem hzero]

theorem toInt64_toInt32 (value : Int64)
    : value.toInt32.toInt64 = value ↔ -2 ^ 31 ≤ value.toInt ∧ value.toInt < 2 ^ 31 := by
  rw [← Int64.toInt_inj, Int32.toInt_toInt64, Int64.toInt_toInt32]
  exact CInt.wrap_eq_iff

theorem get_wire {v : Value} (hsized : v.Sized) (h : v.Carried) (rest : List UInt8)
    : v.kind.get (v.wire ++ rest) = some (v, rest) := by
  cases v with
  | char value => rfl
  | bool value =>
    cases value with
    | false => rfl
    | true => rfl
  | int value => simp [kind, Kind.get, wire]
  | long value =>
    rw [kind, Kind.get, Packer.Unpacker.map_apply, wire, InStream.getLong_putLong, map_some,
      (toInt64_toInt32 value).mpr h]
  | string value =>
    have hlt : value.length < MAX_NETWORK_SIZE := h
    rw [kind, Kind.get, Packer.Unpacker.map_apply, getString_wire hsized.1 hsized.2, if_pos hlt]
    rfl
  | iovec value =>
    rw [kind, Kind.get, Packer.Unpacker.map_apply, wire, InStream.getIovec_put hsized]
    rfl

theorem carried_of_get {v : Value} (hsized : v.Sized) (h : v.kind.get (v.wire ++ rest) = some (v, left))
    : v.Carried := by
  cases v with
  | long value =>
    rw [kind, Kind.get, Packer.Unpacker.map_apply, wire, InStream.getLong_putLong, map_some,
      some.injEq, Prod.mk.injEq, Value.long.injEq] at h
    exact (toInt64_toInt32 value).mp h.1
  | string value =>
    rw [kind, Kind.get, Packer.Unpacker.map_apply, getString_wire hsized.1 hsized.2] at h
    split at h
    . next hlt => exact hlt
    . nomatch h
  | char value => trivial
  | bool value => trivial
  | int value => trivial
  | iovec value => trivial

end Value

theorem writes_putAll (vs : List Value) : Writes (putAll vs) (vs.flatMap Value.wire) := by
  induction vs with
  | nil => exact Writes.done
  | cons v vs ih => exact v.writes_put.bind ih

theorem getAll_cons
    : getAll (k :: ks) msg = some (v :: vs, left)
        ↔
      ∃ rest, k.get msg = some (v, rest) ∧ getAll ks rest = some (vs, left) := by
  simp only [getAll, Packer.Unpacker.bind_apply, Packer.Unpacker.pure_apply, bind_eq_some_iff, Prod.exists,
    some.injEq, Prod.mk.injEq, cons.injEq]
  constructor
  . intro ⟨w, rest, hw, ws, left', hws, ⟨heq, heqs⟩, hleft⟩
    subst heq heqs hleft
    exact ⟨rest, hw, hws⟩
  . intro ⟨rest, hv, hvs⟩
    exact ⟨v, rest, hv, vs, left, hvs, ⟨rfl, rfl⟩, rfl⟩

theorem getAll_wire {vs : List Value} (hsized : ∀ v ∈ vs, v.Sized) (rest : List UInt8)
    : getAll (vs.map Value.kind) (vs.flatMap Value.wire ++ rest) = some (vs, rest) ↔ ∀ v ∈ vs, v.Carried := by
  induction vs with
  | nil => simp [getAll]
  | cons v vs ih =>
    have hv := hsized v mem_cons_self
    have hvs := ih (fun w hw => hsized w (mem_cons_of_mem _ hw))
    rw [forall_mem_cons, ← hvs, map_cons, flatMap_cons, append_assoc, getAll_cons]
    constructor
    . intro ⟨left, hget, hrest⟩
      have hcarried := Value.carried_of_get hv hget
      rw [Value.get_wire hv hcarried, some.injEq, Prod.mk.injEq] at hget
      exact ⟨hcarried, hget.2 ▸ hrest⟩
    . intro ⟨hcarried, hrest⟩
      exact ⟨_, Value.get_wire hv hcarried _, hrest⟩

theorem values_round_trip (vs : List Value) (hsized : ∀ v ∈ vs, v.Sized) (o : OutStream)
    (ho : o.buffer.length ≤ BUFFER_SIZE)
    : (∃ o' bytes, putAll vs o = some o' ∧ o'.flush.sent = o.flush.sent ++ bytes ∧
        ∀ rest, getAll (vs.map Value.kind) (bytes ++ rest) = some (vs, rest))
      ↔
      ∀ v ∈ vs, v.Carried := by
  have ⟨o', hput, _, hsent⟩ := writes_putAll vs o ho
  constructor
  . intro ⟨o'', bytes, hput', hsent', hget⟩
    rw [hput, some.injEq] at hput'
    rw [← hput'] at hsent'
    have hbytes := append_cancel_left (hsent'.symm.trans hsent)
    rw [← getAll_wire hsized []]
    exact hbytes ▸ hget []
  . intro hcarried
    exact ⟨o', vs.flatMap Value.wire, hput, hsent, fun rest => (getAll_wire hsized rest).mpr hcarried⟩

theorem values_round_trip_int_and_long
    : ∃ o' bytes, putAll [.int 7, .long (-5)] ⟨[], []⟩ = some o' ∧
        o'.flush.sent = (OutStream.flush ⟨[], []⟩).sent ++ bytes ∧
        ∀ rest, getAll [.int, .long] (bytes ++ rest) = some ([.int 7, .long (-5)], rest) :=
  (values_round_trip [.int 7, .long (-5)] (by simp [Value.Sized]) ⟨[], []⟩ (by decide)).mpr
    (by simp [Value.Carried])

theorem long_truncated
    : (putAll [.long (2 ^ 32)] ⟨[], []⟩).map (fun o => getAll [.long] o.flush.sent)
        = some (some ([.long 0], [])) := by
  decide +kernel

end Sci
