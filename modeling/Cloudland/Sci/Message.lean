import Cloudland.Sci.Stream

/-!
The messages of `libsci/message.cpp`, and how a stream carries them.
-/

namespace Sci.Link

open Option

open Packer (packInt unpackInt Unpacker)

inductive MessageType where
  | UNKNOWN | CONFIG | COMMAND | FILTER_LOAD | FILTER_UNLOAD | GROUP_CREATE | GROUP_FREE | GROUP_OPERATE
  | GROUP_OPERATE_EXT | QUIT | DATA | BE_REMOVE | BE_ADD | FILTER_LIST | RELEASE | UNCLE | UNCLE_LIST | PARENT
  | ERROR_EVENT | GROUP_MERGE | GROUP_DROP | SHUTDOWN | KILLNODE | INVALID_POLL | SOCKET_BROKEN | ERROR_DATA
  | ERROR_THREAD | SEGMENT | RESCUE
  deriving DecidableEq

namespace MessageType

def code : MessageType → Int32
  | UNKNOWN => -1
  | CONFIG => -1001
  | COMMAND => -1002
  | FILTER_LOAD => -1003
  | FILTER_UNLOAD => -1004
  | GROUP_CREATE => -1005
  | GROUP_FREE => -1006
  | GROUP_OPERATE => -1007
  | GROUP_OPERATE_EXT => -1008
  | QUIT => -1009
  | DATA => -1010
  | BE_REMOVE => -1011
  | BE_ADD => -1012
  | FILTER_LIST => -1013
  | RELEASE => -1014
  | UNCLE => -2001
  | UNCLE_LIST => -2002
  | PARENT => -2003
  | ERROR_EVENT => -2004
  | GROUP_MERGE => -2005
  | GROUP_DROP => -2006
  | SHUTDOWN => -3001
  | KILLNODE => -3002
  | INVALID_POLL => -4001
  | SOCKET_BROKEN => -4002
  | ERROR_DATA => -4003
  | ERROR_THREAD => -4004
  | SEGMENT => -5001
  | RESCUE => -6001

def all : List MessageType :=
  [UNKNOWN, CONFIG, COMMAND, FILTER_LOAD, FILTER_UNLOAD, GROUP_CREATE, GROUP_FREE, GROUP_OPERATE,
    GROUP_OPERATE_EXT, QUIT, DATA, BE_REMOVE, BE_ADD, FILTER_LIST, RELEASE, UNCLE, UNCLE_LIST, PARENT,
    ERROR_EVENT, GROUP_MERGE, GROUP_DROP, SHUTDOWN, KILLNODE, INVALID_POLL, SOCKET_BROKEN, ERROR_DATA,
    ERROR_THREAD, SEGMENT, RESCUE]

def ofCode (code : Int32) : Option MessageType := all.find? (fun t => t.code = code)

theorem ofCode_code (t : MessageType) : ofCode t.code = some t := by
  cases t <;> decide

end MessageType

def SCI_FILTER_NULL : Int32 := -1

def SCI_JOIN_SEGMENT : Int32 := -1001

structure Message where
  type : MessageType
  msgID : Int32
  filterID : Int32
  group : Int32
  buf : List UInt8
  fits : buf.length < 2 ^ 31
  deriving DecidableEq

namespace Message

def len (msg : Message) : Int32 := Int32.ofNat msg.buf.length

def build (fid g : Int32) (bufs : List (List UInt8)) (t : MessageType) (id : Int32) : Option Message :=
  if h : bufs.flatten.length < 2 ^ 31 then some ⟨t, id, fid, g, bufs.flatten, h⟩ else none

structure Signer where
  sign : Message → List UInt8
  verify : Message → List UInt8 → Bool
  accepts : ∀ msg, verify msg (sign msg) = true
  fits : ∀ msg, (sign msg).length ≤ MAX_NETWORK_SIZE

def putContent (msg : Message) (o : OutStream) : Option OutStream :=
  if msg.len > 0 then o.write msg.buf else some o

def put (sg : Signer) (msg : Message) (o : OutStream) : Option OutStream := do
  let o ← o.putInt msg.type.code
  let o ← o.putInt msg.msgID
  let o ← o.putInt msg.filterID
  let o ← o.putInt msg.group
  let o ← o.putInt msg.len
  let o ← msg.putContent o
  let o ← o.putIovec (sg.sign msg)
  return o.flush

def getContent (len : Int32) : Unpacker (List UInt8) :=
  if len > 0 then InStream.read len.toInt.toNat else pure []

def get (sg : Signer) : Unpacker Message := do
  let code ← unpackInt
  match MessageType.ofCode code with
  | none => failure
  | some type =>
    let msgID ← unpackInt
    let filterID ← unpackInt
    let group ← unpackInt
    let len ← unpackInt
    let buf ← getContent len
    let sign ← InStream.getIovec
    match build filterID group [buf] type msgID with
    | none => failure
    | some msg => if sg.verify msg sign then return msg else failure

variable (sg : Signer) (msg : Message)

def signBytes (sign : List UInt8) : List UInt8 :=
  packInt 8 ++ (packInt (Int64.ofNat sign.length <<< 4 >>> 4).toInt32 ++
    packInt (Int64.ofNat sign.length >>> 4).toInt32) ++ sign

def bytes : List UInt8 :=
  packInt msg.type.code ++ (packInt msg.msgID ++ (packInt msg.filterID ++ (packInt msg.group ++
    (packInt msg.len ++ (msg.buf ++ signBytes (sg.sign msg))))))

theorem toInt_len : msg.len.toInt = msg.buf.length := Int32.toInt_ofNat_of_lt msg.fits

theorem len_pos : msg.len > 0 ↔ 0 < msg.buf.length := by
  rw [gt_iff_lt, Int32.lt_iff_toInt_lt, toInt_len]
  exact Int.natCast_pos

theorem buf_eq_nil (h : ¬msg.len > 0) : msg.buf = [] := by
  rw [len_pos, Nat.pos_iff_ne_zero, not_not] at h
  exact List.eq_nil_of_length_eq_zero h

theorem writes_content : Writes msg.putContent msg.buf := by
  intro o
  unfold putContent
  split
  . exact Writes.write msg.buf o
  . next h =>
    rw [msg.buf_eq_nil h]
    exact Writes.done o

theorem put_eq (h : o.buffer.length ≤ BUFFER_SIZE)
    : put sg msg o = some ⟨o.sent ++ o.buffer ++ bytes sg msg, []⟩ := by
  have hall := (Writes.putInt msg.type.code).bind ((Writes.putInt msg.msgID).bind
    ((Writes.putInt msg.filterID).bind ((Writes.putInt msg.group).bind ((Writes.putInt msg.len).bind
      (msg.writes_content.bind (Writes.putIovec (sg.sign msg)))))))
  have ⟨o', hput, _, hbytes⟩ := hall o h
  have hflush : put sg msg o = (some o').bind (fun o => some o.flush) := by
    rw [← hput]
    simp only [put, bind_eq_bind, bind_assoc, pure_def]
  rw [hflush, bind_some, OutStream.flush, hbytes]
  rfl

theorem getContent_put (rest : List UInt8) : getContent msg.len (msg.buf ++ rest) = some (msg.buf, rest) := by
  unfold getContent
  split
  . rw [toInt_len, Int.toNat_natCast]
    exact InStream.read_append msg.buf rest
  . next h =>
    rw [msg.buf_eq_nil h]
    rfl

theorem get_bytes (rest : List UInt8) : get sg (bytes sg msg ++ rest) = some (msg, rest) := by
  have hsign := InStream.getIovec_put (sg.fits msg) rest
  have hbuild : build msg.filterID msg.group [msg.buf] msg.type msg.msgID = some msg := by
    rw [build, dif_pos (by simpa using msg.fits)]
    simp
  simp only [get, bytes, signBytes, List.append_assoc, Packer.Unpacker.bind_apply, Packer.unpackInt_packInt,
    bind_some, MessageType.ofCode_code, getContent_put]
  simp only [List.append_assoc] at hsign
  rw [hsign, bind_some]
  rw [hbuild]
  dsimp only
  rw [if_pos (sg.accepts msg)]
  rfl

end Message

end Sci.Link
