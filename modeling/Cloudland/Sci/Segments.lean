import Mathlib.Algebra.Order.Floor.Div
import Mathlib.Data.List.SplitLengths
import Cloudland.Lib.CInt
import Cloudland.Sci.Message

/-!
Messages that are longer than a segment: `RoutingList::getSegments` cuts them, `Message::joinSegments` puts
them together.
-/

namespace Sci.Link.RoutingList

def segnum (mlen maxSegmentSize : Int32) : Int32 := (mlen + maxSegmentSize - 1) / maxSegmentSize + 1

def segmentSize (mlen maxSegmentSize : Int32) (i : Nat) : Int32 :=
  if (i : Int) < (segnum mlen maxSegmentSize).toInt - 1 then maxSegmentSize else (mlen - 1) % maxSegmentSize + 1

def segmentSizes (mlen maxSegmentSize : Int32) : List Nat :=
  (List.range ((segnum mlen maxSegmentSize).toInt.toNat - 1)).map (fun k =>
    (segmentSize mlen maxSegmentSize (k + 1)).toInt.toNat)

def headerFilter (msg : Message) : Int32 :=
  if msg.filterID ≠ SCI_FILTER_NULL ∨ msg.type ≠ .COMMAND then SCI_JOIN_SEGMENT else msg.filterID

/--
There is no result when the array has no room for the header, or a segment ends behind the content.
-/
def getSegments (maxSegmentSize : Int32) (msg : Message) : Option (List Message) :=
  if (segnum msg.len maxSegmentSize).toInt ≤ 0 ∨ msg.buf.length < (segmentSizes msg.len maxSegmentSize).sum then
    none
  else do
    let header ← Message.build (headerFilter msg) msg.group [] .SEGMENT (segnum msg.len maxSegmentSize)
    let segs ← ((segmentSizes msg.len maxSegmentSize).splitLengths msg.buf).mapM (fun buf =>
      Message.build msg.filterID msg.group [buf] msg.type msg.msgID)
    return header :: segs

end RoutingList

namespace Message

def joinSegments (segments : List Message) : Option Message :=
  match segments with
  | [] => none
  | first :: _ => build first.filterID first.group (segments.map (·.buf)) first.type first.msgID

theorem build_all {fid g id : Int32} {t : MessageType} {bufs : List (List UInt8)}
    (h : ∀ buf ∈ bufs, buf.length < 2 ^ 31)
    : ∃ segs, bufs.mapM (fun buf => build fid g [buf] t id) = some segs ∧ segs.map (·.buf) = bufs ∧
        ∀ seg ∈ segs, seg.filterID = fid ∧ seg.group = g ∧ seg.type = t ∧ seg.msgID = id := by
  induction bufs with
  | nil => exact ⟨[], rfl, rfl, by simp⟩
  | cons buf bufs ih =>
    have ⟨segs, hsegs, hbufs, hfields⟩ := ih (fun b hb => h b (List.mem_cons_of_mem _ hb))
    have hfits : [buf].flatten.length < 2 ^ 31 := by
      simpa using h buf (by simp)
    have hbuild : build fid g [buf] t id = some ⟨t, id, fid, g, [buf].flatten, hfits⟩ := dif_pos hfits
    refine ⟨⟨t, id, fid, g, [buf].flatten, hfits⟩ :: segs, ?_, ?_, ?_⟩
    . simp only [List.mapM_cons, hbuild, hsegs]
      rfl
    . simp [hbufs]
    . intro seg hseg
      cases hseg with
      | head => exact ⟨rfl, rfl, rfl, rfl⟩
      | tail _ hseg => exact hfields seg hseg

end Message

namespace RoutingList

section Sizes

variable {mlen s : Int32}

theorem toInt_segnum (mlen s : Int32)
    : (segnum mlen s).toInt = CInt.wrap ((CInt.wrap (mlen.toInt + s.toInt - 1)).tdiv s.toInt + 1) := by
  have hone : (1 : Int32).toInt = 1 := rfl
  rw [segnum, Int32.toInt_add, Int32.toInt_div, Int32.toInt_sub, Int32.toInt_add, hone, Int.bmod_add_bmod,
    Int.bmod_sub_bmod]
  rfl

section Shared

variable (hs : 1 ≤ s.toInt) (hn : s.toInt < mlen.toInt)

include hs hn

theorem segnum_of_le (h : mlen.toInt + max s.toInt 2 ≤ 2 ^ 31)
    : (segnum mlen s).toInt = (mlen.toInt - 1) / s.toInt + 2 := by
  have hsum : CInt.wrap (mlen.toInt + s.toInt - 1) = mlen.toInt - 1 + s.toInt := by
    rw [CInt.wrap_eq_iff.mpr (by unfold CInt.IsInt; omega)]
    omega
  have hdiv : (mlen.toInt - 1 + s.toInt).tdiv s.toInt = (mlen.toInt - 1) / s.toInt + 1 := by
    have hcancel := Int.add_mul_ediv_right (mlen.toInt - 1) 1 (show s.toInt ≠ 0 by omega)
    rwa [Int.one_mul, ← Int.tdiv_eq_ediv_of_nonneg (by omega)] at hcancel
  have hle : (mlen.toInt - 1) / s.toInt ≤ mlen.toInt - 1 := Int.ediv_le_self _ (by omega)
  have hpos : 0 ≤ (mlen.toInt - 1) / s.toInt := Int.ediv_nonneg (by omega) (by omega)
  rw [toInt_segnum, hsum, hdiv, CInt.wrap_eq_iff.mpr (by unfold CInt.IsInt; omega)]
  omega

theorem segnum_of_gt (h : 2 ^ 31 < mlen.toInt + max s.toInt 2) : (segnum mlen s).toInt ≤ 1 := by
  have hmlen := mlen.toInt_lt
  rw [toInt_segnum]
  by_cases hsum : mlen.toInt + s.toInt ≤ 2 ^ 31
  . have hone : s.toInt = 1 ∧ mlen.toInt = 2 ^ 31 - 1 := by omega
    rw [hone.1, hone.2]
    decide
  . have hwrap : CInt.wrap (mlen.toInt + s.toInt - 1) = -(2 ^ 32 + 1 - mlen.toInt - s.toInt) := by
      unfold CInt.wrap
      rw [Int.bmod_def]
      split
      . omega
      . omega
    have hle := Int.ediv_le_self (a := 2 ^ 32 + 1 - mlen.toInt - s.toInt) s.toInt (by omega)
    have hpos := Int.ediv_nonneg (a := 2 ^ 32 + 1 - mlen.toInt - s.toInt) (b := s.toInt) (by omega) (by omega)
    rw [hwrap, Int.neg_tdiv, Int.tdiv_eq_ediv_of_nonneg (by omega),
      CInt.wrap_eq_iff.mpr (by unfold CInt.IsInt; omega)]
    omega

theorem lastSize_of_le : ((mlen - 1) % s + 1).toInt = (mlen.toInt - 1) % s.toInt + 1 := by
  have hone : (1 : Int32).toInt = 1 := rfl
  have hmlen := mlen.toInt_lt
  have hsub : (mlen.toInt - 1).bmod (2 ^ 32) = mlen.toInt - 1 :=
    CInt.wrap_eq_iff.mpr (by unfold CInt.IsInt; omega)
  have hpos := Int.emod_nonneg (mlen.toInt - 1) (show s.toInt ≠ 0 by omega)
  have hlt := Int.emod_lt_of_pos (mlen.toInt - 1) (show 0 < s.toInt by omega)
  rw [Int32.toInt_add, Int32.toInt_mod, Int32.toInt_sub, hone, hsub, Int.tmod_eq_emod_of_nonneg (by omega)]
  exact CInt.wrap_eq_iff.mpr (by unfold CInt.IsInt; omega)

theorem segmentSizes_of_le (h : mlen.toInt + max s.toInt 2 ≤ 2 ^ 31)
    : segmentSizes mlen s
        =
      List.replicate ((mlen.toInt.toNat - 1) / s.toInt.toNat) s.toInt.toNat ++
        [(mlen.toInt.toNat - 1) % s.toInt.toNat + 1] := by
  have hsegnum := segnum_of_le hs hn h
  have hlast := lastSize_of_le hs hn
  have ⟨n, hn'⟩ := Int.eq_ofNat_of_zero_le (show 0 ≤ mlen.toInt - 1 by omega)
  have ⟨m, hm⟩ := Int.eq_ofNat_of_zero_le (show 0 ≤ s.toInt by omega)
  have hmlen : mlen.toInt.toNat - 1 = n := by omega
  rw [hn', hm, ← Int.natCast_ediv] at hsegnum
  rw [hn', hm, ← Int.natCast_emod] at hlast
  have hcount : (segnum mlen s).toInt.toNat - 1 = n / m + 1 := by
    generalize n / m = q at hsegnum ⊢
    omega
  rw [segmentSizes, hcount, hmlen, hm, Int.toNat_natCast, List.range_succ, List.map_append]
  congr 1
  . rw [List.eq_replicate_iff]
    refine ⟨by simp, ?_⟩
    intro size hsize
    have ⟨k, hk, hsize⟩ := List.mem_map.mp hsize
    rw [List.mem_range] at hk
    rw [← hsize, segmentSize, if_pos, hm, Int.toNat_natCast]
    generalize n / m = q at hsegnum hk
    omega
  . simp only [List.map_cons, List.map_nil, segmentSize]
    rw [if_neg, hlast]
    . rfl
    . generalize n / m = q at hsegnum ⊢
      omega

end Shared

theorem sum_segmentSizes (hn : 1 ≤ n) : (List.replicate ((n - 1) / m) m ++ [(n - 1) % m + 1]).sum = n := by
  have hdiv := Nat.div_add_mod (n - 1) m
  rw [List.sum_append, List.sum_replicate, List.sum_singleton, smul_eq_mul, Nat.mul_comm]
  omega

theorem mem_segmentSizes (hm : 1 ≤ m) (h : k ∈ List.replicate ((n - 1) / m) m ++ [(n - 1) % m + 1])
    : 1 ≤ k ∧ k ≤ m := by
  rw [List.mem_append, List.mem_singleton] at h
  obtain h | h := h
  . rw [List.eq_of_mem_replicate h]
    exact ⟨hm, Nat.le_refl m⟩
  . rw [h]
    exact ⟨Nat.le_add_left 1 _, Nat.mod_lt _ hm⟩

end Sizes

def RoundTrips (sg : Message.Signer) (maxSegmentSize : Int32) (msg : Message) : Prop :=
  ∃ header segs, getSegments maxSegmentSize msg = some (header :: segs) ∧
    header.type = .SEGMENT ∧ header.msgID.toInt = segs.length + 1 ∧
    segs.length = msg.buf.length ⌈/⌉ maxSegmentSize.toInt.toNat ∧
    (∀ seg ∈ segs, 1 ≤ seg.len.toInt ∧ seg.len.toInt ≤ maxSegmentSize.toInt) ∧
    Message.joinSegments segs = some msg ∧
    ∀ m ∈ header :: segs, ∀ o : OutStream, o.buffer.length ≤ BUFFER_SIZE →
      ∃ bytes, m.put sg o = some ⟨o.sent ++ o.buffer ++ bytes, []⟩ ∧
        ∀ rest, Message.get sg (bytes ++ rest) = some (m, rest)

theorem getSegments_of_gt
    (h : (segnum msg.len s).toInt ≤ 1) (hsegs : getSegments s msg = some (header :: segs))
    : segs = [] := by
  have hsizes : segmentSizes msg.len s = [] := by
    have hcount : (segnum msg.len s).toInt.toNat - 1 = 0 := by omega
    rw [segmentSizes, hcount]
    rfl
  unfold getSegments at hsegs
  split at hsegs
  . contradiction
  . rw [hsizes] at hsegs
    simp only [List.splitLengths_nil, List.mapM_nil, Option.bind_eq_bind, Option.pure_def, Option.bind_some,
      Option.bind_eq_some_iff, Option.some.injEq, List.cons.injEq] at hsegs
    have ⟨_, _, _, hnil⟩ := hsegs
    exact hnil.symm

theorem getSegments_of_le (hs : 1 ≤ s.toInt) (hn : s.toInt < msg.len.toInt)
    (h : msg.len.toInt + max s.toInt 2 ≤ 2 ^ 31)
    : ∃ header segs, getSegments s msg = some (header :: segs) ∧ header.type = .SEGMENT ∧
        header.msgID = segnum msg.len s ∧ segs.map (·.buf) = (segmentSizes msg.len s).splitLengths msg.buf ∧
        Message.joinSegments segs = some msg := by
  have hsizes := segmentSizes_of_le hs hn h
  have hlen := msg.toInt_len
  have hsum : (segmentSizes msg.len s).sum = msg.buf.length := by
    rw [hsizes, sum_segmentSizes (by omega), hlen, Int.toNat_natCast]
  have hflatten := List.flatten_splitLengths msg.buf _ (Nat.le_of_eq hsum.symm)
  have hfit : ∀ buf ∈ (segmentSizes msg.len s).splitLengths msg.buf, buf.length < 2 ^ 31 := by
    intro buf hbuf
    have hle := (List.sublist_flatten_of_mem hbuf).length_le
    rw [hflatten] at hle
    exact Nat.lt_of_le_of_lt hle msg.fits
  have ⟨segs, hsegs, hbufs, hfields⟩ :=
    @Message.build_all msg.filterID msg.group msg.msgID msg.type _ hfit
  have hsegnum := segnum_of_le hs hn h
  have hpos : 0 ≤ (msg.len.toInt - 1) / s.toInt := Int.ediv_nonneg (by omega) (by omega)
  refine ⟨⟨.SEGMENT, segnum msg.len s, headerFilter msg, msg.group, [], by simp⟩, segs, ?_, rfl, rfl, hbufs, ?_⟩
  . unfold getSegments
    rw [if_neg (by omega), hsegs]
    rfl
  . cases hfirst : segs with
    | nil =>
      rw [← hbufs, hfirst] at hflatten
      rw [← hflatten] at hlen
      simp only [List.map_nil, List.flatten_nil, List.length_nil] at hlen
      omega
    | cons first rest =>
      have ⟨hfilter, hgroup, htype, hid⟩ := hfields first (hfirst ▸ List.mem_cons_self)
      rw [← hbufs, hfirst] at hflatten
      simp only [Message.joinSegments, Message.build, hflatten, hfilter, hgroup, htype, hid]
      rw [dif_pos msg.fits]

theorem segments_round_trip (sg : Message.Signer) (maxSegmentSize : Int32) (msg : Message)
    (hs : 1 ≤ maxSegmentSize.toInt) (hn : maxSegmentSize.toInt < msg.len.toInt)
    : RoundTrips sg maxSegmentSize msg ↔ msg.len.toInt + max maxSegmentSize.toInt 2 ≤ 2 ^ 31 := by
  have hlen := msg.toInt_len
  constructor
  . intro ⟨header, segs, hsegs, _, _, hcount, _⟩
    apply Int.not_lt.mp
    intro hgt
    rw [getSegments_of_gt (segnum_of_gt hs hn hgt) hsegs, List.length_nil, eq_comm,
      Nat.ceilDiv_eq_add_pred_div, Nat.div_eq_zero_iff] at hcount
    omega
  . intro h
    have ⟨header, segs, hsegs, htype, hid, hbufs, hjoin⟩ := getSegments_of_le hs hn h
    have hsizes := segmentSizes_of_le hs hn h
    have hn' : msg.len.toInt.toNat = msg.buf.length := by rw [hlen, Int.toNat_natCast]
    have ⟨m, hm⟩ := Int.eq_ofNat_of_zero_le (show 0 ≤ maxSegmentSize.toInt by omega)
    have hm' : maxSegmentSize.toInt.toNat = m := by rw [hm, Int.toNat_natCast]
    rw [hn', hm'] at hsizes
    have hlength : segs.length = (msg.buf.length - 1) / m + 1 := by
      have hlens := congrArg List.length hbufs
      rw [List.length_map, List.length_splitLengths, hsizes] at hlens
      simpa using hlens
    refine ⟨header, segs, hsegs, htype, ?_, ?_, ?_, hjoin, ?_⟩
    . have hdiv : (msg.len.toInt - 1) / maxSegmentSize.toInt = ((msg.buf.length - 1) / m : Nat) := by
        rw [Int.natCast_ediv, hm, hlen]
        congr 1
        omega
      rw [hid, segnum_of_le hs hn h, hlength, hdiv]
      omega
    . have hsum : msg.buf.length + m - 1 = msg.buf.length - 1 + m := by omega
      rw [hlength, hm', Nat.ceilDiv_eq_add_pred_div, hsum, Nat.add_div_right _ (by omega)]
    . intro seg hseg
      have hmem : seg.buf.length ∈ segmentSizes msg.len maxSegmentSize := by
        have hlens := List.map_splitLengths_length msg.buf (segmentSizes msg.len maxSegmentSize)
          (by rw [hsizes, sum_segmentSizes (by omega)])
        rw [← hlens, ← hbufs, List.map_map]
        exact List.mem_map_of_mem hseg
      rw [hsizes] at hmem
      have hbounds := mem_segmentSizes (by omega) hmem
      rw [seg.toInt_len]
      omega
    . intro m _ o ho
      exact ⟨m.bytes sg, m.put_eq sg ho, m.get_bytes sg⟩

def unsigned : Message.Signer := ⟨fun _ => [], fun _ _ => true, fun _ => rfl, fun _ => Nat.zero_le _⟩

theorem segments_round_trip_five : RoundTrips unsigned 2 ⟨.DATA, 7, 3, 1, [10, 20, 30, 40, 50], by decide⟩ :=
  (segments_round_trip unsigned 2 ⟨.DATA, 7, 3, 1, [10, 20, 30, 40, 50], by decide⟩ (by decide) (by decide)).mpr
    (by decide)

theorem exists_content (h : n < 2 ^ 31) : ∃ msg : Message, msg.buf.length = n :=
  ⟨⟨.COMMAND, 0, SCI_FILTER_NULL, 0, List.replicate n 0, by rwa [List.length_replicate]⟩, List.length_replicate⟩

theorem longest_not_cut : ∃ msg : Message, msg.len.toInt = 2 ^ 31 - 1 ∧ ¬RoundTrips unsigned 11680 msg := by
  have ⟨msg, hbuf⟩ := exists_content (show 2 ^ 31 - 1 < 2 ^ 31 by decide)
  have hlen := msg.toInt_len
  have hsize : (11680 : Int32).toInt = 11680 := rfl
  refine ⟨msg, by omega, ?_⟩
  intro ⟨header, segs, hsegs, _, _, hcount, _⟩
  have hnil := getSegments_of_gt (segnum_of_gt (by omega) (by omega) (by omega)) hsegs
  rw [hnil, List.length_nil, hsize, Nat.ceilDiv_eq_add_pred_div, hbuf] at hcount
  contradiction

end Sci.Link.RoutingList
