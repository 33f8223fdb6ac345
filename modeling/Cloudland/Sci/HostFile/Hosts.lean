import Cloudland.Sci.HostFile.Syntax

/-!
The host part of a line: what `expand_host_region` makes of it.
-/

namespace Sci.HostFile

open CString StdString Check List Option

theorem int_eq_ok : int n = .ok m ↔ CInt.IsInt n ∧ n = m := by
  unfold int
  split
  . next h => simp [h]
  . next h => simp [h]

theorem Digits.value_nonneg (d : Digits) : 0 ≤ d.value := Int.natCast_nonneg _

theorem atol_digits (hne : digits ≠ []) (hdigits : ∀ c ∈ digits, isdigit c = true)
    (hrest : ∀ c ∈ rest.head?, isdigit c = false)
    : atol (digits ++ rest) = saturate (CString.value digits) := by
  have ⟨c, l, hcons⟩ := exists_cons_of_ne_nil hne
  have hread := @atol_of_isdigit c (l ++ rest) (hdigits c (hcons ▸ mem_cons_self))
  rw [← cons_append, ← hcons, takeWhile_digits hdigits hrest] at hread
  exact hread

theorem number_digits {d : Digits} {rest : CString} {n : Int} (hrest : ∀ c ∈ rest.head?, isdigit c = false)
    (h : number (d.text ++ rest) = .ok n)
    : n = d.value := by
  rw [number_eq_int, atol_digits d.ne_nil d.isdigit hrest, int_eq_ok] at h
  have ⟨hint, heq⟩ := h
  unfold CInt.IsInt at hint
  rw [← heq]
  unfold saturate Digits.value at *
  omega

theorem number_text {d : Digits} (h : number d.text = .ok n) : n = d.value := by
  apply @number_digits d [] n
  . simp
  . rw [append_nil]
    exact h

section Steps

variable {rangeEnd stride start : Int} {fuel : Nat} {l : List Int}

theorem progression_cons (hle : start ≤ rangeEnd) (hstride : 0 < stride)
    : progression start rangeEnd stride = start :: progression (start + stride) rangeEnd stride := by
  rw [progression, if_pos ⟨hle, hstride⟩, List.range_succ_eq_map, List.map_cons, List.map_map]
  congr 1
  . simp
  . by_cases hnext : start + stride ≤ rangeEnd
    . rw [progression, if_pos ⟨hnext, hstride⟩]
      have hcount : (rangeEnd - start) / stride = (rangeEnd - (start + stride)) / stride + 1 := by
        rw [show rangeEnd - start = (rangeEnd - (start + stride)) + 1 * stride by omega,
          Int.add_mul_ediv_right _ _ (by omega)]
      have hnonneg : 0 ≤ (rangeEnd - (start + stride)) / stride := Int.ediv_nonneg (by omega) (by omega)
      rw [show ((rangeEnd - start) / stride).toNat = ((rangeEnd - (start + stride)) / stride).toNat + 1 by omega]
      apply List.map_congr_left
      intro k _
      simp only [Function.comp_apply, Nat.cast_succ]
      rw [Int.mul_add]
      omega
    . have hzero : (rangeEnd - start) / stride = 0 := Int.ediv_eq_zero_of_lt (by omega) (by omega)
      rw [progression, if_neg (fun h => hnext h.1), hzero]
      rfl

theorem progression_of_lt (h : rangeEnd < start) : progression start rangeEnd stride = [] := by
  rw [progression, if_neg (by omega)]

section Shared

variable (hstart : 0 ≤ start) (hstride : 0 < stride) (hfuel : (rangeEnd - start).toNat + 2 ≤ fuel)

include hstart hstride hfuel

theorem steps_eq
    : steps rangeEnd stride fuel start = .ok (progression start rangeEnd stride) ∨
      (steps rangeEnd stride fuel start = .error .undefined ∧ ¬CInt.IsInt (rangeEnd + stride)) := by
  induction fuel generalizing start with
  | zero => omega
  | succ fuel ih =>
    rw [steps]
    split
    . next hle =>
      rw [progression_cons hle hstride]
      by_cases hint : CInt.IsInt (start + stride)
      . have hnext : int (start + stride) = .ok (start + stride) := if_pos hint
        rw [hnext]
        by_cases hend : start + stride ≤ rangeEnd
        . obtain hok | herror := @ih (start + stride) (by omega) (by omega)
          . simp only [bind, Except.bind, hok]
            exact .inl rfl
          . simp only [bind, Except.bind, herror.1]
            exact .inr ⟨trivial, herror.2⟩
        . have hdone : steps rangeEnd stride fuel (start + stride) = .ok [] := by
            cases fuel with
            | zero => omega
            | succ fuel => rw [steps, if_neg hend]; rfl
          simp only [bind, Except.bind, hdone, progression_of_lt (Int.not_le.mp hend)]
          exact .inl rfl
      . have hnext : int (start + stride) = .error .undefined := if_neg hint
        rw [hnext]
        refine .inr ⟨rfl, fun hend => hint ?_⟩
        unfold CInt.IsInt at *
        omega
    . next hgt =>
      rw [progression_of_lt (Int.not_le.mp hgt)]
      exact .inl rfl

theorem steps_eq_ok (h : steps rangeEnd stride fuel start = .ok l)
    : l = progression start rangeEnd stride := by
  obtain hok | herror := steps_eq hstart hstride hfuel
  . rw [hok, Except.ok.injEq] at h
    exact h.symm
  . rw [herror.1] at h
    nomatch h

end Shared

end Steps

section Range

variable {g : HostRange} {hostinfo hostinfo' : HostInfo}

theorem dash_notMem_digits (d : Digits) : dash ∉ d.text := fun h => absurd (d.isdigit _ h) (by decide)

theorem colon_notMem_digits (d : Digits) : colon ∉ d.text := fun h => absurd (d.isdigit _ h) (by decide)

theorem expandHostRange.rightSide_eq_ok (h : rightSide g.text g.first.text.length = .ok (rangeEnd, stride))
    : rangeEnd = g.last.value ∧ stride = g.stride.elim 1 Digits.value ∧ 0 < stride := by
  unfold rightSide at h
  have hlength : (g.first.text.length : Int) + 1 = (g.first.text ++ [dash]).length := by simp
  cases hstride : g.stride with
  | none =>
    have htext : g.text = (g.first.text ++ [dash]) ++ g.last.text := by simp [HostRange.text, hstride]
    rw [findFirstOf_of_notMem htext hlength (colon_notMem_digits _), substr_npos htext hlength] at h
    simp only [if_true, bind_eq_ok, pure_eq_ok, Prod.mk.injEq] at h
    obtain ⟨n, hn, hlast, hone⟩ := h
    simp only [elim_none]
    exact ⟨hlast ▸ number_text hn, hone.symm, hone ▸ Int.one_pos⟩
  | some d =>
    have htext : g.text = (g.first.text ++ [dash]) ++ (g.last.text ++ colon :: d.text) := by
      simp [HostRange.text, hstride]
    have hbehind : g.text = (g.first.text ++ [dash] ++ g.last.text ++ [colon]) ++ d.text := by simp [htext]
    rw [findFirstOf_append htext hlength (colon_notMem_digits _), if_neg (ne_npos (by omega)),
      substr_append htext hlength (by omega), substr_npos hbehind (by simp; omega)] at h
    simp only [bind_eq_ok, pure_eq_ok, require_eq_ok, Prod.mk.injEq] at h
    obtain ⟨n, hn, s, hs, _, hpositive, hlast, hsecond⟩ := h
    exact ⟨hlast ▸ number_text hn, hsecond ▸ number_text hs, hsecond ▸ hpositive⟩

theorem expandHostRange_eq_ok (h : expandHostRange hostinfo g.text = .ok hostinfo')
    : hostinfo' = { hostinfo with
        rangeBegin := g.first.value, rangeDigits := g.first.text.length, rangeEnd := g.last.value,
        stride := g.stride.elim 1 Digits.value } ∧
      g.first.value ≤ g.last.value ∧ 0 < g.stride.elim 1 Digits.value := by
  have hpos : findFirstOf g.text dash 0 = g.first.text.length := findFirstOf_append_zero (dash_notMem_digits _)
  have htmps : substr g.text 0 g.first.text.length = g.first.text := substr_zero
  simp only [expandHostRange, hpos, htmps, bind_eq_ok, pure_eq_ok, require_eq_ok, Prod.exists] at h
  obtain ⟨rangeBegin, hbegin, rangeEnd, stride, hright, _, _, _, hordered, heq⟩ := h
  obtain ⟨hend, hstride, hpositive⟩ := expandHostRange.rightSide_eq_ok hright
  have hfirst := number_text hbegin
  subst hend hstride hfirst
  exact ⟨heq.symm, hordered, hpositive⟩

end Range

section Region

variable {l : HostLine} {hostinfo hostinfo' : HostInfo}

theorem notMem_of_plain {s : CString} (hs : ∀ x ∈ s, Plain x) (hc : ¬Plain c) : c ∉ s :=
  fun h => hc (hs c h)

theorem notMem_digits (d : Digits) (hc : isdigit c = false) : c ∉ d.text := by
  intro h
  rw [d.isdigit c h] at hc
  nomatch hc

theorem HostRange.notMem_text (g : HostRange) (hc : isdigit c = false) (hdash : c ≠ dash) (hcolon : c ≠ colon)
    : c ∉ g.text := by
  unfold HostRange.text
  cases g.stride with
  | none => simp [notMem_digits _ hc, hdash]
  | some d => simp [notMem_digits _ hc, hdash, hcolon]

theorem HostLine.notMem_name {c : UInt8} (l : HostLine) (hc : isdigit c = false) (hdash : c ≠ dash) (hcolon : c ≠ colon)
    (hopening : c ≠ opening) (hclosing : c ≠ closing) (hplain : ¬Plain c)
    : c ∉ l.name := by
  unfold HostLine.name
  cases l.range with
  | none => simp [notMem_of_plain l.plain_front hplain, notMem_of_plain l.plain_back hplain]
  | some g =>
    simp [notMem_of_plain l.plain_front hplain, notMem_of_plain l.plain_back hplain, hopening, hclosing,
      g.notMem_text hc hdash hcolon]

theorem HostLine.star_notMem_name (l : HostLine) : star ∉ l.name := by
  apply l.notMem_name <;> decide

def HostLine.starPos (l : HostLine) : Int := l.repetition.elim npos (fun _ => l.name.length)

theorem HostLine.findFirstOf_star (l : HostLine) : findFirstOf l.hostText star 0 = l.starPos := by
  unfold HostLine.hostText HostLine.starPos
  cases l.repetition with
  | none =>
    simp only [elim_none, append_nil]
    exact findFirstOf_zero_of_notMem l.star_notMem_name
  | some d =>
    simp only [elim_some]
    exact findFirstOf_append_zero l.star_notMem_name

theorem expandHostRegion.repetition_eq_ok (h : repetition l.hostText l.starPos = .ok n)
    : n = l.repetition.elim 1 Digits.value := by
  unfold repetition HostLine.hostText HostLine.starPos at h
  cases hrepetition : l.repetition with
  | none =>
    simp only [hrepetition, elim_none, if_true, pure_eq_ok] at h
    exact h.symm
  | some d =>
    simp only [hrepetition, elim_some] at h
    rw [if_neg (ne_npos (by omega)), substr_npos (append_cons _ _ _) (by simp)] at h
    exact number_text h

theorem substr_name (l : HostLine) : substr l.hostText 0 l.starPos = l.name := by
  unfold HostLine.hostText HostLine.starPos
  cases l.repetition with
  | none =>
    simp only [elim_none, append_nil]
    exact substr_zero_npos
  | some d => exact substr_zero

theorem expandHostRegion.brackets_of_none (hrange : l.range = none)
    : brackets hostinfo l.hostText l.starPos
      =
      .ok { hostinfo with
        front := l.front ++ l.back, endText := [], stride := 1, rangeBegin := -1, rangeEnd := -1 } := by
  have hnotMem : ∀ c, isdigit c = false → c ≠ star → ¬Plain c → c ∉ l.hostText := by
    intro c hc hstar hplain
    unfold HostLine.hostText HostLine.name
    rw [hrange]
    cases l.repetition with
    | none => simp [notMem_of_plain l.plain_front hplain, notMem_of_plain l.plain_back hplain]
    | some d =>
      simp [notMem_of_plain l.plain_front hplain, notMem_of_plain l.plain_back hplain, hstar, notMem_digits d hc]
  have hleft := findFirstOf_zero_of_notMem (hnotMem opening (by decide) (by decide) (by decide))
  have hright := findFirstOf_zero_of_notMem (hnotMem closing (by decide) (by decide) (by decide))
  have hname : l.name = l.front ++ l.back := by simp [HostLine.name, hrange]
  rw [brackets, hleft, hright, substr_name, hname]
  rfl

section HostRange

variable {g : HostRange} (hrange : l.range = some g)

include hrange

theorem HostLine.name_of_some : l.name = (l.front ++ (opening :: g.text)) ++ closing :: l.back := by
  simp [HostLine.name, hrange]

theorem expandHostRegion.endText_eq
    : (if l.starPos = npos then
        substr l.hostText ((l.front ++ (opening :: g.text)).length + 1) npos
      else
        substr l.hostText ((l.front ++ (opening :: g.text)).length + 1)
          (l.starPos - (l.front ++ (opening :: g.text)).length - 1))
      =
      l.back := by
  have hname : l.name = (l.front ++ (opening :: g.text) ++ [closing]) ++ l.back := by
    simp [l.name_of_some hrange]
  have hright : ((l.front ++ (opening :: g.text)).length : Int) + 1
      = (l.front ++ (opening :: g.text) ++ [closing]).length := by
    simp only [length_append, length_singleton]
    omega
  unfold HostLine.hostText HostLine.starPos
  cases l.repetition with
  | none =>
    simp only [elim_none, if_true, append_nil]
    exact substr_npos hname hright
  | some d =>
    rw [elim_some, elim_some, if_neg (ne_npos (by omega))]
    apply substr_append (by rw [hname, append_assoc]) hright
    rw [hname, length_append]
    omega

theorem expandHostRegion.brackets_of_some (h : brackets hostinfo l.hostText l.starPos = .ok hostinfo')
    : expandHostRange { hostinfo with front := l.front, endText := l.back } g.text = .ok hostinfo' := by
  have hend := expandHostRegion.endText_eq hrange
  have ⟨rest, htext⟩ : ∃ rest, l.hostText = l.front ++ opening :: (g.text ++ closing :: rest) := by
    simp [HostLine.hostText, l.name_of_some hrange]
  have hleft : findFirstOf l.hostText opening 0 = l.front.length := by
    rw [htext]
    exact findFirstOf_append_zero (notMem_of_plain l.plain_front (by decide))
  have hright : findFirstOf l.hostText closing 0 = (l.front ++ (opening :: g.text)).length := by
    rw [htext, ← cons_append, ← append_assoc]
    apply findFirstOf_append_zero
    simp only [mem_append, mem_cons, not_or]
    exact ⟨notMem_of_plain l.plain_front (by decide), by decide, g.notMem_text (by decide) (by decide) (by decide)⟩
  have hfront : substr l.hostText 0 l.front.length = l.front := by
    rw [htext]
    exact substr_zero
  have hinner : substr l.hostText (l.front.length + 1) ((l.front ++ (opening :: g.text)).length - l.front.length - 1)
      = g.text := by
    apply substr_append (htext.trans (append_cons _ _ _)) (by simp)
    simp only [length_append, length_cons]
    omega
  have hne : ∀ k : Nat, (k : Int) ≠ npos := fun k => ne_npos (by omega)
  simp only [brackets, hleft, hright, hend, hfront, hinner, hne, false_and, if_false, bind_eq_ok, require_eq_ok] at h
  obtain ⟨_, _, h⟩ := h
  exact h

end HostRange

theorem generateHostEntries_of_nil (hnil : hostinfo.expandedRange = [])
    (h : generateHostEntries hostinfo = .ok hostinfo')
    : hostinfo'.hostCnt = hostinfo.hostCnt ∧
      hostinfo'.hostEntries = hostinfo.hostEntries ++
        replicate hostinfo.repetition.toNat (hostinfo.front ++ hostinfo.endText) := by
  rw [generateHostEntries, if_pos hnil, pure_eq_ok] at h
  rw [← h]
  exact ⟨rfl, rfl⟩

theorem sprintf_eq_ok (h : sprintf digits n = .ok s) : s = padded digits.toNat n := by
  simp only [sprintf, bind_eq_ok, pure_eq_ok] at h
  obtain ⟨_, _, heq⟩ := h
  exact heq.symm

theorem generateHostEntries_of_ne_nil (hne : hostinfo.expandedRange ≠ [])
    (h : generateHostEntries hostinfo = .ok hostinfo')
    : hostinfo'.hostCnt = hostinfo.hostCnt ∧
      hostinfo'.hostEntries = hostinfo.hostEntries ++ hostinfo.expandedRange.flatMap (fun n =>
        replicate hostinfo.repetition.toNat
          (hostinfo.front ++ padded hostinfo.rangeDigits.toNat n ++ hostinfo.endText)) := by
  rw [generateHostEntries, if_neg hne, bind_eq_ok] at h
  have ⟨entries, hentries, heq⟩ := h
  have hmap := eq_map_of_mapM_eq_ok (g := fun n => replicate hostinfo.repetition.toNat
    (hostinfo.front ++ padded hostinfo.rangeDigits.toNat n ++ hostinfo.endText)) (by
      intro n entry hentry
      rw [bind_eq_ok] at hentry
      have ⟨buf, hbuf, hpure⟩ := hentry
      rw [← pure_eq_ok.mp hpure, sprintf_eq_ok hbuf]) hentries
  rw [← pure_eq_ok.mp heq, hmap]
  exact ⟨rfl, rfl⟩

theorem padded_of_nonneg (hn : 0 ≤ n) : padded digits n = (numeral n.toNat).leftpad digits 48 := by
  rw [padded, if_neg (by omega), show n.natAbs = n.toNat by omega]

theorem le_of_mem_progression (h : n ∈ progression first last stride) : first ≤ n := by
  unfold progression at h
  split at h
  . next hpos =>
    rw [List.mem_map] at h
    obtain ⟨k, _, rfl⟩ := h
    have hnonneg : 0 ≤ stride * (k : Int) := Int.mul_nonneg (by omega) (by omega)
    omega
  . nomatch h

theorem length_flatMap_replicate {l : List Int} {f : Int → α}
    : (l.flatMap (fun n => replicate times (f n))).length = l.length * times := by
  simp [length_flatMap]

theorem generate_of_none (hrange : l.range = none) (hn : 0 < n) (htimes : n.toNat = l.times)
    (hi : generateHostRange
      { repetition := n, front := l.front ++ l.back, endText := [], stride := 1, rangeBegin := -1, rangeEnd := -1 }
        = .ok i)
    (h : generateHostEntries i = .ok hostinfo')
    : hostinfo'.hostEntries = l.hosts ∧ hostinfo'.hostCnt = l.hosts.length ∧ l.hosts ≠ [] := by
  rw [generateHostRange, if_pos rfl, pure_eq_ok] at hi
  subst hi
  have ⟨hcnt, hentries⟩ := generateHostEntries_of_nil rfl h
  have heq : l.hosts = replicate l.times (l.front ++ l.back) := by simp [HostLine.hosts, hrange]
  simp only [nil_append, append_nil, htimes] at hentries
  rw [heq]
  refine ⟨hentries, ?_, ?_⟩
  . rw [hcnt, length_replicate, ← htimes]
    simp only
    omega
  . rw [Ne, replicate_eq_nil_iff]
    omega

theorem generate_of_some {g : HostRange} {n : Int} (hrange : l.range = some g)
    (hordered : g.first.value ≤ g.last.value) (hstride : 0 < g.stride.elim 1 Digits.value)
    (hn : 0 < n) (htimes : n.toNat = l.times) (hi : generateHostRange
      { repetition := n, front := l.front, endText := l.back, rangeBegin := g.first.value,
        rangeDigits := g.first.text.length, rangeEnd := g.last.value, stride := g.stride.elim 1 Digits.value }
        = .ok i)
    (h : generateHostEntries i = .ok hostinfo')
    : hostinfo'.hostEntries = l.hosts ∧ hostinfo'.hostCnt = l.hosts.length ∧ l.hosts ≠ [] := by
  have hfirst := g.first.value_nonneg
  have hbegin : ¬g.first.value = -1 := by omega
  simp only [generateHostRange, hbegin, if_false, bind_eq_ok, pure_eq_ok, int_eq_ok, nil_append] at hi
  obtain ⟨range, hsteps, cnt, ⟨_, hcnt⟩, hi⟩ := hi
  have hnumbers : range = g.numbers := steps_eq_ok hfirst hstride (Nat.le_refl _) hsteps
  subst hi hnumbers
  have hne : g.numbers ≠ [] := by
    rw [HostRange.numbers, progression_cons hordered hstride]
    exact cons_ne_nil _ _
  obtain ⟨hcnt', hentries⟩ := generateHostEntries_of_ne_nil hne h
  have heq : l.hosts = g.numbers.flatMap (fun n =>
      replicate l.times (l.front ++ padded g.first.text.length n ++ l.back)) := by
    simp only [HostLine.hosts, hrange]
    apply flatMap_congr
    intro n hn
    rw [padded_of_nonneg (Int.le_trans hfirst (le_of_mem_progression hn))]
  have hlength : l.hosts.length = g.numbers.length * l.times := by rw [heq, length_flatMap_replicate]
  refine ⟨?_, ?_, ?_⟩
  . rw [hentries, heq]
    simp only [nil_append, htimes, Int.toNat_natCast]
  . rw [hcnt', hlength, ← hcnt, ← htimes, Nat.cast_mul, Int.toNat_of_nonneg (Int.le_of_lt hn), Int.zero_add]
  . apply ne_nil_of_length_pos
    rw [hlength]
    exact Nat.mul_pos (length_pos_iff.mpr hne) (by omega)

theorem expandHostRegion_eq_ok (h : expandHostRegion {} l.hostText = .ok hostinfo')
    : hostinfo'.hostEntries = l.hosts ∧ hostinfo'.hostCnt = l.hosts.length ∧ l.hosts ≠ [] := by
  rw [expandHostRegion, l.findFirstOf_star, bind_eq_ok] at h
  obtain ⟨n, hn, h⟩ := h
  have htimes : n.toNat = l.times := by rw [expandHostRegion.repetition_eq_ok hn]; rfl
  simp only [bind_eq_ok, require_eq_ok] at h
  obtain ⟨_, hpos, i, hbrackets, j, hj, hentries⟩ := h
  cases hrange : l.range with
  | none =>
    rw [expandHostRegion.brackets_of_none hrange, Except.ok.injEq] at hbrackets
    subst hbrackets
    exact generate_of_none hrange hpos htimes hj hentries
  | some g =>
    obtain ⟨rfl, hordered, hstride⟩ := expandHostRange_eq_ok (expandHostRegion.brackets_of_some hrange hbrackets)
    exact generate_of_some hrange hordered hstride hpos htimes hj hentries

end Region

end Sci.HostFile
