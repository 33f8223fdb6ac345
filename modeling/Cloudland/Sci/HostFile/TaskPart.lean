import Cloudland.Lib.Regular
import Cloudland.Sci.HostFile.Hosts

/-!
The task part of a line: what the form of a line leaves of it, and what `expand_task_region` reads.
-/

namespace Sci.HostFile

open CString StdString Check Regular RegularExpression List

namespace Form

section Words

variable {w : List Sym}

theorem percent_notMem_host (h : w ∈ host.matches') : Sym.percent ∉ w :=
  notMem_of_matches (by simp [host, plain, range, digits]) h

theorem dash_notMem_list (h : w ∈ list.matches') : Sym.dash ∉ w := notMem_of_matches (by simp [list, digits]) h

theorem comma_notMem_range (h : w ∈ range.matches') : Sym.comma ∉ w := notMem_of_matches (by simp [range, digits]) h

theorem range_eq (h : w ∈ range.matches')
    : ∃ x y, w = .digit :: x ++ .dash :: y ∧ Sym.dash ∉ x ∧ Sym.dash ∉ y := by
  have ⟨u, hu, v, hv, heq⟩ := matches_mul.mp h
  have ⟨y, hy, hvy⟩ := matches_char_mul.mp hv
  have ⟨x, _, hux⟩ := matches_char_mul.mp hu
  have hdash : Sym.dash ∉ u := notMem_of_matches (by simp [digits]) hu
  rw [hux] at hdash
  refine ⟨x, y, ?_, not_mem_of_not_mem_cons hdash, notMem_of_matches (by simp [digits]) hy⟩
  rw [← heq, hvy, hux]

theorem percent_notMem_task (h : w ∈ task.matches') : Sym.percent ∉ w :=
  notMem_of_matches (by simp [task, list, range, digits]) h

theorem task_of_valid (h : front ++ .percent :: back ∈ valid.matches') : back ∈ task.matches' := by
  have ⟨u, hu, v, hv, heq⟩ := matches_mul.mp h
  have hpercent := percent_notMem_host hu
  obtain hone | htask := matches_add.mp hv
  . rw [matches_one.mp hone, append_nil] at heq
    rw [heq] at hpercent
    simp at hpercent
  . have ⟨y, hy, hvy⟩ := matches_char_mul.mp htask
    rw [hvy, append_cons_inj_of_notMem hpercent (percent_notMem_task hy)] at heq
    exact heq.2.2 ▸ hy

theorem body_of_task (h : .opening :: (body ++ [.closing]) ∈ task.matches')
    : body ∈ list.matches' ∨ body ∈ range.matches' := by
  have ⟨y, hy, heq⟩ := matches_char_mul.mp h
  have ⟨x, hx, hyx⟩ := matches_mul_char.mp hy
  rw [cons.injEq, hyx] at heq
  rw [append_cancel_right heq.2]
  exact matches_add.mp hx

end Words

end Form

namespace Tasks

variable {t : Tasks}

def numerals : Tasks → List Numeral
  | .list first rest => first :: rest
  | .range first last stride => first :: last :: stride.toList

def Unsigned (t : Tasks) : Prop := ∀ n ∈ t.numerals, n.negative = false

section Numeral

variable {n : Numeral}

theorem text_of_negative (h : n.negative = true) : n.text = dash :: n.digits.text := if_pos h

theorem text_of_unsigned (h : n.negative = false) : n.text = n.digits.text := by
  simp [Numeral.text, h]

theorem text_infix_listText (h : n ∈ first :: rest) : n.text <:+: listText first rest := by
  induction rest generalizing first with
  | nil =>
    rw [mem_singleton.mp h]
    exact infix_rfl
  | cons m rest ih =>
    rw [listText]
    obtain heq | hmem := mem_cons.mp h
    . exact heq ▸ (prefix_append _ _).isInfix
    . exact (ih hmem).trans ((suffix_cons _ _).trans (suffix_append _ _)).isInfix

theorem unsigned_of_notMem (hn : n.text <:+: s) (h : Form.Sym.dash ∉ s.map Form.sym)
    : n.negative = false := by
  rw [← Bool.not_eq_true]
  intro hnegative
  apply h
  rw [mem_map]
  refine ⟨dash, hn.subset ?_, by decide⟩
  rw [text_of_negative hnegative]
  exact mem_cons_self

theorem unsigned_of_digit (h : (n.text ++ s).map Form.sym = .digit :: w) : n.negative = false := by
  rw [← Bool.not_eq_true]
  intro hnegative
  rw [text_of_negative hnegative, cons_append, map_cons, cons.injEq] at h
  exact absurd h.1 (by decide)

end Numeral

theorem unsigned_list
    (h : (listText first rest).map Form.sym ∈ Form.list.matches' ∨
      (listText first rest).map Form.sym ∈ Form.range.matches')
    : (Tasks.list first rest).Unsigned := by
  intro n hn
  obtain hlist | hrange := h
  . exact unsigned_of_notMem (text_infix_listText hn) (Form.dash_notMem_list hlist)
  . have hcomma := Form.comma_notMem_range hrange
    cases rest with
    | nil =>
      have ⟨x, y, heq, _⟩ := Form.range_eq hrange
      rw [mem_singleton.mp hn]
      rw [listText, ← append_nil first.text] at heq
      exact unsigned_of_digit heq
    | cons m rest =>
      rw [listText, map_append, map_cons] at hcomma
      exact absurd (mem_append_right _ mem_cons_self) hcomma

theorem unsigned_range (h : (body (.range first last stride)).map Form.sym ∈ Form.list.matches' ∨
      (body (.range first last stride)).map Form.sym ∈ Form.range.matches')
    : (Tasks.range first last stride).Unsigned := by
  obtain hlist | hrange := h
  . have hdash := Form.dash_notMem_list hlist
    rw [body, map_append, map_cons] at hdash
    exact absurd (mem_append_right _ mem_cons_self) hdash
  . have ⟨x, y, heq, hx, hy⟩ := Form.range_eq hrange
    rw [body] at heq
    have hfirst := unsigned_of_digit heq
    rw [map_append, map_cons, cons_append, eq_comm, ← cons_append,
      show Form.sym dash = Form.Sym.dash by decide,
      append_cons_inj_of_notMem (by simp [hx]) hy] at heq
    rw [heq.2.2] at hy
    intro n hn
    simp only [numerals, mem_cons, Option.mem_toList] at hn
    obtain hn | hn := hn
    . exact hn ▸ hfirst
    . apply unsigned_of_notMem _ hy
      obtain hn | hn := hn
      . exact hn ▸ (prefix_append _ _).isInfix
      . rw [hn, Option.elim_some]
        exact ((suffix_cons _ _).trans (suffix_append _ _)).isInfix

theorem unsigned_of_isValidForm {front : CString} (hfront : ∀ c ∈ front, c ≠ 0) (ht : ∀ c ∈ t.text, c ≠ 0)
    (h : isValidForm (front ++ percent :: t.text) = true)
    : t.Unsigned := by
  have hzero : (front ++ percent :: t.text).takeWhile (· != 0) = front ++ percent :: t.text := by
    simp only [takeWhile_eq_self_iff, bne_iff_ne, forall_mem_append, forall_mem_cons]
    exact ⟨hfront, by decide, ht⟩
  rw [isValidForm, if_neg (by simp), hzero, rmatch_iff_matches', map_append, map_cons] at h
  have htask := Form.task_of_valid h
  rw [text, map_cons, map_append] at htask
  have hbody := Form.body_of_task htask
  cases t with
  | list first rest => exact unsigned_list hbody
  | range first last stride => exact unsigned_range hbody

end Tasks

section Region

variable {taskinfo taskinfo' : TaskInfo}

theorem Numeral.value_of_unsigned {n : Numeral} (h : n.negative = false) : n.value = n.digits.value := by
  simp [Numeral.value, h]

section Range

variable {first last stride : Digits} {rest : CString}

def rangeText (first last : Digits) (rest : CString) : CString :=
  opening :: (first.text ++ dash :: (last.text ++ rest))

theorem substr_first : substr (rangeText first last rest) (0 + 1) (1 + first.text.length - 0 - 1) = first.text :=
  substr_append (a := [opening]) rfl rfl (by omega)

theorem rangeText_split : rangeText first last rest = (opening :: (first.text ++ [dash])) ++ (last.text ++ rest) := by
  simp [rangeText]

theorem dash_length : (1 : Int) + first.text.length + 1 = (opening :: (first.text ++ [dash])).length := by
  simp only [length_cons, length_append, length_nil]
  omega

theorem substr_last {len : Int} (hlen : len = last.text.length)
    : substr (rangeText first last rest) (1 + first.text.length + 1) len = last.text :=
  substr_append rangeText_split dash_length hlen

theorem expandTaskRegion.range_of_none {right : Int} (hright : right = 1 + first.text.length + 1 + last.text.length)
    (h : range taskinfo (rangeText first last [closing]) 0 right (1 + first.text.length) = .ok taskinfo')
    : taskinfo' = { taskinfo with rangeBegin := first.value, rangeEnd := last.value, stride := 1 } := by
  have hcolon : findFirstOf (rangeText first last [closing]) colon (1 + first.text.length + 1) = npos := by
    apply findFirstOf_of_notMem rangeText_split dash_length
    simp only [mem_append, mem_singleton, not_or]
    exact ⟨colon_notMem_digits _, by decide⟩
  rw [range, substr_first, hcolon, substr_last (by omega)] at h
  simp only [if_true, bind_eq_ok, pure_eq_ok, require_eq_ok] at h
  obtain ⟨_, _, n, hn, m, hm, rfl⟩ := h
  rw [number_text hn, number_text hm]

theorem expandTaskRegion.range_of_some {right : Int}
    (hright : right = 1 + first.text.length + 1 + last.text.length + 1 + stride.text.length)
    (h : range taskinfo (rangeText first last (colon :: (stride.text ++ [closing]))) 0 right (1 + first.text.length)
      = .ok taskinfo')
    : taskinfo' = { taskinfo with rangeBegin := first.value, rangeEnd := last.value, stride := stride.value } ∧
      0 < stride.value ∧ first.value ≤ last.value := by
  have hsplit : rangeText first last (colon :: (stride.text ++ [closing]))
      = (opening :: (first.text ++ dash :: (last.text ++ [colon]))) ++ (stride.text ++ [closing]) := by simp [rangeText]
  have hlength : (1 : Int) + first.text.length + 1 + last.text.length + 1
      = (opening :: (first.text ++ dash :: (last.text ++ [colon]))).length := by
    simp only [length_cons, length_append, length_nil]
    omega
  have hne : (1 : Int) + first.text.length + 1 + last.text.length ≠ npos := ne_npos (by omega)
  simp only [range, substr_first, findFirstOf_append rangeText_split dash_length (colon_notMem_digits last), hne,
    if_false] at h
  rw [substr_last (by omega), substr_append hsplit hlength (by omega)] at h
  simp only [bind_eq_ok, pure_eq_ok, require_eq_ok] at h
  obtain ⟨_, _, n, hn, m, hm, k, hk, _, hpositive, _, _, _, hordered, heq⟩ := h
  rw [number_text hk] at hpositive
  rw [number_text hn, number_text hm] at hordered
  rw [← heq, number_text hn, number_text hm, number_text hk]
  exact ⟨rfl, hpositive, hordered⟩

end Range

theorem generateTaskRange_eq_ok (hbegin : 0 ≤ taskinfo.rangeBegin) (hstride : 0 < taskinfo.stride)
    (h : generateTaskRange taskinfo = .ok taskinfo')
    : taskinfo'.freeForm
        = taskinfo.freeForm ++ progression taskinfo.rangeBegin taskinfo.rangeEnd taskinfo.stride ∧
      taskinfo'.taskCnt
        = taskinfo.taskCnt + (progression taskinfo.rangeBegin taskinfo.rangeEnd taskinfo.stride).length := by
  have hne : ¬taskinfo.rangeBegin = -1 := by omega
  simp only [generateTaskRange, hne, if_false, bind_eq_ok, pure_eq_ok] at h
  obtain ⟨range, hrange, rfl⟩ := h
  rw [steps_eq_ok hbegin hstride (Nat.le_refl _) hrange]
  exact ⟨rfl, rfl⟩

theorem comma_notMem_digits (d : Digits) : comma ∉ d.text := notMem_digits d (by decide)

theorem expandTaskRegion.commas_eq_ok {front : CString} {start last : Int}
    (hunsigned : ∀ m ∈ n :: rest, m.negative = false) (hs : s = front ++ (Tasks.listText n rest ++ [closing]))
    (hstart : start + 1 = front.length)
    (h : commas s fuel start (findFirstOf s comma (start + 1)) = .ok (tids, last))
    : ∃ (before : CString) (d : Digits),
        s = before ++ (d.text ++ [closing]) ∧ last + 1 = before.length ∧
        d.text.length ≤ (Tasks.listText n rest).length ∧ tids ++ [d.value] = (n :: rest).map Numeral.value := by
  have hn := Tasks.text_of_unsigned (hunsigned n mem_cons_self)
  have hvalue := Numeral.value_of_unsigned (hunsigned n mem_cons_self)
  induction rest generalizing n front fuel start tids with
  | nil =>
    have hcomma : comma ∉ n.digits.text ++ [closing] := by
      simp only [mem_append, mem_singleton, not_or]
      exact ⟨comma_notMem_digits _, by decide⟩
    cases fuel with
    | zero => cases h
    | succ fuel =>
      rw [Tasks.listText, hn] at hs ⊢
      simp only [findFirstOf_of_notMem hs hstart hcomma, commas, if_true, pure_eq_ok, Prod.mk.injEq] at h
      refine ⟨front, n.digits, hs, h.2 ▸ hstart, Nat.le_refl _, ?_⟩
      rw [← h.1, map_singleton, hvalue]
      rfl
  | cons m rest ih =>
    cases fuel with
    | zero => cases h
    | succ fuel =>
      have htext : s = front ++ (n.digits.text ++ comma :: (Tasks.listText m rest ++ [closing])) := by
        simp [hs, Tasks.listText, hn]
      have hfront : s = (front ++ n.digits.text ++ [comma]) ++ (Tasks.listText m rest ++ [closing]) := by
        simp [htext]
      have hnext : start + 1 + n.digits.text.length + 1 = (front ++ n.digits.text ++ [comma]).length := by
        simp only [length_append, length_singleton]
        omega
      rw [commas, findFirstOf_append htext hstart (comma_notMem_digits _), if_neg (ne_npos (by omega)),
        substr_append htext hstart (by omega)] at h
      simp only [bind_eq_ok, pure_eq_ok, Prod.exists, Prod.mk.injEq] at h
      obtain ⟨tid, htid, tids', last', hrest, hcons, rfl⟩ := h
      have hm := hunsigned m (mem_cons_of_mem _ mem_cons_self)
      obtain ⟨before, d, hbefore, hstop, hle, hvalues⟩ := ih (fun k hk => hunsigned k (mem_cons_of_mem _ hk)) hfront
        hnext hrest (Tasks.text_of_unsigned hm) (Numeral.value_of_unsigned hm)
      have hread := number_text htid
      refine ⟨before, d, hbefore, hstop, ?_, ?_⟩
      . simp only [Tasks.listText, length_append, length_cons]
        omega
      . rw [← hcons, cons_append, hvalues, hread, ← hvalue]
        rfl

theorem expandTaskRegion.list_eq_ok
    (hunsigned : ∀ m ∈ n :: rest, m.negative = false) (hright : right = 1 + (Tasks.listText n rest).length)
    (h : list taskinfo (Tasks.list n rest).text 0 right = .ok taskinfo')
    : taskinfo' = { taskinfo with freeForm := taskinfo.freeForm ++ (n :: rest).map Numeral.value } := by
  have htext : (Tasks.list n rest).text = [opening] ++ (Tasks.listText n rest ++ [closing]) := rfl
  have hfind : findFirstOf (Tasks.list n rest).text comma 0 = findFirstOf (Tasks.list n rest).text comma (0 + 1) :=
    findFirstOf_skip (a := [opening]) (by decide)
  rw [list, hfind] at h
  simp only [bind_eq_ok, pure_eq_ok, Prod.exists] at h
  obtain ⟨tids, start, hcommas, tid, htid, heq⟩ := h
  obtain ⟨before, d, hsplit, hstart, hle, hvalues⟩ := expandTaskRegion.commas_eq_ok hunsigned htext rfl hcommas
  -- the length of the last substring is that of the whole list, so that the bracket may be in it
  rw [hsplit, hstart, substr_append_of_le (by omega)] at htid
  have hlast : tid = d.value := by
    apply number_digits _ htid
    intro c hc
    have hmem := mem_of_mem_take (mem_of_mem_head? hc)
    rw [mem_singleton.mp hmem]
    decide
  rw [← heq, hlast, append_assoc, hvalues]

theorem Tasks.notMem_listText (hcomma : c ≠ comma) (h : ∀ m ∈ n :: rest, c ∉ m.text) : c ∉ listText n rest := by
  induction rest generalizing n with
  | nil => exact h n mem_cons_self
  | cons m rest ih =>
    obtain ⟨hn, hrest⟩ := forall_mem_cons.mp h
    simp only [listText, mem_append, mem_cons, not_or]
    exact ⟨hn, hcomma, ih hrest⟩

theorem Numeral.notMem_text (n : Numeral) (hc : isdigit c = false) (hdash : c ≠ dash) : c ∉ n.text := by
  have hdigits := notMem_digits n.digits hc
  unfold Numeral.text
  split
  . simp [hdash, hdigits]
  . exact hdigits

theorem expandTaskRegion_list (hunsigned : ∀ m ∈ n :: rest, m.negative = false)
    (h : expandTaskRegion {} (Tasks.list n rest).text = .ok taskinfo')
    : taskinfo'.freeForm = (n :: rest).map Numeral.value ∧
      taskinfo'.taskCnt = ((n :: rest).map Numeral.value).length := by
  have hleft : findFirstOf (Tasks.list n rest).text opening 0 = 0 := @findFirstOf_append_zero _ _ [] _ _ (by simp)
  have hright : findFirstOf (Tasks.list n rest).text closing 0 = 1 + (Tasks.listText n rest).length := by
    have hclosing : closing ∉ Tasks.listText n rest :=
      Tasks.notMem_listText (by decide) (fun m _ => m.notMem_text (by decide) (by decide))
    have hfind := @findFirstOf_append_zero _ _ (opening :: Tasks.listText n rest) [] closing (by
      simp only [mem_cons, not_or]
      exact ⟨by decide, hclosing⟩)
    rw [length_cons, Nat.cast_succ, Int.add_comm] at hfind
    exact hfind
  have hdash : findFirstOf (Tasks.list n rest).text dash 0 = npos := by
    apply findFirstOf_zero_of_notMem
    simp only [Tasks.text, Tasks.body, mem_cons, mem_append, not_mem_nil, or_false, not_or]
    refine ⟨by decide, Tasks.notMem_listText (by decide) (fun m hm => ?_), by decide⟩
    rw [Tasks.text_of_unsigned (hunsigned m hm)]
    exact dash_notMem_digits _
  simp only [expandTaskRegion, hleft, hright, hdash, ne_eq, not_true_eq_false, if_false, bind_eq_ok, require_eq_ok] at h
  have ⟨_, _, i, hi, hgenerate⟩ := h
  rw [expandTaskRegion.list_eq_ok hunsigned rfl hi] at hgenerate
  simp only [generateTaskRange, if_true, pure_eq_ok, nil_append] at hgenerate
  rw [← hgenerate]
  exact ⟨rfl, rfl⟩

theorem findFirstOf_rangeText
    : findFirstOf (rangeText first last rest) dash 0 = 1 + first.text.length := by
  have hfind := @findFirstOf_append_zero _ _ (opening :: first.text) (last.text ++ rest) dash (by
    simp only [mem_cons, not_or]
    exact ⟨by decide, dash_notMem_digits first⟩)
  rw [length_cons, Nat.cast_succ, Int.add_comm] at hfind
  exact hfind

theorem expandTaskRegion_rangeText (hrest : closing ∉ rest)
    (h : expandTaskRegion {} (rangeText first last (rest ++ [closing])) = .ok taskinfo')
    : ∃ i, expandTaskRegion.range {} (rangeText first last (rest ++ [closing])) 0
          (1 + first.text.length + 1 + last.text.length + rest.length) (1 + first.text.length) = .ok i ∧
        generateTaskRange i = .ok taskinfo' := by
  have hleft : findFirstOf (rangeText first last (rest ++ [closing])) opening 0 = 0 :=
    @findFirstOf_append_zero _ _ [] _ _ (by simp)
  have hright : findFirstOf (rangeText first last (rest ++ [closing])) closing 0
      = 1 + first.text.length + 1 + last.text.length + rest.length := by
    have hsplit : rangeText first last (rest ++ [closing])
        = (opening :: (first.text ++ dash :: (last.text ++ rest))) ++ closing :: [] := by simp [rangeText]
    rw [hsplit, findFirstOf_append_zero]
    . simp only [length_cons, length_append]
      omega
    . simp only [mem_cons, mem_append, not_or]
      exact ⟨by decide, notMem_digits _ (by decide), by decide, notMem_digits _ (by decide), hrest⟩
  have hne : (1 : Int) + first.text.length ≠ npos := ne_npos (by omega)
  simp only [expandTaskRegion, hleft, hright, findFirstOf_rangeText, ne_eq, hne, not_false_eq_true, if_true, bind_eq_ok,
    require_eq_ok] at h
  have ⟨_, _, i, hi, hgenerate⟩ := h
  exact ⟨i, hi, hgenerate⟩

theorem expandTaskRegion_range {stride : Option Numeral}
    (hunsigned : (Tasks.range first last stride).Unsigned)
    (h : expandTaskRegion {} (Tasks.range first last stride).text = .ok taskinfo')
    : taskinfo'.freeForm = (Tasks.range first last stride).ids ∧
      taskinfo'.taskCnt = (Tasks.range first last stride).ids.length ∧ (stride.isSome → first.value ≤ last.value) ∧
      (first.value ≤ last.value → (Tasks.range first last stride).ids ≠ []) := by
  have hfirst := hunsigned first mem_cons_self
  have hlast := hunsigned last (mem_cons_of_mem _ mem_cons_self)
  have hnonneg := first.digits.value_nonneg
  simp only [Tasks.ids, Numeral.value_of_unsigned hfirst, Numeral.value_of_unsigned hlast]
  cases stride with
  | none =>
    have htext : (Tasks.range first last none).text = rangeText first.digits last.digits ([] ++ [closing]) := by
      simp [Tasks.text, Tasks.body, Tasks.text_of_unsigned hfirst, Tasks.text_of_unsigned hlast, rangeText]
    rw [htext] at h
    obtain ⟨i, hi, hgenerate⟩ := expandTaskRegion_rangeText (by simp) h
    rw [expandTaskRegion.range_of_none (by simp) hi] at hgenerate
    obtain ⟨hform, hcnt⟩ := generateTaskRange_eq_ok hnonneg Int.one_pos hgenerate
    simp only [nil_append, Int.zero_add] at hform hcnt
    refine ⟨hform, hcnt, by simp, fun hle => ?_⟩
    rw [Option.elim_none, progression_cons hle Int.one_pos]
    exact cons_ne_nil _ _
  | some s =>
    have hs := hunsigned s (by simp [Tasks.numerals])
    have htext : (Tasks.range first last (some s)).text
        = rangeText first.digits last.digits (colon :: s.digits.text ++ [closing]) := by
      simp [Tasks.text, Tasks.body, Tasks.text_of_unsigned hfirst, Tasks.text_of_unsigned hlast,
        Tasks.text_of_unsigned hs, rangeText]
    rw [htext] at h
    have hclosing : closing ∉ colon :: s.digits.text := by
      simp only [mem_cons, not_or]
      exact ⟨by decide, notMem_digits _ (by decide)⟩
    obtain ⟨i, hi, hgenerate⟩ := expandTaskRegion_rangeText hclosing h
    obtain ⟨heq, hpositive, hordered⟩ := expandTaskRegion.range_of_some (by simp; omega) hi
    rw [heq] at hgenerate
    obtain ⟨hform, hcnt⟩ := generateTaskRange_eq_ok hnonneg hpositive hgenerate
    simp only [nil_append, Int.zero_add] at hform hcnt
    simp only [Option.elim_some, Numeral.value_of_unsigned hs]
    refine ⟨hform, hcnt, fun _ => hordered, fun hle => ?_⟩
    rw [progression_cons hle hpositive]
    exact cons_ne_nil _ _

theorem expandTaskRegion_eq_ok {t : Tasks} (hunsigned : t.Unsigned) (h : expandTaskRegion {} t.text = .ok taskinfo')
    : taskinfo'.freeForm = t.ids ∧ taskinfo'.taskCnt = t.ids.length ∧ (t.HasStride → ¬t.Reversed) ∧
      (¬t.Reversed → t.ids ≠ []) := by
  cases t with
  | list n rest =>
    have ⟨hform, hcnt⟩ := expandTaskRegion_list hunsigned h
    exact ⟨hform, hcnt, fun h _ => h, fun _ => cons_ne_nil _ _⟩
  | range first last stride =>
    have ⟨hform, hcnt, hordered, hne⟩ := expandTaskRegion_range hunsigned h
    exact ⟨hform, hcnt, fun hstride hreversed => Int.not_le.mpr hreversed (hordered hstride),
      fun hnot => hne (Int.not_lt.mp hnot)⟩

end Region

end Sci.HostFile
