import Cloudland.Sci.HostFile.Assign

/-!
What `input` makes of the lines of a file, one after the other.
-/

namespace Sci.HostFile

open CString StdString Check List

theorem HostLine.notMem_hostText (l : HostLine) (hc : isdigit c = false) (hdash : c ≠ dash) (hcolon : c ≠ colon)
    (hopening : c ≠ opening) (hclosing : c ≠ closing) (hstar : c ≠ star) (hplain : ¬Plain c)
    : c ∉ l.hostText := by
  have hname := l.notMem_name hc hdash hcolon hopening hclosing hplain
  unfold HostLine.hostText
  cases l.repetition with
  | none => simpa using hname
  | some d =>
    simp only [Option.elim_some, mem_append, mem_cons, not_or]
    exact ⟨hname, hstar, notMem_digits d hc⟩

theorem Numeral.zero_notMem_text (n : Numeral) : 0 ∉ n.text := n.notMem_text (by decide) (by decide)

theorem Tasks.zero_notMem_text (t : Tasks) : 0 ∉ t.text := by
  have hbody : 0 ∉ t.body := by
    cases t with
    | list n rest => exact notMem_listText (by decide) (fun m _ => m.zero_notMem_text)
    | range first last stride =>
      have hstride : 0 ∉ stride.elim [] (fun n => colon :: n.text) := by
        cases stride with
        | none => simp
        | some n =>
          simp only [Option.elim_some, mem_cons, not_or]
          exact ⟨by decide, n.zero_notMem_text⟩
      simp only [body, mem_append, mem_cons, not_or]
      exact ⟨first.zero_notMem_text, by decide, last.zero_notMem_text, hstride⟩
  simp only [text, mem_cons, mem_append, not_mem_nil, or_false, not_or]
  exact ⟨by decide, hbody, by decide⟩

theorem HostLine.unsigned {l : HostLine} {t : Tasks} (ht : l.tasks = some t) (hvalid : isValidForm l.text = true)
    : t.Unsigned := by
  apply @Tasks.unsigned_of_isValidForm t l.hostText
  . intro c hc heq
    rw [heq] at hc
    exact l.notMem_hostText (by decide) (by decide) (by decide) (by decide) (by decide) (by decide) (by decide) hc
  . intro c hc heq
    rw [heq] at hc
    exact t.zero_notMem_text hc
  . rw [HostLine.text, ht] at hvalid
    exact hvalid

def HostLine.Checked (l : HostLine) : Prop := ∀ t, l.tasks = some t → t.Reversed → t.HasStride

namespace BEMap

variable {m m' : BEMap} {e : List (Int × CString)} {num : Int} {rc : Rc} {l : HostLine}

theorem percent_notMem_hostText (l : HostLine) : percent ∉ l.hostText := by
  apply l.notMem_hostText <;> decide

theorem expandLine_of_none (htasks : l.tasks = none) (h : m.Holds e) (hwithin : Within num e)
    (hok : m.expandLine l.text num = .ok (rc, m'))
    : Assigned num (e ++ l.place (ids e)) rc m' ∧ l.hosts ≠ [] := by
  have htext : l.text = l.hostText := by simp [HostLine.text, htasks]
  have hpos := findFirstOf_zero_of_notMem (percent_notMem_hostText l)
  simp only [expandLine, htext, hpos, ne_eq, not_true_eq_false, if_false, bind_eq_ok, pure_eq_ok, require_eq_ok] at hok
  obtain ⟨hostinfo, hhosts, taskinfo, htask, _, _, hupdate⟩ := hok
  obtain ⟨hentries, _, hne⟩ := expandHostRegion_eq_ok hhosts
  rw [← htask, updateMapping, if_neg (by decide), hentries] at hupdate
  have hplace : l.place (ids e) = numbered (ids e) l.hosts := by simp [HostLine.place, htasks]
  rw [hplace]
  exact ⟨assignHosts_eq_ok h hwithin hupdate, hne⟩

theorem expandLine_of_some {t : Tasks} (htasks : l.tasks = some t) (hvalid : isValidForm l.text = true)
    (hchecked : t.Reversed → t.HasStride) (h : m.Holds e) (hwithin : Within num e)
    (hok : m.expandLine l.text num = .ok (rc, m'))
    : Assigned num (e ++ l.place (ids e)) rc m' ∧ l.hosts ≠ [] ∧ ¬t.Reversed ∧ t.ids.length = l.hosts.length := by
  have hunsigned := HostLine.unsigned htasks hvalid
  have htext : l.text = l.hostText ++ percent :: t.text := by simp [HostLine.text, htasks]
  have hpos : findFirstOf (l.hostText ++ percent :: t.text) percent 0 = l.hostText.length :=
    findFirstOf_append_zero (percent_notMem_hostText l)
  have hne : (l.hostText.length : Int) ≠ npos := ne_npos (by omega)
  have htask : substr (l.hostText ++ percent :: t.text) (l.hostText.length + 1) npos = t.text :=
    substr_npos (append_cons _ _ _) (by simp)
  simp only [expandLine, htext, hpos, hne, ne_eq, not_false_eq_true, if_true, substr_zero, htask, bind_eq_ok,
    require_eq_ok] at hok
  have ⟨hostinfo, hhosts, taskinfo, htaskinfo, _, hcount, hupdate⟩ := hok
  have ⟨hentries, hhostCnt, hhostsNe⟩ := expandHostRegion_eq_ok hhosts
  have ⟨hform, htaskCnt, hstride, hidsNe⟩ := expandTaskRegion_eq_ok hunsigned htaskinfo
  have hordered : ¬t.Reversed := fun hreversed => hstride (hchecked hreversed) hreversed
  have hpositive : 0 < taskinfo.taskCnt := by
    rw [htaskCnt]
    exact Int.natCast_pos.mpr (length_pos_iff.mpr (hidsNe hordered))
  have hlength : t.ids.length = l.hosts.length := by
    have heq := hcount hpositive
    rw [hhostCnt, htaskCnt] at heq
    exact (Int.ofNat.inj heq).symm
  rw [updateMapping, if_pos hpositive, hform, hentries] at hupdate
  have hplace : l.place (ids e) = t.ids.zip l.hosts := by simp [HostLine.place, htasks]
  rw [hplace]
  exact ⟨assignTasks_eq_ok hlength h hwithin hupdate, hhostsNe, hordered, hlength⟩

theorem expandLine_eq_ok (hvalid : isValidForm l.text = true) (hchecked : l.Checked) (h : m.Holds e)
    (hwithin : Within num e) (hok : m.expandLine l.text num = .ok (rc, m'))
    : Assigned num (e ++ l.place (ids e)) rc m' ∧ l.hosts ≠ [] ∧
      (rc = .success → ∀ t, l.tasks = some t → t.Fits l.hosts (ids e)) := by
  cases htasks : l.tasks with
  | none =>
    have ⟨hassigned, hne⟩ := expandLine_of_none htasks h hwithin hok
    exact ⟨hassigned, hne, by simp⟩
  | some t =>
    have ⟨hassigned, hne, hordered, hlength⟩ := expandLine_of_some htasks hvalid (hchecked t htasks) h hwithin hok
    refine ⟨hassigned, hne, ?_⟩
    intro hsuccess t' ht'
    cases ht'
    rw [hsuccess] at hassigned
    have hholds := hassigned.2
    have hids : ids (e ++ l.place (ids e)) = ids e ++ t.ids := by
      simp only [HostLine.place, htasks, ids, map_append]
      rw [map_fst_zip (Nat.le_of_eq hlength)]
    have hnodup := hholds.nodup
    have hnonneg := hholds.nonneg
    rw [hids] at hnodup hnonneg
    rw [nodup_append] at hnodup
    exact {
      ordered := hordered
      nonneg := fun id hid => hnonneg id (mem_append_right _ hid)
      nodup := hnodup.2.1
      fresh := fun id hid hused => hnodup.2.2 id hused id hid rfl
      length := hlength }

def readLine (num : Int) (l : HostLine) (m : BEMap) (next : BEMap → Except Failure BEMap) : Except Failure BEMap := do
  require (isValidForm l.text) .error
  let (rc, m) ← m.expandLine l.text num
  match rc with
  | .full => pure m
  | .success => next m

def readLines (num : Int) : List HostLine → BEMap → Except Failure BEMap
  | [], m => pure m
  | l :: lines, m => if m.isFull num then pure m else readLine num l m (readLines num lines)

section Loop

open StdString

variable {fuel : Nat} {fs fs' : Fstream UInt8} {line : CString} {row : Row}

theorem trimWhitespace_idem (s : CString) : trimWhitespace (trimWhitespace s) = trimWhitespace s := by
  simp [trimWhitespace]

theorem loop_of_isFull (h : m.isFull num) : input.loop num (fuel + 1) fs line m = pure m := by
  rw [input.loop, if_pos h]
  split
  . rfl
  . rfl

theorem loop_of_fail (h : fs.fail = true) : input.loop num (fuel + 1) fs line m = pure m := by
  rw [input.loop, if_pos h]

theorem loop_of_row (hfail : fs.fail = false) (hget : getline NEWLINE fs line = (fs', text))
    (htrim : trimWhitespace text = trimWhitespace row.text)
    : input.loop num (fuel + 2) fs line m
      =
      match row.line with
      | none => input.loop num (fuel + 1) fs' (trimWhitespace row.text) m
      | some l =>
        if m.isFull num then
          pure m
        else
          readLine num l m (fun m => input.loop num (fuel + 1) fs' (trimWhitespace row.text) m) := by
  by_cases hfull : m.isFull num
  . rw [loop_of_isFull hfull]
    split
    . rw [loop_of_isFull hfull]
    . rw [if_pos hfull]
  . have hreads := row.reads
    rw [input.loop, if_neg (by simp [hfail]), if_neg hfull, hget]
    simp only [htrim]
    cases hline : row.line with
    | none =>
      rw [hline] at hreads
      rw [if_pos hreads]
    | some l =>
      rw [hline] at hreads
      simp only [hreads.1, hreads.2, hfull, if_false]
      rfl

theorem loop_of_eof
    : input.loop num (fuel + 2) ⟨[], true, row.text.isEmpty⟩ (trimWhitespace row.text) m
      =
      readLines num row.line.toList m := by
  cases hempty : row.text.isEmpty with
  | true =>
    have hreads := row.reads
    rw [loop_of_fail rfl]
    cases hline : row.line with
    | none => rfl
    | some l =>
      rw [hline, isEmpty_iff.mp hempty] at hreads
      exact absurd (.inl hreads.1.symm) hreads.2
  | false =>
    rw [loop_of_row rfl (getline_of_eof rfl) (trimWhitespace_idem row.text)]
    cases row.line with
    | none => exact loop_of_fail rfl
    | some l => rfl

theorem loop_of_tail
    : input.loop num (fuel + 3) ⟨row.text, false, false⟩ line m
      =
      readLines num (row.line.toList ++ row.line.toList) m := by
  rw [loop_of_row rfl (getline_of_last row.newline) rfl]
  have hnext : (fun m => input.loop num (fuel + 2) ⟨[], true, row.text.isEmpty⟩ (trimWhitespace row.text) m)
      = readLines num row.line.toList := funext (fun m => loop_of_eof)
  cases hline : row.line with
  | none =>
    have hend := congrFun hnext m
    rw [hline] at hend
    exact hend
  | some l =>
    rw [hline] at hnext
    simp only [hnext]
    rfl

theorem loop_of_rows {rows : List Row} {tail : Row} (hfuel : rows.length + 3 ≤ fuel)
    : input.loop num fuel ⟨rows.flatMap (fun r => r.text ++ [NEWLINE]) ++ tail.text, false, false⟩ line m
      =
      readLines num (rows.filterMap Row.line ++ (tail.line.toList ++ tail.line.toList)) m := by
  induction rows generalizing fuel line m with
  | nil =>
    obtain ⟨k, rfl⟩ := Nat.exists_eq_add_of_le hfuel
    rw [Nat.add_comm]
    exact loop_of_tail
  | cons row rows ih =>
    have ⟨k, hk⟩ := Nat.exists_eq_add_of_le hfuel
    rw [length_cons] at hk
    have hget : getline NEWLINE ⟨(row :: rows).flatMap (fun r => r.text ++ [NEWLINE]) ++ tail.text, false, false⟩ line
        = (⟨rows.flatMap (fun r => r.text ++ [NEWLINE]) ++ tail.text, false, false⟩, row.text) := by
      rw [flatMap_cons, append_assoc, append_assoc]
      exact getline_of_row row.newline
    rw [show fuel = (k + rows.length + 2) + 2 by omega, loop_of_row rfl hget rfl]
    cases hline : row.line with
    | none =>
      rw [filterMap_cons_none hline]
      exact ih (by omega)
    | some l =>
      have hnext : (fun m => input.loop num (k + rows.length + 2 + 1)
          ⟨rows.flatMap (fun r => r.text ++ [NEWLINE]) ++ tail.text, false, false⟩ (trimWhitespace row.text) m)
          = readLines num (rows.filterMap Row.line ++ (tail.line.toList ++ tail.line.toList)) :=
        funext (fun m => ih (by omega))
      rw [filterMap_cons_some hline, cons_append, readLines]
      simp only [hnext]

end Loop

theorem input_eq_ok {f : File} (h : input f.text num = .ok m)
    : readLines num (f.lines ++ f.tail.line.toList) {} = .ok m ∧ ∃ maxId, m.maxId = some maxId ∧ maxId < m.size := by
  simp only [input, bind_eq_ok, found_eq_ok, require_eq_ok, pure_eq_ok] at h
  obtain ⟨m', hloop, maxId, hmax, _, hlt, heq⟩ := h
  have hlength : f.rows.length ≤ f.text.length := by
    rw [File.text, length_append, length_flatMap]
    have hsum : f.rows.length ≤ (f.rows.map (fun r => (r.text ++ [NEWLINE]).length)).sum := by
      induction f.rows with
      | nil => simp
      | cons r rows ih =>
        simp only [map_cons, sum_cons, length_append, length_cons, length_nil] at ih ⊢
        omega
    omega
  rw [File.text] at hloop
  rw [loop_of_rows (by rw [← File.text]; omega)] at hloop
  have hlines : f.lines = f.rows.filterMap Row.line ++ f.tail.line.toList := by
    rw [File.lines, filterMap_append, filterMap_cons]
    cases f.tail.line with
    | none => rfl
    | some l => rfl
  subst heq
  rw [hlines, append_assoc]
  exact ⟨hloop, maxId, hmax, hlt⟩

end BEMap

end Sci.HostFile
