import Cloudland.Core.Wire

/-!
What `frontHandler` makes of the output of a command, which the cloudlet sends in the pieces of `fgets`.
-/

open CString Packer Scheduler Cloudlet

structure Line where
  chars : CString
  no_zero : 0 ∉ chars
  no_newline : NEWLINE ∉ chars

instance : DecidableEq Line :=
  fun line line' => decidable_of_iff (line.chars = line'.chars) (by cases line; cases line'; simp)

namespace Handler

open List

def receive (msg : List UInt8) : List Call :=
  match unpackFields msg with
  | some (f, _) => frontHandler msg.length f
  | none => []

def texts : Nat → CString → List CString
  | 0, _ => []
  | fuel + 1, line =>
    match strstr line MARKER with
    | some found =>
      let text := found.drop (MARKER.length + 1)
      before MARKER text :: texts fuel text
    | none => []

def lineTexts (line : CString) : List CString := texts line.length line

def pieceCommands (piece : CString) : List CString := commands piece.length piece

def lineCommands (line : CString) : List CString := (outputPieces (line ++ [NEWLINE])).flatMap pieceCommands

def MarkerAt (s : CString) (n : Nat) : Prop := MARKER <+: s.drop n

instance (s : CString) (n : Nat) : Decidable (MarkerAt s n) := inferInstanceAs (Decidable (_ <+: _))

def Twice (s : CString) : Prop := ∃ n m, MarkerAt s n ∧ n + 14 ≤ m ∧ MarkerAt s m

def Once (s : CString) : Prop := ∀ n m, MarkerAt s n → MarkerAt s m → n = m

def Whole (s : CString) : Prop :=
  ∀ n, MarkerAt s n → n % 1023 + 13 ≤ 1023 ∧ (s.length ≤ n + 14 ∨ n % 1023 + (s.length - n) ≤ 1023)

section Markers

variable {s p : CString} {n m : Nat}

theorem length_marker : MARKER.length = 13 := rfl

theorem MarkerAt.le_length (h : MarkerAt s n) : n + 13 ≤ s.length := by
  have hlen := h.length_le
  rw [length_marker, length_drop] at hlen
  omega

theorem markerAt_take : MarkerAt (s.take k) n ↔ MarkerAt s n ∧ n + 13 ≤ k := by
  unfold MarkerAt
  rw [drop_take, prefix_take_iff, length_marker]
  refine and_congr_right (fun h => ?_)
  omega

theorem markerAt_drop : MarkerAt (s.drop k) n ↔ MarkerAt s (k + n) := by
  unfold MarkerAt
  rw [drop_drop]

theorem markerAt_newline : MarkerAt (s ++ [NEWLINE]) n ↔ MarkerAt s n := by
  unfold MarkerAt
  by_cases hn : n ≤ s.length
  . rw [drop_append_of_le_length hn, prefix_concat_iff]
    refine or_iff_right ?_
    intro heq
    have hmem := heq ▸ mem_append_right _ (mem_singleton_self _)
    exact absurd hmem (by decide)
  . rw [drop_eq_nil_of_le (by simp; omega), drop_eq_nil_of_le (by omega)]

theorem strstr_marker_eq_none : strstr s MARKER = none ↔ ∀ n, ¬MarkerAt s n := strstr_eq_none_drop

theorem not_infix_iff : ¬MARKER <:+: s ↔ ∀ n, ¬MarkerAt s n := by
  rw [infix_iff_drop, not_exists]
  rfl

theorem exists_first (s : CString) : (∀ n, ¬MarkerAt s n) ∨ ∃ n, MarkerAt s n ∧ ∀ m < n, ¬MarkerAt s m := by
  by_cases h : ∃ n, MarkerAt s n
  . exact .inr ⟨Nat.find h, Nat.find_spec h, fun m hm => Nat.find_min h hm⟩
  . exact .inl (not_exists.mp h)

theorem strstr_of_first (hat : MarkerAt s n) (hfirst : ∀ m < n, ¬MarkerAt s m)
    : strstr s MARKER = some (s.drop n) := by
  cases h : strstr s MARKER with
  | none => exact absurd hat (strstr_marker_eq_none.mp h n)
  | some found =>
    have ⟨n', hfound, hat', hfirst'⟩ := strstr_eq_some_drop h
    have heq : n' = n := by
      by_contra hne
      obtain hlt | hgt := Nat.lt_or_gt_of_ne hne
      . exact hfirst n' hlt hat'
      . exact hfirst' n hgt hat
    rw [hfound, heq]

end Markers

section Texts

variable {s : CString} {n : Nat}

theorem texts_of_none (h : ∀ n, ¬MarkerAt s n) : texts fuel s = [] := by
  cases fuel with
  | zero => rfl
  | succ fuel => rw [texts, strstr_marker_eq_none.mpr h]

theorem not_infix_of_mem_texts (ht : t ∈ texts fuel s) : ¬MARKER <:+: t := by
  induction fuel generalizing s with
  | zero => simp [texts] at ht
  | succ fuel ih =>
    rw [texts] at ht
    split at ht
    . obtain heq | hrest := mem_cons.mp ht
      . rw [heq]
        exact not_infix_before (by decide)
      . exact ih hrest
    . simp at ht

theorem lineTexts_of_first (hat : MarkerAt s n) (hfirst : ∀ m < n, ¬MarkerAt s m)
    (hlast : ∀ m, n + 14 ≤ m → ¬MarkerAt s m)
    : lineTexts s = [s.drop (n + 14)] := by
  have hlen := hat.le_length
  have hrest : ∀ m, ¬MarkerAt (s.drop (n + 14)) m := by
    intro m hm
    exact hlast (n + 14 + m) (by omega) (markerAt_drop.mp hm)
  have ⟨k, hk⟩ : ∃ k, s.length = k + 1 := ⟨s.length - 1, by omega⟩
  rw [lineTexts, hk, texts, strstr_of_first hat hfirst]
  simp only [drop_drop, length_marker]
  rw [texts_of_none hrest, before_of_not_infix (not_infix_iff.mpr hrest)]

end Texts

section Piece

variable {s p : CString} {n : Nat}

theorem markerAt_piece (hp : p = s ∨ p = s ++ [NEWLINE]) : MarkerAt p n ↔ MarkerAt s n := by
  obtain hp | hp := hp
  . rw [hp]
  . rw [hp, markerAt_newline]

theorem cutAt_piece (hs : NEWLINE ∉ s) (hp : p = s ∨ p = s ++ [NEWLINE]) (k : Nat)
    : cutAt NEWLINE (p.drop k) = s.drop k := by
  have hall : ∀ c ∈ s.drop k, (c != NEWLINE) = true := by
    intro c hc
    rw [bne_iff_ne]
    intro heq
    exact hs (heq ▸ mem_of_mem_drop hc)
  obtain hp | hp := hp
  . rw [hp, cutAt]
    simpa using takeWhile_eq_self_iff.mpr hall
  . rw [hp, cutAt, drop_append, takeWhile_append_of_pos hall]
    cases k - s.length with
    | zero => simp
    | succ j => simp

theorem commands_of_none (h : ∀ n, ¬MarkerAt s n) : commands fuel s = [] := by
  cases fuel with
  | zero => rfl
  | succ fuel => rw [commands, strstr_marker_eq_none.mpr h]

theorem pieceCommands_of_none (hp : p = s ∨ p = s ++ [NEWLINE]) (h : ∀ n, ¬MarkerAt s n)
    : pieceCommands p = [] := by
  apply commands_of_none
  intro n
  rw [markerAt_piece hp]
  exact h n

section NEWLINE

variable (hs : NEWLINE ∉ s) (hp : p = s ∨ p = s ++ [NEWLINE])

include hs hp

theorem pieceCommands_eq_cons (hat : MarkerAt s n) (hfirst : ∀ m < n, ¬MarkerAt s m)
    : ∃ rest, pieceCommands p = s.drop (n + 14) :: rest ∧
        ((∀ m, n + 14 ≤ m → ¬MarkerAt s m) → rest = []) := by
  have hatp := (markerAt_piece hp).mpr hat
  have hlen := hatp.le_length
  have hfirstp : ∀ m < n, ¬MarkerAt p m := fun m hm hat' => hfirst m hm ((markerAt_piece hp).mp hat')
  have ⟨k, hk⟩ : ∃ k, p.length = k + 1 := ⟨p.length - 1, by omega⟩
  rw [pieceCommands, hk, commands, strstr_of_first hatp hfirstp]
  simp only [drop_drop, length_marker, cutAt_piece hs hp]
  refine ⟨_, rfl, ?_⟩
  intro hlast
  have hline : ∀ m, ¬MarkerAt (s.drop (n + 14)) m := by
    intro m hm
    exact hlast (n + 14 + m) (by omega) (markerAt_drop.mp hm)
  have hcmd : ∀ m, ¬MarkerAt (p.drop (n + 14)) m := by
    intro m hm
    exact hlast (n + 14 + m) (by omega) ((markerAt_piece hp).mp (markerAt_drop.mp hm))
  rw [if_neg (by rw [has_iff]; exact not_infix_iff.mpr hline)]
  exact commands_of_none hcmd

theorem pieceCommands_of_twice (h : Twice s) : ∃ t ∈ pieceCommands p, MARKER <:+: t := by
  have ⟨n, m, hn, hle, hm⟩ := h
  obtain hnone | ⟨first, hat, hfirst⟩ := exists_first s
  . exact absurd hn (hnone n)
  . have hfn : first ≤ n := by
      by_contra hlt
      exact hfirst n (by omega) hn
    have ⟨rest, heq, _⟩ := pieceCommands_eq_cons hs hp hat hfirst
    refine ⟨s.drop (first + 14), by simp [heq], infix_iff_drop.mpr ⟨m - (first + 14), ?_⟩⟩
    apply markerAt_drop.mpr
    rw [Nat.add_sub_of_le (by omega)]
    exact hm

theorem pieceCommands_of_not_twice (h : ¬Twice s) : pieceCommands p = lineTexts s := by
  obtain hnone | ⟨n, hat, hfirst⟩ := exists_first s
  . rw [pieceCommands_of_none hp hnone, lineTexts, texts_of_none hnone]
  . have hlast : ∀ m, n + 14 ≤ m → ¬MarkerAt s m := fun m hm hm' => h ⟨n, m, hat, hm, hm'⟩
    have ⟨rest, heq, hrest⟩ := pieceCommands_eq_cons hs hp hat hfirst
    rw [heq, hrest hlast, lineTexts_of_first hat hfirst hlast]

end NEWLINE

end Piece

section Pieces

variable {s rest : CString} {n : Nat}

/--
Induction along the pieces of a line: `fgets` takes the first 1023 characters off a longer one.
-/
@[elab_as_elim]
theorem lineInduction {motive : ∀ s : CString, NEWLINE ∉ s → Prop}
    (short : ∀ s hs, s.length < 1023 → motive s hs)
    (long : ∀ s hs, 1023 ≤ s.length → (hdrop : NEWLINE ∉ s.drop 1023) → motive (s.drop 1023) hdrop → motive s hs)
    (s : CString) (hs : NEWLINE ∉ s)
    : motive s hs := by
  induction hk : s.length using Nat.strong_induction_on generalizing s with
  | h k ih =>
    by_cases hlen : s.length < 1023
    . exact short s hs hlen
    . exact long s hs (by omega) (fun h => hs (mem_of_mem_drop h)) (ih _ (by simp; omega) _ _ rfl)

section NEWLINE

variable (hs : NEWLINE ∉ s)

include hs

theorem outputPieces_short (hlen : s.length < 1023)
    : outputPieces (s ++ NEWLINE :: rest) = (s ++ [NEWLINE]) :: outputPieces rest := by
  unfold outputPieces
  rw [show (s ++ NEWLINE :: rest).length = (s.length + rest.length) + 1 by simp; omega,
    fgetsAll_succ (by simp), getLine_of_short hs hlen]
  exact congrArg _ (fgetsAll_fuel (by decide) (by dsimp only; omega) (Nat.le_refl _))

theorem outputPieces_long (hlen : 1023 ≤ s.length)
    : outputPieces (s ++ rest) = s.take 1023 :: outputPieces (s.drop 1023 ++ rest) := by
  have hne : s ++ rest ≠ [] := by
    intro heq
    rw [(append_eq_nil_iff.mp heq).1] at hlen
    simp at hlen
  unfold outputPieces
  rw [show (s ++ rest).length = (s.length + rest.length - 1) + 1 by simp; omega, fgetsAll_succ hne,
    getLine_of_long rest hs hlen]
  exact congrArg _ (fgetsAll_fuel (by decide) (by simp; omega) (Nat.le_refl _))

theorem outputPieces_cons
    : outputPieces (s ++ NEWLINE :: rest) = outputPieces (s ++ [NEWLINE]) ++ outputPieces rest := by
  induction s, hs using lineInduction with
  | short s hs hlen =>
    rw [outputPieces_short hs hlen, outputPieces_short hs hlen]
    rfl
  | long s hs hlen hdrop ih =>
    rw [outputPieces_long hs hlen, outputPieces_long hs hlen, ih]
    rfl

theorem lineCommands_short (hlen : s.length < 1023)
    : lineCommands s = pieceCommands (s ++ [NEWLINE]) := by
  rw [lineCommands, outputPieces_short hs hlen]
  simp [outputPieces, fgetsAll_nil]

theorem lineCommands_long (hlen : 1023 ≤ s.length)
    : lineCommands s = pieceCommands (s.take 1023) ++ lineCommands (s.drop 1023) := by
  rw [lineCommands, outputPieces_long hs hlen, flatMap_cons]
  rfl

theorem lineCommands_of_none (h : ∀ n, ¬MarkerAt s n) : lineCommands s = [] := by
  induction s, hs using lineInduction with
  | short s hs hlen => rw [lineCommands_short hs hlen, pieceCommands_of_none (.inr rfl) h]
  | long s hs hlen hdrop ih =>
    rw [lineCommands_long hs hlen, ih (fun n hn => h _ (markerAt_drop.mp hn)),
      pieceCommands_of_none (.inl rfl) (fun n hn => h n (markerAt_take.mp hn).1)]
    rfl

end NEWLINE

theorem lineTexts_of_skip (hskip : ∀ m < k, ¬MarkerAt s m) (h : ¬Twice s)
    : lineTexts s = lineTexts (s.drop k) := by
  obtain hnone | ⟨n, hat, hfirst⟩ := exists_first s
  . have hdrop : ∀ n, ¬MarkerAt (s.drop k) n := fun n hn => hnone _ (markerAt_drop.mp hn)
    rw [lineTexts, lineTexts, texts_of_none hnone, texts_of_none hdrop]
  . have hkn : k ≤ n := by
      by_contra hlt
      exact hskip n (by omega) hat
    have hat' : MarkerAt (s.drop k) (n - k) := by
      rw [markerAt_drop, Nat.add_sub_of_le hkn]
      exact hat
    have hfirst' : ∀ m < n - k, ¬MarkerAt (s.drop k) m :=
      fun m hm hm' => hfirst (k + m) (by omega) (markerAt_drop.mp hm')
    rw [lineTexts_of_first hat hfirst (fun m hm hm' => h ⟨n, m, hat, hm, hm'⟩),
      lineTexts_of_first hat' hfirst' (fun m hm hm' => h ⟨n, k + m, hat, by omega, markerAt_drop.mp hm'⟩),
      drop_drop]
    congr 2
    omega

theorem Whole.drop (h : Whole s) (hlen : 1023 ≤ s.length) : Whole (s.drop 1023) := by
  intro n hn
  have ⟨hin, hrest⟩ := h (1023 + n) (markerAt_drop.mp hn)
  rw [length_drop]
  omega

theorem pieceCommands_take (hs : NEWLINE ∉ s) (hat : MarkerAt s n) (hfirst : ∀ m < n, ¬MarkerAt s m)
    (hlast : ∀ m, n + 14 ≤ m → ¬MarkerAt s m) (hn : n + 13 ≤ 1023)
    : pieceCommands (s.take 1023) = [(s.drop (n + 14)).take (1023 - (n + 14))] := by
  have htake : NEWLINE ∉ s.take 1023 := fun h => hs (mem_of_mem_take h)
  have ⟨rest, heq, hrest⟩ := pieceCommands_eq_cons htake (.inl rfl) (markerAt_take.mpr ⟨hat, hn⟩)
    (fun m hm hm' => hfirst m hm (markerAt_take.mp hm').1)
  rw [heq, hrest (fun m hm hm' => hlast m hm (markerAt_take.mp hm').1), drop_take]

theorem pieceCommands_take_of_none (h : ∀ m, m + 13 ≤ 1023 → ¬MarkerAt s m)
    : pieceCommands (s.take 1023) = [] := by
  apply pieceCommands_of_none (.inl rfl)
  intro m hm
  have ⟨hat, hle⟩ := markerAt_take.mp hm
  exact h m hle hat

theorem lineCommands_of_whole (hs : NEWLINE ∉ s) (htwice : ¬Twice s) (hwhole : Whole s)
    : lineCommands s = lineTexts s := by
  induction s, hs using lineInduction with
  | short s hs hlen => rw [lineCommands_short hs hlen, pieceCommands_of_not_twice hs (.inr rfl) htwice]
  | long s hs hlen hdrop ih =>
    rw [lineCommands_long hs hlen]
    by_cases hin : ∃ n < 1023, MarkerAt s n
    . -- the first marker is in the first piece, and nothing of its text is in the others
      have ⟨hn, hat⟩ := Nat.find_spec hin
      have hfirst : ∀ m < Nat.find hin, ¬MarkerAt s m :=
        fun m hm hat' => Nat.find_min hin hm ⟨by omega, hat'⟩
      have hlast : ∀ m, Nat.find hin + 14 ≤ m → ¬MarkerAt s m := fun m hm hm' => htwice ⟨_, m, hat, hm, hm'⟩
      have ⟨hfit, hend⟩ := hwhole _ hat
      rw [Nat.mod_eq_of_lt hn] at hfit hend
      have hnone : ∀ m, ¬MarkerAt (s.drop 1023) m := by
        intro m hm
        have := hm.le_length
        rw [length_drop] at this
        omega
      rw [lineCommands_of_none hdrop hnone, pieceCommands_take hs hat hfirst hlast hfit,
        lineTexts_of_first hat hfirst hlast, take_of_length_le (by rw [length_drop]; omega)]
      rfl
    . have hskip : ∀ m < 1023, ¬MarkerAt s m := fun m hm hat => hin ⟨m, hm, hat⟩
      have htwice' : ¬Twice (s.drop 1023) := by
        intro ⟨n, m, hn, hle, hm⟩
        exact htwice ⟨1023 + n, 1023 + m, markerAt_drop.mp hn, by omega, markerAt_drop.mp hm⟩
      rw [pieceCommands_take_of_none (fun m hm => hskip m (by omega)),
        ih htwice' (hwhole.drop hlen), lineTexts_of_skip hskip htwice]
      rfl

theorem lineCommands_of_once (hs : NEWLINE ∉ s) (honce : Once s) (hat : MarkerAt s n)
    : lineCommands s
        =
      if n % 1023 + 13 ≤ 1023 then [(s.drop (n + 14)).take (1023 - (n % 1023 + 14))] else [] := by
  have hfirst : ∀ m < n, ¬MarkerAt s m := by
    intro m hm hat'
    have := honce m n hat' hat
    omega
  have hlast : ∀ m, n + 14 ≤ m → ¬MarkerAt s m := by
    intro m hm hat'
    have := honce m n hat' hat
    omega
  have hle := hat.le_length
  induction s, hs using lineInduction generalizing n with
  | short s hs hlen =>
    have hmod : n % 1023 = n := Nat.mod_eq_of_lt (by omega)
    have ⟨rest, heq, hrest⟩ := pieceCommands_eq_cons hs (.inr rfl) hat hfirst
    rw [lineCommands_short hs hlen, heq, hrest hlast, hmod, if_pos (by omega),
      take_of_length_le (by rw [length_drop]; omega)]
  | long s hs hlen hdrop ih =>
    rw [lineCommands_long hs hlen]
    by_cases hn : n < 1023
    . have hnone : ∀ m, ¬MarkerAt (s.drop 1023) m := by
        intro m hm
        have := honce _ _ (markerAt_drop.mp hm) hat
        omega
      rw [lineCommands_of_none hdrop hnone, Nat.mod_eq_of_lt hn, append_nil]
      split
      . next hfit => exact pieceCommands_take hs hat hfirst hlast hfit
      . next hsplit =>
        apply pieceCommands_take_of_none
        intro m hm hat'
        have := honce m n hat' hat
        omega
    . have hat' : MarkerAt (s.drop 1023) (n - 1023) := by
        rw [markerAt_drop, Nat.add_sub_of_le (by omega)]
        exact hat
      have honce' : Once (s.drop 1023) := by
        intro m m' hm hm'
        have := honce _ _ (markerAt_drop.mp hm) (markerAt_drop.mp hm')
        omega
      rw [pieceCommands_take_of_none (fun m hm => hfirst m (by omega)),
        ih honce' hat' (fun m hm hm' => hfirst (1023 + m) (by omega) (markerAt_drop.mp hm'))
          (fun m hm hm' => hlast (1023 + m) (by omega) (markerAt_drop.mp hm')) hat'.le_length,
        drop_drop, show (n - 1023) % 1023 = n % 1023 by omega,
        show 1023 + (n - 1023 + 14) = n + 14 by omega]
      rfl

theorem Once.not_twice (h : Once s) : ¬Twice s := by
  intro ⟨n, m, hn, hle, hm⟩
  have := h n m hn hm
  omega

theorem lineCommands_eq_iff_of_once (hs : NEWLINE ∉ s) (honce : Once s)
    : (lineCommands s).length ≤ (lineTexts s).length ∧ (lineCommands s = lineTexts s → Whole s) := by
  obtain hnone | ⟨n, hat, hfirst⟩ := exists_first s
  . rw [lineCommands_of_none hs hnone]
    exact ⟨by simp, fun _ n hn => absurd hn (hnone n)⟩
  . have hlast : ∀ m, n + 14 ≤ m → ¬MarkerAt s m :=
      fun m hm hm' => honce.not_twice ⟨n, m, hat, hm, hm'⟩
    rw [lineCommands_of_once hs honce hat, lineTexts_of_first hat hfirst hlast]
    split
    . next hfit =>
      refine ⟨by simp, ?_⟩
      intro heq m hm
      rw [honce m n hm hat]
      refine ⟨hfit, ?_⟩
      have hlen := congrArg length (cons.inj heq).1
      rw [length_take, length_drop] at hlen
      omega
    . exact ⟨by simp, by simp⟩

end Pieces

section Output

def output (lines : List Line) : CString := lines.flatMap (fun line => line.chars ++ [NEWLINE])

theorem no_zero_output (lines : List Line) : 0 ∉ output lines := by
  intro h
  have ⟨line, _, hmem⟩ := mem_flatMap.mp h
  obtain hzero | hzero := mem_append.mp hmem
  . exact line.no_zero hzero
  . exact absurd (mem_singleton.mp hzero) (by decide)

theorem outputPieces_text (hout : 0 ∉ out) (h : piece ∈ outputPieces out)
    : 0 ∉ piece ∧ piece.length + 1 < 2 ^ 31 := by
  have hlen := length_of_mem_fgetsAll h
  refine ⟨fun hzero => hout ?_, by omega⟩
  rw [← @flatten_fgetsAll 1024 (by decide) _ out (Nat.le_refl _)]
  exact mem_flatten.mpr ⟨piece, h, hzero⟩

def outcome (lines : List Line) (failed : Bool) : Outcome where
  pieces := (outputPieces (output lines)).pmap (fun piece h => ⟨piece, h.1, h.2⟩)
    (fun _ h => outputPieces_text (no_zero_output lines) h)
  failed := failed

theorem flatMap_output (lines : List Line)
    : (outputPieces (output lines)).flatMap pieceCommands
        =
      lines.flatMap (fun line => lineCommands line.chars) := by
  induction lines with
  | nil => rfl
  | cons line lines ih =>
    have hcons : output (line :: lines) = line.chars ++ NEWLINE :: output lines := by simp [output]
    rw [hcons, outputPieces_cons line.no_newline, flatMap_append, ih, flatMap_cons]
    rfl

variable (id extra myID : Int32) (control command trace : Text) (lines : List Line) (failed : Bool)

def forwarded : List Call :=
  (replies myID (outcome lines failed) (.run id extra control.chars command.chars trace.chars)).flatMap
    (fun reply => receive reply.pack)

def expected : List Call :=
  (lines.flatMap (fun line => lineTexts line.chars)).map (fun text => ⟨id, myID, "callback", text, trace.chars⟩)
    ++ if failed then [⟨id, myID, "error", command.chars, trace.chars⟩] else []

theorem frontHandler_callback (hsize : 16 ≤ size) (message : CString)
    : frontHandler size ⟨id, myID, "callback", message, trace.chars⟩
        =
      (pieceCommands message).map (fun cmd => ⟨id, myID, "callback", cmd, trace.chars⟩) := by
  rw [frontHandler, if_neg (by omega)]
  rfl

theorem frontHandler_error (hsize : 16 ≤ size) (message : CString)
    : frontHandler size ⟨id, myID, "error", message, trace.chars⟩
        =
      [⟨id, myID, "error", message, trace.chars⟩] := by
  have herror : has (ofString "error") (ofString "error") = true := by decide
  rw [frontHandler, if_neg (by omega)]
  simp only [herror, ↓reduceIte]

theorem forwarded_eq
    : forwarded id extra myID control command trace lines failed
        =
      (lines.flatMap (fun line => lineCommands line.chars)).map
        (fun cmd => ⟨id, myID, "callback", cmd, trace.chars⟩)
        ++ if failed then [⟨id, myID, "error", command.chars, trace.chars⟩] else [] := by
  have hreceive : ∀ reply ∈ replies myID (outcome lines failed)
      (.run id extra control.chars command.chars trace.chars),
      receive reply.pack = frontHandler reply.pack.length reply := by
    intro reply hreply
    rw [receive, unpackFields_replies id extra myID control command trace _ reply hreply]
  rw [forwarded, flatMap_congr hreceive, replies, flatMap_append, ← flatMap_output]
  have hchars : (outcome lines failed).pieces.map Text.chars = outputPieces (output lines) := by
    simp [outcome, map_pmap]
  congr 1
  . rw [← hchars, flatMap_map, map_flatMap, flatMap_map]
    apply flatMap_congr
    intro piece _
    exact frontHandler_callback id myID trace (Scheduler.Fields.le_length_pack _) piece.chars
  . unfold outcome
    cases failed with
    | true => simp [frontHandler_error _ _ _ (Scheduler.Fields.le_length_pack _)]
    | false => simp

theorem forwarded_eq_expected_iff
    : forwarded id extra myID control command trace lines failed
        = expected id myID command trace lines failed
        ↔
      lines.flatMap (fun line => lineCommands line.chars) = lines.flatMap (fun line => lineTexts line.chars) := by
  have hinj : Function.Injective
      (fun cmd : CString => (⟨id, myID, "callback", cmd, trace.chars⟩ : Call)) := by
    intro cmd cmd' heq
    exact (Fields.mk.inj heq).2.2.2.1
  rw [forwarded_eq, expected, append_left_inj, map_inj_right hinj]

theorem not_twice_of_eq (hline : line ∈ lines) (hlen : line.chars.length < 1023)
    (h : lines.flatMap (fun line => lineCommands line.chars) = lines.flatMap (fun line => lineTexts line.chars))
    : ¬Twice line.chars := by
  intro htwice
  have ⟨t, ht, hmarker⟩ := pieceCommands_of_twice line.no_newline (.inr rfl) htwice
  have hmem : t ∈ lines.flatMap (fun line => lineTexts line.chars) := by
    rw [← h]
    refine mem_flatMap.mpr ⟨line, hline, ?_⟩
    rw [lineCommands_short line.no_newline hlen]
    exact ht
  have ⟨line', _, ht'⟩ := mem_flatMap.mp hmem
  exact not_infix_of_mem_texts ht' hmarker

theorem whole_of_short (hlen : s.length < 1023) : Whole s := by
  intro n hn
  have := hn.le_length
  rw [Nat.mod_eq_of_lt (by omega)]
  omega

theorem eq_of_flatMap_eq {f g : α → List β} {l : List α}
    (hle : ∀ a ∈ l, (f a).length ≤ (g a).length) (h : l.flatMap f = l.flatMap g)
    : ∀ a ∈ l, f a = g a := by
  induction l with
  | nil => simp
  | cons a l ih =>
    rw [forall_mem_cons] at hle
    rw [flatMap_cons, flatMap_cons] at h
    have hsum : (l.flatMap f).length ≤ (l.flatMap g).length := by
      rw [length_flatMap, length_flatMap]
      exact sum_le_sum hle.2
    have hlen := congrArg length h
    rw [length_append, length_append] at hlen
    have ⟨hhead, htail⟩ := append_inj h (by omega)
    rw [forall_mem_cons]
    exact ⟨hhead, ih hle.2 htail⟩

theorem replies_extracted
    : ((∀ line ∈ lines, ¬Twice line.chars ∧ Whole line.chars) →
        forwarded id extra myID control command trace lines failed
          = expected id myID command trace lines failed)
        ∧
      ((∀ line ∈ lines, 1023 ≤ line.chars.length → Once line.chars) →
        forwarded id extra myID control command trace lines failed
          = expected id myID command trace lines failed →
        ∀ line ∈ lines, ¬Twice line.chars ∧ Whole line.chars) := by
  rw [forwarded_eq_expected_iff]
  constructor
  . intro hclean
    apply flatMap_congr
    intro line hline
    exact lineCommands_of_whole line.no_newline (hclean line hline).1 (hclean line hline).2
  . intro honce h
    have htwice : ∀ line ∈ lines, ¬Twice line.chars := by
      intro line hline
      by_cases hlen : line.chars.length < 1023
      . exact not_twice_of_eq lines hline hlen h
      . exact (honce line hline (by omega)).not_twice
    have heq := eq_of_flatMap_eq (fun line hline => by
      by_cases hlen : line.chars.length < 1023
      . rw [lineCommands_of_whole line.no_newline (htwice line hline) (whole_of_short hlen)]
      . exact (lineCommands_eq_iff_of_once line.no_newline (honce line hline (by omega))).1) h
    intro line hline
    refine ⟨htwice line hline, ?_⟩
    by_cases hlen : line.chars.length < 1023
    . exact whole_of_short hlen
    . exact (lineCommands_eq_iff_of_once line.no_newline (honce line hline (by omega))).2 (heq line hline)

end Output

section Example

def callbackLine : Line := ⟨"|:-COMMAND-:| launch_vm.sh '12' 'running'", by decide, by decide⟩

def plainLine : Line := ⟨"Formatting image", by decide, by decide⟩

def twoCallbacks : Line := ⟨"|:-COMMAND-:| a |:-COMMAND-:| b", by decide, by decide⟩

def longLine : Line where
  chars := replicate 1015 97 ++ ofString "|:-COMMAND-:| b"
  no_zero := by decide +kernel
  no_newline := by decide +kernel

def inter : Text := listOnThree.control

def script : Text := ⟨"launch_vm.sh", by decide, by decide⟩

def noTrace : Text := ⟨[], by decide, by decide⟩

theorem replies_extracted_callback
    : (∀ line ∈ [plainLine, callbackLine], ¬Twice line.chars ∧ Whole line.chars) ∧
      forwarded 7 0 3 inter script noTrace [plainLine, callbackLine] false
        = expected 7 3 script noTrace [plainLine, callbackLine] false ∧
      expected 7 3 script noTrace [plainLine, callbackLine] false
        = [⟨7, 3, "callback", "launch_vm.sh '12' 'running'", []⟩] := by
  have hshort : ∀ line ∈ [plainLine, callbackLine], line.chars.length < 42 := by decide
  have hmarkers : ∀ line ∈ [plainLine, callbackLine], ∀ n < 42, ∀ m < 42, n + 14 ≤ m →
      MarkerAt line.chars n → ¬MarkerAt line.chars m := by
    decide +kernel
  have hclean : ∀ line ∈ [plainLine, callbackLine], ¬Twice line.chars ∧ Whole line.chars := by
    intro line hline
    have hlen := hshort line hline
    refine ⟨?_, whole_of_short (by omega)⟩
    intro ⟨n, m, hn, hle, hm⟩
    have hmlen := hm.le_length
    exact hmarkers line hline n (by omega) m (by omega) hle hn hm
  exact ⟨hclean, (replies_extracted 7 0 3 inter script noTrace _ false).1 hclean, by decide +kernel⟩

theorem replies_not_extracted
    : forwarded 7 0 3 inter script noTrace [twoCallbacks] false
        = [⟨7, 3, "callback", "a |:-COMMAND-:| b", []⟩, ⟨7, 3, "callback", "b", []⟩] ∧
      expected 7 3 script noTrace [twoCallbacks] false
        = [⟨7, 3, "callback", "a ", []⟩, ⟨7, 3, "callback", "b", []⟩] ∧
      forwarded 7 0 3 inter script noTrace [longLine] false = [] ∧
      expected 7 3 script noTrace [longLine] false = [⟨7, 3, "callback", "b", []⟩] := by
  decide +kernel

end Example

end Handler
