import Cloudland.Lib.GoString

/-!
The command lines that the web server sends and receives (`web/src/rpcs/commands.go`).
-/

open GoString

namespace Rpcs

open List

def isQuote (c : Char) : Bool := c == '\x27'

def encodeCommand (name : List Char) (args : List (List Char)) : List Char :=
  args.foldl (fun command arg => command ++ ' ' :: '\x27' :: (arg ++ ['\x27'])) name

def popFirst (content : List Char) : List Char × List Char :=
  match index [' ', '\x27'] content with
  | some idx => (trim isQuote (trim isSpace (content.take idx)), trim isQuote (trim isSpace (content.drop idx)))
  | none => (trim isQuote (trim isSpace content), [])

def parseCommand (s : List Char) : List Char :=
  let s := match lastIndex ['/'] s with
    | some idx => trimPrefix (s.drop idx) ['/']
    | none => s
  trimSuffix s ['.', 's', 'h']

theorem isSpace_space : isSpace ' ' := by decide

theorem isSpace_quote : ¬isSpace '\x27' := by decide

theorem isQuote_iff : isQuote c ↔ c = '\x27' := beq_iff_eq

theorem popFirst_left {content : List Char}
    : (popFirst content).2 = []
        ∨
      (pairs ' ' '\x27' (popFirst content).2 < pairs ' ' '\x27' content ∧
        (popFirst content).2.length < content.length) := by
  unfold popFirst
  split
  . next idx hidx =>
    obtain ⟨t, ht⟩ := drop_of_index_pair hidx
    have hsplit : content = content.take idx ++ ' ' :: '\x27' :: t := by rw [← ht, take_append_drop]
    have hleft : trim isSpace (content.drop idx) = trim isSpace ('\x27' :: t) := by
      rw [ht, trim_cons_pos isSpace_space]
    rw [hleft]
    right
    constructor
    . have hcontent := @pairs_append_le _ _ ' ' '\x27' (content.take idx) (' ' :: '\x27' :: t)
      rw [← hsplit, pairs_cons_cons (by decide)] at hcontent
      calc pairs ' ' '\x27' (trim isQuote (trim isSpace ('\x27' :: t)))
          ≤ pairs ' ' '\x27' ('\x27' :: t) := pairs_trim_le.trans pairs_trim_le
        _ = pairs ' ' '\x27' t := pairs_cons_of_ne (by decide)
        _ < pairs ' ' '\x27' content := by omega
    . have hlength := congrArg length hsplit
      rw [length_append, length_cons] at hlength
      calc (trim isQuote (trim isSpace ('\x27' :: t))).length
          ≤ ('\x27' :: t).length := length_trim_le.trans length_trim_le
        _ < content.length := by omega
  . exact .inl rfl

def decodeArgs : List Char → List (List Char)
  | [] => []
  | c :: left => (popFirst (c :: left)).1 :: decodeArgs (popFirst (c :: left)).2
termination_by left => left.length
decreasing_by
  obtain hnil | hlt := popFirst_left
  . rw [hnil]
    exact Nat.succ_pos _
  . exact hlt.2

def decodeCommand (content : List Char) : List Char × List (List Char) :=
  if content = [] then
    ([], [])
  else
    let first := popFirst content
    (parseCommand first.1, first.1 :: decodeArgs first.2)

theorem decodeArgs_nil : decodeArgs [] = [] := by
  rw [decodeArgs]

theorem decodeArgs_of_ne (h : left ≠ [])
    : decodeArgs left = (popFirst left).1 :: decodeArgs (popFirst left).2 := by
  cases left with
  | nil => exact absurd rfl h
  | cons c left => rw [decodeArgs]

theorem length_decodeArgs_le : (decodeArgs left).length ≤ pairs ' ' '\x27' left + 1 := by
  fun_induction decodeArgs left with
  | case1 => exact Nat.zero_le _
  | case2 c left ih =>
    rw [length_cons]
    obtain hnil | hlt := @popFirst_left (c :: left)
    . rw [hnil, decodeArgs_nil, length_nil]
      omega
    . omega

def quoted (args : List (List Char)) : List Char :=
  args.flatMap (fun arg => ' ' :: '\x27' :: (arg ++ ['\x27']))

theorem encodeCommand_eq : encodeCommand name args = name ++ quoted args := by
  unfold encodeCommand quoted
  induction args generalizing name with
  | nil => simp
  | cons arg args ih => rw [foldl_cons, ih, flatMap_cons, append_assoc]

theorem quoted_cons : quoted (arg :: args) = ' ' :: '\x27' :: (arg ++ '\x27' :: quoted args) := by
  simp [quoted]

def Plain (arg : List Char) : Prop := '\x27' ∉ arg ∧ Clean isSpace arg

instance (arg : List Char) : Decidable (Plain arg) := inferInstanceAs (Decidable (_ ∧ _))

section RoundTrip

variable {name arg last : List Char} {init args : List (List Char)}

theorem clean_isQuote (h : '\x27' ∉ arg) : Clean isQuote arg :=
  clean_of_forall (fun _ hc hquote => h (isQuote_iff.mp hquote ▸ hc))

theorem Plain.getLast?_ne_space (h : Plain arg) : ∀ c ∈ arg.getLast?, c ≠ ' ' := by
  intro c hc heq
  exact h.2.2 c hc (heq ▸ isSpace_space)

def opened (init : List (List Char)) (last : List Char) : List Char := quoted init ++ ' ' :: '\x27' :: last

theorem quoted_concat : quoted (init ++ [last]) = opened init last ++ ['\x27'] := by
  simp [quoted, opened]

theorem getLast?_quoted (h : args ≠ []) : (quoted args).getLast? = some '\x27' := by
  rw [← dropLast_append_getLast h, quoted_concat, getLast?_concat]

theorem pairs_quoted (hargs : ∀ arg ∈ args, Plain arg) : pairs ' ' '\x27' (quoted args) = args.length := by
  induction args with
  | nil => rfl
  | cons arg args ih =>
    have ⟨harg, hargs⟩ := forall_mem_cons.mp hargs
    rw [quoted_cons, pairs_cons_cons (by decide), pairs_append_of_last harg.getLast?_ne_space,
      pairs_eq_zero_of_notMem' harg.1, pairs_cons_of_ne (by decide), ih hargs, length_cons]
    omega

def remaining (init : List (List Char)) (last : List Char) : List Char :=
  match init with
  | [] => last
  | arg :: init => (if arg = [] then [] else arg ++ ['\x27']) ++ opened init last

theorem opened_cons : opened (arg :: init) last = ' ' :: '\x27' :: (arg ++ '\x27' :: opened init last) := by
  simp [opened, quoted_cons]

theorem head?_opened : (opened init last).head? = some ' ' := by
  cases init with
  | nil => rfl
  | cons arg init => rw [opened_cons, head?_cons]

theorem opened_ne_nil : opened init last ≠ [] := by
  intro h
  have := @head?_opened last init
  rw [h] at this
  contradiction

theorem getLast?_append_opened (hne : last ≠ []) : (front ++ opened init last).getLast? = last.getLast? := by
  have hopened : front ++ opened init last = (front ++ quoted init ++ [' ', '\x27']) ++ last := by simp [opened]
  rw [hopened, getLast?_append_of_ne_nil _ hne]

section Shared

variable (hinit : ∀ arg ∈ init, Plain arg) (hlast : Plain last) (hne : last ≠ [])

include hinit hlast hne

theorem exists_opened_eq
    : ∃ inner, opened init last = ' ' :: '\x27' :: inner ∧ ('\x27' :: inner).getLast? = last.getLast? ∧
        trim isQuote inner = remaining init last := by
  have hclean := clean_isQuote hlast.1
  cases init with
  | nil =>
    have hend : (['\x27'] ++ last).getLast? = last.getLast? := getLast?_append_of_ne_nil _ hne
    exact ⟨last, rfl, hend, trim_of_clean hclean⟩
  | cons arg init =>
    have hinner : arg ++ '\x27' :: opened init last = (arg ++ ['\x27']) ++ opened init last := by simp
    have hend : (('\x27' :: (arg ++ ['\x27'])) ++ opened init last).getLast? = last.getLast? :=
      getLast?_append_opened hne
    refine ⟨(arg ++ ['\x27']) ++ opened init last, hinner ▸ opened_cons, hend, ?_⟩
    cases arg with
    | nil =>
      rw [nil_append, singleton_append, trim_cons_pos (isQuote_iff.mpr rfl)]
      refine trim_of_clean ⟨?_, ?_⟩
      . rw [head?_opened]
        simp [isQuote]
      . rw [← nil_append (opened init last), getLast?_append_opened hne]
        exact hclean.2
    | cons c arg =>
      have hc : ¬isQuote c := by
        intro hquote
        exact (hinit (c :: arg) mem_cons_self).1 (isQuote_iff.mp hquote ▸ mem_cons_self)
      refine trim_of_clean ⟨?_, ?_⟩
      . simpa using hc
      . rw [getLast?_append_opened hne]
        exact hclean.2

theorem trim_opened : trim isQuote (trim isSpace (opened init last)) = remaining init last := by
  have ⟨inner, hopened, hend, hinner⟩ := exists_opened_eq hinit hlast hne
  have hclean : Clean isSpace ('\x27' :: inner) := by
    refine ⟨by simpa using isSpace_quote, ?_⟩
    rw [hend]
    exact hlast.2.2
  rw [hopened, trim_cons_pos isSpace_space, trim_of_clean hclean, trim_cons_pos (isQuote_iff.mpr rfl), hinner]

theorem trim_quoted : trim isQuote (trim isSpace (quoted (init ++ [last]))) = remaining init last := by
  have ⟨inner, hopened, _, hinner⟩ := exists_opened_eq hinit hlast hne
  have hclean : Clean isSpace ('\x27' :: inner ++ ['\x27']) :=
    (clean_append (cons_ne_nil _ _) (cons_ne_nil _ _)).mpr
      ⟨by simpa using isSpace_quote, by simpa using isSpace_quote⟩
  rw [quoted_concat, hopened, cons_append, trim_cons_pos isSpace_space, trim_of_clean hclean,
    trim_concat_pos (isQuote_iff.mpr rfl), trim_cons_pos (isQuote_iff.mpr rfl), hinner]

end Shared

theorem popFirst_remaining (harg : Plain arg) (hinit : ∀ arg ∈ init, Plain arg) (hlast : Plain last)
    (hne : last ≠ [])
    : popFirst (remaining (arg :: init) last) = (arg, remaining init last) := by
  have ⟨inner, hopened, _, _⟩ := exists_opened_eq hinit hlast hne
  have hfront : pairs ' ' '\x27' (if arg = [] then [] else arg ++ ['\x27']) = 0 := by
    split
    . rfl
    . rw [pairs_append_of_last harg.getLast?_ne_space, pairs_eq_zero_of_notMem' harg.1]
      rfl
  have hfirst : trim isQuote (trim isSpace (if arg = [] then [] else arg ++ ['\x27'])) = arg := by
    split
    . next hnil =>
      rw [hnil]
      rfl
    . next hnil =>
      have hclean : Clean isSpace (arg ++ ['\x27']) :=
        (clean_append hnil (cons_ne_nil _ _)).mpr ⟨harg.2.1, by simpa using isSpace_quote⟩
      rw [trim_of_clean hclean, trim_concat_pos (isQuote_iff.mpr rfl), trim_of_clean (clean_isQuote harg.1)]
  have hindex := @index_pair_of_append _ _ ' ' '\x27' _ inner (by decide) hfront
  rw [← hopened] at hindex
  rw [popFirst, remaining, hindex]
  dsimp only
  rw [take_left, drop_left, hfirst, trim_opened hinit hlast hne]

theorem decodeArgs_remaining (hinit : ∀ arg ∈ init, Plain arg) (hlast : Plain last) (hne : last ≠ [])
    : decodeArgs (remaining init last) = init ++ [last] := by
  induction init with
  | nil =>
    have hpop : popFirst last = (last, []) := by
      rw [popFirst, index_pair_eq_none (pairs_eq_zero_of_notMem' hlast.1)]
      rw [trim_of_clean hlast.2, trim_of_clean (clean_isQuote hlast.1)]
    rw [remaining, decodeArgs_of_ne hne, hpop, decodeArgs_nil]
    rfl
  | cons arg init ih =>
    have ⟨harg, hinit⟩ := forall_mem_cons.mp hinit
    have hleft : remaining (arg :: init) last ≠ [] := by
      rw [remaining]
      exact append_ne_nil_of_right_ne_nil _ opened_ne_nil
    rw [decodeArgs_of_ne hleft, popFirst_remaining harg hinit hlast hne, ih hinit]
    rfl

theorem length_decodeArgs_of_empty_last (hinit : ∀ arg ∈ init, Plain arg)
    : (decodeArgs (trim isQuote (trim isSpace (quoted (init ++ [[]]))))).length ≤ init.length := by
  cases init with
  | nil =>
    have hnil : trim isQuote (trim isSpace (quoted ([] ++ [[]]))) = [] := by decide +kernel
    rw [hnil, decodeArgs_nil]
  | cons arg init =>
    have hquoted : quoted (arg :: init ++ [[]])
        = ' ' :: ('\x27' :: (arg ++ '\x27' :: quoted init) ++ [' '] ++ ['\x27'] ++ ['\x27']) := by
      simp [quoted]
    have hclean : Clean isSpace ('\x27' :: (arg ++ '\x27' :: quoted init) ++ [' '] ++ ['\x27'] ++ ['\x27']) :=
      (clean_append (by simp) (cons_ne_nil _ _)).mpr ⟨by simpa using isSpace_quote, by simpa using isSpace_quote⟩
    have hlast : ∀ c ∈ ('\x27' :: (arg ++ '\x27' :: quoted init)).getLast?, c ≠ ' ' := by
      have := @getLast?_quoted (arg :: init) (cons_ne_nil _ _)
      rw [quoted_cons, getLast?_cons_cons] at this
      rw [this]
      simp
    have hpairs := pairs_quoted hinit
    rw [quoted_cons, pairs_cons_cons (by decide), length_cons] at hpairs
    rw [hquoted, trim_cons_pos isSpace_space, trim_of_clean hclean, trim_concat_pos (isQuote_iff.mpr rfl),
      trim_concat_pos (isQuote_iff.mpr rfl)]
    calc (decodeArgs (trim isQuote ('\x27' :: (arg ++ '\x27' :: quoted init) ++ [' ']))).length
        ≤ pairs ' ' '\x27' ('\x27' :: (arg ++ '\x27' :: quoted init) ++ [' ']) + 1 :=
          length_decodeArgs_le.trans (Nat.add_le_add_right pairs_trim_le 1)
      _ = pairs ' ' '\x27' (arg ++ '\x27' :: quoted init) + 1 := by
          rw [pairs_append_of_last hlast, pairs_cons_of_ne (by decide)]
          rfl
      _ ≤ (arg :: init).length := by
          rw [length_cons]
          omega

theorem popFirst_encodeCommand (hname : ' ' ∉ name)
    : popFirst (encodeCommand name args)
        =
      (trim isQuote (trim isSpace name), trim isQuote (trim isSpace (quoted args))) := by
  have hpairs : pairs ' ' '\x27' name = 0 := pairs_eq_zero_of_notMem hname
  rw [encodeCommand_eq, popFirst]
  cases args with
  | nil =>
    rw [show quoted [] = [] from rfl, append_nil, index_pair_eq_none hpairs]
    rfl
  | cons arg args =>
    rw [quoted_cons, index_pair_of_append (by decide) hpairs]
    dsimp only
    rw [take_left, drop_left]

theorem parseCommand_of_notMem (h : '/' ∉ name) : parseCommand name = trimSuffix name ['.', 's', 'h'] := by
  rw [parseCommand, lastIndex_eq_none h]

theorem decodeCommand_encodeCommand (hspace : ' ' ∉ name) (hquote : '\x27' ∉ name) (hne : encodeCommand name args ≠ [])
    : decodeCommand (encodeCommand name args)
        =
      (parseCommand (trim isSpace name),
        trim isSpace name :: decodeArgs (trim isQuote (trim isSpace (quoted args)))) := by
  have hfirst : trim isQuote (trim isSpace name) = trim isSpace name :=
    trim_of_clean (clean_isQuote (fun h => hquote (mem_of_mem_trim h)))
  rw [decodeCommand, if_neg hne, popFirst_encodeCommand hspace, hfirst]

theorem decodeArgs_quoted_iff (hargs : ∀ arg ∈ args, Plain arg)
    : decodeArgs (trim isQuote (trim isSpace (quoted args))) = args ↔ ∀ arg ∈ args.getLast?, arg ≠ [] := by
  obtain hnil | ⟨init, last, h⟩ := eq_nil_or_concat args
  . have htrim : trim isQuote (trim isSpace (quoted [])) = [] := rfl
    rw [hnil, htrim, decodeArgs_nil]
    simp
  . rw [concat_eq_append] at h
    subst h
    have ⟨hinit, hlast⟩ := forall_mem_append.mp hargs
    rw [getLast?_concat]
    constructor
    . intro heq arg harg hnil
      rw [Option.mem_some_iff.mp harg, hnil] at heq
      have hle := length_decodeArgs_of_empty_last hinit
      rw [heq, length_append, length_singleton] at hle
      omega
    . intro hne
      have hlast := hlast last (mem_singleton_self _)
      rw [trim_quoted hinit hlast (hne last rfl), decodeArgs_remaining hinit hlast (hne last rfl)]

theorem decodeCommand_encodeCommand_iff (hspace : ' ' ∉ name) (hquote : '\x27' ∉ name) (hslash : '/' ∉ name)
    (hargs : ∀ arg ∈ args, '\x27' ∉ arg ∧ Clean isSpace arg)
    : decodeCommand (encodeCommand name args) = (trimSuffix name ['.', 's', 'h'], name :: args)
        ↔
      Clean isSpace name ∧ (name :: args).getLast (cons_ne_nil _ _) ≠ [] := by
  have hlast : (∀ arg ∈ args.getLast?, arg ≠ []) ∧ encodeCommand name args ≠ []
      ↔ (name :: args).getLast (cons_ne_nil _ _) ≠ [] := by
    obtain hnil | ⟨init, last, h⟩ := eq_nil_or_concat args
    . subst hnil
      simp [encodeCommand]
    . rw [concat_eq_append] at h
      subst h
      simp [encodeCommand]
  rw [← hlast, ← trim_eq_self_iff]
  by_cases hne : encodeCommand name args = []
  . simp [decodeCommand, hne]
  . rw [decodeCommand_encodeCommand hspace hquote hne, Prod.mk.injEq, cons.injEq, decodeArgs_quoted_iff hargs]
    constructor
    . intro ⟨_, hname, hargs⟩
      exact ⟨hname, hargs, hne⟩
    . intro ⟨hname, hargs, _⟩
      rw [hname, parseCommand_of_notMem hslash]
      exact ⟨rfl, rfl, hargs⟩

theorem decodeCommand_empty_argument_inside
    : decodeCommand (encodeCommand ['l', 's', '.', 's', 'h'] [[], ['a', ' ', 'b'], [], ['c']])
        =
      (['l', 's'], [['l', 's', '.', 's', 'h'], [], ['a', ' ', 'b'], [], ['c']]) :=
  (decodeCommand_encodeCommand_iff (by decide) (by decide) (by decide) (by decide)).mpr (by decide)

theorem decodeCommand_empty_argument_last
    : decodeCommand (encodeCommand ['l', 's'] [['a'], []]) = (['l', 's'], [['l', 's'], ['a']]) := by
  have hfirst : popFirst (encodeCommand ['l', 's'] [['a'], []]) = (['l', 's'], ['a', '\x27', ' ']) := by
    decide +kernel
  have hsecond : popFirst ['a', '\x27', ' '] = (['a'], []) := by decide +kernel
  rw [decodeCommand, if_neg (by decide), hfirst]
  dsimp only
  rw [decodeArgs_of_ne (cons_ne_nil _ _), hsecond, decodeArgs_nil]
  decide

end RoundTrip

end Rpcs
