import Mathlib.Data.Nat.Digits.Defs
import Mathlib.Data.List.Basic

/-!
The text of queries: a scanner and a parser for a part of the grammar of PostgreSQL.
-/

namespace Sql

open List

abbrev Chars := List Char

inductive Key where
  | SELECT | COUNT | FROM | WHERE | ORDER | BY | ASC | DESC | LIMIT | OFFSET
  | OR | AND | NOT | LIKE | IS | NULL | TRUE | FALSE | EXISTS
  deriving DecidableEq

inductive Token where
  | key (k : Key)
  | word (s : Chars)
  | quoted (s : Chars)
  | str (s : Chars)
  | num (n : Nat)
  | sym (c : Char)
  | ne
  deriving DecidableEq

def keywords : List (Chars × Key) :=
  [("select".toList, .SELECT), ("count".toList, .COUNT), ("from".toList, .FROM), ("where".toList, .WHERE),
    ("order".toList, .ORDER), ("by".toList, .BY), ("asc".toList, .ASC), ("desc".toList, .DESC),
    ("limit".toList, .LIMIT), ("offset".toList, .OFFSET), ("or".toList, .OR), ("and".toList, .AND),
    ("not".toList, .NOT), ("like".toList, .LIKE), ("is".toList, .IS), ("null".toList, .NULL),
    ("true".toList, .TRUE), ("false".toList, .FALSE), ("exists".toList, .EXISTS)]

def wordToken (s : Chars) : Token :=
  match keywords.lookup s with
  | some k => .key k
  | none => .word s

inductive Mode where
  | blank
  | word (s : Chars)
  | num (n : Nat)
  | str (s : Chars)
  | strQuote (s : Chars)
  | quoted (s : Chars)
  | less
  | minus
  | slash
  | lineComment
  | blockComment (depth : Nat)
  | blockStar (depth : Nat)
  | blockSlash (depth : Nat)
  | foreign
  deriving DecidableEq

def isSpace (c : Char) : Bool := c == ' ' || c == '\t' || c == '\n' || c == '\r' || c == '\x0c'

def isName (c : Char) : Bool := c.isAlphanum || c == '_'

def digit (c : Char) : Nat := c.toNat - 48

def start (c : Char) : Mode × List Token :=
  if isSpace c then
    (.blank, [])
  else if c.isDigit then
    (.num (digit c), [])
  else if isName c then
    (.word [c.toLower], [])
  else
    match c with
    | '\'' => (.str [], [])
    | '"' => (.quoted [], [])
    | '<' => (.less, [])
    | '-' => (.minus, [])
    | '/' => (.slash, [])
    | '(' => (.blank, [.sym '('])
    | ')' => (.blank, [.sym ')'])
    | ',' => (.blank, [.sym ','])
    | '.' => (.blank, [.sym '.'])
    | '*' => (.blank, [.sym '*'])
    | '=' => (.blank, [.sym '='])
    | _ => (.foreign, [])

def marksString (s : Chars) : Bool := s == ['e'] || s == ['b'] || s == ['x'] || s == ['n']

def stepMode : Mode → Char → Mode × List Token
  | .blank, c => start c
  | .word s, c =>
    if isName c then
      (.word (s ++ [c.toLower]), [])
    else if c = '\'' ∧ marksString s = true then
      (.foreign, [])
    else
      ((start c).1, wordToken s :: (start c).2)
  | .num n, c =>
    if c.isDigit then
      (.num (10 * n + digit c), [])
    else if isName c || c == '.' then
      (.foreign, [])
    else
      ((start c).1, .num n :: (start c).2)
  | .str s, c => if c = '\'' then (.strQuote s, []) else (.str (s ++ [c]), [])
  | .strQuote s, c => if c = '\'' then (.str (s ++ ['\'']), []) else ((start c).1, .str s :: (start c).2)
  | .quoted s, c => if c = '"' then (.blank, [.quoted s]) else (.quoted (s ++ [c]), [])
  | .less, c => if c = '>' then (.blank, [.ne]) else (.foreign, [])
  | .minus, c => if c = '-' then (.lineComment, []) else (.foreign, [])
  | .slash, c => if c = '*' then (.blockComment 0, []) else (.foreign, [])
  | .lineComment, c => if c = '\n' ∨ c = '\r' then (.blank, []) else (.lineComment, [])
  | .blockComment depth, c =>
    if c = '*' then
      (.blockStar depth, [])
    else if c = '/' then
      (.blockSlash depth, [])
    else
      (.blockComment depth, [])
  | .blockStar depth, c =>
    if c = '/' then
      match depth with
      | 0 => (.blank, [])
      | depth + 1 => (.blockComment depth, [])
    else if c = '*' then
      (.blockStar depth, [])
    else
      (.blockComment depth, [])
  | .blockSlash depth, c =>
    if c = '*' then
      (.blockComment (depth + 1), [])
    else if c = '/' then
      (.blockSlash depth, [])
    else
      (.blockComment depth, [])
  | .foreign, _ => (.foreign, [])

-- no text for the server contains the character that ends it
def step (m : Mode) (c : Char) : Mode × List Token := if c = '\x00' then (.foreign, []) else stepMode m c

def runs : Mode → Chars → Mode × List Token
  | m, [] => (m, [])
  | m, c :: t => ((runs (step m c).1 t).1, (step m c).2 ++ (runs (step m c).1 t).2)

def finish : Mode → Option (List Token)
  | .blank => some []
  | .lineComment => some []
  | .word s => some [wordToken s]
  | .num n => some [.num n]
  | .strQuote s => some [.str s]
  | _ => none

def tokens (t : Chars) : Option (List Token) := (finish (runs .blank t).1).map ((runs .blank t).2 ++ ·)

inductive Expr where
  | column (table : Option Chars) (name : Chars)
  | str (s : Chars)
  | num (n : Nat)
  | bool (b : Bool)
  | eq (a b : Expr)
  | ne (a b : Expr)
  | like (a : Expr) (pattern : Chars)
  | isNull (a : Expr)
  | not (a : Expr)
  | and (a b : Expr)
  | or (a b : Expr)
  | exists (table : Chars) (cond : Expr)
  deriving DecidableEq

def parseAt : Nat → Nat → List Token → Option (Expr × List Token)
  | 0, _, _ => none
  | fuel + 1, 0, toks => do
    let (a, rest) ← parseAt fuel 1 toks
    match rest with
    | .key .OR :: rest =>
      let (b, rest) ← parseAt fuel 0 rest
      return (.or a b, rest)
    | _ => return (a, rest)
  | fuel + 1, 1, toks => do
    let (a, rest) ← parseAt fuel 2 toks
    match rest with
    | .key .AND :: rest =>
      let (b, rest) ← parseAt fuel 1 rest
      return (.and a b, rest)
    | _ => return (a, rest)
  | fuel + 1, 2, toks =>
    match toks with
    | .key .NOT :: rest => do
      let (a, rest) ← parseAt fuel 2 rest
      return (.not a, rest)
    | _ => parseAt fuel 3 toks
  | fuel + 1, 3, toks => do
    let (a, rest) ← parseAt fuel 4 toks
    match rest with
    | .sym '=' :: rest =>
      let (b, rest) ← parseAt fuel 4 rest
      return (.eq a b, rest)
    | .ne :: rest =>
      let (b, rest) ← parseAt fuel 4 rest
      return (.ne a b, rest)
    | .key .LIKE :: .str p :: rest => return (.like a p, rest)
    | .key .IS :: .key .NULL :: rest => return (.isNull a, rest)
    | .key .IS :: .key .NOT :: .key .NULL :: rest => return (.not (.isNull a), rest)
    | _ => return (a, rest)
  | fuel + 1, _, toks =>
    match toks with
    | .str s :: rest => some (.str s, rest)
    | .num n :: rest => some (.num n, rest)
    | .key .TRUE :: rest => some (.bool true, rest)
    | .key .FALSE :: rest => some (.bool false, rest)
    | .quoted t :: .sym '.' :: .quoted c :: rest => some (.column (some t) c, rest)
    | .quoted c :: rest => some (.column none c, rest)
    | .word c :: rest => some (.column none c, rest)
    | .key .EXISTS :: .sym '(' :: .key .SELECT :: .sym '*' :: .key .FROM :: .word t :: .key .WHERE :: rest => do
      let (a, rest) ← parseAt fuel 0 rest
      match rest with
      | .sym ')' :: rest => return (.exists t a, rest)
      | _ => none
    | .sym '(' :: rest => do
      let (a, rest) ← parseAt fuel 0 rest
      match rest with
      | .sym ')' :: rest => return (a, rest)
      | _ => none
    | _ => none

structure Stmt where
  count : Bool
  table : Chars
  cond : Option Expr
  orders : List (Expr × Bool)
  limit : Option Nat
  offset : Option Nat
  deriving DecidableEq

def parseDir : List Token → Bool × List Token
  | .key .DESC :: rest => (true, rest)
  | .key .ASC :: rest => (false, rest)
  | rest => (false, rest)

def parseOrders (fuel : Nat) : Nat → List Token → Option (List (Expr × Bool) × List Token)
  | 0, _ => none
  | n + 1, toks => do
    let (e, rest) ← parseAt fuel 0 toks
    let (desc, rest) := parseDir rest
    match rest with
    | .sym ',' :: rest =>
      let (orders, rest) ← parseOrders fuel n rest
      return ((e, desc) :: orders, rest)
    | _ => return ([(e, desc)], rest)

def parseCond (fuel : Nat) : List Token → Option (Option Expr × List Token)
  | .key .WHERE :: rest => do
    let (cond, rest) ← parseAt fuel 0 rest
    return (some cond, rest)
  | rest => some (none, rest)

def parseOrderBy (fuel : Nat) : List Token → Option (List (Expr × Bool) × List Token)
  | .key .ORDER :: .key .BY :: rest => parseOrders fuel fuel rest
  | rest => some ([], rest)

def parseLimit : List Token → Option Nat × List Token
  | .key .LIMIT :: .num n :: rest => (some n, rest)
  | rest => (none, rest)

def parseOffset : List Token → Option Nat × List Token
  | .key .OFFSET :: .num n :: rest => (some n, rest)
  | rest => (none, rest)

def parseTail (fuel : Nat) (count : Bool) : List Token → Option Stmt
  | .quoted table :: rest => do
    let (cond, rest) ← parseCond fuel rest
    let (orders, rest) ← parseOrderBy fuel rest
    let (limit, rest) := parseLimit rest
    let (offset, rest) := parseOffset rest
    if rest = [] then
      return ⟨count, table, cond, orders, limit, offset⟩
    else
      none
  | _ => none

def parseStmt (fuel : Nat) : List Token → Option Stmt
  | .key .SELECT :: .key .COUNT :: .sym '(' :: .sym '*' :: .sym ')' :: .key .FROM :: rest =>
    parseTail fuel true rest
  | .key .SELECT :: .sym '*' :: .key .FROM :: rest => parseTail fuel false rest
  | _ => none

def parse (t : Chars) : Option Stmt := do
  let toks ← tokens t
  parseStmt (8 * toks.length + 8) toks

example
    : parse "SELECT * FROM \"t\" WHERE (a = 1) AND (b like '%') or ('%'='%') -- %')".toList
        =
      some ⟨false, "t".toList,
        some (.or (.and (.eq (.column none ['a']) (.num 1)) (.like (.column none ['b']) ['%']))
          (.eq (.str ['%']) (.str ['%']))),
        [], none, none⟩ := by
  decide +kernel

theorem runs_append (m : Mode) (t t' : Chars)
    : runs m (t ++ t') = ((runs (runs m t).1 t').1, (runs m t).2 ++ (runs (runs m t).1 t').2) := by
  induction t generalizing m with
  | nil => rfl
  | cons c t ih =>
    simp only [cons_append, runs]
    rw [ih]
    simp only [append_assoc]

theorem runs_trans (h : runs m t = (m', toks)) (h' : runs m' t' = (m'', toks'))
    : runs m (t ++ t') = (m'', toks ++ toks') := by
  rw [runs_append, h]
  simp only [h']

theorem tokens_eq_some (h : runs .blank t = (m, toks)) (hlast : finish m = some last)
    : tokens t = some (toks ++ last) := by
  unfold tokens
  rw [h]
  simp only [hlast, Option.map_some]

def numeral (n : Nat) : Chars := if n = 0 then ['0'] else (Nat.digits 10 n).reverse.map Nat.digitChar

theorem step_digitChar (h : d < 10) (n : Nat)
    : step (.num n) (Nat.digitChar d) = (.num (10 * n + d), []) ∧ step .blank (Nat.digitChar d) = (.num d, []) := by
  have hcases : ∀ d < 10, (Nat.digitChar d).isDigit = true ∧ Nat.digitChar d ≠ '\x00' ∧
      isSpace (Nat.digitChar d) = false ∧ digit (Nat.digitChar d) = d := by
    decide
  have ⟨hdigit, hnul, hspace, hvalue⟩ := hcases d h
  constructor
  . rw [step, if_neg hnul, stepMode, if_pos hdigit, hvalue]
  . rw [step, if_neg hnul]
    show start (Nat.digitChar d) = _
    unfold start
    rw [hspace, if_neg (by simp), if_pos hdigit, hvalue]

theorem runs_digits {ds : List Nat} (h : ∀ d ∈ ds, d < 10) (n : Nat)
    : runs (.num n) (ds.map Nat.digitChar) = (.num (ds.foldl (fun n d => 10 * n + d) n), []) := by
  induction ds generalizing n with
  | nil => rfl
  | cons d ds ih =>
    simp only [map_cons, runs, (step_digitChar (h d (by simp)) n).1]
    rw [ih (fun d hd => h d (mem_cons_of_mem _ hd))]
    rfl

theorem runs_numeral (n : Nat) : runs .blank (numeral n) = (.num n, []) := by
  unfold numeral
  split
  . next h =>
    rw [h]
    rfl
  . next h =>
    have hlt : ∀ d ∈ (Nat.digits 10 n).reverse, d < 10 :=
      fun d hd => Nat.digits_lt_base (by decide) (mem_reverse.mp hd)
    have hvalue : (Nat.digits 10 n).reverse.foldl (fun n d => 10 * n + d) 0 = n := by
      rw [foldl_reverse]
      conv_rhs => rw [← Nat.ofDigits_digits 10 n, Nat.ofDigits_eq_foldr]
      apply foldr_ext
      intro d _ m
      rw [Nat.cast_id]
      omega
    cases hds : (Nat.digits 10 n).reverse with
    | nil => exact absurd (reverse_eq_nil_iff.mp hds) (Nat.digits_ne_nil_iff_ne_zero.mpr h)
    | cons d ds =>
      rw [hds] at hlt hvalue
      simp only [map_cons, runs, (step_digitChar (hlt d (by simp)) 0).2]
      rw [runs_digits (fun d hd => hlt d (mem_cons_of_mem _ hd))]
      rw [foldl_cons, Nat.mul_zero, Nat.zero_add] at hvalue
      rw [hvalue]
      rfl

def doubled : Chars → Bool
  | [] => true
  | '\'' :: '\'' :: t => doubled t
  | c :: t => c != '\'' && c != '\x00' && doubled t

def undouble : Chars → Chars
  | [] => []
  | '\'' :: '\'' :: t => '\'' :: undouble t
  | c :: t => c :: undouble t

theorem runs_doubled (h : doubled t = true) (s : Chars) : runs (.str s) t = (.str (s ++ undouble t), []) := by
  fun_induction doubled t generalizing s with
  | case1 => simp [runs, undouble]
  | case2 t ih =>
    have hquotes : runs (.str s) ['\'', '\''] = (.str (s ++ ['\'']), []) := rfl
    have hall := runs_trans hquotes (ih h (s ++ ['\'']))
    rw [undouble]
    simpa using hall
  | case3 c t hnot ih =>
    simp only [Bool.and_eq_true, bne_iff_ne] at h
    have ⟨⟨hquote, hnul⟩, ht⟩ := h
    have hchar : runs (.str s) [c] = (.str (s ++ [c]), []) := by
      simp only [runs, step, if_neg hnul, stepMode, if_neg hquote]
      rfl
    have hall := runs_trans hchar (ih ht (s ++ [c]))
    rw [undouble]
    . simpa using hall
    . intro t' hc
      exact fun _ => hquote hc

def Reads (t : Chars) (toks : List Token) : Prop := (runs .blank t).1 ≠ .lineComment ∧ tokens t = some toks

instance (t : Chars) (toks : List Token) : Decidable (Reads t toks) := inferInstanceAs (Decidable (_ ∧ _))

namespace Reads

variable {t t' : Chars} {toks toks' : List Token}

theorem of_runs (h : runs .blank t = (m, toks)) (hm : m ≠ .lineComment) (hlast : finish m = some last)
    : Reads t (toks ++ last) :=
  ⟨by rw [h]; exact hm, tokens_eq_some h hlast⟩

theorem delimiter (h : Reads t toks) (hd : d = ' ' ∨ d = ')' ∨ d = ',')
    : runs .blank (t ++ [d]) = (.blank, toks ++ (start d).2) := by
  have hstart : (start d).1 = .blank ∧ isName d = false ∧ d.isDigit = false ∧ d ≠ '\'' ∧ d ≠ '.' ∧ d ≠ '\x00' := by
    rcases hd with rfl | rfl | rfl
    . decide
    . decide
    . decide
  have ⟨hblank, hname, hdigit, hquote, hdot, hnul⟩ := hstart
  have ⟨hcomment, htoks⟩ := h
  unfold tokens at htoks
  generalize hruns : runs .blank t = r at hcomment htoks
  have hall : ∀ last, step r.1 d = (.blank, last ++ (start d).2) → finish r.1 = some last →
      runs .blank (t ++ [d]) = (.blank, toks ++ (start d).2) := by
    intro last hstep hlast
    rw [hlast, Option.map_some] at htoks
    cases htoks
    have hone : runs r.1 [d] = (.blank, last ++ (start d).2) := by
      simp only [runs, hstep, append_nil]
    rw [append_assoc]
    exact runs_trans (show runs .blank t = (r.1, r.2) from hruns) hone
  have hstep : ∀ m, step m d = stepMode m d := fun m => if_neg hnul
  cases hm : r.1 with
  | blank => exact hall [] (by rw [hm, hstep, stepMode]; exact Prod.ext hblank rfl) (by rw [hm]; rfl)
  | word s => exact hall [wordToken s] (by rw [hm, hstep]; simp [stepMode, hname, hquote, hblank]) (by rw [hm]; rfl)
  | num n => exact hall [.num n] (by rw [hm, hstep]; simp [stepMode, hdigit, hname, hdot, hblank]) (by rw [hm]; rfl)
  | strQuote s => exact hall [.str s] (by rw [hm, hstep]; simp [stepMode, hquote, hblank]) (by rw [hm]; rfl)
  | lineComment => exact absurd hm hcomment
  | str s => simp [hm, finish] at htoks
  | quoted s => simp [hm, finish] at htoks
  | less => simp [hm, finish] at htoks
  | minus => simp [hm, finish] at htoks
  | slash => simp [hm, finish] at htoks
  | blockComment depth => simp [hm, finish] at htoks
  | blockStar depth => simp [hm, finish] at htoks
  | blockSlash depth => simp [hm, finish] at htoks
  | foreign => simp [hm, finish] at htoks

theorem after (h0 : runs .blank t0 = (.blank, toks0)) (h : Reads t toks)
    : Reads (t0 ++ t) (toks0 ++ toks) := by
  have ⟨hcomment, htoks⟩ := h
  unfold tokens at htoks
  cases hlast : finish (runs .blank t).1 with
  | none => simp [hlast] at htoks
  | some last =>
    rw [hlast, Option.map_some] at htoks
    cases htoks
    have hruns := runs_trans h0 (Prod.mk.eta (p := runs .blank t)).symm
    rw [← append_assoc]
    exact of_runs hruns hcomment hlast

theorem append (h : Reads t toks) (h' : Reads t' toks') (hd : d = ' ' ∨ d = ')' ∨ d = ',')
    : Reads (t ++ d :: t') (toks ++ (start d).2 ++ toks') := by
  have hall := h'.after (h.delimiter hd)
  rwa [append_assoc] at hall

theorem space (h : Reads t toks) (h' : Reads t' toks') : Reads (t ++ ' ' :: t') (toks ++ toks') := by
  have hall := append h h' (.inl rfl)
  have hblank : (start ' ').2 = [] := rfl
  rwa [hblank, append_nil] at hall

theorem paren (h : Reads t toks) : Reads ('(' :: t ++ [')']) (.sym '(' :: toks ++ [.sym ')']) := by
  have hopen : runs .blank ['('] = (.blank, [.sym '(']) := rfl
  have hclose : runs .blank (t ++ [')']) = (.blank, toks ++ [.sym ')']) := h.delimiter (.inr (.inl rfl))
  have hall := of_runs (runs_trans hopen hclose) (by simp) rfl
  simpa using hall

theorem numeral (n : Nat) : Reads (Sql.numeral n) [.num n] := of_runs (runs_numeral n) (by simp) rfl

end Reads

def Parses (k level : Nat) (toks : List Token) (a : Expr) (rest : List Token) : Prop :=
  ∀ fuel, parseAt (fuel + k) level toks = some (a, rest)

def Stops : List Token → Prop
  | [] => True
  | .key .ORDER :: _ => True
  | .key .LIMIT :: _ => True
  | .key .OFFSET :: _ => True
  | .key .DESC :: _ => True
  | .sym ',' :: _ => True
  | .sym ')' :: _ => True
  | _ => False

theorem stops_paren (rest : List Token) : Stops (.sym ')' :: rest) := trivial

namespace Parses

variable {k j : Nat} {toks rest rest' : List Token} {a b : Expr}

theorem weaken (h : Parses k level toks a rest) (hle : k ≤ j) : Parses j level toks a rest := by
  intro fuel
  have ⟨i, hi⟩ := Nat.exists_eq_add_of_le hle
  have hfuel : fuel + j = fuel + i + k := by omega
  rw [hfuel]
  exact h (fuel + i)

theorem or_stop (h : Parses k 1 toks a rest) (hstop : Stops rest) : Parses (k + 1) 0 toks a rest := by
  intro fuel
  have hstep := h fuel
  rw [← Nat.add_assoc]
  show (parseAt (fuel + k) 1 toks).bind _ = _
  rw [hstep]
  unfold Stops at hstop
  split at hstop
  all_goals first | rfl | contradiction

theorem and_stop (h : Parses k 2 toks a rest) (hstop : Stops rest) : Parses (k + 1) 1 toks a rest := by
  intro fuel
  have hstep := h fuel
  rw [← Nat.add_assoc]
  show (parseAt (fuel + k) 2 toks).bind _ = _
  rw [hstep]
  unfold Stops at hstop
  split at hstop
  all_goals first | rfl | contradiction

theorem and (h : Parses k 2 toks a (.key .AND :: rest)) (h' : Parses k 1 rest b rest')
    : Parses (k + 1) 1 toks (.and a b) rest' := by
  intro fuel
  have hleft := h fuel
  have hright := h' fuel
  rw [← Nat.add_assoc]
  show (parseAt (fuel + k) 2 toks).bind _ = _
  rw [hleft]
  show (parseAt (fuel + k) 1 rest).bind _ = _
  rw [hright]
  rfl

theorem not_skip (h : Parses k 3 toks a rest) (hnot : toks.head? ≠ some (.key .NOT))
    : Parses (k + 1) 2 toks a rest := by
  intro fuel
  rw [← Nat.add_assoc]
  show (match toks with
    | .key .NOT :: rest => (parseAt (fuel + k) 2 rest).bind fun (a, rest) => some (Expr.not a, rest)
    | _ => parseAt (fuel + k) 3 toks) = _
  split
  . simp at hnot
  . exact h fuel

theorem alone (h : Parses k 4 toks a rest) (hstop : Stops rest ∨ ∃ rest', rest = .key .AND :: rest')
    : Parses (k + 1) 3 toks a rest := by
  intro fuel
  have hstep := h fuel
  rw [← Nat.add_assoc]
  show (parseAt (fuel + k) 4 toks).bind _ = _
  rw [hstep]
  obtain hstop | hand := hstop
  . unfold Stops at hstop
    split at hstop
    all_goals first | rfl | contradiction
  . obtain ⟨rest', rfl⟩ := hand
    rfl

theorem comparison (h : Parses k 3 toks a rest) (hnot : toks.head? ≠ some (.key .NOT)) (hstop : Stops rest)
    : Parses (k + 3) 0 toks a rest :=
  ((h.not_skip hnot).and_stop hstop).or_stop hstop

theorem eq (h : Parses k 4 toks a (.sym '=' :: rest)) (h' : Parses k 4 rest b rest')
    : Parses (k + 1) 3 toks (.eq a b) rest' := by
  intro fuel
  have hleft := h fuel
  have hright := h' fuel
  rw [← Nat.add_assoc]
  show (parseAt (fuel + k) 4 toks).bind _ = _
  rw [hleft]
  show (parseAt (fuel + k) 4 rest).bind _ = _
  rw [hright]
  rfl

theorem like (h : Parses k 4 toks a (.key .LIKE :: .str p :: rest))
    : Parses (k + 1) 3 toks (.like a p) rest := by
  intro fuel
  have hleft := h fuel
  rw [← Nat.add_assoc]
  show (parseAt (fuel + k) 4 toks).bind _ = _
  rw [hleft]
  rfl

theorem isNull (h : Parses k 4 toks a (.key .IS :: .key .NULL :: rest))
    : Parses (k + 1) 3 toks (.isNull a) rest := by
  intro fuel
  have hleft := h fuel
  rw [← Nat.add_assoc]
  show (parseAt (fuel + k) 4 toks).bind _ = _
  rw [hleft]
  rfl

theorem paren (h : Parses k 0 toks a (.sym ')' :: rest)) : Parses (k + 1) 4 (.sym '(' :: toks) a rest := by
  intro fuel
  have hstep := h fuel
  rw [← Nat.add_assoc]
  show (parseAt (fuel + k) 0 toks).bind _ = _
  rw [hstep]
  rfl

theorem column (c : Chars) : Parses 1 4 (.word c :: rest) (.column none c) rest := fun _ => rfl

theorem quotedColumn (t c : Chars)
    : Parses 1 4 (.quoted t :: .sym '.' :: .quoted c :: rest) (.column (some t) c) rest :=
  fun _ => rfl

theorem num (n : Nat) : Parses 1 4 (.num n :: rest) (.num n) rest := fun _ => rfl

end Parses

end Sql
