import Mathlib.Data.List.Sort
import Cloudland.Lib.Sql.Syntax

/-!
What the queries answer, and the servers that answer them so.
-/

namespace Sql

open List

inductive Ty where
  | bool | int | text | time
  deriving DecidableEq

inductive Value where
  | null
  | bool (b : Bool)
  | int (n : Int)
  | text (s : Chars)
  | time (n : Nat)
  deriving DecidableEq

abbrev Row := List (Chars × Value)

def Row.get (row : Row) (column : Chars) : Value := (row.lookup column).getD .null

abbrev Schema := List (Chars × List (Chars × Ty))

abbrev Db := Chars → List Row

def wellFormed : Chars → Bool
  | [] => true
  | ['\\'] => false
  | '\\' :: _ :: p => wellFormed p
  | _ :: p => wellFormed p

def likes : Chars → Chars → Bool
  | [], s => s.isEmpty
  | '\\' :: c :: p, s =>
    match s with
    | d :: s => c == d && likes p s
    | [] => false
  | '%' :: p, s => s.tails.any (likes p)
  | '_' :: p, s =>
    match s with
    | _ :: s => likes p s
    | [] => false
  | c :: p, s =>
    match s with
    | d :: s => c == d && likes p s
    | [] => false

namespace Expr

def type (schema : Schema) (table : Chars) : Expr → Option Ty
  | .column t c => do
    if t = none ∨ t = some table then
      (← schema.lookup table).lookup c
    else
      none
  | .str _ => some .text
  | .num _ => some .int
  | .bool _ => some .bool
  | .eq a b => if (a.type schema table).isSome ∧ a.type schema table = b.type schema table then some .bool else none
  | .ne a b => if (a.type schema table).isSome ∧ a.type schema table = b.type schema table then some .bool else none
  | .like a p => if a.type schema table = some .text ∧ wellFormed p = true then some .bool else none
  | .isNull a => if (a.type schema table).isSome then some .bool else none
  | .not a => if a.type schema table = some .bool then some .bool else none
  | .and a b => if a.type schema table = some .bool ∧ b.type schema table = some .bool then some .bool else none
  | .or a b => if a.type schema table = some .bool ∧ b.type schema table = some .bool then some .bool else none
  | .exists t a => if a.type schema t = some .bool then some .bool else none

def constant : Expr → Bool
  | .str _ => true
  | .num _ => true
  | .bool _ => true
  | _ => false

end Expr

namespace Value

def eq : Value → Value → Value
  | .null, _ => .null
  | _, .null => .null
  | a, b => .bool (decide (a = b))

def not : Value → Value
  | .bool b => .bool !b
  | _ => .null

def and : Value → Value → Value
  | .bool false, _ => .bool false
  | _, .bool false => .bool false
  | .bool true, .bool true => .bool true
  | _, _ => .null

def or (a b : Value) : Value := (a.not.and b.not).not

def like (p : Chars) : Value → Value
  | .text s => .bool (likes p s)
  | _ => .null

def compare (collate : Chars → Chars → Ordering) : Value → Value → Ordering
  | .null, .null => .eq
  | .null, _ => .gt
  | _, .null => .lt
  | .bool a, .bool b => Ord.compare a.toNat b.toNat
  | .int a, .int b => Ord.compare a b
  | .text a, .text b => collate a b
  | .time a, .time b => Ord.compare a b
  | _, _ => .eq

theorem and_eq_true {a : Value} : a.and b = .bool true ↔ a = .bool true ∧ b = .bool true := by
  unfold Value.and
  split
  . simp
  . simp
  . simp
  . next hnot =>
    constructor
    . intro h
      contradiction
    . intro ⟨ha, hb⟩
      exact absurd hb (hnot ha)

theorem eq_int {a : Value} : a.eq (.int n) = .bool true ↔ a = .int n := by
  cases a with
  | null => simp [Value.eq]
  | bool b => simp [Value.eq]
  | int m => simp [Value.eq]
  | text s => simp [Value.eq]
  | time t => simp [Value.eq]

end Value

namespace Expr

def eval (db : Db) (row : Row) : Expr → Value
  | .column _ c => row.get c
  | .str s => .text s
  | .num n => .int n
  | .bool b => .bool b
  | .eq a b => (a.eval db row).eq (b.eval db row)
  | .ne a b => ((a.eval db row).eq (b.eval db row)).not
  | .like a p => (a.eval db row).like p
  | .isNull a => .bool (a.eval db row = .null)
  | .not a => (a.eval db row).not
  | .and a b => (a.eval db row).and (b.eval db row)
  | .or a b => (a.eval db row).or (b.eval db row)
  | .exists t a => .bool ((db t).any (fun row => a.eval db row = .bool true))

def isLocal : Expr → Bool
  | .column .. => true
  | .str _ => true
  | .num _ => true
  | .bool _ => true
  | .eq a b => a.isLocal && b.isLocal
  | .ne a b => a.isLocal && b.isLocal
  | .like a _ => a.isLocal
  | .isNull a => a.isLocal
  | .not a => a.isLocal
  | .and a b => a.isLocal && b.isLocal
  | .or a b => a.isLocal && b.isLocal
  | .exists .. => false

theorem eval_of_local {e : Expr} (h : e.isLocal = true) (db db' : Db) (row : Row)
    : e.eval db row = e.eval db' row := by
  induction e with
  | column t c => rfl
  | str s => rfl
  | num n => rfl
  | bool b => rfl
  | eq a b iha ihb =>
    have ⟨ha, hb⟩ := Bool.and_eq_true_iff.mp h
    simp only [eval, iha ha, ihb hb]
  | ne a b iha ihb =>
    have ⟨ha, hb⟩ := Bool.and_eq_true_iff.mp h
    simp only [eval, iha ha, ihb hb]
  | like a p iha => simp only [eval, iha h]
  | isNull a iha => simp only [eval, iha h]
  | not a iha => simp only [eval, iha h]
  | and a b iha ihb =>
    have ⟨ha, hb⟩ := Bool.and_eq_true_iff.mp h
    simp only [eval, iha ha, ihb hb]
  | or a b iha ihb =>
    have ⟨ha, hb⟩ := Bool.and_eq_true_iff.mp h
    simp only [eval, iha ha, ihb hb]
  | «exists» t a => contradiction

end Expr

inductive Result where
  | count (n : Nat)
  | rows (rows : List Row)
  deriving DecidableEq

namespace Stmt

def check (schema : Schema) (s : Stmt) : Bool :=
  (schema.lookup s.table).isSome &&
  s.cond.all (fun e => e.type schema s.table = some .bool) &&
  s.orders.all (fun o => (o.1.type schema s.table).isSome && !o.1.constant) &&
  (!s.count || s.orders.isEmpty && s.limit.isNone && s.offset.isNone)

def ofText (schema : Schema) (t : Chars) : Option Stmt := (parse t).filter (Stmt.check schema)

def selects (s : Stmt) (db : Db) (row : Row) : Bool := s.cond.all (fun e => e.eval db row = .bool true)

def compareRows (collate : Chars → Chars → Ordering) (db : Db) (orders : List (Expr × Bool)) (r r' : Row)
    : Ordering :=
  match orders with
  | [] => .eq
  | (e, desc) :: orders =>
    let o := (e.eval db r).compare collate (e.eval db r')
    (if desc then o.swap else o).then (compareRows collate db orders r r')

def eval (collate : Chars → Chars → Ordering) (s : Stmt) (db : Db) : Result :=
  let rows := (db s.table).filter (s.selects db)
  if s.count then
    .count rows.length
  else
    let rows := rows.insertionSort (fun r r' => compareRows collate db s.orders r r' ≠ .gt)
    let rows := rows.drop (s.offset.getD 0)
    .rows (match s.limit with
      | some n => rows.take n
      | none => rows)

theorem mem_of_eval {s : Stmt} (h : s.eval collate db = .rows rows) (hrow : row ∈ rows)
    : row ∈ db s.table ∧ s.selects db row = true := by
  unfold eval at h
  split at h
  . contradiction
  . have hrows := Result.rows.inj h
    rw [← hrows] at hrow
    have hsorted : row ∈ ((db s.table).filter (s.selects db)).insertionSort
        (fun r r' => compareRows collate db s.orders r r' ≠ .gt) := by
      split at hrow
      . exact mem_of_mem_drop (mem_of_mem_take hrow)
      . exact mem_of_mem_drop hrow
    exact mem_filter.mp ((perm_insertionSort _ _).mem_iff.mp hsorted)

theorem compareRows_of_local {orders : List (Expr × Bool)} (h : ∀ o ∈ orders, o.1.isLocal = true)
    (collate : Chars → Chars → Ordering) (db db' : Db) (r r' : Row)
    : compareRows collate db orders r r' = compareRows collate db' orders r r' := by
  induction orders with
  | nil => rfl
  | cons o orders ih =>
    have ho := h o (by simp)
    simp only [compareRows, Expr.eval_of_local ho db db', ih (fun o ho => h o (mem_cons_of_mem _ ho))]

theorem eval_congr {s : Stmt} {db db' : Db} (own : Row → Bool) (hcond : ∀ e ∈ s.cond, e.isLocal = true)
    (horders : ∀ o ∈ s.orders, o.1.isLocal = true) (hown : ∀ row, s.selects db row = true → own row = true)
    (hagree : (db s.table).filter own = (db' s.table).filter own) (collate : Chars → Chars → Ordering)
    : s.eval collate db = s.eval collate db' := by
  have hselects : s.selects db' = s.selects db := by
    funext row
    unfold selects
    cases hs : s.cond with
    | none => rfl
    | some e =>
      rw [Option.all_some, Option.all_some, Expr.eval_of_local (hcond e (by rw [hs]; rfl)) db' db]
  have hfilter : ∀ rows : List Row, rows.filter (s.selects db) = (rows.filter own).filter (s.selects db) := by
    intro rows
    rw [filter_filter]
    apply filter_congr
    intro row _
    cases hrow : s.selects db row with
    | false => rfl
    | true => simp [hown row hrow]
  have hrows : (db' s.table).filter (s.selects db) = (db s.table).filter (s.selects db) := by
    rw [hfilter, hfilter (db s.table), hagree]
  have hcompare : compareRows collate db' s.orders = compareRows collate db s.orders := by
    funext r r'
    exact compareRows_of_local horders collate db' db r r'
  unfold eval
  rw [hselects, hrows, hcompare]

end Stmt

structure Server (schema : Schema) where
  collate : Chars → Chars → Ordering
  run : Db → Chars → Except Chars Result
  conforms : ∀ db t s, Stmt.ofText schema t = some s → run db t = .ok (s.eval collate db)

def strict (schema : Schema) (collate : Chars → Chars → Ordering) : Server schema where
  collate
  run db t :=
    match Stmt.ofText schema t with
    | some s => .ok (s.eval collate db)
    | none => .error "syntax error".toList
  conforms db t s h := by rw [h]

end Sql
