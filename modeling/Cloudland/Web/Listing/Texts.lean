import Cloudland.Web.Listing.Model

/-!
What the texts of the list requests are read as.
-/

namespace Web.Listing

open Sql List Option

structure Cond where
  text : Chars
  toks : List Token
  expr : Expr
  reads : Reads text toks
  parses : ∀ rest, Parses 6 0 (toks ++ .sym ')' :: rest) expr (.sym ')' :: rest)

namespace Cond

def paren (c : Cond) : Chars := '(' :: c.text ++ [')']

def parenToks (c : Cond) : List Token := .sym '(' :: c.toks ++ [.sym ')']

def owner (id : Nat) : Cond where
  text := "owner = ".toList ++ numeral id
  toks := [.word "owner".toList, .sym '=', .num id]
  expr := .eq (.column none "owner".toList) (.num id)
  reads := by
    have hname : Reads "owner =".toList [.word "owner".toList, .sym '='] := by decide
    have hall := hname.space (Reads.numeral id)
    have htext : "owner = ".toList = "owner =".toList ++ [' '] := by decide
    rw [htext, append_assoc]
    exact hall
  parses rest := by
    have heq : Parses 2 3 _ _ (.sym ')' :: rest) := (Parses.column "owner".toList).eq (Parses.num id)
    exact (heq.comparison (by simp) (stops_paren rest)).weaken (by decide)

def pattern (query : Chars) : Chars := '%' :: undouble query ++ ['%']

def like (query : Chars) (h : doubled query = true) : Cond where
  text := "name like '%".toList ++ query ++ "%'".toList
  toks := [.word "name".toList, .key .LIKE, .str (pattern query)]
  expr := .like (.column none "name".toList) (pattern query)
  reads := by
    have hopen : runs .blank "name like '%".toList = (.str ['%'], [.word "name".toList, .key .LIKE]) := by decide
    have hquery := runs_doubled h ['%']
    have hclose : runs (.str (['%'] ++ undouble query)) "%'".toList = (.strQuote (pattern query), []) := rfl
    exact Reads.of_runs (runs_trans (runs_trans hopen hquery) hclose) (by simp) rfl
  parses rest := by
    have hlike : Parses 2 3 _ (.like _ (pattern query)) (.sym ')' :: rest) := (Parses.column "name".toList).like
    exact (hlike.comparison (by simp) (stops_paren rest)).weaken (by decide)

def booting (b : Bool) : Cond where
  text := if b then "booting=true".toList else "booting=false".toList
  toks := [.word "booting".toList, .sym '=', .key (if b then .TRUE else .FALSE)]
  expr := .eq (.column none "booting".toList) (.bool b)
  reads := by
    cases b with
    | false => decide
    | true => decide
  parses rest := by
    have hbool : Parses 1 4 (.key (if b then .TRUE else .FALSE) :: .sym ')' :: rest) (.bool b) (.sym ')' :: rest) := by
      cases b with
      | false => exact fun _ => rfl
      | true => exact fun _ => rfl
    have heq := (Parses.column "booting".toList).eq hbool
    exact (heq.comparison (by simp) (stops_paren rest)).weaken (by decide)

end Cond

def joinToks : List Cond → List Token
  | [] => []
  | [c] => c.parenToks
  | c :: cs => c.parenToks ++ .key .AND :: joinToks cs

def conj : List Expr → Expr
  | [] => .bool true
  | [e] => e
  | e :: es => .and e (conj es)

theorem reads_join (hne : cs ≠ [])
    : Reads (" AND ".toList.intercalate (cs.map Cond.paren)) (joinToks cs) := by
  induction cs with
  | nil => contradiction
  | cons c cs ih =>
    cases cs with
    | nil =>
      rw [map_singleton, intercalate_singleton]
      exact c.reads.paren
    | cons c' cs =>
      have hand : Reads "AND".toList [.key .AND] := by decide
      have hall := (c.reads.paren.space hand).space (ih (by simp))
      rw [map_cons, map_cons, intercalate_cons_cons]
      rw [map_cons] at hall
      have htext : c.paren ++ " AND ".toList = '(' :: c.text ++ [')'] ++ ' ' :: "AND".toList ++ [' '] := by
        simp [Cond.paren]
      rw [htext]
      simpa [joinToks, Cond.parenToks] using hall

theorem parses_paren (c : Cond) {rest : List Token} (hrest : Stops rest ∨ ∃ rest', rest = .key .AND :: rest')
    : Parses 9 2 (c.parenToks ++ rest) c.expr rest := by
  have hparen := (c.parses rest).paren
  have halone := (hparen.alone hrest).not_skip (by simp)
  simpa [Cond.parenToks] using halone

theorem parses_join (hne : cs ≠ []) (rest : List Token)
    : Parses (cs.length + 9) 1 (joinToks cs ++ .sym ')' :: rest) (conj (cs.map Cond.expr)) (.sym ')' :: rest) := by
  induction cs with
  | nil => contradiction
  | cons c cs ih =>
    cases cs with
    | nil => exact ((parses_paren c (.inl (stops_paren rest))).and_stop (stops_paren rest)).weaken (by simp)
    | cons c' cs =>
      have hleft := (@parses_paren c (.key .AND :: (joinToks (c' :: cs) ++ .sym ')' :: rest)) (.inr ⟨_, rfl⟩)).weaken
        (show 9 ≤ (c' :: cs).length + 9 by simp)
      have hall := (hleft.and (ih (by simp))).weaken
        (show (c' :: cs).length + 9 + 1 ≤ (c :: c' :: cs).length + 9 by simp)
      simpa [joinToks, conj] using hall

def columns (table : Chars) : List Chars := ((schema.lookup table).getD []).map Prod.fst

abbrev Item := Chars × Bool

def Item.text (i : Item) : Chars := if i.2 then i.1 ++ " DESC".toList else i.1

def Item.column (i : Item) : Token :=
  if i.2 = false ∧ i.1.all Char.isAlphanum = true then .quoted i.1 else .word i.1

def Item.toks (i : Item) : List Token := if i.2 then [i.column, .key .DESC] else [i.column]

def Item.order (i : Item) : Expr × Bool := (.column none i.1, i.2)

def tables : List Chars := [routersTable, volumesTable, loadBalancersTable, organizationsTable]

theorem reads_item (htable : table ∈ tables) {i : Item} (hi : i.1 ∈ columns table)
    : Reads (quoteIfPossible i.text) i.toks ∧ i.text ≠ [] := by
  have hall : ∀ table ∈ tables, ∀ c ∈ columns table, ∀ d : Bool,
      Reads (quoteIfPossible (Item.text (c, d))) (Item.toks (c, d)) ∧ Item.text (c, d) ≠ [] := by
    decide +kernel
  exact hall table htable i.1 hi i.2

def Ends : List Token → Prop
  | [] => True
  | .key .LIMIT :: _ => True
  | .key .OFFSET :: _ => True
  | _ => False

theorem parses_item (i : Item) (hrest : Stops rest)
    : Parses 5 0 (i.column :: rest) (.column none i.1) rest := by
  unfold Item.column
  split
  . have hquoted : Parses 1 4 (.quoted i.1 :: rest) (.column none i.1) rest := by
      intro fuel
      unfold Stops at hrest
      split at hrest
      all_goals first | rfl | contradiction
    exact (hquoted.alone (.inl hrest)).comparison (by simp) hrest
  . exact ((Parses.column i.1).alone (.inl hrest)).comparison (by simp) hrest

def itemToks : List Item → List Token
  | [] => []
  | [i] => i.toks
  | i :: is => i.toks ++ .sym ',' :: itemToks is

theorem reads_items (htable : table ∈ tables) {is : List Item} (hne : is ≠ [])
    (his : ∀ i ∈ is, i.1 ∈ columns table)
    : Reads ([','].intercalate (is.map (fun i => quoteIfPossible i.text))) (itemToks is) := by
  induction is with
  | nil => contradiction
  | cons i is ih =>
    have hi := (reads_item htable (his i (by simp))).1
    cases is with
    | nil => simpa [itemToks] using hi
    | cons i' is =>
      have hrest := ih (by simp) (fun i hi => his i (mem_cons_of_mem _ hi))
      have hall := hi.append hrest (.inr (.inr rfl))
      rw [map_cons, map_cons, intercalate_cons_cons, append_assoc]
      rw [append_assoc] at hall
      exact hall

theorem parses_toks (i : Item) (fuel : Nat) {rest : List Token} (hrest : Stops rest)
    (hdesc : ∀ rest', rest ≠ .key .DESC :: rest')
    : ∃ rest', parseAt (fuel + 5) 0 (i.toks ++ rest) = some (.column none i.1, rest') ∧
        parseDir rest' = (i.2, rest) := by
  unfold Item.toks
  cases hi : i.2 with
  | true =>
    refine ⟨.key .DESC :: rest, ?_, rfl⟩
    exact parses_item i (show Stops (.key .DESC :: rest) from trivial) fuel
  | false =>
    refine ⟨rest, parses_item i hrest fuel, ?_⟩
    unfold Stops at hrest
    split at hrest
    all_goals first | rfl | contradiction | exact absurd rfl (hdesc _)

theorem parseOrders_items (hne : is ≠ []) (hrest : Ends rest) (fuel n : Nat)
    : parseOrders (fuel + 5) (n + is.length) (itemToks is ++ rest) = some (is.map Item.order, rest) := by
  induction is with
  | nil => contradiction
  | cons i is ih =>
    cases is with
    | nil =>
      have ⟨hstops, hdesc⟩ : Stops rest ∧ ∀ rest', rest ≠ .key .DESC :: rest' := by
        unfold Ends at hrest
        split at hrest
        all_goals first | exact ⟨trivial, by simp⟩ | contradiction
      have ⟨rest', hparse, hdir⟩ := parses_toks i fuel hstops hdesc
      show parseOrders (fuel + 5) (n + 1) (i.toks ++ rest) = _
      rw [parseOrders, hparse]
      simp only [bind_eq_bind, bind_some, hdir]
      unfold Ends at hrest
      split at hrest
      all_goals first | rfl | contradiction
    | cons i' is =>
      have ⟨rest', hparse, hdir⟩ := @parses_toks i fuel (.sym ',' :: (itemToks (i' :: is) ++ rest)) trivial (by simp)
      have hrest := ih (by simp)
      have htoks : itemToks (i :: i' :: is) ++ rest = i.toks ++ .sym ',' :: (itemToks (i' :: is) ++ rest) := by
        simp [itemToks]
      rw [htoks, length_cons, ← Nat.add_assoc, parseOrders, hparse]
      simp only [bind_eq_bind, bind_some, hdir, hrest]
      rfl

structure Where where
  text : Chars
  toks : List Token
  expr : Expr
  fuel : Nat
  reads : Reads text toks
  parses : ∀ rest, Stops rest → Parses fuel 0 (toks ++ rest) expr rest
  bound : fuel ≤ 8 * toks.length

theorem reads_table (h : table ∈ tables)
    : Reads (quote table) [.quoted table] ∧
      Reads (quote table ++ ".\"deleted_at\" IS NULL".toList)
        [.quoted table, .sym '.', .quoted "deleted_at".toList, .key .IS, .key .NULL] := by
  have hall : ∀ table ∈ tables, Reads (quote table) [.quoted table] ∧
      Reads (quote table ++ ".\"deleted_at\" IS NULL".toList)
        [.quoted table, .sym '.', .quoted "deleted_at".toList, .key .IS, .key .NULL] := by
    decide +kernel
  exact hall table h

theorem length_joinToks (cs : List Cond) : cs.length ≤ (joinToks cs).length := by
  induction cs with
  | nil => rfl
  | cons c cs ih =>
    cases cs with
    | nil => simp [joinToks, Cond.parenToks]
    | cons c' cs =>
      simp only [joinToks, length_append, length_cons, Cond.parenToks] at ih ⊢
      omega

theorem parses_deleted (table : Chars) (rest : List Token)
    : Parses 3 2
        (.quoted table :: .sym '.' :: .quoted "deleted_at".toList :: .key .IS :: .key .NULL :: .key .AND :: rest)
        (.isNull (.column (some table) "deleted_at".toList)) (.key .AND :: rest) :=
  ((Parses.quotedColumn table _).isNull).not_skip (by simp)

def Where.list {table : Chars} (htable : table ∈ tables) {cs : List Cond} (hne : cs ≠ []) : Where where
  text :=
    quote table ++ ".\"deleted_at\" IS NULL".toList ++
      (" AND (".toList ++ " AND ".toList.intercalate (cs.map Cond.paren) ++ [')'])
  toks :=
    [.quoted table, .sym '.', .quoted "deleted_at".toList, .key .IS, .key .NULL, .key .AND] ++
      (.sym '(' :: joinToks cs ++ [.sym ')'])
  expr := .and (.isNull (.column (some table) "deleted_at".toList)) (conj (cs.map Cond.expr))
  fuel := cs.length + 16
  reads := by
    have hand : Reads "AND".toList [.key .AND] := by decide
    have hall := ((reads_table htable).2.space hand).space (reads_join hne).paren
    have htext : " AND (".toList = ' ' :: "AND".toList ++ [' ', '('] := by decide
    rw [htext]
    simpa only [append_assoc, cons_append, nil_append] using hall
  parses rest hstop := by
    have hjoin := (parses_join hne rest).or_stop (stops_paren rest)
    have hright := ((hjoin.paren.alone (.inl hstop)).not_skip (by simp)).and_stop hstop
    have hleft := parses_deleted table (.sym '(' :: (joinToks cs ++ .sym ')' :: rest))
    have hall := ((hleft.weaken (show 3 ≤ cs.length + 9 + 1 + 1 + 1 + 1 + 1 by omega)).and hright).or_stop hstop
    have hall := hall.weaken (show cs.length + 9 + 1 + 1 + 1 + 1 + 1 + 1 + 1 ≤ cs.length + 16 by omega)
    simpa only [append_assoc, cons_append, nil_append] using hall
  bound := by
    have := length_joinToks cs
    simp
    omega

theorem Where.list_text (htable : table ∈ tables) (hne : cs ≠ [])
    : (Where.list htable hne).text
        =
      quote table ++ ".\"deleted_at\" IS NULL".toList ++
        (" AND (".toList ++ " AND ".toList.intercalate (cs.map Cond.paren) ++ [')']) :=
  rfl

def Where.owner (id : Nat) : Where where
  text :=
    quote organizationsTable ++ ".\"deleted_at\" IS NULL".toList ++ " AND ".toList ++
      (quote organizationsTable ++ ".\"id\" = ".toList ++ numeral id)
  toks :=
    [.quoted organizationsTable, .sym '.', .quoted "deleted_at".toList, .key .IS, .key .NULL, .key .AND,
      .quoted organizationsTable, .sym '.', .quoted "id".toList, .sym '=', .num id]
  expr :=
    .and (.isNull (.column (some organizationsTable) "deleted_at".toList))
      (.eq (.column (some organizationsTable) "id".toList) (.num id))
  fuel := 8
  reads := by
    have hhead : Reads (quote organizationsTable ++ ".\"deleted_at\" IS NULL AND ".toList ++
        (quote organizationsTable ++ ".\"id\" =".toList))
        [.quoted organizationsTable, .sym '.', .quoted "deleted_at".toList, .key .IS, .key .NULL, .key .AND,
          .quoted organizationsTable, .sym '.', .quoted "id".toList, .sym '='] := by
      decide +kernel
    have hall := hhead.space (Reads.numeral id)
    have htext : ".\"deleted_at\" IS NULL AND ".toList = ".\"deleted_at\" IS NULL".toList ++ " AND ".toList := by decide
    have hid : ".\"id\" = ".toList = ".\"id\" =".toList ++ [' '] := by decide
    rw [htext] at hall
    rw [hid]
    simpa only [append_assoc, cons_append, nil_append] using hall
  parses rest hstop := by
    have heq : Parses 2 3 _ _ rest := (Parses.quotedColumn organizationsTable "id".toList).eq (Parses.num id)
    have hright := (heq.not_skip (by simp)).and_stop hstop
    have hleft := (parses_deleted organizationsTable
      (.quoted organizationsTable :: .sym '.' :: .quoted "id".toList :: .sym '=' :: .num id :: rest)).weaken
      (show 3 ≤ 2 + 1 + 1 by decide)
    exact ((hleft.and hright).or_stop hstop).weaken (by decide)
  bound := by simp

theorem Where.owner_text (id : Nat)
    : (Where.owner id).text
        =
      quote organizationsTable ++ ".\"deleted_at\" IS NULL".toList ++ " AND ".toList ++
        (quote organizationsTable ++ ".\"id\" = ".toList ++ numeral id) :=
  rfl

def limitToks (q : Query) : List Token :=
  (if 0 ≤ q.limit then [.key .LIMIT, .num q.limit.toNat] else []) ++
    (if 0 ≤ q.offset then [.key .OFFSET, .num q.offset.toNat] else [])

theorem reads_clause (h : Reads t toks) (hword : Reads word [.key k]) (n : Int)
    : Reads (t ++ if 0 ≤ n then ' ' :: word ++ [' '] ++ numeral n.toNat else [])
        (toks ++ if 0 ≤ n then [.key k, .num n.toNat] else []) := by
  split
  . have hall := (h.space hword).space (Reads.numeral n.toNat)
    simpa only [append_assoc, cons_append, nil_append] using hall
  . rw [append_nil, append_nil]
    exact h

theorem reads_limit (q : Query) (h : Reads t toks)
    : Reads (t ++ q.limitAndOffsetSQL) (toks ++ limitToks q) := by
  have hlimit : Reads "LIMIT".toList [.key .LIMIT] := by decide
  have hoffset : Reads "OFFSET".toList [.key .OFFSET] := by decide
  have hlimitText : " LIMIT ".toList = ' ' :: "LIMIT".toList ++ [' '] := by decide
  have hoffsetText : " OFFSET ".toList = ' ' :: "OFFSET".toList ++ [' '] := by decide
  have hall := reads_clause (reads_clause h hlimit q.limit) hoffset q.offset
  unfold Query.limitAndOffsetSQL limitToks
  rw [hlimitText, hoffsetText, ← append_assoc, ← append_assoc]
  exact hall

def orderToks (is : List Item) : List Token := if is = [] then [] else .key .ORDER :: .key .BY :: itemToks is

theorem reads_order {q : Query} (htable : q.table ∈ tables) {is : List Item}
    (his : ∀ i ∈ is, i.1 ∈ columns q.table) (horders : q.orders = is.map Item.text) (h : Reads t toks)
    : Reads (t ++ q.orderSQL) (toks ++ orderToks is) := by
  have hfilter : q.orders.filter (· ≠ []) = is.map Item.text := by
    rw [horders, filter_eq_self]
    intro o ho
    obtain ⟨i, hi, rfl⟩ := mem_map.mp ho
    rw [decide_eq_true_eq]
    exact (reads_item htable (his i hi)).2
  unfold Query.orderSQL orderToks
  rw [hfilter]
  by_cases hnil : is = []
  . simpa [hnil] using h
  . have hkey : Reads "ORDER BY".toList [.key .ORDER, .key .BY] := by decide
    have htext : " ORDER BY ".toList = ' ' :: "ORDER BY".toList ++ [' '] := by decide
    have hall := (h.space hkey).space (reads_items htable hnil his)
    rw [if_neg (by simpa using hnil), if_neg hnil, htext, List.map_map]
    simpa only [Function.comp_def, append_assoc, cons_append, nil_append] using hall

theorem stops_orderToks (is : List Item) (q : Query) : Stops (orderToks is ++ limitToks q) := by
  unfold orderToks limitToks
  split
  . split
    . trivial
    . split
      . trivial
      . trivial
  . trivial

theorem ends_limitToks (q : Query) : Ends (limitToks q) := by
  unfold limitToks
  split
  . trivial
  . split
    . trivial
    . trivial

theorem parse_limits (q : Query)
    : parseLimit (limitToks q)
          =
        (if 0 ≤ q.limit then some q.limit.toNat else none,
          if 0 ≤ q.offset then [.key .OFFSET, .num q.offset.toNat] else []) ∧
      parseOffset (if 0 ≤ q.offset then [.key .OFFSET, .num q.offset.toNat] else [])
          =
        (if 0 ≤ q.offset then some q.offset.toNat else none, []) := by
  unfold limitToks
  by_cases hoffset : 0 ≤ q.offset
  . by_cases hlimit : 0 ≤ q.limit
    . simp only [if_pos hlimit, if_pos hoffset]
      exact ⟨rfl, rfl⟩
    . simp only [if_neg hlimit, if_pos hoffset]
      exact ⟨rfl, rfl⟩
  . by_cases hlimit : 0 ≤ q.limit
    . simp only [if_pos hlimit, if_neg hoffset]
      exact ⟨rfl, rfl⟩
    . simp only [if_neg hlimit, if_neg hoffset]
      exact ⟨rfl, rfl⟩

theorem parseOrderBy_toks {is : List Item} (q : Query) {fuel : Nat} (hfuel : is.length + 5 ≤ fuel)
    : parseOrderBy fuel (orderToks is ++ limitToks q) = some (is.map Item.order, limitToks q) := by
  have hends := ends_limitToks q
  unfold orderToks
  split
  . next hnil =>
    rw [hnil]
    unfold Ends at hends
    split at hends
    . next h => rw [h]; rfl
    . next h => rw [h]; rfl
    . next h => rw [h]; rfl
    . contradiction
  . next hne =>
    have ⟨n, hn⟩ := Nat.exists_eq_add_of_le' hfuel
    have hall := parseOrders_items hne hends (n + is.length) (n + 5)
    have hleft : fuel = n + is.length + 5 := by omega
    have hright : fuel = n + 5 + is.length := by omega
    show parseOrders fuel fuel (itemToks is ++ limitToks q) = _
    nth_rewrite 1 [hleft]
    rw [hright]
    exact hall

theorem parseTail_toks (w : Where) (table : Chars) (count : Bool) (is : List Item) (q : Query)
    (hfuel : w.fuel + is.length + 5 ≤ fuel)
    : parseTail fuel count (.quoted table :: .key .WHERE :: (w.toks ++ (orderToks is ++ limitToks q)))
        =
      some ⟨count, table, some w.expr, is.map Item.order, if 0 ≤ q.limit then some q.limit.toNat else none,
        if 0 ≤ q.offset then some q.offset.toNat else none⟩ := by
  have ⟨n, hn⟩ := Nat.exists_eq_add_of_le' (show w.fuel ≤ fuel by omega)
  have hparse := w.parses _ (stops_orderToks is q) n
  rw [← hn] at hparse
  have hcond : parseCond fuel (.key .WHERE :: (w.toks ++ (orderToks is ++ limitToks q)))
      = some (some w.expr, orderToks is ++ limitToks q) := by
    show (parseAt fuel 0 _).bind _ = _
    rw [hparse]
    rfl
  have horders := @parseOrderBy_toks is q fuel (by omega)
  have ⟨hlimit, hoffset⟩ := parse_limits q
  simp only [parseTail, hcond, horders, bind_eq_bind, bind_some, hlimit, hoffset, if_true]
  rfl

theorem parseTail_where (w : Where) (table : Chars) (count : Bool) (hfuel : w.fuel + 5 ≤ fuel)
    : parseTail fuel count (.quoted table :: .key .WHERE :: w.toks)
        =
      some ⟨count, table, some w.expr, [], none, none⟩ := by
  have htail := parseTail_toks w table count [] ⟨table, [], [], [], -1, -1⟩ hfuel
  have hnone : orderToks [] ++ limitToks ⟨table, [], [], [], -1, -1⟩ = [] := rfl
  rw [hnone, append_nil] at htail
  exact htail

theorem length_itemToks (is : List Item) : is.length ≤ (itemToks is).length := by
  induction is with
  | nil => rfl
  | cons i is ih =>
    have hi : 0 < i.toks.length := by
      unfold Item.toks
      split
      . simp
      . simp
    cases is with
    | nil => exact hi
    | cons i' is =>
      simp only [itemToks, length_append, length_cons] at ih ⊢
      omega

theorem length_orderToks (is : List Item) : is.length ≤ (orderToks is).length := by
  unfold orderToks
  split
  . next h => rw [h]; rfl
  . have := length_itemToks is
    simp only [length_cons]
    omega

section Query

variable {q : Query} (htable : q.table ∈ tables) (w : Where) (hw : q.whereSQL = " WHERE ".toList ++ w.text)

include htable w hw

theorem parse_find
    {is : List Item} (his : ∀ i ∈ is, i.1 ∈ columns q.table) (horders : q.orders = is.map Item.text)
    : parse q.findSQL
        =
      some ⟨false, q.table, some w.expr, is.map Item.order, if 0 ≤ q.limit then some q.limit.toNat else none,
        if 0 ≤ q.offset then some q.offset.toNat else none⟩ := by
  have hselect : Reads "SELECT * FROM".toList [.key .SELECT, .sym '*', .key .FROM] := by decide
  have hwhere : Reads "WHERE".toList [.key .WHERE] := by decide
  have hselectText : "SELECT * FROM ".toList = "SELECT * FROM".toList ++ [' '] := by decide
  have hwhereText : " WHERE ".toList = ' ' :: "WHERE".toList ++ [' '] := by decide
  have hhead := ((hselect.space (reads_table htable).1).space hwhere).space w.reads
  have hall := reads_limit q (reads_order htable his horders hhead)
  have htext : q.findSQL
      = "SELECT * FROM".toList ++ ' ' :: quote q.table ++ ' ' :: "WHERE".toList ++ ' ' :: w.text ++ q.orderSQL ++
        q.limitAndOffsetSQL := by
    unfold Query.findSQL
    rw [hw, hselectText, hwhereText]
    simp only [append_assoc, cons_append, nil_append]
  have htoks := hall.2
  rw [← htext] at htoks
  have hbound := w.bound
  have hlength := length_orderToks is
  rw [parse, htoks, bind_eq_bind, bind_some]
  simp only [append_assoc, cons_append, nil_append]
  apply parseTail_toks
  simp only [length_append, length_cons]
  omega

theorem parse_count : parse q.countSQL = some ⟨true, q.table, some w.expr, [], none, none⟩ := by
  have hselect : Reads "SELECT count(*) FROM".toList
      [.key .SELECT, .key .COUNT, .sym '(', .sym '*', .sym ')', .key .FROM] := by
    decide
  have hwhere : Reads "WHERE".toList [.key .WHERE] := by decide
  have hselectText : "SELECT count(*) FROM ".toList = "SELECT count(*) FROM".toList ++ [' '] := by decide
  have hwhereText : " WHERE ".toList = ' ' :: "WHERE".toList ++ [' '] := by decide
  have hall := ((hselect.space (reads_table htable).1).space hwhere).space w.reads
  have htext : q.countSQL
      = "SELECT count(*) FROM".toList ++ ' ' :: quote q.table ++ ' ' :: "WHERE".toList ++ ' ' :: w.text := by
    unfold Query.countSQL
    rw [hw, hselectText, hwhereText]
    simp only [append_assoc, cons_append, nil_append]
  have htoks := hall.2
  rw [← htext] at htoks
  have hbound := w.bound
  rw [parse, htoks, bind_eq_bind, bind_some]
  simp only [cons_append, nil_append]
  apply parseTail_where
  simp only [length_cons]
  omega

end Query

end Web.Listing
