import Cloudland.Web.Listing.Texts

/-!
Which rows the answer to a list request depends on.
-/

namespace Web.Listing

open Sql GoString List Option

def own (org : Nat) (table : Chars) (row : Row) : Bool :=
  row.get (if table = organizationsTable then "id".toList else "owner".toList) = .int org

def Agree (org : Nat) (db db' : Db) : Prop :=
  ∀ table, (db table).filter (own org table) = (db' table).filter (own org table)

def Names (table order : Chars) : Prop :=
  ∀ item ∈ order.splitOn ',', trimSpace item = [] ∨
    ∃ c ∈ columns table, trimSpace item = c ∨ trimSpace item = '+' :: c ∨ trimSpace item = '-' :: c

instance (table order : Chars) : Decidable (Names table order) :=
  inferInstanceAs (Decidable (∀ item ∈ order.splitOn ',', _))

theorem orderOf_column (htable : table ∈ tables) (hc : c ∈ columns table) : orderOf c = c := by
  have hall : ∀ table ∈ tables, ∀ c ∈ columns table, orderOf c = c := by decide +kernel
  exact hall table htable c hc

theorem exists_items {P : α → Prop} {l : List β} (h : ∀ b ∈ l, ∃ a, P a ∧ b = f a)
    : ∃ as : List α, (∀ a ∈ as, P a) ∧ l = as.map f := by
  induction l with
  | nil => exact ⟨[], by simp, rfl⟩
  | cons b l ih =>
    have ⟨a, ha, hb⟩ := h b (by simp)
    have ⟨as, has, hl⟩ := ih (fun b hb => h b (mem_cons_of_mem _ hb))
    refine ⟨a :: as, ?_, by rw [hb, hl]; rfl⟩
    intro a' ha'
    obtain h | h := mem_cons.mp ha'
    . exact h ▸ ha
    . exact has a' h

theorem newOrders_of_names {table order : Chars} (htable : table ∈ tables) (h : Names table order)
    : ∃ is : List Item, (∀ i ∈ is, i.1 ∈ columns table) ∧ newOrders order = is.map Item.text := by
  apply exists_items
  intro o ho
  unfold newOrders at ho
  split at ho
  . contradiction
  . simp only [List.mem_map, List.mem_filter, decide_eq_true_eq] at ho
    have ⟨item, ⟨⟨raw, hraw, htrim⟩, hne⟩, ho⟩ := ho
    obtain hnil | ⟨c, hc, hcases⟩ := h raw hraw
    . exact absurd (htrim.symm.trans hnil) hne
    . rw [htrim] at hcases
      rcases hcases with hplain | hplus | hminus
      . exact ⟨(c, false), hc, by rw [← ho, hplain, orderOf_column htable hc]; rfl⟩
      . exact ⟨(c, false), hc, by rw [← ho, hplus]; rfl⟩
      . exact ⟨(c, true), hc, by rw [← ho, hminus]; rfl⟩

section Conditions

variable {table : Chars} {db : Db} {row : Row}

structure Fits (table : Chars) (e : Expr) : Prop where
  type : e.type schema table = some .bool
  isLocal : e.isLocal = true

theorem Fits.conj {es : List Expr} (hne : es ≠ []) (h : ∀ e ∈ es, Fits table e) : Fits table (conj es) := by
  induction es with
  | nil => contradiction
  | cons e es ih =>
    have he := h e (by simp)
    cases es with
    | nil => exact he
    | cons e' es =>
      have hrest := ih (by simp) (fun e he => h e (mem_cons_of_mem _ he))
      constructor
      . show (if _ then some Ty.bool else none) = _
        rw [if_pos ⟨he.type, hrest.type⟩]
      . show (e.isLocal && (Listing.conj (e' :: es)).isLocal) = true
        rw [he.isLocal, hrest.isLocal]
        rfl

theorem eval_conj_head (h : (conj (e :: es)).eval db row = .bool true)
    : e.eval db row = .bool true := by
  cases es with
  | nil => exact h
  | cons e' es => exact (Value.and_eq_true.mp h).1

theorem wellFormed_append (p : Chars) : wellFormed (p ++ ['%']) = true := by
  fun_induction wellFormed p with
  | case1 => rfl
  | case2 => rfl
  | case3 c p ih => exact ih
  | case4 c p hsingle hescape ih =>
    rw [cons_append, wellFormed]
    . exact ih
    . intro hc hp
      simp at hp
    . intro d p' hc hp
      cases p with
      | nil => exact hsingle hc rfl
      | cons d' p => exact hescape d' p hc rfl

def listed : List Chars := [routersTable, volumesTable, loadBalancersTable]

theorem mem_tables (h : table ∈ listed) : table ∈ tables := by
  have hall : ∀ table ∈ listed, table ∈ tables := by decide
  exact hall table h

theorem fits_owner (h : table ∈ listed) (id : Nat) : Fits table (Cond.owner id).expr := by
  have hall : ∀ table ∈ listed, Expr.type schema table (.column none "owner".toList) = some .int := by decide
  refine ⟨?_, rfl⟩
  show (if _ then some Ty.bool else none) = _
  rw [if_pos ⟨by rw [hall table h]; rfl, by rw [hall table h]; rfl⟩]

theorem fits_like (h : table ∈ listed) (hquery : doubled query = true)
    : Fits table (Cond.like query hquery).expr := by
  have hall : ∀ table ∈ listed, Expr.type schema table (.column none "name".toList) = some .text := by decide
  refine ⟨?_, rfl⟩
  show (if _ then some Ty.bool else none) = _
  rw [if_pos ⟨hall table h, wellFormed_append ('%' :: undouble query)⟩]

theorem fits_booting (b : Bool) : Fits volumesTable (Cond.booting b).expr := by
  cases b with
  | false => exact ⟨by decide, rfl⟩
  | true => exact ⟨by decide, rfl⟩

theorem fits_deleted (h : table ∈ tables) : Fits table (.isNull (.column (some table) "deleted_at".toList)) := by
  have hall : ∀ table ∈ tables,
      Expr.type schema table (.isNull (.column (some table) "deleted_at".toList)) = some .bool := by
    decide
  exact ⟨hall table h, rfl⟩

theorem Fits.and (ha : Fits table a) (hb : Fits table b) : Fits table (.and a b) :=
  @Fits.conj table [a, b] (by simp) (by simp [ha, hb])

end Conditions

section Statements

variable {srv : Server schema} {db db' : Db} {q : Query} {is : List Item} {w : Where} {org : Nat}

structure Asks (q : Query) (w : Where) (is : List Item) (org : Nat) : Prop where
  table : q.table ∈ tables
  text : q.whereSQL = " WHERE ".toList ++ w.text
  fits : Fits q.table w.expr
  own : ∀ db row, w.expr.eval db row = .bool true → own org q.table row = true
  items : ∀ i ∈ is, i.1 ∈ columns q.table
  orders : q.orders = is.map Item.text

theorem lookup_of_mem (h : table ∈ tables) : (schema.lookup table).isSome = true := by
  have hall : ∀ table ∈ tables, (schema.lookup table).isSome = true := by decide
  exact hall table h

theorem type_column (htable : table ∈ tables) (hc : c ∈ columns table)
    : (Expr.type schema table (.column none c)).isSome = true := by
  have hall : ∀ table ∈ tables, ∀ c ∈ columns table, (Expr.type schema table (.column none c)).isSome = true := by
    decide +kernel
  exact hall table htable c hc

namespace Asks

def findStmt (q : Query) (w : Where) (is : List Item) : Stmt :=
  ⟨false, q.table, some w.expr, is.map Item.order, if 0 ≤ q.limit then some q.limit.toNat else none,
    if 0 ≤ q.offset then some q.offset.toNat else none⟩

def countStmt (q : Query) (w : Where) : Stmt := ⟨true, q.table, some w.expr, [], none, none⟩

section Asks

variable (h : Asks q w is org)

include h

theorem ofText_find : Stmt.ofText schema q.findSQL = some (findStmt q w is) := by
  rw [Stmt.ofText, parse_find h.table w h.text h.items h.orders, filter_some, if_pos]
  . rfl
  . have horders : (is.map Item.order).all (fun o => (o.1.type schema q.table).isSome && !o.1.constant) = true := by
      rw [List.all_map, List.all_eq_true]
      intro i hi
      rw [Function.comp_apply, Bool.and_eq_true]
      exact ⟨type_column h.table (h.items i hi), rfl⟩
    simp only [Stmt.check, lookup_of_mem h.table, horders, all_some, h.fits.type]
    rfl

theorem ofText_count : Stmt.ofText schema q.countSQL = some (countStmt q w) := by
  rw [Stmt.ofText, parse_count h.table w h.text, filter_some, if_pos]
  . rfl
  . simp only [Stmt.check, lookup_of_mem h.table, all_some, h.fits.type]
    rfl

theorem selects_own {s : Stmt} (hs : s.cond = some w.expr) (hrow : s.selects db row = true)
    : Listing.own org q.table row = true := by
  rw [Stmt.selects, hs, all_some, decide_eq_true_eq] at hrow
  exact h.own db row hrow

theorem count_congr (hagree : Agree org db db') : count srv db q = count srv db' q := by
  have heval : (countStmt q w).eval srv.collate db = (countStmt q w).eval srv.collate db' := by
    apply Stmt.eval_congr (Listing.own org q.table)
    . intro e he
      cases he
      exact h.fits.isLocal
    . intro o ho
      contradiction
    . exact fun row => h.selects_own rfl
    . exact hagree q.table
  unfold count
  rw [srv.conforms db _ _ h.ofText_count, srv.conforms db' _ _ h.ofText_count, heval]

theorem find_congr (hagree : Agree org db db') : find srv db q = find srv db' q := by
  have heval : (findStmt q w is).eval srv.collate db = (findStmt q w is).eval srv.collate db' := by
    apply Stmt.eval_congr (Listing.own org q.table)
    . intro e he
      cases he
      exact h.fits.isLocal
    . intro o ho
      obtain ⟨i, _, rfl⟩ := mem_map.mp ho
      rfl
    . exact fun row => h.selects_own rfl
    . exact hagree q.table
  unfold find
  rw [srv.conforms db _ _ h.ofText_find, srv.conforms db' _ _ h.ofText_find, heval]

theorem find_own (hfind : find srv db q = some rows)
    : ∀ row ∈ rows, Listing.own org q.table row = true := by
  unfold find at hfind
  rw [srv.conforms db _ _ h.ofText_find] at hfind
  have heq : (findStmt q w is).eval srv.collate db = .rows rows := by
    split at hfind
    . next h =>
      cases hfind
      exact Except.ok.inj h
    . contradiction
  intro row hrow
  have hsel : (findStmt q w is).selects db row = true := by
    have hmem := Stmt.mem_of_eval heq hrow
    exact hmem.2
  exact h.selects_own rfl hsel

end Asks

end Asks

theorem asks_list (htable : q.table ∈ listed) (hprimary : q.primary = []) {cs : List Cond}
    (hwheres : q.wheres.filter (· ≠ []) = (Cond.owner org :: cs).map Cond.text)
    (hfits : ∀ c ∈ cs, Fits q.table c.expr) (hitems : ∀ i ∈ is, i.1 ∈ columns q.table)
    (horders : q.orders = is.map Item.text)
    : Asks q (Where.list (mem_tables htable) (cons_ne_nil (Cond.owner org) cs)) is org where
  table := mem_tables htable
  text := by
    have hconditions : q.conditions = (Cond.owner org :: cs).map Cond.paren := by
      rw [Query.conditions, hwheres, List.map_map]
      rfl
    have hne : q.conditions ≠ [] := by
      rw [hconditions]
      exact cons_ne_nil _ _
    rw [Where.list_text]
    unfold Query.whereSQL
    rw [if_neg hne, hprimary, hconditions, intercalate_singleton, append_assoc]
  fits := by
    refine (fits_deleted (mem_tables htable)).and (Fits.conj (by simp) ?_)
    intro e he
    obtain ⟨c, hc, rfl⟩ := mem_map.mp he
    obtain h | h := mem_cons.mp hc
    . exact h ▸ fits_owner htable org
    . exact hfits c h
  own db row hrow := by
    have howner := Value.eq_int.mp (eval_conj_head (Value.and_eq_true.mp hrow).2)
    have hne : q.table ≠ organizationsTable := by
      have hall : ∀ table ∈ listed, table ≠ organizationsTable := by decide
      exact hall q.table htable
    rw [own, if_neg hne, decide_eq_true_eq]
    exact howner
  items := hitems
  orders := horders

theorem asks_owner (hitems : ∀ i ∈ is, i.1 ∈ columns organizationsTable)
    (horders : orders = is.map Item.text) (hne : org ≠ 0)
    : Asks (ownerQuery orders org) (Where.owner org) is org where
  table := show organizationsTable ∈ tables by decide
  text := by
    have hprimary : (ownerQuery orders org).primary =
        [quote organizationsTable ++ ".\"id\" = ".toList ++ numeral org] :=
      if_neg hne
    have hconditions : (ownerQuery orders org).conditions = [] := rfl
    have htable : (ownerQuery orders org).table = organizationsTable := rfl
    rw [Where.owner_text]
    unfold Query.whereSQL
    rw [if_pos hconditions, hprimary, htable, intercalate_cons_cons, intercalate_singleton, append_nil]
  fits := by
    have htype : Expr.type schema organizationsTable (.column (some organizationsTable) "id".toList) = some .int := by
      decide
    have hid : Fits organizationsTable (.eq (.column (some organizationsTable) "id".toList) (.num org)) := by
      refine ⟨?_, rfl⟩
      show (if _ then some Ty.bool else none) = _
      rw [if_pos ⟨by rw [htype]; rfl, htype⟩]
    have hdeleted := @fits_deleted organizationsTable (by decide)
    exact hdeleted.and hid
  own db row hrow := by
    have hid := Value.eq_int.mp (Value.and_eq_true.mp hrow).2
    rw [own, decide_eq_true_eq]
    exact hid
  items := hitems
  orders := horders

end Statements

section Lists

variable {srv : Server schema} {db db' : Db} {m : MemberShip} {table : Chars} {order query : Chars}

theorem takeOwners_congr {is : List Item}
    (hitems : ∀ i ∈ is, i.1 ∈ columns organizationsTable) (horders : orders = is.map Item.text) (hne : org ≠ 0)
    (hagree : Agree org db db') (message : String) (hrows : ∀ row ∈ rows, ownerID row = org)
    : takeOwners srv db orders message rows = takeOwners srv db' orders message rows := by
  induction rows with
  | nil => rfl
  | cons row rows ih =>
    have hrest := ih (fun row hrow => hrows row (mem_cons_of_mem _ hrow))
    have hfind : find srv db (ownerQuery orders org) = find srv db' (ownerQuery orders org) :=
      (asks_owner hitems horders hne).find_congr hagree
    simp only [takeOwners, hrows row (by simp), hfind, hrest]

def Sortable (m : MemberShip) (table order : Chars) : Prop :=
  Names table order ∧ (m.checkPermission .admin = true → Names organizationsTable order)

theorem ownerID_of_own (htable : table ∈ listed) (h : own org table row = true) : ownerID row = org := by
  have hne : table ≠ organizationsTable := by
    have hall : ∀ table ∈ listed, table ≠ organizationsTable := by decide
    exact hall table htable
  rw [own, if_neg hne, decide_eq_true_eq] at h
  rw [ownerID, h]
  exact Int.toNat_natCast org

theorem filter_getWhere (hm : ¬(m.orgName = "admin" ∧ m.role = .admin))
    : [getWhere m].filter (· ≠ []) = [Cond.owner m.orgID].map Cond.text := by
  have htext : getWhere m = (Cond.owner m.orgID).text := if_neg hm
  have hne : (Cond.owner m.orgID).text ≠ [] := append_ne_nil_of_left_ne_nil (by decide) _
  rw [htext, filter_singleton, decide_eq_true hne]
  rfl

def nameConds (query : Chars) (h : doubled query = true) : List Cond := if query ≠ [] then [Cond.like query h] else []

theorem filter_query (hquery : doubled query = true)
    : [if query ≠ [] then "name like '%".toList ++ query ++ "%'".toList else []].filter (· ≠ [])
        =
      (nameConds query hquery).map Cond.text := by
  unfold nameConds
  by_cases hnil : query = []
  . simp [hnil]
  . have hne : "name like '%".toList ++ query ++ "%'".toList ≠ [] := append_ne_nil_of_right_ne_nil _ (by decide)
    rw [if_pos hnil, if_pos hnil, filter_singleton, decide_eq_true hne]
    rfl

theorem fits_name (htable : table ∈ listed) (hquery : doubled query = true)
    : ∀ c ∈ nameConds query hquery, Fits table c.expr := by
  intro c hc
  unfold nameConds at hc
  split at hc
  . rw [mem_singleton.mp hc]
    exact fits_like htable hquery
  . contradiction

section Requests

variable (htable : table ∈ listed) (hm : ¬(m.orgName = "admin" ∧ m.role = .admin)) (hquery : doubled query = true)

include htable hm hquery

theorem count_list (hagree : Agree m.orgID db db') {extra : List Cond} (hextra : ∀ c ∈ extra, Fits table c.expr)
    {countWhere : Chars} (hcount : [countWhere].filter (· ≠ []) = extra.map Cond.text)
    : count srv db ⟨table, [], [getWhere m,
          if query ≠ [] then "name like '%".toList ++ query ++ "%'".toList else [], countWhere], [], -1, -1⟩
        =
      count srv db' ⟨table, [], [getWhere m,
          if query ≠ [] then "name like '%".toList ++ query ++ "%'".toList else [], countWhere], [], -1, -1⟩ := by
  have hwheres : ∀ a b : Chars, [a, b, countWhere] = [a] ++ [b] ++ [countWhere] := fun _ _ => rfl
  refine (@asks_list _ [] _ htable rfl (nameConds query hquery ++ extra) ?_ ?_ (by simp) rfl).count_congr hagree
  . rw [hwheres, filter_append, filter_append, filter_getWhere hm, filter_query hquery, hcount]
    simp
  . intro c hc
    obtain h | h := mem_append.mp hc
    . exact fits_name htable hquery c h
    . exact hextra c h

theorem asks_find (hitems : ∀ i ∈ is, i.1 ∈ columns table)
    (horders : orders = is.map Item.text) (limit offset : Int)
    : ∃ w, Asks ⟨table, [], [getWhere m,
        if query ≠ [] then "name like '%".toList ++ query ++ "%'".toList else []],
      orders, limit, offset⟩ w is m.orgID := by
  have hwheres : ∀ a b : Chars, [a, b] = [a] ++ [b] := fun _ _ => rfl
  refine ⟨_, @asks_list _ is _ htable rfl (nameConds query hquery) ?_ (fits_name htable hquery) hitems horders⟩
  rw [hwheres, filter_append, filter_getWhere hm, filter_query hquery]
  simp

theorem list_congr (hid : m.checkPermission .admin = true → m.orgID ≠ 0) (horder : Sortable m table order)
    (hagree : Agree m.orgID db db') {extra : List Cond} (hextra : ∀ c ∈ extra, Fits table c.expr) {countWhere : Chars}
    (hcount : [countWhere].filter (· ≠ []) = extra.map Cond.text) (messages : Messages) (offset limit : Int)
    : list srv db m table messages countWhere offset limit order query
        =
      list srv db' m table messages countWhere offset limit order query := by
  have hsort : Sortable m table (if order = [] then "created_at".toList else order) := by
    split
    . have hall : ∀ table ∈ tables, Names table "created_at".toList := by decide +kernel
      exact ⟨hall table (mem_tables htable), fun _ => hall organizationsTable (by decide)⟩
    . exact horder
  have ⟨is, hitems, horders⟩ := newOrders_of_names (mem_tables htable) hsort.1
  have ⟨w, hasks⟩ := asks_find htable hm hquery hitems horders (if limit = 0 then 16 else limit) offset
  unfold list
  dsimp only
  rw [count_list htable hm hquery hagree hextra hcount, hasks.find_congr hagree]
  generalize count srv db' _ = total
  generalize hfind : find srv db' _ = found
  cases total with
  | none => rfl
  | some total =>
    cases found with
    | none => rfl
    | some rows =>
      by_cases hpermit : m.checkPermission .admin = true
      . have ⟨is', hitems', horders'⟩ := newOrders_of_names (by decide) (hsort.2 hpermit)
        have hrows : ∀ row ∈ rows, ownerID row = m.orgID :=
          fun row hrow => ownerID_of_own htable (hasks.find_own hfind row hrow)
        simp only [takeOwners_congr hitems' horders' (hid hpermit) hagree messages.owner hrows]
      . simp only [if_neg hpermit]

end Requests

theorem lists_isolated (srv : Server schema) (hm : ¬(m.orgName = "admin" ∧ m.role = .admin))
    (hid : m.checkPermission .admin = true → m.orgID ≠ 0) (hquery : doubled query = true)
    (hagree : Agree m.orgID db db') (offset limit : Int)
    : (Sortable m routersTable order →
        listRouters srv db m offset limit order query = listRouters srv db' m offset limit order query) ∧
      (Sortable m volumesTable order → ∀ volumeType,
        listVolume srv db m offset limit order query volumeType
          =
        listVolume srv db' m offset limit order query volumeType) ∧
      (Sortable m loadBalancersTable order →
        listLoadBalancers srv db m offset limit order query
          =
        listLoadBalancers srv db' m offset limit order query) := by
  have hplain : ([([] : Chars)]).filter (· ≠ []) = [].map Cond.text := rfl
  refine ⟨?_, ?_, ?_⟩
  . intro horder
    exact list_congr (by decide) hm hquery hid horder hagree (by simp) hplain _ offset limit
  . intro horder volumeType
    have hbooting : ∀ b, ∀ c ∈ [Cond.booting b], Fits volumesTable c.expr := by
      intro b c hc
      rw [mem_singleton.mp hc]
      exact fits_booting b
    unfold listVolume
    split
    . exact list_congr (by decide) hm hquery hid horder hagree (hbooting false) (by decide) _ offset limit
    . split
      . exact list_congr (by decide) hm hquery hid horder hagree (hbooting true) (by decide) _ offset limit
      . split
        . exact list_congr (by decide) hm hquery hid horder hagree (by simp) hplain _ offset limit
        . rfl
  . intro horder
    exact list_congr (by decide) hm hquery hid horder hagree (by simp) hplain _ offset limit

end Lists

section Example

def router (id owner : Nat) (name : String) : Row :=
  [("id".toList, .int id), ("owner".toList, .int owner), ("name".toList, .text name.toList)]

def database (routers : List Row) (table : Chars) : List Row := if table = routersTable then routers else []

def alone : List Row := [router 1 2 "lab", router 2 2 "web"]

def shared : List Row := [router 1 2 "lab", router 3 3 "secret", router 2 2 "web"]

theorem alone_agrees : Agree 2 (database alone) (database shared) := by
  intro table
  unfold database
  split
  . next h =>
    rw [h]
    decide +kernel
  . rfl

def alice : MemberShip := ⟨1, "alice", 2, "alice", .reader⟩

def codePoints (s t : Chars) : Ordering := compare (s.map Char.toNat) (t.map Char.toNat)

theorem lists_isolated_quoted
    : ¬(alice.orgName = "admin" ∧ alice.role = .admin) ∧ (alice.checkPermission .admin = true → alice.orgID ≠ 0) ∧
      doubled "''b".toList = true ∧ Agree alice.orgID (database alone) (database shared) ∧
      Sortable alice routersTable " -name, +id,created_at".toList ∧
      listRouters (strict schema codePoints) (database alone) alice 0 0 " -name, +id,created_at".toList "''b".toList
        =
      listRouters (strict schema codePoints) (database shared) alice 0 0
        " -name, +id,created_at".toList "''b".toList := by
  have hsort : Sortable alice routersTable " -name, +id,created_at".toList := by
    unfold Sortable
    decide +kernel
  refine ⟨by decide, by decide, by decide, alone_agrees, hsort, ?_⟩
  exact (lists_isolated (strict schema codePoints) (by decide) (by decide) (by decide) alone_agrees 0 0).1 hsort

theorem lists_not_isolated
    : ¬(alice.orgName = "admin" ∧ alice.role = .admin) ∧ Agree alice.orgID (database alone) (database shared) ∧
      listRouters (strict schema codePoints) (database alone) alice 0 0 [] "') or ('%'='".toList
          =
        ⟨2, alone.map (fun row => (row, none)), none⟩ ∧
      listRouters (strict schema codePoints) (database shared) alice 0 0 [] "') or ('%'='".toList
          =
        ⟨3, shared.map (fun row => (row, none)), none⟩ ∧
      listRouters (strict schema codePoints) (database alone) alice 0 0
            "name='lab' and exists(select * from routers where owner=3)".toList []
          ≠
        listRouters (strict schema codePoints) (database shared) alice 0 0
            "name='lab' and exists(select * from routers where owner=3)".toList [] := by
  refine ⟨by decide, alone_agrees, ?_, ?_, ?_⟩
  . decide +kernel
  . decide +kernel
  . decide +kernel

end Example

end Web.Listing
