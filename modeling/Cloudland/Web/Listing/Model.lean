import Cloudland.Lib.GoString
import Cloudland.Lib.Sql.Eval
import Cloudland.Web.Common.Member

/-!
The list requests of routers, volumes and load balancers, down to the texts that are sent to the server.
-/

namespace Web.Listing

open Sql GoString

def getWhere (m : MemberShip) : Chars :=
  if m.orgName = "admin" ∧ m.role = .admin then [] else "owner = ".toList ++ numeral m.orgID

def orderOf : Chars → Chars
  | '-' :: item => item ++ " DESC".toList
  | '+' :: item => item
  | item => item

def newOrders (s : Chars) : List Chars :=
  if s = [] then [] else (((s.splitOn ',').map trimSpace).filter (· ≠ [])).map orderOf

def quote (t : Chars) : Chars := '"' :: t ++ ['"']

def quoteIfPossible (t : Chars) : Chars :=
  if (t.splitOn '.').all (fun part => !part.isEmpty && part.all Char.isAlphanum) then
    ['.'].intercalate ((t.splitOn '.').map quote)
  else
    t

structure Query where
  table : Chars
  primary : List Chars
  wheres : List Chars
  orders : List Chars
  limit : Int
  offset : Int

namespace Query

variable (q : Query)

def conditions : List Chars := (q.wheres.filter (· ≠ [])).map (fun t => '(' :: t ++ [')'])

def whereSQL : Chars :=
  " WHERE ".toList ++
    " AND ".toList.intercalate ((quote q.table ++ ".\"deleted_at\" IS NULL".toList) :: q.primary) ++
    (if q.conditions = [] then [] else " AND (".toList ++ " AND ".toList.intercalate q.conditions ++ [')'])

-- an order without text is not kept
def orderSQL : Chars :=
  let orders := q.orders.filter (· ≠ [])
  if orders = [] then [] else " ORDER BY ".toList ++ [','].intercalate (orders.map quoteIfPossible)

def limitAndOffsetSQL : Chars :=
  (if 0 ≤ q.limit then " LIMIT ".toList ++ numeral q.limit.toNat else []) ++
    (if 0 ≤ q.offset then " OFFSET ".toList ++ numeral q.offset.toNat else [])

def countSQL : Chars := "SELECT count(*) FROM ".toList ++ quote q.table ++ q.whereSQL

def findSQL : Chars :=
  "SELECT * FROM ".toList ++ quote q.table ++ q.whereSQL ++ q.orderSQL ++ q.limitAndOffsetSQL

end Query

def modelColumns : List (Chars × Ty) :=
  [("id".toList, .int), ("created_at".toList, .time), ("updated_at".toList, .time), ("deleted_at".toList, .time),
    ("uuid".toList, .text), ("creater".toList, .int), ("owner".toList, .int), ("name".toList, .text)]

def routersTable : Chars := "routers".toList

def volumesTable : Chars := "volumes".toList

def loadBalancersTable : Chars := "load_balancers".toList

def organizationsTable : Chars := "organizations".toList

def schema : Schema :=
  [(routersTable, modelColumns ++
      [("status".toList, .text), ("hyper".toList, .int), ("peer".toList, .int), ("default_sg".toList, .int),
        ("vrrp_subnet_id".toList, .int)]),
    (volumesTable, modelColumns ++
      [("path".toList, .text), ("size".toList, .int), ("booting".toList, .bool), ("format".toList, .text),
        ("status".toList, .text), ("target".toList, .text), ("href".toList, .text), ("instance_id".toList, .int),
        ("iops_limit".toList, .int), ("iops_burst".toList, .int), ("bps_limit".toList, .int),
        ("bps_burst".toList, .int), ("pool_id".toList, .text)]),
    (loadBalancersTable, modelColumns ++
      [("status".toList, .text), ("router_id".toList, .int), ("vrrp_instance_id".toList, .int)]),
    (organizationsTable, modelColumns ++ [("default_sg".toList, .int)])]

structure Page where
  total : Nat
  rows : List (Row × Option Row)
  err : Option CLError
  deriving DecidableEq

variable (srv : Server schema) (db : Db)

def count (q : Query) : Option Nat :=
  match srv.run db q.countSQL with
  | .ok (.count n) => some n
  | _ => none

def find (q : Query) : Option (List Row) :=
  match srv.run db q.findSQL with
  | .ok (.rows rows) => some rows
  | _ => none

def ownerID (row : Row) : Nat :=
  match row.get "owner".toList with
  | .int n => n.toNat
  | _ => 0

/--
`Take` of the organization that owns a row. The orders of the list are still there.
-/
def ownerQuery (orders : List Chars) (id : Nat) : Query where
  table := organizationsTable
  primary := if id = 0 then [] else [quote organizationsTable ++ ".\"id\" = ".toList ++ numeral id]
  wheres := []
  orders
  limit := 1
  offset := 0

def takeOwners (orders : List Chars) (message : String) : List Row → List (Row × Option Row) × Option CLError
  | [] => ([], none)
  | row :: rows =>
    match find srv db (ownerQuery orders (ownerID row)) with
    | some (org :: _) =>
      let (rows, err) := takeOwners orders message rows
      ((row, some org) :: rows, err)
    | _ => ((row, none) :: rows.map (fun row => (row, none)), some ⟨.ownerNotFound, message⟩)

structure Messages where
  count : String
  find : String
  owner : String

variable (m : MemberShip)

def list (table : Chars) (messages : Messages) (countWhere : Chars) (offset limit : Int)
    (order query : Chars)
    : Page :=
  let limit := if limit = 0 then 16 else limit
  let order := if order = [] then "created_at".toList else order
  let query := if query ≠ [] then "name like '%".toList ++ query ++ "%'".toList else []
  match count srv db ⟨table, [], [getWhere m, query, countWhere], [], -1, -1⟩ with
  | none => ⟨0, [], some ⟨.sqlSyntaxError, messages.count⟩⟩
  | some total =>
    let orders := newOrders order
    match find srv db ⟨table, [], [getWhere m, query], orders, limit, offset⟩ with
    | none => ⟨total, [], some ⟨.sqlSyntaxError, messages.find⟩⟩
    | some rows =>
      if m.checkPermission .admin then
        let (rows, err) := takeOwners srv db orders messages.owner rows
        ⟨total, rows, err⟩
      else
        ⟨total, rows.map (fun row => (row, none)), none⟩

def listRouters (offset limit : Int) (order query : Chars) : Page :=
  list srv db m routersTable ⟨"Failed to count router", "Failed to query routers", "Failed to query owner info"⟩ []
    offset limit order query

def listLoadBalancers (offset limit : Int) (order query : Chars) : Page :=
  list srv db m loadBalancersTable
    ⟨"Failed to count load balancers", "Failed to query load balancers", "Failed to query owner info"⟩ []
    offset limit order query

/--
`VolumeAdmin.ListVolume`. The type of the volumes is a condition on the count only.
-/
def listVolume (offset limit : Int) (order query : Chars) (volumeType : String) : Page :=
  let messages : Messages := ⟨"Failed to count volumes", "Failed to query volumes", "Owner organization not found"⟩
  if volumeType = "data" then
    list srv db m volumesTable messages "booting=false".toList offset limit order query
  else if volumeType = "boot" then
    list srv db m volumesTable messages "booting=true".toList offset limit order query
  else if volumeType = "all" then
    list srv db m volumesTable messages [] offset limit order query
  else
    ⟨0, [], some ⟨.invalidParameter, "Invalid volume type " ++ volumeType⟩⟩

end Web.Listing
