/-
Queries against a data source.  A query is collected by builder calls and then
executed as one statement; the result set holds the requested columns of the
selected rows, or the number of rows when no column was requested.
-/
import GreylistServer.Triplet
import GreylistServer.Lib.Table

namespace GreylistServer

/-- A change of one column in an update. -/
inductive Update where
  | increment (inc : Nat)
  | set (value : Nat)
deriving Repr, DecidableEq

def Update.apply : Update → Cell → Cell
  | .increment inc, cell => .number (cell.getNumeric + inc)
  | .set value, _ => .number value

/-- The columns, conditions and values collected so far.  Every condition the
program adds has the operator `=`. -/
structure BaseQuery where
  returnFields : List Str := []
  whereClause : List Condition := []
  values : List (Str × Cell) := []
  updFields : List (Str × Update) := []
deriving Repr

/-- The rows of a result set, each with the requested columns in order. -/
abbrev ResultSet := List (List Cell)

namespace BaseQuery

/-- A request for all columns replaces the ones collected before it. -/
def addReturnField (q : BaseQuery) (field : Str) : BaseQuery :=
  if field = allColumns then { q with returnFields := [field] }
  else { q with returnFields := q.returnFields ++ [field] }

def addWhere (q : BaseQuery) (field : Str) (val : Cell) : BaseQuery :=
  { q with whereClause := q.whereClause ++ [(field, val)] }

def addString (q : BaseQuery) (field val : Str) : BaseQuery :=
  { q with values := q.values ++ [(field, .text val)] }

def addNumeric (q : BaseQuery) (field : Str) (val : Nat) : BaseQuery :=
  { q with values := q.values ++ [(field, .number val)] }

def addIncrement (q : BaseQuery) (field : Str) (inc : Nat) : BaseQuery :=
  { q with updFields := q.updFields ++ [(field, .increment (inc % 2 ^ 32))] }

/-- The value is narrowed to the 32 bits of the parameter. -/
def addSet (q : BaseQuery) (field : Str) (val : Nat) : BaseQuery :=
  { q with updFields := q.updFields ++ [(field, .set (val % 2 ^ 32))] }

/-- The columns a statement names. -/
def columns (q : BaseQuery) : List Str :=
  q.returnFields.filter (· ≠ allColumns) ++ q.whereClause.map Prod.fst ++ q.values.map Prod.fst ++
    q.updFields.map Prod.fst

/-- The server rejects a statement that names a column the table lacks. -/
def check (q : BaseQuery) (table : Table) : Except Error Unit :=
  match q.columns.find? (fun column => !table.knows column) with
  | none => .ok ()
  | some column =>
      .error (.DBIError 1054
        (("query failed: Unknown column '" : Str) ++ column ++ ("'" : Str)))

/-- `lookup` and the rows it makes available. -/
def lookup (q : BaseQuery) (delivery : Delivery) (table : Table) :
    Except Error ResultSet :=
  match q.check table with
  | .error e => .error e
  | .ok () =>
      let rows := table.matching q.whereClause
      if q.returnFields = [] then .ok [[.number rows.length]]
      else .ok ((delivery.order rows).map (table.project q.returnFields))

/-- The handler inside `insert`: a duplicate the server rejects is swallowed. -/
def insertCaught : Error → Except Error Unit
  | .DBIError errno what =>
      if errno ≠ 1062 then .error (.DBIError errno what) else .ok ()
  | e => .error e

/-- `insert` of a row under the id the server assigns. -/
def insert (q : BaseQuery) (id : Nat) (table : Table) :
    Except Error Unit × Table :=
  match q.check table with
  | .error e => (insertCaught e, table)
  | .ok () => (.ok (), table.addRow id q.values)

def update (q : BaseQuery) (table : Table) : Except Error Unit × Table :=
  match q.check table with
  | .error e => (.error e, table)
  | .ok () =>
      (.ok (), table.modify q.whereClause
        (q.updFields.map fun field => (field.1, field.2.apply)))

theorem check_eq_ok {q : BaseQuery} {table : Table}
    (hknown : ∀ column ∈ q.columns, table.knows column = true) :
    q.check table = .ok () := by
  have hnone : q.columns.find? (fun column => !table.knows column) = none := by
    apply List.find?_eq_none.mpr
    intro column hcolumn
    simp [hknown column hcolumn]
  rw [check, hnone]

end BaseQuery

/-- Column `idx` of a fetched row, counted from one. -/
def column (row : List Cell) (idx : Nat) : Cell :=
  row.getD (idx - 1) (.text [])

end GreylistServer
