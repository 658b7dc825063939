/-
How a query object writes its statement.  The builder calls collect a format
text and its arguments in the order of the calls, and `executef` puts the
arguments into the placeholders from left to right.
-/
import GreylistServer.Greylist

namespace GreylistServer

/-- `Query::executef` as far as the text handed to the driver.  The flag says
that the last character was a percent sign. -/
def executef (quote : Str → Option Str) :
    Bool → Str → List Str → Except Error Str
  | _, [], _ => .ok []
  | false, c :: rest, args =>
      if c = '%' then executef quote true rest args
      else (executef quote false rest args).map (c :: ·)
  | true, c :: rest, args =>
      if c = '%' then (executef quote false rest args).map (c :: ·)
      else
        match args with
        | [] => .error (.invalid_argument
            "executef: not enough arguments".toList)
        | arg :: args =>
            if c = 's' then
              match quote arg with
              | none => .error (.runtime_error
                  (("dbi_driver_quote_string_copy " : Str) ++ arg))
              | some quoted =>
                  (executef quote false rest args).map (quoted ++ ·)
            else (executef quote false rest args).map (arg ++ ·)

/-- The driver of a connection: how it quotes a string, and how it answers a
statement. -/
structure Driver where
  quote : Str → Option Str
  query : Str → Except (Nat × Str) Unit

/-- A query on a connection, with the statements passed to `dbi_conn_query` so
far. -/
structure Query where
  con : Bool
  res : Bool := false
  m_last_query : Str := []
  sent : List Str := []
deriving Repr, DecidableEq

namespace Query

def executef (driver : Driver) (q : Query) (sql : Str) (args : List Str) :
    Except Error Bool × Query :=
  let q := { q with m_last_query := sql }
  if q.con && q.res then
    (.error (.logic_error "executef: query busy".toList), q)
  else if q.con && !q.res then
    match GreylistServer.executef driver.quote false sql args with
    | .error e => (.error e, q)
    | .ok quoted_sql =>
        let q := { q with
          m_last_query := quoted_sql
          sent := q.sent ++ [quoted_sql] }
        match driver.query quoted_sql with
        | .error (errno, what) =>
            (.error (.DBIError errno (("query failed: " : Str) ++ what)), q)
        | .ok () => (.ok true, { q with res := true })
  else (.ok false, q)

/-- `executef` for a statement with rows; the answer says whether there is a
result. -/
def getResultf (driver : Driver) (q : Query) (sql : Str) (args : List Str) :
    Except Error Bool × Query :=
  if q.con && q.res then
    (.error (.logic_error "get_result: query busy".toList), q)
  else if q.con && !q.res then
    match q.executef driver sql args with
    | (.error e, q) => (.error e, q)
    | (.ok _, q) => (.ok q.res, q)
  else (.ok q.res, q)

end Query

/-- The texts a query object collects, and the arguments of all placeholders
in the order of the calls. -/
structure DBQuery where
  table : Str
  returnFields : Str := []
  insFields : Str := []
  values : Str := []
  updFields : Str := []
  whereClause : Str := []
  args : List Str := []
deriving Repr, DecidableEq

namespace DBQuery

/-- A request for all columns replaces the fields collected before it. -/
def addReturnField (q : DBQuery) (field : Str) : DBQuery :=
  if field = allColumns then { q with returnFields := field }
  else
    { q with
      returnFields := (if q.returnFields = [] then []
        else q.returnFields ++ ("," : Str)) ++
        ("`" : Str) ++ field ++ ("`" : Str) }

/-- The columns of an insertion and their placeholders. -/
def addInsertField (q : DBQuery) (field placeholder arg : Str) : DBQuery :=
  { q with
    insFields := (if q.insFields = [] then [] else q.insFields ++ ("," : Str)) ++
      ("`" : Str) ++ field ++ ("`" : Str)
    values := (if q.insFields = [] then q.values else q.values ++ ("," : Str)) ++
      placeholder
    args := q.args ++ [arg] }

def addString (q : DBQuery) (field val : Str) : DBQuery :=
  q.addInsertField field "%s" val

def addNumeric (q : DBQuery) (field : Str) (val : Nat) : DBQuery :=
  q.addInsertField field "%d" (decimal val)

def addIncrement (q : DBQuery) (field : Str) (inc : Nat) : DBQuery :=
  { q with
    updFields := (if q.updFields = [] then [] else q.updFields ++ (",": Str)) ++
      ("`" : Str) ++ field ++ ("`=`" : Str) ++ field ++ ("`+%d" : Str)
    args := q.args ++ [decimal (inc % 2 ^ 32)] }

def addSet (q : DBQuery) (field : Str) (val : Nat) : DBQuery :=
  { q with
    updFields := (if q.updFields = [] then [] else q.updFields ++ ("," : Str)) ++
      ("`" : Str) ++ field ++ ("`=%d" : Str)
    args := q.args ++ [decimal (val % 2 ^ 32)] }

/-- The overload for numbers. -/
def addWhere (q : DBQuery) (field : Str) (val : Nat) (op : Str) : DBQuery :=
  { q with
    whereClause := (if q.whereClause = [] then []
      else q.whereClause ++ (" AND " : Str)) ++
      ("`" : Str) ++ field ++ ("`" : Str) ++ op ++ ("%d" : Str)
    args := q.args ++ [decimal val] }

/-- The overload for strings. -/
def addWhereString (q : DBQuery) (field val op : Str) : DBQuery :=
  { q with
    whereClause := (if q.whereClause = [] then []
      else q.whereClause ++ (" AND " : Str)) ++
      ("`" : Str) ++ field ++ ("`" : Str) ++ op ++ ("%s" : Str)
    args := q.args ++ [val] }

/-- The format `lookup` passes on.  The backtick that closes the table's name
belongs to the condition. -/
def lookupFormat (q : DBQuery) : Str :=
  let returnFields := if q.returnFields = [] then "COUNT(*)".toList
    else q.returnFields
  let whereClause := if q.whereClause = [] then []
    else ("` WHERE (" : Str) ++ q.whereClause ++ (")" : Str)
  ("SELECT " : Str) ++ returnFields ++ (" FROM `" : Str) ++ q.table ++
    whereClause

def insertFormat (q : DBQuery) : Str :=
  ("INSERT INTO " : Str) ++ q.table ++ (" (" : Str) ++ q.insFields ++
    (") " : Str) ++ (" VALUES(" : Str) ++ q.values ++ (")" : Str)

def updateFormat (q : DBQuery) : Str :=
  ("UPDATE " : Str) ++ q.table ++ (" SET " : Str) ++ q.updFields ++
    (" WHERE(" : Str) ++ q.whereClause ++ (")" : Str)

/-- The text of the statement that `update` hands to the driver. -/
def update (q : DBQuery) (quote : Str → Option Str) : Except Error Str :=
  executef quote false q.updateFormat q.args

/-- The builder calls of `incrementTriplet`. -/
def incrementTriplet (table : Str) (id now : Nat) : DBQuery :=
  (((({ table := table } : DBQuery).addIncrement "count" 1).addSet "uts"
    now).addWhere "id" id "=")

end DBQuery

/-- Text without a percent sign is copied. -/
theorem executef_append {quote : Str → Option Str} {text : Str}
    (hplain : '%' ∉ text) (rest : Str) (args : List Str) :
    executef quote false (text ++ rest) args =
      (executef quote false rest args).map (text ++ ·) := by
  induction text with
  | nil =>
      simp only [List.nil_append]
      cases executef quote false rest args <;> rfl
  | cons c text ih =>
      simp only [List.mem_cons, not_or] at hplain
      have hc : ¬ c = '%' := fun heq => hplain.1 heq.symm
      simp only [List.cons_append, executef, hc, if_false, ih hplain.2]
      cases executef quote false rest args <;> rfl

/-- A number takes the next argument as it is. -/
theorem executef_number (quote : Str → Option Str) (arg : Str) (rest : Str)
    (args : List Str) :
    executef quote false (("%d" : Str) ++ rest) (arg :: args) =
      (executef quote false rest args).map (arg ++ ·) := rfl

/-- The statement of `incrementTriplet` adds one to the count and sets the time
of the row with the id, each argument at its own place. -/
theorem incrementTriplet_update (quote : Str → Option Str) {table : Str}
    (htable : '%' ∉ table) (id now : Nat) :
    (DBQuery.incrementTriplet table id now).update quote =
      .ok (("UPDATE " : Str) ++ table ++
        (" SET `count`=`count`+1,`uts`=" : Str) ++ decimal (now % 2 ^ 32) ++
        (" WHERE(`id`=" : Str) ++ decimal id ++ (")" : Str)) := by
  have hformat : (" SET " : Str) ++
      ((DBQuery.incrementTriplet table id now).updFields ++
        ((" WHERE(" : Str) ++
          ((DBQuery.incrementTriplet table id now).whereClause ++
            (")" : Str)))) =
      (" SET `count`=`count`+" : Str) ++ (("%d" : Str) ++
        ((",`uts`=" : Str) ++ (("%d" : Str) ++
          ((" WHERE(`id`=" : Str) ++ (("%d" : Str) ++ (")" : Str)))))) := rfl
  have hargs : (DBQuery.incrementTriplet table id now).args =
      [decimal 1, decimal (now % 2 ^ 32), decimal id] := rfl
  unfold DBQuery.update DBQuery.updateFormat
  simp only [List.append_assoc]
  rw [executef_append (by decide), show (DBQuery.incrementTriplet table id
    now).table = table from rfl, executef_append htable, hformat, hargs,
    executef_append (by decide), executef_number, executef_append (by decide),
    executef_number, executef_append (by decide), executef_number]
  have hone : decimal 1 = ("1" : Str) := by decide
  have hlast : executef quote false (")" : Str) [] = .ok (")" : Str) := rfl
  have hset : (" SET `count`=`count`+1,`uts`=" : Str) =
      (" SET `count`=`count`+" : Str) ++ (("1" : Str) ++ (",`uts`=" : Str)) :=
    rfl
  rw [hlast, hone, hset]
  simp only [Except.map, List.append_assoc]

end GreylistServer
