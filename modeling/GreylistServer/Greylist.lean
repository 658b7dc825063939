/-
The greylisting policy.  A triplet is looked up in the table of known triplets
by sender, recipient and either the client's shortened name or the leading
components of its address; an unknown one is stored, a known one passes when it
has passed before or was stored long enough ago.
-/
import GreylistServer.Core
import GreylistServer.DataSource
import GreylistServer.Lib.Interleaving

namespace GreylistServer

/-- What a call may ask the database server and the system for, one atomic
request at a time. -/
inductive Statement where
  | select (q : BaseQuery)
  | insert (q : BaseQuery)
  | update (q : BaseQuery)
  | getNow

def Statement.Answer : Statement → Type
  | .select _ => Except Error ResultSet
  | .insert _ => Except Error Unit
  | .update _ => Except Error Unit
  | .getNow => Nat

abbrev Session (α : Type) := Prog Statement Statement.Answer α

/-- How a triplet is looked up.  `init` is declared and handled nowhere. -/
inductive ModeType where
  | reverse
  | weak
  | normal
  | init
deriving Repr, DecidableEq

/-- A configured policy.  The configuration rejects more weak bytes than an
address has components. -/
structure Greylist where
  mode : ModeType
  verbose : Bool
  timeout : Nat
  weakbytes : Nat
  weakbytes_le : weakbytes ≤ IPAddress.default_length

/-- The columns that say which triplet a row is about. -/
def keyColumns : List Str :=
  ["client_address", "sender", "recipient", "ip64", "ip32", "ip16",
    "ip8"].map String.toList

/-- The columns of a stored triplet besides its id. -/
def tripletColumns : List Str :=
  keyColumns ++ ["count", "uts"].map String.toList

theorem allColumns_not_mem_tripletColumns : allColumns ∉ tripletColumns := by
  decide

/-- The first row of a successful lookup. -/
structure Found where
  id : Nat
  count : Nat
  uts : Nat
deriving Repr, DecidableEq

namespace Greylist

/-- The column of one address component: `j` starts at 64 and is halved. -/
def ipColumn (j : Nat) : Str :=
  ("ip" : Str) ++ decimal j

/-- The loop that compares leading address components. -/
def addAddressParts : Nat → Nat → Nat → Triplet → BaseQuery →
    Except Error BaseQuery × Triplet
  | 0, _, _, t, q => (.ok q, t)
  | rest + 1, i, j, t, q =>
      match t.getClientAddressNumericIdx i with
      | (.error e, t) => (.error e, t)
      | (.ok value, t) =>
          addAddressParts rest (i + 1) (j >>> 1) t
            (q.addWhere (ipColumn j) (.number value))

/-- The mode of one lookup: a client without a usable name falls back to its
address. -/
def lookupMode (g : Greylist) (t : Triplet) : ModeType × Triplet :=
  if g.mode = .reverse then
    let name := t.getShortClientName
    (if name.1 = [] then .weak else .reverse, name.2)
  else (g.mode, t)

/-- The query of `findTriplet`. -/
def findQuery (g : Greylist) (t : Triplet) :
    Except Error BaseQuery × Triplet :=
  let q : BaseQuery := ((({} : BaseQuery).addReturnField "id").addReturnField
    "count").addReturnField "uts"
  let q := q.addWhere "sender" (.text t.sender)
  let q := q.addWhere "recipient" (.text t.recipient)
  let mode := g.lookupMode t
  match mode.1 with
  | .reverse =>
      let name := mode.2.getShortClientName
      (.ok (q.addWhere "client_address" (.text name.1)), name.2)
  | .weak => addAddressParts g.weakbytes 0 64 mode.2 q
  | .normal => addAddressParts IPAddress.default_length 0 64 mode.2 q
  | .init => (.ok q, mode.2)

def findTriplet (g : Greylist) (t : Triplet) :
    (Except Error (Option Found) → Triplet → Session Outcome) →
      Session Outcome :=
  fun next =>
    match g.findQuery t with
    | (.error e, t) => next (.error e) t
    | (.ok q, t) =>
        .call (.select q) fun (result : Except Error ResultSet) =>
          match result with
          | .error e => next (.error e) t
          | .ok [] => next (.ok none) t
          | .ok (row :: _) =>
              next (.ok (some
                { id := (column row 1).getNumeric
                  count := (column row 2).getNumeric
                  uts := (column row 3).getNumeric })) t

/-- The numeric components in the order `insertTriplet` asks for them. -/
def addressOf (t : Triplet) : Except Error (List Nat) × Triplet :=
  match t.getClientAddressNumericIdx 0 with
  | (.error e, t) => (.error e, t)
  | (.ok a, t) =>
      match t.getClientAddressNumericIdx 1 with
      | (.error e, t) => (.error e, t)
      | (.ok b, t) =>
          match t.getClientAddressNumericIdx 2 with
          | (.error e, t) => (.error e, t)
          | (.ok c, t) =>
              match t.getClientAddressNumericIdx 3 with
              | (.error e, t) => (.error e, t)
              | (.ok d, t) => (.ok [a, b, c, d], t)

/-- The query of `insertTriplet`. -/
def insertQuery (t : Triplet) (now : Nat) : Except Error BaseQuery × Triplet :=
  let name := t.getShortClientName
  let q := ((({} : BaseQuery).addString "client_address" name.1).addString
    "sender" name.2.sender).addString "recipient" name.2.recipient
  match addressOf name.2 with
  | (.ok [a, b, c, d], t) =>
      let q := q.addNumeric "ip64" a
      let q := q.addNumeric "ip32" b
      let q := q.addNumeric "ip16" c
      let q := q.addNumeric "ip8" d
      (.ok ((q.addNumeric "count" 0).addNumeric "uts" now), t)
  | (.ok _, t) => (.error .undefined, t)
  | (.error e, t) => (.error e, t)

/-- The clock is read before the query is built.  A rejected duplicate is not
an error here: `insert` swallows it. -/
def insertTriplet (t : Triplet)
    (next : Except Error Unit → Triplet → Session Outcome) :
    Session Outcome :=
  .call .getNow fun (now : Nat) =>
    match insertQuery t now with
    | (.error e, t) => next (.error e) t
    | (.ok q, t) =>
        .call (.insert q) fun (result : Except Error Unit) => next result t

def incrementQuery (id now : Nat) : BaseQuery :=
  ((({} : BaseQuery).addIncrement "count" 1).addSet "uts" now).addWhere "id"
    (.number id)

/-- How long ago a row was stored; a time in the future counts as now. -/
def timeDiff (uts now : Nat) : Nat :=
  if uts < now then now - uts else 0

/-- Whether a known triplet passes. -/
def due (g : Greylist) (count uts now : Nat) : Bool :=
  0 < count || g.timeout < timeDiff uts now

def decide (g : Greylist) (t : Triplet) (extra : Extra) : Session Outcome :=
  g.findTriplet t fun found t =>
    match found with
    | .error e => .ret ⟨.error e, extra, t⟩
    | .ok none =>
        insertTriplet t fun result t =>
          match result with
          | .error e => .ret ⟨.error e, extra, t⟩
          | .ok () => .ret ⟨.ok .defer, extra.setPrefix "new", t⟩
    | .ok (some row) =>
        .call .getNow fun (now : Nat) =>
          if g.due row.count row.uts now then
            .call (.update (incrementQuery row.id now))
              fun (result : Except Error Unit) =>
                match result with
                | .error e => .ret ⟨.error e, extra, t⟩
                | .ok () =>
                    .ret ⟨.ok .dunno,
                      extra.set "ok" row.count (timeDiff row.uts now), t⟩
          else
            .ret ⟨.ok .defer,
              extra.set "wait" row.count (timeDiff row.uts now), t⟩

end Greylist

end GreylistServer
