/-
The matchers.  An exact matcher asks the data source for the rows whose lookup
column is the member, a pattern matcher tries the expressions of all rows in
order.  The cached ones read the whole table once and answer from what they
have kept; caches are held by a handler per class, under the address of the
data source, until they are cleared.
-/
import GreylistServer.Core
import GreylistServer.DataSource
import GreylistServer.Lib.OrdMap

namespace GreylistServer

/-- What every matcher is constructed with; `ds` is the address of its data
source. -/
structure Matcher where
  ds : Nat
  column : Str
  member : MemberType
  returnfield : Str
deriving Repr, DecidableEq

/-- What a match leaves behind: the answer or an exception, the remarks and
the triplet. -/
structure MatchOutcome where
  result : Except Error Bool
  extra : Extra
  triplet : Triplet

/-- The regular expression compiler: an error with its number and text, or the
test of a string. -/
abbrev RegexCompiler := Str → Except (Nat × Str) (Str → Bool)

def RegEx.new (regcomp : RegexCompiler) (expr : Str) :
    Except Error (Str → Bool) :=
  match regcomp expr with
  | .ok regex => .ok regex
  | .error (errno, strErr) =>
      .error (.runtime_error (("Regex: " : Str) ++ strErr ++ ("(" : Str) ++
        decimal errno ++ ("), " : Str) ++ expr))

/-- The query for the lookup column and the return field of all rows. -/
def Matcher.tableQuery (m : Matcher) : BaseQuery :=
  (({} : BaseQuery).addReturnField m.column).addReturnField m.returnfield

/-- The caches of one class of matchers by the address of the data source. -/
structure CacheHandler (C : Type) where
  caches : OrdMap Nat C := {}

namespace CacheHandler

variable {C : Type}

def clear (_handler : CacheHandler C) : CacheHandler C := {}

def get (handler : CacheHandler C) (ds : Nat) : Option C :=
  handler.caches.find ds

/-- Find a cache or keep the one the factory makes.  A factory that throws
leaves the handler as it was. -/
def create (handler : CacheHandler C) (ds : Nat) (factory : Except Error C) :
    Except Error C × CacheHandler C :=
  match handler.caches.find ds with
  | some cache => (.ok cache, handler)
  | none =>
      match factory with
      | .error e => (.error e, handler)
      | .ok cache => (.ok cache, ⟨handler.caches.insert ds cache⟩)

/-- The beginning of every cached match. -/
def consult (handler : CacheHandler C) (ds : Nat) (factory : Except Error C) :
    Except Error C × CacheHandler C :=
  match handler.get ds with
  | some cache => (.ok cache, handler)
  | none => handler.create ds factory

theorem consult_of_get {handler : CacheHandler C} {ds : Nat} {cache : C}
    (hget : handler.get ds = some cache) (factory : Except Error C) :
    handler.consult ds factory = (.ok cache, handler) := by
  rw [consult, hget]

/-- A miss answers with what the factory makes. -/
theorem consult_of_miss {handler : CacheHandler C} {ds : Nat}
    (hget : handler.get ds = none) (factory : Except Error C) :
    (handler.consult ds factory).1 = factory := by
  have hfind : handler.caches.find ds = none := hget
  rw [consult, hget]
  simp only [create, hfind]
  cases factory <;> rfl

/-- A consultation adds at most the cache it answers with. -/
theorem get_consult (handler : CacheHandler C) (ds other : Nat)
    (factory : Except Error C) :
    (handler.consult ds factory).2.get other = handler.get other ∨
      other = ds ∧ handler.get ds = none ∧
        ∃ cache, factory = .ok cache ∧
          (handler.consult ds factory).2.get other = some cache := by
  cases hget : handler.get ds with
  | some cache =>
      rw [consult_of_get hget]
      exact Or.inl rfl
  | none =>
      have hfind : handler.caches.find ds = none := hget
      rw [consult, hget]
      simp only [create, hfind]
      cases factory with
      | error e => exact Or.inl rfl
      | ok cache =>
          simp only [get, OrdMap.find_insert]
          by_cases heq : other = ds
          · refine Or.inr ⟨heq, trivial, cache, rfl, ?_⟩
            rw [if_pos heq, hfind]
            rfl
          · exact Or.inl (if_neg heq)

end CacheHandler

def ExactMatch.match (m : Matcher) (delivery : Delivery) (table : Table)
    (dns : Nat → Resolution) (triplet : Triplet) (extra : Extra) :
    MatchOutcome :=
  let query : BaseQuery :=
    if m.returnfield ≠ [] then ({} : BaseQuery).addReturnField m.returnfield
    else {}
  match triplet.getMember dns m.member with
  | (.error e, triplet) => ⟨.error e, extra, triplet⟩
  | (.ok value, triplet) =>
      match (query.addWhere m.column (.text value)).lookup delivery table with
      | .error e => ⟨.error e, extra, triplet⟩
      | .ok [] => ⟨.ok false, extra, triplet⟩
      | .ok (row :: _) =>
          ⟨.ok true,
            if m.returnfield ≠ [] then
              extra.setComment (column row 1).getString
            else extra, triplet⟩

namespace PatternMatch

/-- The loop over the rows: an expression is compiled when its row is
reached. -/
def scan (regcomp : RegexCompiler) (m : Matcher) (dns : Nat → Resolution) :
    ResultSet → Triplet → Extra → MatchOutcome
  | [], triplet, extra => ⟨.ok false, extra, triplet⟩
  | row :: rest, triplet, extra =>
      match RegEx.new regcomp (column row 1).getString with
      | .error e => ⟨.error e, extra, triplet⟩
      | .ok regex =>
          match triplet.getMember dns m.member with
          | (.error e, triplet) => ⟨.error e, extra, triplet⟩
          | (.ok value, triplet) =>
              if regex value then
                ⟨.ok true, extra.setComment (column row 2).getString, triplet⟩
              else scan regcomp m dns rest triplet extra

end PatternMatch

def PatternMatch.match (regcomp : RegexCompiler) (m : Matcher)
    (delivery : Delivery) (table : Table) (dns : Nat → Resolution)
    (triplet : Triplet) (extra : Extra) : MatchOutcome :=
  match m.tableQuery.lookup delivery table with
  | .error e => ⟨.error e, extra, triplet⟩
  | .ok rows => scan regcomp m dns rows triplet extra

namespace CachedExactMatch

/-- The return fields in row order, and for every key its first row. -/
structure Cache where
  data : List Str := []
  index : OrdMap Str Nat := {}
deriving Repr, DecidableEq

/-- The fill loop. -/
def fill : ResultSet → Nat → Cache → Cache
  | [], _, cache => cache
  | row :: rest, count, cache =>
      let key := lowercase (column row 1).getString
      let val := lowercase (column row 2).getString
      fill rest (count + 1)
        { data := cache.data ++ [val], index := cache.index.insert key count }

/-- The factory. -/
def create (m : Matcher) (delivery : Delivery) (table : Table) :
    Except Error Cache :=
  match m.tableQuery.lookup delivery table with
  | .error e => .error e
  | .ok rows => .ok (fill rows 0 {})

/-- The answer a cache gives; the position is not checked. -/
def answer (m : Matcher) (cache : Cache) (dns : Nat → Resolution)
    (triplet : Triplet) (extra : Extra) : MatchOutcome :=
  match triplet.getMember dns m.member with
  | (.error e, triplet) => ⟨.error e, extra, triplet⟩
  | (.ok value, triplet) =>
      match cache.index.find value with
      | none => ⟨.ok false, extra, triplet⟩
      | some position =>
          match cache.data[position]? with
          | none => ⟨.error .undefined, extra, triplet⟩
          | some comment => ⟨.ok true, extra.setComment comment, triplet⟩

end CachedExactMatch

def CachedExactMatch.match (m : Matcher) (delivery : Delivery) (table : Table)
    (dns : Nat → Resolution) (handler : CacheHandler Cache)
    (triplet : Triplet) (extra : Extra) :
    MatchOutcome × CacheHandler Cache :=
  match handler.consult m.ds (create m delivery table) with
  | (.error e, handler) => (⟨.error e, extra, triplet⟩, handler)
  | (.ok cache, handler) => (answer m cache dns triplet extra, handler)

namespace CachedPatternMatch

/-- The compiled expressions with their return fields, in row order. -/
abbrev Cache := List ((Str → Bool) × Str)

/-- The fill loop: every expression is compiled. -/
def fill (regcomp : RegexCompiler) : ResultSet → Except Error Cache
  | [] => .ok []
  | row :: rest =>
      match RegEx.new regcomp (column row 1).getString with
      | .error e => .error e
      | .ok regex =>
          match fill regcomp rest with
          | .error e => .error e
          | .ok data => .ok ((regex, (column row 2).getString) :: data)

/-- The factory. -/
def create (regcomp : RegexCompiler) (m : Matcher) (delivery : Delivery)
    (table : Table) : Except Error Cache :=
  match m.tableQuery.lookup delivery table with
  | .error e => .error e
  | .ok rows => fill regcomp rows

/-- The loop over the kept rows. -/
def answer (m : Matcher) (dns : Nat → Resolution) :
    Cache → Triplet → Extra → MatchOutcome
  | [], triplet, extra => ⟨.ok false, extra, triplet⟩
  | (regex, val) :: rest, triplet, extra =>
      match triplet.getMember dns m.member with
      | (.error e, triplet) => ⟨.error e, extra, triplet⟩
      | (.ok value, triplet) =>
          if regex value then ⟨.ok true, extra.setComment val, triplet⟩
          else answer m dns rest triplet extra

end CachedPatternMatch

def CachedPatternMatch.match (regcomp : RegexCompiler) (m : Matcher)
    (delivery : Delivery) (table : Table) (dns : Nat → Resolution)
    (handler : CacheHandler Cache) (triplet : Triplet) (extra : Extra) :
    MatchOutcome × CacheHandler Cache :=
  match handler.consult m.ds (create regcomp m delivery table) with
  | (.error e, handler) => (⟨.error e, extra, triplet⟩, handler)
  | (.ok cache, handler) => (answer m dns cache triplet extra, handler)

end GreylistServer
