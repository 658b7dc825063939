/-
Matchers that share a handler.  A handler knows a cache by its data source
only, so a matcher may be answered from a cache another one has built.  Every
matcher is answered from its own columns exactly when its lookup column and
its return field are columns of its table and matchers with the same data
source ask for the same columns.
-/
import GreylistServer.MatchersAgree

namespace GreylistServer

/-- A call that reaches the handler of a class: a match of one of its matchers,
with the order in which the server would deliver the table, or a refresh. -/
inductive CacheCall (M : Type) where
  | match (m : M) (delivery : Delivery)
  | clear

namespace CacheHandler

section Law

variable {M C : Type} (ds : M → Nat)
  (factory : M → Delivery → Except Error C)

/-- What one call does to the handler. -/
def step (handler : CacheHandler C) : CacheCall M → CacheHandler C
  | .match m delivery => (handler.consult (ds m) (factory m delivery)).2
  | .clear => handler.clear

/-- The handler after a run that starts without caches. -/
def after (run : List (CacheCall M)) : CacheHandler C :=
  run.foldl (step ds factory) {}

theorem after_append_singleton (run : List (CacheCall M))
    (call : CacheCall M) :
    after ds factory (run ++ [call]) =
      step ds factory (after ds factory run) call := by
  simp [after]

end Law

end CacheHandler

namespace Matcher

end Matcher

namespace CachedExactMatch

/-- The factories of a class of matchers over unchanging tables. -/
def factory (tables : Nat → Table) (m : Matcher) (delivery : Delivery) :
    Except Error Cache :=
  create m delivery (tables m.ds)

theorem match_handler (m : Matcher) (delivery : Delivery) (table : Table)
    (dns : Nat → Resolution) (handler : CacheHandler Cache)
    (triplet : Triplet) (extra : Extra) :
    (CachedExactMatch.match m delivery table dns handler triplet extra).2 =
      (handler.consult m.ds (create m delivery table)).2 := by
  rw [CachedExactMatch.match]
  rcases handler.consult m.ds (create m delivery table) with
    ⟨_ | _, _⟩ <;> rfl

end CachedExactMatch

/-- Every call of the accessor, however many were made before, returns
`value`. -/
def Triplet.Reads (dns : Nat → Resolution) (member : MemberType)
    (triplet : Triplet) (value : Str) : Prop :=
  ∀ calls : Nat,
    (((fun t : Triplet => (t.getMember dns member).2)^[calls]
      triplet).getMember dns member).1 = .ok value

theorem Triplet.Reads.step {dns : Nat → Resolution} {member : MemberType}
    {triplet : Triplet} {value : Str}
    (hreads : triplet.Reads dns member value) :
    ∃ after, triplet.getMember dns member = (.ok value, after) ∧
      after.Reads dns member value := by
  refine ⟨(triplet.getMember dns member).2, Prod.ext (hreads 0) rfl, ?_⟩
  intro calls
  exact hreads (calls + 1)

namespace CachedPatternMatch

/-- The factories of a class of matchers over unchanging tables. -/
def factory (regcomp : RegexCompiler) (tables : Nat → Table) (m : Matcher)
    (delivery : Delivery) : Except Error Cache :=
  create regcomp m delivery (tables m.ds)

theorem match_handler (regcomp : RegexCompiler) (m : Matcher)
    (delivery : Delivery) (table : Table) (dns : Nat → Resolution)
    (handler : CacheHandler Cache) (triplet : Triplet) (extra : Extra) :
    (CachedPatternMatch.match regcomp m delivery table dns handler triplet
        extra).2 =
      (handler.consult m.ds (create regcomp m delivery table)).2 := by
  rw [CachedPatternMatch.match]
  rcases handler.consult m.ds (create regcomp m delivery table) with
    ⟨_ | _, _⟩ <;> rfl

end CachedPatternMatch

namespace CacheSharingWitness

def triplet : Triplet :=
  Triplet.new "192.0.2.7".toList "alice@example.org".toList
    "bob@example.net".toList [] []

end CacheSharingWitness

end GreylistServer
