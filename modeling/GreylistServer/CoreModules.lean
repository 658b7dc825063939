/-
The chains a configuration makes.  Matchers only read the tables and set the
comment when they accept, a whitelist only sets the prefix, and a greylist
never asks to continue; so the first module that accepts decides, and a
whitelist that does leaves every table as it was.
-/
import GreylistServer.CoreProcess
import GreylistServer.Creators
import GreylistServer.GreylistStep
import GreylistServer.Matchers

namespace GreylistServer

def Whitelist.decide (name : Str) (extra : Extra) : ActionType × Extra :=
  (.dunno, extra.setPrefix (("wl " : Str) ++ name))

/-- A match leaves the remarks alone, or accepts and sets the comment. -/
def MatchOutcome.Remarks (extra : Extra) (outcome : MatchOutcome) : Prop :=
  outcome.extra = extra ∨
    outcome.result = .ok true ∧ ∃ text, outcome.extra = extra.setComment text

theorem ExactMatch.match_remarks (m : Matcher) (delivery : Delivery)
    (table : Table) (dns : Nat → Resolution) (triplet : Triplet)
    (extra : Extra) :
    (ExactMatch.match m delivery table dns triplet extra).Remarks extra := by
  unfold ExactMatch.match
  rcases triplet.getMember dns m.member with ⟨answer, triplet⟩
  cases answer with
  | error e => exact Or.inl rfl
  | ok value =>
      by_cases hfield : m.returnfield ≠ []
      · simp only [if_pos hfield]
        split
        · exact Or.inl rfl
        · exact Or.inl rfl
        · exact Or.inr ⟨rfl, _, rfl⟩
      · simp only [if_neg hfield]
        split <;> exact Or.inl rfl

theorem PatternMatch.scan_remarks (regcomp : RegexCompiler) (m : Matcher)
    (dns : Nat → Resolution) (rows : ResultSet) (triplet : Triplet)
    (extra : Extra) :
    (PatternMatch.scan regcomp m dns rows triplet extra).Remarks extra := by
  induction rows generalizing triplet with
  | nil => exact Or.inl rfl
  | cons row rest ih =>
      unfold PatternMatch.scan
      split
      · exact Or.inl rfl
      · split
        · exact Or.inl rfl
        · split
          · exact Or.inr ⟨rfl, _, rfl⟩
          · exact ih _

theorem PatternMatch.match_remarks (regcomp : RegexCompiler) (m : Matcher)
    (delivery : Delivery) (table : Table) (dns : Nat → Resolution)
    (triplet : Triplet) (extra : Extra) :
    (PatternMatch.match regcomp m delivery table dns triplet extra).Remarks
      extra := by
  unfold PatternMatch.match
  split
  · exact Or.inl rfl
  · exact PatternMatch.scan_remarks regcomp m dns _ triplet extra

theorem CachedExactMatch.match_remarks (m : Matcher) (delivery : Delivery)
    (table : Table) (dns : Nat → Resolution)
    (handler : CacheHandler CachedExactMatch.Cache) (triplet : Triplet)
    (extra : Extra) :
    (CachedExactMatch.match m delivery table dns handler triplet
      extra).1.Remarks extra := by
  unfold CachedExactMatch.match
  split
  · exact Or.inl rfl
  · unfold CachedExactMatch.answer
    split
    · exact Or.inl rfl
    · split
      · exact Or.inl rfl
      · split
        · exact Or.inl rfl
        · exact Or.inr ⟨rfl, _, rfl⟩

theorem CachedPatternMatch.answer_remarks (m : Matcher)
    (dns : Nat → Resolution) (cache : CachedPatternMatch.Cache)
    (triplet : Triplet) (extra : Extra) :
    (CachedPatternMatch.answer m dns cache triplet extra).Remarks extra := by
  induction cache generalizing triplet with
  | nil => exact Or.inl rfl
  | cons entry rest ih =>
      unfold CachedPatternMatch.answer
      split
      · exact Or.inl rfl
      · split
        · exact Or.inr ⟨rfl, _, rfl⟩
        · exact ih _

theorem CachedPatternMatch.match_remarks (regcomp : RegexCompiler)
    (m : Matcher) (delivery : Delivery) (table : Table)
    (dns : Nat → Resolution) (handler : CacheHandler CachedPatternMatch.Cache)
    (triplet : Triplet) (extra : Extra) :
    (CachedPatternMatch.match regcomp m delivery table dns handler triplet
      extra).1.Remarks extra := by
  unfold CachedPatternMatch.match
  split
  · exact Or.inl rfl
  · exact CachedPatternMatch.answer_remarks m dns _ triplet extra

/-- The verdicts of a policy that never asks to continue. -/
def Final (action : Except Error ActionType) : Prop :=
  ∀ verdict, action = .ok verdict → verdict = .dunno ∨ verdict = .defer

theorem final_error (e : Error) : Final (.error e) :=
  fun _ heq => by cases heq

theorem final_dunno : Final (.ok .dunno) :=
  fun _ heq => Or.inl (Except.ok.inj heq).symm

theorem final_defer : Final (.ok .defer) :=
  fun _ heq => Or.inr (Except.ok.inj heq).symm

theorem Greylist.insertTriplet_returns {P : Outcome → Prop} (t : Triplet)
    {next : Except Error Unit → Triplet → Session Outcome}
    (hnext : ∀ result t, (next result t).Returns P) :
    (Greylist.insertTriplet t next).Returns P := by
  intro now
  beta_reduce
  split
  · exact hnext _ _
  · intro result
    exact hnext _ _

theorem Greylist.findTriplet_returns {P : Outcome → Prop} (g : Greylist)
    (t : Triplet)
    {next : Except Error (Option Found) → Triplet → Session Outcome}
    (hnext : ∀ found t, (next found t).Returns P) :
    (g.findTriplet t next).Returns P := by
  unfold Greylist.findTriplet
  split
  · exact hnext _ _
  · intro result
    beta_reduce
    split <;> exact hnext _ _

/-- A greylist defers, lets pass or throws, whatever the database answers. -/
theorem Greylist.decide_returns_final (g : Greylist) (t : Triplet)
    (extra : Extra) :
    (g.decide t extra).Returns fun outcome => Final outcome.action := by
  apply Greylist.findTriplet_returns
  intro found t
  split
  · exact final_error _
  · apply Greylist.insertTriplet_returns
    intro result t
    split
    · exact final_error _
    · exact final_defer
  · intro now
    beta_reduce
    split
    · intro result
      beta_reduce
      split
      · exact final_error _
      · exact final_dunno
    · exact final_defer

namespace Core

/-- What the modules share: the tables of the database servers, the caches of
the two cached classes, and how many calls have been made so far. -/
structure World where
  tables : Nat → Table
  exactCaches : CacheHandler CachedExactMatch.Cache := {}
  patternCaches : CacheHandler CachedPatternMatch.Cache := {}
  calls : Nat := 0

/-- What is outside the program: the table and the address of every data
source, the name server, the expression compiler and the ids of new rows; the
order of delivered rows and the time may differ from call to call. -/
structure Outside where
  tableOf : DBDataSource → Nat
  address : DBDataSource → Nat
  dns : Nat → Resolution
  regcomp : RegexCompiler
  ids : IdSource
  delivery : Nat → Delivery
  now : Nat → Nat

namespace Outside

variable (out : Outside)

/-- A matcher of the configuration at work. -/
def «match» : ConfiguredMatcher → MatchFn World
  | .all, c => (.ok true, c)
  | .lookup type ds column member returnfield, c =>
      let m : Matcher := ⟨out.address ds, column, member, returnfield⟩
      let delivery := out.delivery c.world.calls
      let table := c.world.tables (out.tableOf ds)
      let world := { c.world with calls := c.world.calls + 1 }
      match type with
      | .exact_match =>
          let outcome :=
            ExactMatch.match m delivery table out.dns c.triplet c.extra
          (outcome.result, ⟨world, outcome.triplet, outcome.extra⟩)
      | .pattern_match =>
          let outcome := PatternMatch.match out.regcomp m delivery table
            out.dns c.triplet c.extra
          (outcome.result, ⟨world, outcome.triplet, outcome.extra⟩)
      | .cached_exact_match =>
          let outcome := CachedExactMatch.match m delivery table out.dns
            c.world.exactCaches c.triplet c.extra
          (outcome.1.result, ⟨{ world with exactCaches := outcome.2 },
            outcome.1.triplet, outcome.1.extra⟩)
      | .cached_pattern_match =>
          let outcome := CachedPatternMatch.match out.regcomp m delivery table
            out.dns c.world.patternCaches c.triplet c.extra
          (outcome.1.result, ⟨{ world with patternCaches := outcome.2 },
            outcome.1.triplet, outcome.1.extra⟩)
      | .all => (.ok true, c)

/-- A policy of the configuration at work. -/
def decide : ConfiguredPolicy → DecideFn World
  | .whitelist name, c =>
      let verdict := Whitelist.decide name c.extra
      (.ok verdict.1, { c with extra := verdict.2 })
  | .greylist ds policy, c =>
      let place := out.tableOf ds
      let outcome := policy.decideAlone out.ids
        (out.delivery c.world.calls) (out.now c.world.calls) c.triplet c.extra
        (c.world.tables place)
      (outcome.1.action,
        ⟨{ c.world with
            tables := Function.update c.world.tables place outcome.2
            calls := c.world.calls + 1 },
          outcome.1.triplet, outcome.1.extra⟩)

/-- Policies of the configuration behind any matchers. -/
def modules (chain : List (MatchFn World × ConfiguredPolicy)) :
    List (Module World) :=
  chain.map fun entry => ⟨entry.1, out.decide entry.2⟩

/-- The matchers of a configured chain at work. -/
def configured (chain : Chain) : List (MatchFn World × ConfiguredPolicy) :=
  chain.map fun entry => (out.match entry.1, entry.2)

theorem match_spec (matcher : ConfiguredMatcher) (c : Context World) :
    (out.match matcher c).2.world.tables = c.world.tables ∧
      ((out.match matcher c).2.extra = c.extra ∨
        (out.match matcher c).1 = .ok true ∧
          ∃ text, (out.match matcher c).2.extra = c.extra.setComment text) := by
  cases matcher with
  | all => exact ⟨rfl, Or.inl rfl⟩
  | lookup type ds column member returnfield =>
      cases type with
      | exact_match => exact ⟨rfl, ExactMatch.match_remarks _ _ _ _ _ _⟩
      | pattern_match => exact ⟨rfl, PatternMatch.match_remarks _ _ _ _ _ _ _⟩
      | cached_exact_match =>
          exact ⟨rfl, CachedExactMatch.match_remarks _ _ _ _ _ _ _⟩
      | cached_pattern_match =>
          exact ⟨rfl, CachedPatternMatch.match_remarks _ _ _ _ _ _ _ _⟩
      | all => exact ⟨rfl, Or.inl rfl⟩

theorem decide_final (policy : ConfiguredPolicy) (c : Context World) :
    Final (out.decide policy c).1 := by
  cases policy with
  | whitelist name => exact final_dunno
  | greylist ds policy =>
      exact (policy.decide_returns_final c.triplet c.extra).eval _ _

/-- The matchers are asked in turn without an exception, and every answer is
one that `P` allows the module's policy. -/
def Asked (P : ConfiguredPolicy → Bool → Prop) :
    Chain → Context World → Context World → Prop
  | [], c, next => next = c
  | entry :: rest, c, next =>
      ∃ answer mid, out.match entry.1 c = (.ok answer, mid) ∧
        P entry.2 answer ∧ Asked P rest mid next

end Outside

def Declines (_policy : ConfiguredPolicy) (answer : Bool) : Prop :=
  answer = false

/-- Only whitelists may accept. -/
def DeclinesIfGreylist (policy : ConfiguredPolicy) (answer : Bool) : Prop :=
  answer = true → ∃ name, policy = .whitelist name

namespace Outside

variable {out : Outside}

theorem Asked.passedOver {chain : Chain} {c next : Context World}
    (hasked : out.Asked Declines chain c next) :
    PassedOver (out.modules (out.configured chain)) c next := by
  induction chain generalizing c with
  | nil => exact hasked
  | cons entry rest ih =>
      obtain ⟨answer, mid, hmatch, rfl, hrest⟩ := hasked
      exact ⟨mid, Or.inl hmatch, ih hrest⟩

/-- Matchers that decline have changed neither a table nor a remark. -/
theorem Asked.unchanged {chain : Chain} {c next : Context World}
    (hasked : out.Asked Declines chain c next) :
    next.world.tables = c.world.tables ∧ next.extra = c.extra := by
  induction chain generalizing c with
  | nil =>
      cases hasked
      exact ⟨rfl, rfl⟩
  | cons entry rest ih =>
      obtain ⟨answer, mid, hmatch, rfl, hrest⟩ := hasked
      obtain ⟨htables, hextra⟩ := ih hrest
      have hspec := out.match_spec entry.1 c
      rw [hmatch] at hspec
      rcases hspec with ⟨hsame, hkept | ⟨haccept, -⟩⟩
      · exact ⟨htables.trans hsame, hextra.trans hkept⟩
      · cases haccept

/-- A whitelist accepts and no greylist before it does: then the first module
that accepts is a whitelist, and it is this one if nothing accepts before. -/
theorem Asked.first_whitelist {before : Chain} {c c1 c2 : Context World}
    (hasked : out.Asked DeclinesIfGreylist before c c1)
    {matcher : ConfiguredMatcher}
    (haccept : out.match matcher c1 = (.ok true, c2)) (name : Str)
    (after : Chain) :
    ∃ skipped first firstName rest reached accepted,
      before ++ (matcher, .whitelist name) :: after =
        skipped ++ (first, .whitelist firstName) :: rest ∧
      out.Asked Declines skipped c reached ∧
      out.match first reached = (.ok true, accepted) ∧
      (out.Asked Declines before c c1 →
        skipped = before ∧ first = matcher ∧ firstName = name ∧
          accepted = c2) := by
  induction before generalizing c with
  | nil =>
      cases hasked
      exact ⟨[], matcher, name, after, c1, c2, rfl, rfl, haccept,
        fun _ => ⟨rfl, rfl, rfl, rfl⟩⟩
  | cons entry before ih =>
      obtain ⟨answer, mid, hmatch, hallowed, hrest⟩ := hasked
      cases answer with
      | true =>
          obtain ⟨firstName, hpolicy⟩ := hallowed rfl
          refine ⟨[], entry.1, firstName,
            before ++ (matcher, .whitelist name) :: after, c, mid, ?_, rfl,
            hmatch, ?_⟩
          · rw [← hpolicy]
            rfl
          · rintro ⟨answer, other, hother, rfl, -⟩
            rw [hmatch] at hother
            cases hother
      | false =>
          obtain ⟨skipped, first, firstName, rest, reached, accepted, hchain,
            hskipped, hfirst, hsame⟩ := ih hrest
          refine ⟨entry :: skipped, first, firstName, rest, reached, accepted,
            ?_, ⟨false, mid, hmatch, rfl, hskipped⟩, hfirst, ?_⟩
          · rw [List.cons_append, hchain, List.cons_append]
          · rintro ⟨answer, other, hother, rfl, hdeclined⟩
            rw [hmatch] at hother
            cases hother
            obtain ⟨rfl, heq⟩ := hsame hdeclined
            exact ⟨rfl, heq⟩

theorem process_whitelist {skipped : Chain} {c reached accepted : Context World}
    (hskipped : out.Asked Declines skipped c reached)
    {first : ConfiguredMatcher}
    (hfirst : out.match first reached = (.ok true, accepted)) (name : Str)
    (rest : Chain) :
    process (out.modules
        (out.configured (skipped ++ (first, .whitelist name) :: rest))) c =
      (.ok .dunno,
        { accepted with
          extra := accepted.extra.setPrefix (("wl " : Str) ++ name) }) := by
  have hends : Module.Ends ⟨out.match first, out.decide (.whitelist name)⟩
      reached (.ok .dunno)
      { accepted with
        extra := accepted.extra.setPrefix (("wl " : Str) ++ name) } :=
    ⟨by decide, accepted, hfirst, rfl⟩
  rw [configured, modules, List.map_append, List.map_append]
  exact (process_append_of_passedOver hskipped.passedOver _).trans
    (process_cons_of_ends hends _)

/-- With the policies of the configuration and any matchers, a walk defers,
lets pass or throws. -/
theorem process_modules_final (out : Outside)
    (chain : List (MatchFn World × ConfiguredPolicy)) (c : Context World) :
    Final (process (out.modules chain) c).1 := by
  rcases process_firstDecision (out.modules chain) c with
    ⟨before, m, after, reached, hchain, -, hends⟩ | ⟨-, hdunno⟩
  · intro verdict hverdict
    rw [hverdict] at hends
    obtain ⟨-, accepted, -, hdecide⟩ := hends
    have hmem : m ∈ out.modules chain := by
      rw [hchain]
      exact List.mem_append_right _ List.mem_cons_self
    obtain ⟨entry, -, rfl⟩ := List.mem_map.mp hmem
    exact out.decide_final entry.2 accepted verdict (congrArg Prod.fst hdecide)
  · rw [hdunno]
    exact final_dunno

end Outside

/-- A chain answers with its first module that accepts and does not want to
continue, and calls nothing behind it; no configured policy answers `cont` or
`error`.  A whitelist that accepts before every greylist lets pass, with the
comment of its matcher and without a change to a table. -/
theorem process_answers_with_first_decision (out : Outside) :
    (∀ (σ : Type) (chain : List (Module σ)) (c : Context σ)
      (result : Except Error ActionType) (next : Context σ),
      process chain c = (result, next) ↔
        FirstDecision chain c result next) ∧
    (∀ (σ : Type) (before after : List (Module σ)) (m : Module σ)
      (c reached next : Context σ) (result : Except Error ActionType),
      PassedOver before c reached → m.Ends reached result next →
      ∃ calls, WalkCalls 0 (before.length + 1) calls ∧
        process (traced 0 (before ++ m :: after)) (c.withLog []) =
          (result, next.withLog calls)) ∧
    (∀ (chain : List (MatchFn World × ConfiguredPolicy)) (c : Context World)
      (action : ActionType) (next : Context World),
      process (out.modules chain) c = (.ok action, next) →
      action = .dunno ∨ action = .defer) ∧
    (∀ (before after : Chain) (matcher : ConfiguredMatcher) (name : Str)
      (c c1 c2 : Context World),
      out.Asked DeclinesIfGreylist before c c1 →
      out.match matcher c1 = (.ok true, c2) →
      ∃ skipped first firstName rest reached accepted next,
        before ++ (matcher, .whitelist name) :: after =
          skipped ++ (first, .whitelist firstName) :: rest ∧
        out.Asked Declines skipped c reached ∧
        out.match first reached = (.ok true, accepted) ∧
        (out.Asked Declines before c c1 →
          skipped = before ∧ first = matcher ∧ firstName = name ∧
            accepted = c2) ∧
        process (out.modules (out.configured
          (before ++ (matcher, .whitelist name) :: after))) c =
            (.ok .dunno, next) ∧
        next.world.tables = c.world.tables ∧
        next.extra.comment = accepted.extra.comment ∧
        (accepted.extra = c.extra ∨
          ∃ text, accepted.extra = c.extra.setComment text)) := by
  refine ⟨fun σ chain c result next => process_eq_iff chain c result next,
    ?_, ?_, ?_⟩
  · intro σ before after m c reached next result hbefore hends
    exact process_traced_of_ends hbefore hends after 0 []
  · intro chain c action next hprocess
    have hfinal := out.process_modules_final chain c
    rw [hprocess] at hfinal
    exact hfinal action rfl
  · intro before after matcher name c c1 c2 hasked haccept
    obtain ⟨skipped, first, firstName, rest, reached, accepted, hchain,
      hskipped, hfirst, hsame⟩ := hasked.first_whitelist haccept name after
    obtain ⟨htables, hextra⟩ := hskipped.unchanged
    have hprocess := Outside.process_whitelist hskipped hfirst firstName rest
    rw [← hchain] at hprocess
    have hspec := out.match_spec first reached
    rw [hfirst, hextra] at hspec
    refine ⟨skipped, first, firstName, rest, reached, accepted, _, hchain,
      hskipped, hfirst, hsame, hprocess, hspec.1.trans htables, rfl, ?_⟩
    rcases hspec.2 with hkept | ⟨-, hset⟩
    · exact Or.inl hkept
    · exact Or.inr hset

namespace CoreWitness

def database : Database := ⟨"main".toList, {}, 1⟩

def friends : DBDataSource := ⟨"friends".toList, database, "friends".toList⟩

def triplets : DBDataSource := ⟨"triplets".toList, database, "triplets".toList⟩

/-- Nothing resolves, rows come as they stand in the table and the clock
stands. -/
def out : Outside where
  tableOf ds := if ds = friends then 0 else 1
  address ds := if ds = friends then 0 else 1
  dns _ := .failure [] []
  regcomp expr := .ok fun text => text = expr
  ids := .autoIncrement
  delivery _ := .inTableOrder
  now _ := 1000

/-- One row that names a sender. -/
def friendsTable : Table where
  columns := ["address".toList, "note".toList]
  rows := [⟨1, fun name =>
    .text (if name = "address".toList then "alice@example.org".toList
      else "friend".toList)⟩]
  columns_named := by decide

def triplet : Triplet :=
  Triplet.new "192.0.2.7".toList "alice@example.org".toList
    "bob@example.net".toList [] []

def start : Context World where
  world := { tables := fun place => if place = 0 then friendsTable
    else ⟨tripletColumns, [], allColumns_not_mem_tripletColumns⟩ }
  triplet := triplet
  extra := {}

def byRecipient : ConfiguredMatcher :=
  .lookup .cached_exact_match friends "address".toList .recipient
    "note".toList

def bySender : ConfiguredMatcher :=
  .lookup .exact_match friends "address".toList .sender "note".toList

def greylist : ConfiguredPolicy :=
  .greylist triplets
    ⟨.weak, true, 300, 3, IPAddress.three_le_default_length⟩

/-- The greylist in front does not know the recipient, the whitelist knows the
sender, and the greylist behind is not asked. -/
theorem sender_whitelisted :
    ∃ next, process (out.modules (out.configured
        [(byRecipient, greylist), (bySender, .whitelist "friends".toList),
          (.all, greylist)])) start = (.ok .dunno, next) ∧
      next.world.tables = start.world.tables ∧
      next.extra.comment = "friend".toList := by
  have hgreylist : (out.match byRecipient start).1 = .ok false := by decide
  have hwhitelist :
      (out.match bySender (out.match byRecipient start).2).1 = .ok true := by
    decide
  have hcomment : (out.match bySender
      (out.match byRecipient start).2).2.extra.comment = "friend".toList := by
    decide
  obtain ⟨skipped, first, firstName, rest, reached, accepted, next, -, -, -,
    hsame, hprocess, htables, hset, -⟩ :=
    (process_answers_with_first_decision out).2.2.2 [(byRecipient, greylist)]
      [(.all, greylist)] bySender "friends".toList start
      (out.match byRecipient start).2 _
      ⟨false, _, Prod.ext hgreylist rfl, by simp [DeclinesIfGreylist], rfl⟩
      (Prod.ext hwhitelist rfl)
  obtain ⟨-, -, -, rfl⟩ :=
    hsame ⟨false, _, Prod.ext hgreylist rfl, rfl, rfl⟩
  exact ⟨next, hprocess, htables, hset.trans hcomment⟩

/-- Two whitelists accept, and the comment is not that of the second. -/
theorem first_whitelist_comments :
    (out.match bySender start).1 = .ok true ∧
      (out.match bySender start).2.extra.comment = "friend".toList ∧
      (out.match bySender (out.match .all start).2).1 = .ok true ∧
      (process (out.modules (out.configured
        [(.all, .whitelist "all".toList),
          (bySender, .whitelist "friends".toList)])) start).1 = .ok .dunno ∧
      (process (out.modules (out.configured
        [(.all, .whitelist "all".toList),
          (bySender, .whitelist "friends".toList)])) start).2.extra.comment =
        [] := by
  refine ⟨?_, ?_, ?_, ?_, ?_⟩ <;> decide

end CoreWitness

end Core

end GreylistServer
