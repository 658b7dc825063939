/-
The daemon as a policy service.  The whitelists and the matcher of the
greylist sort out the requests that are not greylisted; all others are
answered from the keys and times seen before.  Reading the streams of any
number of connections one after the other, the daemon writes for every request
it serves the response to the answer of this service.
-/
import GreylistServer.Lib.Transducer
import GreylistServer.CoreModules
import GreylistServer.GreylistService
import GreylistServer.ServerFraming

namespace GreylistServer

namespace Triplet

/-- Members may have been filled, but the numeric components are still those
of `t`. -/
def Kept (t after : Triplet) : Prop :=
  after.SameData t ∧ after.client_address.numeric = t.client_address.numeric

theorem Kept.refl (t : Triplet) : t.Kept t :=
  ⟨SameData.refl t, rfl⟩

theorem Kept.trans {a b c : Triplet} (hab : a.Kept b) (hbc : b.Kept c) :
    a.Kept c :=
  ⟨hbc.1.trans hab.1, hbc.2.trans hab.2⟩

theorem getMember_kept (dns : Nat → Resolution) (t : Triplet)
    (member : MemberType) : t.Kept (t.getMember dns member).2 := by
  have hresolve : ∀ ip : IPAddress, (ip.resolve dns).str = ip.str ∧
      (ip.resolve dns).clientname = ip.clientname ∧
      (ip.resolve dns).numeric = ip.numeric := by
    intro ip
    unfold IPAddress.resolve
    split <;> exact ⟨rfl, rfl, rfl⟩
  obtain ⟨hstr, hname, hnumeric⟩ := hresolve t.client_address
  cases member with
  | client_address => exact Kept.refl t
  | sender => exact Kept.refl t
  | recipient => exact Kept.refl t
  | client_name => exact Kept.refl t
  | unknown idx => exact Kept.refl t
  | reverse_client_name =>
      simp only [getMember, getReverseClientName, IPAddress.getReverseName]
      split
      · exact Kept.refl t
      · split
        · exact Kept.refl t
        · exact ⟨⟨rfl, rfl, hstr, hname⟩, hnumeric⟩
  | short_reverse_client_name =>
      simp only [getMember, getShortReverseClientName,
        IPAddress.getShortReverseName]
      split
      · exact Kept.refl t
      · split
        · exact Kept.refl t
        · by_cases hempty : t.client_address.reverse = []
          · simp only [hempty, ↓reduceIte]
            split <;> exact ⟨⟨rfl, rfl, hstr, hname⟩, hnumeric⟩
          · simp only [hempty, ↓reduceIte]
            exact ⟨⟨rfl, rfl, rfl, rfl⟩, rfl⟩
  | short_client_name =>
      exact ⟨t.getShortClientName_sameData, t.getShortClientName_numeric⟩
  | triplet_string =>
      simp only [getMember, getTripletString]
      split
      · exact Kept.refl t
      · exact ⟨⟨rfl, rfl, rfl, rfl⟩, rfl⟩
  | network =>
      simp only [getMember, getNetwork, IPAddress.getNetwork]
      split
      · exact Kept.refl t
      · exact ⟨⟨rfl, rfl, rfl, rfl⟩, rfl⟩

end Triplet

theorem ExactMatch.match_kept (m : Matcher) (delivery : Delivery)
    (table : Table) (dns : Nat → Resolution) (triplet : Triplet)
    (extra : Extra) :
    triplet.Kept
      (ExactMatch.match m delivery table dns triplet extra).triplet := by
  have hmember := triplet.getMember_kept dns m.member
  unfold ExactMatch.match
  rcases hget : triplet.getMember dns m.member with ⟨answer, after⟩
  rw [hget] at hmember
  cases answer with
  | error e => exact hmember
  | ok value =>
      simp only
      split <;> exact hmember

theorem PatternMatch.scan_kept (regcomp : RegexCompiler) (m : Matcher)
    (dns : Nat → Resolution) (rows : ResultSet) (triplet : Triplet)
    (extra : Extra) :
    triplet.Kept
      (PatternMatch.scan regcomp m dns rows triplet extra).triplet := by
  induction rows generalizing triplet with
  | nil => exact Triplet.Kept.refl triplet
  | cons row rest ih =>
      have hmember := triplet.getMember_kept dns m.member
      unfold PatternMatch.scan
      split
      · exact Triplet.Kept.refl triplet
      · split
        · next e after hget =>
            rw [hget] at hmember
            exact hmember
        · next value after hget =>
            rw [hget] at hmember
            split
            · exact hmember
            · exact hmember.trans (ih after)

theorem PatternMatch.match_kept (regcomp : RegexCompiler) (m : Matcher)
    (delivery : Delivery) (table : Table) (dns : Nat → Resolution)
    (triplet : Triplet) (extra : Extra) :
    triplet.Kept (PatternMatch.match regcomp m delivery table dns triplet
      extra).triplet := by
  unfold PatternMatch.match
  split
  · exact Triplet.Kept.refl triplet
  · exact PatternMatch.scan_kept regcomp m dns _ triplet extra

theorem CachedExactMatch.match_kept (m : Matcher) (delivery : Delivery)
    (table : Table) (dns : Nat → Resolution)
    (handler : CacheHandler CachedExactMatch.Cache) (triplet : Triplet)
    (extra : Extra) :
    triplet.Kept (CachedExactMatch.match m delivery table dns handler triplet
      extra).1.triplet := by
  have hmember := triplet.getMember_kept dns m.member
  unfold CachedExactMatch.match
  split
  · exact Triplet.Kept.refl triplet
  · unfold CachedExactMatch.answer
    split
    · next e after hget =>
        rw [hget] at hmember
        exact hmember
    · next value after hget =>
        rw [hget] at hmember
        split
        · exact hmember
        · split <;> exact hmember

theorem CachedPatternMatch.answer_kept (m : Matcher)
    (dns : Nat → Resolution) (cache : CachedPatternMatch.Cache)
    (triplet : Triplet) (extra : Extra) :
    triplet.Kept
      (CachedPatternMatch.answer m dns cache triplet extra).triplet := by
  induction cache generalizing triplet with
  | nil => exact Triplet.Kept.refl triplet
  | cons entry rest ih =>
      have hmember := triplet.getMember_kept dns m.member
      unfold CachedPatternMatch.answer
      split
      · next e after hget =>
          rw [hget] at hmember
          exact hmember
      · next value after hget =>
          rw [hget] at hmember
          split
          · exact hmember
          · exact hmember.trans (ih after)

theorem CachedPatternMatch.match_kept (regcomp : RegexCompiler) (m : Matcher)
    (delivery : Delivery) (table : Table) (dns : Nat → Resolution)
    (handler : CacheHandler CachedPatternMatch.Cache) (triplet : Triplet)
    (extra : Extra) :
    triplet.Kept (CachedPatternMatch.match regcomp m delivery table dns
      handler triplet extra).1.triplet := by
  unfold CachedPatternMatch.match
  split
  · exact Triplet.Kept.refl triplet
  · exact CachedPatternMatch.answer_kept m dns _ triplet extra

namespace Core

/-- The tables and the data of the triplet are as before, and the calls are
not fewer. -/
structure Looked (c next : Context World) : Prop where
  tables : next.world.tables = c.world.tables
  calls : c.world.calls ≤ next.world.calls
  triplet : c.triplet.Kept next.triplet

theorem Looked.refl (c : Context World) : Looked c c :=
  ⟨rfl, Nat.le_refl _, Triplet.Kept.refl _⟩

theorem Looked.trans {a b c : Context World} (hab : Looked a b)
    (hbc : Looked b c) : Looked a c where
  tables := hbc.tables.trans hab.tables
  calls := Nat.le_trans hab.calls hbc.calls
  triplet := hab.triplet.trans hbc.triplet

namespace Outside

variable (out : Outside)

theorem match_looked (matcher : ConfiguredMatcher) (c : Context World) :
    Looked c (out.match matcher c).2 := by
  have htables := (out.match_spec matcher c).1
  cases matcher with
  | all => exact Looked.refl c
  | lookup type ds column member returnfield =>
      cases type with
      | exact_match =>
          exact ⟨htables, Nat.le_succ _, ExactMatch.match_kept _ _ _ _ _ _⟩
      | pattern_match =>
          exact ⟨htables, Nat.le_succ _,
            PatternMatch.match_kept _ _ _ _ _ _ _⟩
      | cached_exact_match =>
          exact ⟨htables, Nat.le_succ _,
            CachedExactMatch.match_kept _ _ _ _ _ _ _⟩
      | cached_pattern_match =>
          exact ⟨htables, Nat.le_succ _,
            CachedPatternMatch.match_kept _ _ _ _ _ _ _ _⟩
      | all => exact Looked.refl c

/-- Whether a request is exempt from greylisting: a whitelist accepts it, or
the matcher of the greylist declines it. -/
def screen (guard : ConfiguredMatcher) :
    List (ConfiguredMatcher × Str) → Context World →
      Except Error Bool × Context World
  | [], c =>
      match out.match guard c with
      | (.error e, c) => (.error e, c)
      | (.ok accepted, c) => (.ok (!accepted), c)
  | (matcher, name) :: rest, c =>
      match out.match matcher c with
      | (.error e, c) => (.error e, c)
      | (.ok true, c) =>
          (.ok true, { c with extra := (Whitelist.decide name c.extra).2 })
      | (.ok false, c) => screen guard rest c

theorem screen_looked (guard : ConfiguredMatcher)
    (whitelists : List (ConfiguredMatcher × Str)) (c : Context World) :
    Looked c (out.screen guard whitelists c).2 := by
  induction whitelists generalizing c with
  | nil =>
      have hlooked := out.match_looked guard c
      rw [screen]
      split
      · next hmatch =>
          rw [hmatch] at hlooked
          exact hlooked
      · next hmatch =>
          rw [hmatch] at hlooked
          exact hlooked
  | cons entry rest ih =>
      obtain ⟨matcher, name⟩ := entry
      have hlooked := out.match_looked matcher c
      rw [screen]
      split
      · next hmatch =>
          rw [hmatch] at hlooked
          exact hlooked
      · next hmatch =>
          rw [hmatch] at hlooked
          exact ⟨hlooked.tables, hlooked.calls, hlooked.triplet⟩
      · next after hmatch =>
          rw [hmatch] at hlooked
          exact hlooked.trans (ih after)

end Outside

/-- Whitelists in front of one greylist. -/
structure Layout where
  whitelists : List (ConfiguredMatcher × Str)
  guard : ConfiguredMatcher
  ds : DBDataSource
  greylist : Greylist

def Layout.chain (layout : Layout) : Chain :=
  layout.whitelists.map (fun entry => (entry.1, .whitelist entry.2)) ++
    [(layout.guard, .greylist layout.ds layout.greylist)]

namespace Outside

variable (out : Outside)

/-- The policy chain asks the greylist exactly about the requests that are not
exempt. -/
theorem process_chain (layout : Layout) (c : Context World) :
    process (out.modules (out.configured layout.chain)) c =
      match out.screen layout.guard layout.whitelists c with
      | (.error e, c) => (.error e, c)
      | (.ok true, c) => (.ok .dunno, c)
      | (.ok false, c) =>
          out.decide (.greylist layout.ds layout.greylist) c := by
  obtain ⟨whitelists, guard, ds, g⟩ := layout
  induction whitelists generalizing c with
  | nil =>
      have hfinal := fun c => out.decide_final (.greylist ds g) c
      simp only [Layout.chain, List.map_nil, List.nil_append, configured,
        List.map_cons, modules, process, screen]
      rcases hmatch : out.match guard c with ⟨answer, after⟩
      rcases answer with e | answer
      · rfl
      · cases answer with
        | false => rfl
        | true =>
            have hverdict := hfinal after
            simp only [Bool.not_true]
            rcases hdecide : out.decide (.greylist ds g) after with
              ⟨verdict, next⟩
            rw [hdecide] at hverdict
            rcases verdict with e | action
            · rfl
            · have hcont : action ≠ .cont := by
                rcases hverdict action rfl with rfl | rfl <;> decide
              simp only [if_pos hcont]
  | cons entry rest ih =>
      obtain ⟨matcher, name⟩ := entry
      have hrest := ih
      simp only [Layout.chain, configured, modules] at hrest
      simp only [Layout.chain, List.map_cons, List.cons_append, configured,
        modules, process, screen]
      rcases hmatch : out.match matcher c with ⟨answer, after⟩
      rcases answer with e | answer
      · rfl
      · cases answer with
        | false => exact hrest after
        | true => rfl

end Outside

end Core

/-- What the service is asked. -/
inductive Inquiry (K : Type) where
  | refused
  | exempt
  | contact (key : K) (now : Nat) (use : AddressUse)
deriving Repr, DecidableEq

/-- The service: a request whose matchers fail gets the answer for errors, an
exempt one passes, and all others are answered from the sightings. -/
def Sightings.service {K : Type} [DecidableEq K] (timeout : Nat) :
    Transducer (Sightings K) (Inquiry K) ActionType
  | seen, .refused => (.error, seen)
  | seen, .exempt => (.dunno, seen)
  | seen, .contact key now use => seen.answer timeout key now use

/-- The remarks a response is made with: an exception becomes the comment. -/
def Outcome.remarks (outcome : Outcome) : Extra :=
  match outcome.action with
  | .ok _ => outcome.extra
  | .error e => outcome.extra.setComment
      (("Error: caught exception in core: " : Str) ++ e.what)

def Event.written : Event → Option Str
  | .write response => some response
  | _ => none

namespace Server

variable {σ : Type}

/-- What is written for a block. -/
def reply (srv : Server σ) : Transducer σ (List Str) Str := fun state block =>
  let decided := srv.core state (requestOf block).triplet {}
  (srv.responseTo decided.1, decided.2)

/-- The response is what the action makes of a verdict about a block that meets
the given state, with the triplet and the remarks the core leaves behind. -/
def Says (srv : Server σ) (asked : (σ × List Str) × ActionType)
    (response : Str) : Prop :=
  let outcome := (srv.core asked.1.1 (requestOf asked.1.2).triplet {}).1
  ∃ logged, srv.action.process asked.2 outcome.triplet outcome.remarks =
    .ok (response, logged)

/-- The connections of a list one after the other. -/
def serve (srv : Server σ) : List Str → σ → List Event × σ
  | [], state => ([], state)
  | stream :: rest, state =>
      let handled := srv.handle stream state
      let after := srv.serve rest handled.2
      (handled.1 ++ after.1, after.2)

theorem exchanges_reply (srv : Server σ) (requests : List (List Str))
    (state : σ) :
    (srv.exchanges requests state).1.filterMap Event.written =
        (srv.reply.run requests state).1 ∧
      (srv.exchanges requests state).2 = (srv.reply.run requests state).2 := by
  induction requests generalizing state with
  | nil => exact ⟨rfl, rfl⟩
  | cons block rest ih =>
      obtain ⟨hwritten, hstate⟩ :=
        ih (srv.core state (requestOf block).triplet {}).2
      constructor
      · simp only [exchanges, List.filterMap_cons, Event.written,
          Transducer.run, reply, hwritten]
      · simp only [exchanges, Transducer.run, reply, hstate]

theorem filterMap_written (events : List Event) :
    (events.filter Event.isExchange).filterMap Event.written =
      events.filterMap Event.written := by
  induction events with
  | nil => rfl
  | cons event rest ih =>
      cases event <;>
        simp only [List.filter_cons, Event.isExchange, Bool.false_eq_true,
          ↓reduceIte, List.filterMap_cons, Event.written, ih]

/-- A connection is written the replies to the blocks it is served. -/
theorem handle_reply (srv : Server σ)
    (hwrite : ∀ call text, (srv.write call text).nwritten = text.length)
    (stream : Str) (state : σ) :
    (srv.handle stream state).1.filterMap Event.written =
        (srv.reply.run (served srv.maxRequests stream) state).1 ∧
      (srv.handle stream state).2 =
        (srv.reply.run (served srv.maxRequests stream) state).2 := by
  have hlimit : srv.maxRequests = 0 ∨ 0 < srv.maxRequests := by omega
  have hloop := srv.handleLoop_exchanges hwrite stream 0 state hlimit
  obtain ⟨hwritten, hstate⟩ :=
    srv.exchanges_reply (served srv.maxRequests stream) state
  rw [Prod.mk.injEq] at hloop
  constructor
  · rw [← hwritten, ← filterMap_written, handle, hloop.1]
    rfl
  · rw [← hstate, handle, hloop.2]
    rfl

/-- The replies to several connections are those to all their blocks. -/
theorem serve_reply (srv : Server σ)
    (hwrite : ∀ call text, (srv.write call text).nwritten = text.length)
    (streams : List Str) (state : σ) :
    (srv.serve streams state).1.filterMap Event.written =
        (srv.reply.run (streams.flatMap (served srv.maxRequests)) state).1 ∧
      (srv.serve streams state).2 =
        (srv.reply.run (streams.flatMap (served srv.maxRequests)) state).2 := by
  induction streams generalizing state with
  | nil => exact ⟨rfl, rfl⟩
  | cons stream rest ih =>
      obtain ⟨hfirst, hstate⟩ := srv.handle_reply hwrite stream state
      obtain ⟨hwritten, hlast⟩ := ih (srv.handle stream state).2
      rw [List.flatMap_cons, Transducer.run_append, ← hstate, ← hfirst,
        ← hwritten, ← hlast]
      exact ⟨List.filterMap_append, rfl⟩

/-- A verdict other than `cont` is answered with its text, an exception with
the text for errors. -/
theorem reply_says (srv : Server σ) (state : σ) (block : List Str)
    (hcont : (srv.core state (requestOf block).triplet {}).1.action ≠
      .ok .cont) :
    srv.Says ((state, block), verdictOf
        (srv.core state (requestOf block).triplet {}).1.action)
      (srv.reply state block).1 := by
  have hprocess : ∀ verdict t extra, verdict ≠ .cont →
      ∃ response logged, srv.action.process verdict t extra =
        .ok (response, logged) := by
    intro verdict t extra hverdict
    cases verdict with
    | cont => exact absurd rfl hverdict
    | dunno => exact ⟨_, _, rfl⟩
    | defer => exact ⟨_, _, rfl⟩
    | error => exact ⟨_, _, rfl⟩
  simp only [Says, reply]
  generalize (srv.core state (requestOf block).triplet {}).1 = outcome at hcont ⊢
  rcases haction : outcome.action with e | verdict
  · obtain ⟨response, logged, hresponse⟩ := hprocess .error outcome.triplet
      outcome.remarks (by decide)
    refine ⟨logged, ?_⟩
    rw [verdictOf, hresponse]
    rw [Outcome.remarks, haction] at hresponse
    simp only [responseTo, respond, haction, hresponse]
  · have hverdict : verdict ≠ .cont := by
      rintro rfl
      exact hcont haction
    obtain ⟨response, logged, hresponse⟩ :=
      hprocess verdict outcome.triplet outcome.remarks hverdict
    refine ⟨logged, ?_⟩
    rw [verdictOf, hresponse]
    rw [Outcome.remarks, haction] at hresponse
    simp only [responseTo, respond, haction, hresponse]

end Server

theorem Sightings.mem_answer {K : Type} [DecidableEq K] {timeout : Nat}
    {seen : Sightings K} {key : K} {now : Nat} {use : AddressUse}
    {sighting : K × Nat}
    (hmem : sighting ∈ (seen.answer timeout key now use).2) :
    sighting ∈ seen ∨ sighting = (key, now) := by
  have hsighted : sighting ∈ (seen.sight timeout key now).2 →
      sighting ∈ seen ∨ sighting = (key, now) := by
    intro hmem
    rcases List.mem_append.mp hmem with hold | hnew
    · exact Or.inl hold
    · exact Or.inr (List.mem_singleton.mp hnew)
  cases use with
  | complete => exact hsighted hmem
  | ignored =>
      rw [answer] at hmem
      split at hmem
      · exact hsighted hmem
      · exact Or.inl hmem
  | unusable => exact Or.inl hmem

namespace Core.Outside

variable (out : Outside) (layout : Layout)

/-- `Core::process` as the handler calls it. -/
def core (chain : Chain) (world : World) (triplet : Triplet)
    (extra : Extra) : Outcome × World :=
  let result := process (out.modules (out.configured chain))
    ⟨world, triplet, extra⟩
  (⟨result.1, result.2.extra, result.2.triplet⟩, result.2.world)

/-- What the service is asked by a block that meets the given world. -/
def inquire (world : World) (block : List Str) :
    Inquiry (Str × Str × List Nat) :=
  match out.screen layout.guard layout.whitelists
      ⟨world, (requestOf block).triplet, {}⟩ with
  | (.error _, _) => .refused
  | (.ok true, _) => .exempt
  | (.ok false, c) =>
      .contact (layout.greylist.keyOf (requestOf block))
        (out.now c.world.calls) (layout.greylist.addressUse (requestOf block))

/-- The greylist's table records the sightings, none of which is later than
now. -/
def Remembered (seen : Sightings (Str × Str × List Nat)) (world : World) :
    Prop :=
  layout.greylist.Recorded seen (world.tables (out.tableOf layout.ds)) ∧
    ∀ sighting ∈ seen, sighting.2 ≤ out.now world.calls

variable {out layout}

theorem Remembered.later (hclock : Monotone out.now)
    {seen : Sightings (Str × Str × List Nat)} {world next : World}
    (hseen : out.Remembered layout seen world)
    (htables : next.tables = world.tables) (hcalls : world.calls ≤ next.calls) :
    out.Remembered layout seen next := by
  refine ⟨?_, fun sighting hmem => ?_⟩
  · rw [htables]
    exact hseen.1
  · exact Nat.le_trans (hseen.2 sighting hmem) (hclock hcalls)

/-- One request is answered as the service answers it. -/
theorem reply_answers (hclock : Monotone out.now)
    (hmode : layout.greylist.mode = .normal ∨ layout.greylist.mode = .weak)
    {srv : Server World} (hcore : srv.core = out.core layout.chain)
    {seen : Sightings (Str × Str × List Nat)} {world : World}
    (hseen : out.Remembered layout seen world) {block : List Str}
    (hset : (requestOf block).triplet.NumbersSet) :
    srv.Says ((world, block),
        (Sightings.service layout.greylist.timeout seen
          (out.inquire layout world block)).1)
        (srv.reply world block).1 ∧
      out.Remembered layout
        (Sightings.service layout.greylist.timeout seen
          (out.inquire layout world block)).2
        (srv.reply world block).2 := by
  have hlooked := out.screen_looked layout.guard layout.whitelists
    ⟨world, (requestOf block).triplet, {}⟩
  have hprocess := out.process_chain layout
    ⟨world, (requestOf block).triplet, {}⟩
  have hsaid : ∀ {verdict : ActionType},
      (out.core layout.chain world (requestOf block).triplet {}).1.action ≠
        .ok .cont →
      verdictOf (out.core layout.chain world (requestOf block).triplet
        {}).1.action = verdict →
      srv.Says ((world, block), verdict) (srv.reply world block).1 := by
    rintro _ hcont rfl
    rw [← hcore] at hcont ⊢
    exact srv.reply_says world block hcont
  have hafterReply : (srv.reply world block).2 =
      (out.core layout.chain world (requestOf block).triplet {}).2 := by
    rw [Server.reply, hcore]
  rw [hafterReply]
  rcases hscreen : out.screen layout.guard layout.whitelists
    ⟨world, (requestOf block).triplet, {}⟩ with ⟨answer, c⟩
  rw [hscreen] at hlooked hprocess
  have hafter : out.Remembered layout seen c.world :=
    hseen.later hclock hlooked.tables hlooked.calls
  simp only [core, hprocess] at hsaid
  simp only [core, inquire, hscreen, hprocess]
  rcases answer with e | exempt
  · exact ⟨hsaid (by simp) rfl, hafter⟩
  · cases exempt with
    | true => exact ⟨hsaid (by simp) rfl, hafter⟩
    | false =>
        obtain ⟨hverdict, hrecorded⟩ := Greylist.decideAlone_answers out.ids
          (out.delivery c.world.calls) c.extra hmode hafter.1 hafter.2
          hset hlooked.triplet.1 hlooked.triplet.2
        have hfinal := out.decide_final
          (.greylist layout.ds layout.greylist) c
        refine ⟨hsaid ?_ hverdict, ?_, ?_⟩
        · intro hcont
          rcases hfinal .cont hcont with hdunno | hdefer
          · cases hdunno
          · cases hdefer
        · simp only [decide, Function.update_self]
          exact hrecorded
        · intro sighting hmem
          have hnext := hclock (Nat.le_succ c.world.calls)
          rcases Sightings.mem_answer hmem with hold | rfl
          · exact Nat.le_trans (hafter.2 sighting hold) hnext
          · exact hnext

/-- From an empty table of triplets on, the responses written to any
connections are those to the answers of the service, which is asked about the
served blocks one after the other, in the worlds they meet. -/
theorem serve_refines_service (hclock : Monotone out.now)
    (hmode : layout.greylist.mode = .normal ∨ layout.greylist.mode = .weak)
    {srv : Server World} (hcore : srv.core = out.core layout.chain)
    (hwrite : ∀ call text, (srv.write call text).nwritten = text.length)
    {world : World}
    (hempty : world.tables (out.tableOf layout.ds) = Greylist.emptyTable)
    (streams : List Str)
    (hset : ∀ block ∈ streams.flatMap (served srv.maxRequests),
      (requestOf block).triplet.NumbersSet) :
    List.Forall₂ srv.Says
        ((srv.reply.met Prod.mk
          (streams.flatMap (served srv.maxRequests)) world).zip
          (Transducer.run (Sightings.service layout.greylist.timeout)
            (srv.reply.met (out.inquire layout)
              (streams.flatMap (served srv.maxRequests)) world) []).1)
        ((srv.serve streams world).1.filterMap Event.written) ∧
      out.Remembered layout
        (Transducer.run (Sightings.service layout.greylist.timeout)
          (srv.reply.met (out.inquire layout)
            (streams.flatMap (served srv.maxRequests)) world) []).2
        (srv.serve streams world).2 := by
  have hstart : out.Remembered layout [] world := by
    refine ⟨⟨[], ?_, ?_, rfl⟩, ?_⟩
    · rw [hempty]
      exact Greylist.tableAfter_remembers out.ids hmode [] .nil
        (List.forall_mem_nil _)
    · exact List.forall_mem_nil _
    · exact List.forall_mem_nil _
  obtain ⟨hwritten, hstate⟩ := srv.serve_reply hwrite streams world
  rw [hwritten, hstate]
  exact Transducer.refines Prod.mk (out.Remembered layout)
    (streams.flatMap (served srv.maxRequests))
    (fun seen world block hblock hseen =>
      reply_answers hclock hmode hcore hseen (hset block hblock)) hstart

end Core.Outside

namespace PolicyServiceWitness

open GreylistServer.Core GreylistServer.Core.CoreWitness

/-- The clock goes on by 200 seconds with every call. -/
def ticking : Outside :=
  { out with now := fun calls => 1000 + 200 * calls }

/-- Known senders are whitelisted, all others greylisted for 300 seconds. -/
def layout : Layout where
  whitelists := [(bySender, "friends".toList)]
  guard := .all
  ds := triplets
  greylist := ⟨.weak, true, 300, 3, IPAddress.three_le_default_length⟩

def srv : Server World where
  core := ticking.core layout.chain
  action :=
    { deferwithstatus := true
      defer := "defer_if_permit Service is unavailable".toList
      dunno := "dunno".toList
      onerror := "dunno".toList
      logLevel := .full }
  maxRequests := 0
  signal := false
  write _ text := { nwritten := text.length }

/-- A known sender and an unknown one. -/
def first : Str :=
  ("client_address=192.0.2.7\nsender=alice@example.org\nrecipient=b\n\n" ++
    "client_address=192.0.2.7\nsender=carol@example.org\nrecipient=b\n\n"
    ).toList

/-- The unknown sender again from a neighbouring address, and an address that
cannot be read. -/
def second : Str :=
  ("client_address=192.0.2.9\nsender=carol@example.org\nrecipient=b\n\n" ++
    "client_address=::1\nsender=carol@example.org\nrecipient=b\n\n").toList

theorem answers_of_service :
    (Transducer.run (Sightings.service layout.greylist.timeout)
      (srv.reply.met (ticking.inquire layout)
        ([first, second].flatMap (served srv.maxRequests)) start.world)
      []).1 = [.dunno, .defer, .dunno, .error] := by
  decide +kernel

/-- The friend passes, the unknown sender waits and then passes, and the
request without a usable address is an error. -/
theorem four_requests_served :
    List.Forall₂ srv.Says
      ((srv.reply.met Prod.mk
        ([first, second].flatMap (served srv.maxRequests)) start.world).zip
        [.dunno, .defer, .dunno, .error])
      ((srv.serve [first, second] start.world).1.filterMap
        Event.written) := by
  have hset : ∀ block ∈ [first, second].flatMap (served srv.maxRequests),
      (requestOf block).triplet.NumbersSet := by
    decide +kernel
  have hclock : Monotone ticking.now := by
    intro a b hab
    simp only [ticking]
    omega
  rw [← answers_of_service]
  exact (Outside.serve_refines_service hclock (Or.inr rfl)
    (show srv.core = ticking.core layout.chain from rfl) (fun _ _ => rfl) rfl
    [first, second] hset).1

end PolicyServiceWitness

end GreylistServer
