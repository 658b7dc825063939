/-
Decisions side by side.  A decision is up to four statements with no
transaction around them, so duplicates of a row, stale counts and passes on the
strength of a stale row all occur.  Still a triplet passes only on a row that
was inserted more than the timeout before.
-/
import GreylistServer.GreylistRun

namespace GreylistServer

namespace Greylist

/-- The shared state of all calls.  `readings i` is the last time call `i` read
from the clock, `births id` the time the row `id` was inserted with. -/
structure World where
  table : Table
  clock : Nat
  readings : Nat → Nat
  births : Nat → Option Nat

namespace World

def initial (clock : Nat) : World :=
  ⟨emptyTable, clock, fun _ => 0, fun _ => none⟩

/-- Call `i` inserts a row under the id the server gives it. -/
def inserted (w : World) (i : Nat) (q : BaseQuery) (id : Nat) : World :=
  match q.insert id w.table with
  | (.ok (), table) =>
      { w with
        table := table
        births := Function.update w.births id (some (w.readings i)) }
  | (.error _, table) => { w with table := table }

def noted (w : World) (i : Nat) : World :=
  { w with readings := Function.update w.readings i w.clock }

end World

/-- What one statement of call `i` may do.  The server delivers rows in any
order, gives a new row any unused id and may reject an insertion. -/
def statementExec (i : Nat) :
    (op : Statement) → World → op.Answer → World → Prop
  | .select q, w, answer, after =>
      ∃ delivery, answer = q.lookup delivery w.table ∧ after = w
  | .insert q, w, answer, after =>
      (∃ id, id ∉ w.table.rows.map Row.id ∧
        answer = (q.insert id w.table).1 ∧ after = w.inserted i q id) ∨
      ∃ thrown, answer = BaseQuery.insertCaught thrown ∧ after = w
  | .update q, w, answer, after =>
      answer = (q.update w.table).1 ∧
        after = { w with table := (q.update w.table).2 }
  | .getNow, w, answer, after => answer = w.clock ∧ after = w.noted i

/-- Statements are atomic and the clock never goes back. -/
def statements : Semantics Statement Statement.Answer World where
  exec := statementExec
  env w after := ∃ clock, w.clock ≤ clock ∧ after = { w with clock := clock }

/-- A call by a policy of any mode whose timeout is not below `timeout`. -/
structure Call (timeout : Nat) where
  greylist : Greylist
  triplet : Triplet
  extra : Extra
  timeout_le : timeout ≤ greylist.timeout

def Call.body {timeout : Nat} (call : Call timeout) : Session Outcome :=
  call.greylist.decide call.triplet call.extra

/-- A row carries the time of its birth until it is passed, and has been passed
only when that time is more than the timeout ago. -/
structure Aged (timeout : Nat) (w : World) (row : Row) (birth : Nat) :
    Prop where
  born : w.births row.id = some birth
  uts : countOf row = 0 → utsOf row = birth
  old : 0 < countOf row → birth + timeout < w.clock

structure Invariant (timeout : Nat) (w : World) : Prop where
  wellFormed : WellFormed w.table
  aged : ∀ row ∈ w.table.rows, ∃ birth, Aged timeout w row birth
  births : ∀ id, w.births id ≠ none → id ∈ w.table.rows.map Row.id

/-- What call `i` may count on while the others run. -/
structure Evolves (i : Nat) (w after : World) : Prop where
  clock : w.clock ≤ after.clock
  reading : after.readings i = w.readings i
  births : ∀ id birth, w.births id = some birth →
    after.births id = some birth
  rows : Extends w.table after.table

theorem Evolves.refl (i : Nat) (w : World) : Evolves i w w :=
  ⟨Nat.le_refl _, rfl, fun _ _ hborn => hborn, Extends.refl _⟩

theorem Evolves.trans {i : Nat} {a b c : World} (hab : Evolves i a b)
    (hbc : Evolves i b c) : Evolves i a c where
  clock := Nat.le_trans hab.clock hbc.clock
  reading := hbc.reading.trans hab.reading
  births := fun id birth hborn =>
    hbc.births id birth (hab.births id birth hborn)
  rows := hab.rows.trans hbc.rows

def protocol (timeout : Nat) : Protocol World where
  inv := Invariant timeout
  evolves := Evolves
  refl := Evolves.refl
  trans := fun _ => Evolves.trans

/-- On return from a pass there is a row that answers the lookup and is older
than the timeout at the time the call has read. -/
def PassedOnAgedRow (timeout : Nat) (i : Nat) (call : Call timeout)
    (outcome : Outcome) (w : World) : Prop :=
  outcome.action = .ok .dunno →
    ∃ q, (call.greylist.findQuery call.triplet).1 = .ok q ∧
      ∃ row ∈ w.table.matching q.whereClause, ∃ birth,
        w.births row.id = some birth ∧ birth + timeout + 1 ≤ w.readings i

theorem Aged.mono {timeout : Nat} {w after : World} {row : Row} {birth : Nat}
    (haged : Aged timeout w row birth) (hclock : w.clock ≤ after.clock)
    (hbirths : ∀ id birth, w.births id = some birth →
      after.births id = some birth) : Aged timeout after row birth where
  born := hbirths _ _ haged.born
  uts := haged.uts
  old := fun hpos => Nat.lt_of_lt_of_le (haged.old hpos) hclock

theorem noted_invariant {timeout : Nat} {w : World}
    (hinv : Invariant timeout w) (i : Nat) : Invariant timeout (w.noted i) where
  wellFormed := hinv.wellFormed
  aged := fun row hrow =>
    let ⟨birth, haged⟩ := hinv.aged row hrow
    ⟨birth, haged.mono (Nat.le_refl _) fun _ _ hborn => hborn⟩
  births := hinv.births

theorem noted_evolves (w : World) {i j : Nat} (hij : j ≠ i) :
    Evolves j w (w.noted i) :=
  ⟨Nat.le_refl _, by simp [World.noted, hij], fun _ _ hborn => hborn,
    Extends.refl _⟩

theorem inserted_rowValues {w : World} (hwf : WellFormed w.table) (i : Nat)
    (t : Triplet) (now id : Nat) :
    (({ values := rowValues t now } : BaseQuery).insert id w.table).1 =
        .ok () ∧
      w.inserted i { values := rowValues t now } id =
        { w with
          table := w.table.addRow id (rowValues t now)
          births := Function.update w.births id (some (w.readings i)) } := by
  have hinsert : ({ values := rowValues t now } : BaseQuery).insert id
      w.table = (.ok (), w.table.addRow id (rowValues t now)) := by
    unfold BaseQuery.insert
    rw [rowValues_check t now hwf.columns]
  rw [World.inserted, hinsert]
  exact ⟨rfl, rfl⟩

/-- An insertion keeps the protocol when the row carries the time the call has
read. -/
theorem inserted_protocol {timeout : Nat} {w : World}
    (hinv : Invariant timeout w) {i id : Nat}
    (hfresh : id ∉ w.table.rows.map Row.id) (t : Triplet) :
    Invariant timeout
        (w.inserted i { values := rowValues t (w.readings i) } id) ∧
      ∀ j, Evolves j w
        (w.inserted i { values := rowValues t (w.readings i) } id) := by
  rw [(inserted_rowValues hinv.wellFormed i t (w.readings i) id).2]
  have hnone : w.births id = none := by
    by_contra hborn
    exact hfresh (hinv.births id hborn)
  have hkept : ∀ other birth, w.births other = some birth →
      Function.update w.births id (some (w.readings i)) other =
        some birth := by
    intro other birth hborn
    have hne : other ≠ id := by
      rintro rfl
      rw [hnone] at hborn
      cases hborn
    rw [Function.update_of_ne hne]
    exact hborn
  refine ⟨⟨⟨hinv.wellFormed.columns, ?_⟩, ?_, ?_⟩, ?_⟩
  · exact Table.addRow_ids_nodup hinv.wellFormed.ids hfresh
  · intro row hrow
    rcases Table.mem_addRow.mp hrow with hold | rfl
    · obtain ⟨birth, haged⟩ := hinv.aged row hold
      exact ⟨birth, haged.mono (Nat.le_refl _) hkept⟩
    · refine ⟨w.readings i, ?_, fun _ => utsOf_newRow id t _, ?_⟩
      · exact Function.update_self id _ _
      · intro hpos
        exact absurd hpos (Nat.lt_irrefl 0)
  · intro other hborn
    rw [Table.mem_addRow_ids]
    by_cases hne : other = id
    · exact Or.inr hne
    · have hother : w.births other ≠ none := by
        rwa [← Function.update_of_ne hne (some (w.readings i)) w.births]
      exact Or.inl (hinv.births other hother)
  · intro j
    exact ⟨Nat.le_refl _, rfl, hkept, addRow_extends _ _ _⟩

/-- A pass keeps the protocol when the row was born more than the timeout
ago. -/
theorem passed_protocol {timeout : Nat} {w : World}
    (hinv : Invariant timeout w) {id birth : Nat}
    (hborn : w.births id = some birth) (hold : birth + timeout < w.clock)
    (now : Nat) :
    Invariant timeout { w with table := passed w.table id now } ∧
      ∀ j, Evolves j w { w with table := passed w.table id now } := by
  refine ⟨⟨⟨hinv.wellFormed.columns, ?_⟩, ?_, ?_⟩, ?_⟩
  · exact (passed_ids w.table id now).symm ▸ hinv.wellFormed.ids
  · intro row hrow
    obtain ⟨old, holdmem, rfl⟩ := mem_passed.mp hrow
    obtain ⟨birth', haged⟩ := hinv.aged old holdmem
    split
    · next hid =>
        have hsame : birth' = birth := by
          have hborn' := haged.born
          rw [hid, hborn] at hborn'
          exact (Option.some.inj hborn').symm
        refine ⟨birth', haged.born, ?_, fun _ => hsame ▸ hold⟩
        intro hzero
        rw [countOf_passedRow] at hzero
        cases hzero
    · exact ⟨birth', haged.born, haged.uts, haged.old⟩
  · intro other hother
    exact (passed_ids w.table id now).symm ▸ hinv.births other hother
  · intro j
    exact ⟨Nat.le_refl _, rfl, fun _ _ hborn => hborn, passed_extends _ _ _⟩

/-- A row that is due was born more than the timeout ago, also when count and
time were read earlier. -/
theorem Aged.of_due {timeout : Nat} {w : World} {row : Row} {birth : Nat}
    (haged : Aged timeout w row birth) {g : Greylist}
    (hle : timeout ≤ g.timeout) {now : Nat} (hclock : w.clock ≤ now)
    (hdue : g.due (countOf row) (utsOf row) now = true) :
    birth + timeout < now := by
  rcases Nat.eq_zero_or_pos (countOf row) with hzero | hpos
  · rcases (g.due_eq_true_iff _ _ _).mp hdue with hcount | hdiff
    · omega
    · have hbound := timeDiff_le (utsOf row) now
      rw [haged.uts hzero] at hbound hdiff
      omega
  · exact Nat.lt_of_lt_of_le (haged.old hpos) hclock

section Safety

variable {timeout : Nat} (i : Nat) (call : Call timeout)

theorem safe_ret_error (e : Error) (extra : Extra) (t : Triplet) (w : World) :
    (protocol timeout).Safe statements i (PassedOnAgedRow timeout i call)
      (.ret ⟨.error e, extra, t⟩) w := by
  intro hdunno
  cases hdunno

theorem safe_ret_defer (extra : Extra) (t : Triplet) (w : World) :
    (protocol timeout).Safe statements i (PassedOnAgedRow timeout i call)
      (.ret ⟨.ok .defer, extra, t⟩) w := by
  intro hdunno
  cases hdunno

/-- The branch of an unknown triplet. -/
theorem insertTriplet_safe (t : Triplet)
    {next : Except Error Unit → Triplet → Session Outcome}
    (hnext : ∀ result t w, (protocol timeout).Safe statements i
      (PassedOnAgedRow timeout i call) (next result t) w) (w : World) :
    (protocol timeout).Safe statements i (PassedOnAgedRow timeout i call)
      (insertTriplet t next) w := by
  rintro start hstart hinv now read ⟨rfl, rfl⟩
  refine ⟨noted_invariant hinv i, fun j hij => noted_evolves start hij, ?_⟩
  have hreading : (start.noted i).readings i = start.clock := by
    simp [World.noted]
  rcases hquery : insertQuery t start.clock with ⟨query, t'⟩
  simp only [hquery]
  cases query with
  | error e => exact hnext _ _ _
  | ok q =>
      have hvalues : q = { values := rowValues t start.clock } := by
        rcases insertQuery_cases t start.clock with ⟨e, he⟩ | hok
        · rw [hquery] at he
          cases he
        · rw [hquery] at hok
          exact Except.ok.inj hok
      subst hvalues
      intro before hbefore hinv' answer after hexec
      have hsame : before.readings i = start.clock :=
        hbefore.reading.trans hreading
      rcases hexec with ⟨id, hfresh, -, rfl⟩ | ⟨thrown, -, rfl⟩
      · rw [← hsame]
        obtain ⟨hafter, hevolves⟩ := inserted_protocol hinv' hfresh t (i := i)
        exact ⟨hafter, fun j _ => hevolves j, hnext _ _ _⟩
      · exact ⟨hinv', fun j _ => Evolves.refl j _, hnext _ _ _⟩

/-- The branch of a due row: `row` is the row as the lookup saw it in `seen`. -/
theorem pass_safe {seen : World} {row : Row} {birth : Nat}
    (hrow : row ∈ seen.table.matching
      (call.greylist.conditions call.triplet))
    (hfound : (call.greylist.findQuery call.triplet).1 = .ok
      { returnFields := returnFields
        whereClause := call.greylist.conditions call.triplet })
    {w : World} (hbirths : w.births row.id = some birth)
    (hrows : Extends seen.table w.table) (hold : birth + timeout < w.clock)
    (hreading : w.readings i = w.clock)
    {next : Except Error Unit → Session Outcome}
    {extra : Extra} {t : Triplet}
    (hok : next (.ok ()) = .ret ⟨.ok .dunno, extra, t⟩) :
    (protocol timeout).Safe statements i (PassedOnAgedRow timeout i call)
      (.call (.update (incrementQuery row.id w.clock)) next) w := by
  rintro before hbefore hinv answer after ⟨rfl, rfl⟩
  have hupdate := incrementQuery_update row.id w.clock
    hinv.wellFormed.columns
  have hborn : before.births row.id = some birth :=
    hbefore.births _ _ hbirths
  obtain ⟨hafter, hevolves⟩ := passed_protocol hinv hborn
    (Nat.lt_of_lt_of_le hold hbefore.clock) w.clock
  rw [hupdate]
  refine ⟨hafter, fun j _ => hevolves j, ?_⟩
  rw [hok]
  intro _
  obtain ⟨hmem, hholds⟩ := Table.mem_matching.mp hrow
  obtain ⟨new, hnew, hcontinues⟩ := ((hrows.trans hbefore.rows).trans
    (passed_extends before.table row.id w.clock)) row hmem
  refine ⟨_, hfound, new, Table.mem_matching.mpr ⟨hnew, ?_⟩, birth, ?_, ?_⟩
  · rw [hcontinues.holdsAll]
    exact hholds
  · rw [hcontinues.id]
    exact hborn
  · have hsame : before.readings i = w.clock :=
      hbefore.reading.trans hreading
    change birth + timeout + 1 ≤ before.readings i
    omega

/-- A decision keeps the protocol, whatever runs between its statements. -/
theorem decide_safe (w : World) :
    (protocol timeout).Safe statements i (PassedOnAgedRow timeout i call)
      call.body w := by
  obtain ⟨-, hcases⟩ := call.greylist.findQuery_cases call.triplet
  rcases hquery : call.greylist.findQuery call.triplet with ⟨query, t⟩
  simp only [Call.body, decide, findTriplet, hquery]
  rw [hquery] at hcases
  cases query with
  | error e => exact safe_ret_error i call e _ _ _
  | ok q =>
      have hfound := hcases.resolve_left (by simp)
      simp only [Except.ok.injEq] at hfound
      subst hfound
      rintro seen - hinv answer after ⟨delivery, rfl, rfl⟩
      refine ⟨hinv, fun j _ => Evolves.refl j _, ?_⟩
      rw [call.greylist.findQuery_lookup call.triplet delivery
        hinv.wellFormed.columns]
      rcases hrows : delivery.order (after.table.matching
        (call.greylist.conditions call.triplet)) with _ | ⟨row, rest⟩
      · refine insertTriplet_safe i call t ?_ _
        intro result t w
        cases result with
        | error e => exact safe_ret_error i call e _ _ _
        | ok _ => exact safe_ret_defer i call _ _ _
      · have hrow : row ∈ after.table.matching
            (call.greylist.conditions call.triplet) := by
          rw [← delivery.mem_order, hrows]
          exact List.mem_cons_self
        obtain ⟨birth, haged⟩ := hinv.aged row (Table.mem_matching.mp hrow).1
        rintro start hstart hinv' now read ⟨rfl, rfl⟩
        refine ⟨noted_invariant hinv' i,
          fun j hij => noted_evolves start hij, ?_⟩
        have hcount : (column (returnFields.map row.get) 2).getNumeric =
            countOf row := rfl
        have huts : (column (returnFields.map row.get) 3).getNumeric =
            utsOf row := rfl
        simp only [hcount, huts]
        cases hdue : call.greylist.due (countOf row) (utsOf row)
            start.clock with
        | false =>
            simp only [Bool.false_eq_true, ↓reduceIte]
            exact safe_ret_defer i call _ _ _
        | true =>
            simp only [↓reduceIte]
            refine pass_safe i call hrow (by rw [hquery])
              (w := start.noted i) (hstart.births _ _ haged.born) hstart.rows
              ?_ ?_ rfl
            · exact haged.of_due call.timeout_le hstart.clock hdue
            · simp [World.noted]

end Safety

theorem PassedOnAgedRow.mono {timeout i : Nat} {call : Call timeout}
    {outcome : Outcome} {w after : World} (hmove : Evolves i w after)
    (hpost : PassedOnAgedRow timeout i call outcome w) :
    PassedOnAgedRow timeout i call outcome after := by
  intro hdunno
  obtain ⟨q, hq, row, hrow, birth, hborn, hold⟩ := hpost hdunno
  have hwhere : q.whereClause =
      call.greylist.conditions call.triplet := by
    rcases (call.greylist.findQuery_cases call.triplet).2 with ⟨e, he⟩ | hok
    · rw [hq] at he
      cases he
    · rw [hq] at hok
      rw [Except.ok.inj hok]
  obtain ⟨hmem, hholds⟩ := Table.mem_matching.mp hrow
  obtain ⟨new, hnew, hcontinues⟩ := hmove.rows row hmem
  refine ⟨q, hq, new, Table.mem_matching.mpr ⟨hnew, ?_⟩, birth, ?_, ?_⟩
  · rw [hwhere] at hholds ⊢
    rw [hcontinues.holdsAll]
    exact hholds
  · rw [hcontinues.id]
    exact hmove.births _ _ hborn
  · rw [hmove.reading]
    exact hold

theorem initial_invariant (timeout clock : Nat) :
    Invariant timeout (World.initial clock) := by
  refine ⟨⟨rfl, List.nodup_nil⟩, ?_, ?_⟩
  · intro row hrow
    cases hrow
  · intro id hborn
    exact absurd rfl hborn

/-- No interleaving of calls, statement by statement, lets a triplet pass
unless a row that answers its lookup was inserted at least `timeout + 1`
seconds before the time the call has read. -/
theorem reachable_passedOnAgedRow (timeout clock : Nat)
    (s : Interleaved Statement Statement.Answer Outcome World (Call timeout))
    (hreach : Reachable statements Call.body (World.initial clock) s)
    (i : Nat) (call : Call timeout) (outcome : Outcome)
    (hreturned : s.calls[i]? = some (call, .ret outcome)) :
    PassedOnAgedRow timeout i call outcome s.world := by
  have hsafe : Invariant timeout s.world ∧
      ∀ i call p, s.calls[i]? = some (call, p) →
        (protocol timeout).Safe statements i (PassedOnAgedRow timeout i call)
          p s.world := by
    refine Protocol.reachable_safe ?_ (initial_invariant timeout clock)
      (fun i call w _ => decide_safe i call w) ?_ hreach
    · intro i call outcome w after hmove hpost
      exact hpost.mono hmove
    · rintro w after hinv ⟨clock', hclock, rfl⟩
      refine ⟨⟨hinv.wellFormed, ?_, hinv.births⟩, ?_⟩
      · intro row hrow
        obtain ⟨birth, haged⟩ := hinv.aged row hrow
        exact ⟨birth, haged.mono hclock fun _ _ hborn => hborn⟩
      · intro j
        exact ⟨hclock, rfl, fun _ _ hborn => hborn, Extends.refl _⟩
  exact hsafe.2 i call _ hreturned

end Greylist

namespace GreylistConcurrentWitness

open Greylist

/-- Call `i` alone with the server. -/
def alone (i : Nat) : (op : Statement) → World → op.Answer × World
  | .select q, w => (q.lookup .inTableOrder w.table, w)
  | .insert q, w =>
      let id := IdSource.autoIncrement.fresh w.table.rows
      ((q.insert id w.table).1, w.inserted i q id)
  | .update q, w =>
      ((q.update w.table).1, { w with table := (q.update w.table).2 })
  | .getNow, w => (w.clock, w.noted i)

theorem alone_exec (i : Nat) (op : Statement) (w : World) :
    statements.exec i op w (alone i op w).1 (alone i op w).2 := by
  cases op with
  | select q => exact ⟨.inTableOrder, rfl, rfl⟩
  | insert q =>
      exact Or.inl ⟨_, IdSource.autoIncrement.fresh_not_mem _, rfl, rfl⟩
  | update q => exact ⟨rfl, rfl⟩
  | getNow => exact ⟨rfl, rfl⟩

def call : Call 60 where
  greylist :=
    { mode := .reverse, verbose := false, timeout := 60, weakbytes := 3
      weakbytes_le := IPAddress.three_le_default_length }
  triplet := Triplet.new "192.0.2.7".toList "alice@example.org".toList
    "bob@example.net".toList [] "mail.example.org".toList
  extra := {}
  timeout_le := Nat.le_refl _

/-- The outcome and the world after a first call at time zero. -/
def first : Outcome × World :=
  call.body.eval (alone 0) (World.initial 0)

/-- The outcome and the world after a second call at time 61. -/
def second : Outcome × World :=
  call.body.eval (alone 1) { first.2 with clock := 61 }

theorem second_passedOnAgedRow :
    second.1.action = .ok .dunno ∧
      PassedOnAgedRow 60 1 call second.1 second.2 := by
  refine ⟨by decide +kernel, ?_⟩
  have hstart : Reachable statements Call.body (World.initial 0)
      ⟨World.initial 0, [(call, call.body)]⟩ :=
    Relation.ReflTransGen.single (Step.start _ call)
  have hfirst := reachable_eval (alone 0) (alone_exec 0) call.body rfl hstart
  have hmoved := hfirst.tail (Step.env _ { first.2 with clock := 61 }
    ⟨61, by decide +kernel, rfl⟩)
  have hagain := hmoved.tail (Step.start _ call)
  have hsecond := reachable_eval (alone 1) (alone_exec 1) call.body rfl hagain
  exact reachable_passedOnAgedRow 60 0 _ hsecond 1 call second.1 rfl

end GreylistConcurrentWitness

end GreylistServer
