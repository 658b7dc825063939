/-
The pass counter under interleaved decisions.  A decision reads a count in one
statement and increments it in another, but the increment is relative to the
row as it is then, so every pass is counted exactly once.
-/
import GreylistServer.DBQuery
import GreylistServer.GreylistConcurrent

namespace GreylistServer

namespace Greylist

/-- The shared state of all calls with a log of the executed updates, each with
the call that made it. -/
structure Counted where
  world : World
  updates : List (Nat × BaseQuery)

namespace Counted

def initial (clock : Nat) : Counted :=
  ⟨World.initial clock, []⟩

/-- How many updates were executed on the row `id`. -/
def increments (w : Counted) (id : Nat) : Nat :=
  w.updates.countP fun update =>
    update.2.whereClause = [(Row.idColumn, .number id)]

/-- The updates executed by call `i`. -/
def made (w : Counted) (i : Nat) : List (Nat × BaseQuery) :=
  w.updates.filter fun update => update.1 = i

end Counted

def logged (i : Nat) : Statement → List (Nat × BaseQuery)
  | .update q => [(i, q)]
  | _ => []

/-- The statements of `statements`, with the updates logged. -/
def countedStatements : Semantics Statement Statement.Answer Counted where
  exec i op w answer after :=
    statements.exec i op w.world answer after.world ∧
      after.updates = w.updates ++ logged i op
  env w after :=
    statements.env w.world after.world ∧ after.updates = w.updates

/-- Every count is the number of updates on its row, no call has made two, and
every update was made on a row of the table. -/
structure CountsUpdates (w : Counted) : Prop where
  wellFormed : WellFormed w.world.table
  counts : ∀ row ∈ w.world.table.rows, countOf row = w.increments row.id
  once : (w.updates.map Prod.fst).Nodup
  onRows : ∀ update ∈ w.updates, ∃ id now,
    update.2 = incrementQuery id now ∧ id ∈ w.world.table.rows.map Row.id

/-- The others leave the updates of call `i` alone and keep all rows. -/
structure KeepsUpdates (i : Nat) (w after : Counted) : Prop where
  updates : after.made i = w.made i
  rows : ∀ id ∈ w.world.table.rows.map Row.id,
    id ∈ after.world.table.rows.map Row.id

def counting : Protocol Counted where
  inv := CountsUpdates
  evolves := KeepsUpdates
  refl := fun _ _ => ⟨rfl, fun _ hid => hid⟩
  trans := fun _ {_ _ _} hab hbc =>
    ⟨hbc.updates.trans hab.updates, fun id hid => hbc.rows id (hab.rows id hid)⟩

/-- On return a call has made one update if it passed and none otherwise. -/
def CountedOnce (i : Nat) (outcome : Outcome) (w : Counted) : Prop :=
  (w.made i).length = if outcome.action = .ok .dunno then 1 else 0

variable {w after : Counted} {i : Nat}

theorem CountsUpdates.of_eq (hw : CountsUpdates w)
    (htable : after.world.table = w.world.table)
    (hupdates : after.updates = w.updates) : CountsUpdates after where
  wellFormed := htable ▸ hw.wellFormed
  counts := by
    rw [htable]
    simpa only [Counted.increments, hupdates] using hw.counts
  once := hupdates ▸ hw.once
  onRows := by
    rw [htable, hupdates]
    exact hw.onRows

theorem KeepsUpdates.of_eq (htable : after.world.table = w.world.table)
    (hupdates : after.updates = w.updates) : KeepsUpdates i w after where
  updates := by rw [Counted.made, hupdates, Counted.made]
  rows := by
    rw [htable]
    exact fun _ hid => hid

/-- No update was made on a row that does not exist. -/
theorem CountsUpdates.increments_fresh (hw : CountsUpdates w) {id : Nat}
    (hfresh : id ∉ w.world.table.rows.map Row.id) : w.increments id = 0 := by
  rw [Counted.increments, List.countP_eq_zero]
  intro update hupdate
  obtain ⟨other, now, hquery, hmem⟩ := hw.onRows update hupdate
  have hne : other ≠ id := fun heq => hfresh (heq ▸ hmem)
  rw [hquery]
  simpa [incrementQuery, BaseQuery.addIncrement, BaseQuery.addSet,
    BaseQuery.addWhere, Row.idColumn] using hne

theorem CountsUpdates.inserted (hw : CountsUpdates w) {id : Nat}
    (hfresh : id ∉ w.world.table.rows.map Row.id) (t : Triplet) (now : Nat)
    (hworld : after.world =
      w.world.inserted i { values := rowValues t now } id)
    (hupdates : after.updates = w.updates) :
    CountsUpdates after ∧ ∀ j, KeepsUpdates j w after := by
  rw [(inserted_rowValues hw.wellFormed i t now id).2] at hworld
  have htable : after.world.table = w.world.table.addRow id (rowValues t now) :=
    by rw [hworld]
  have hrows : ∀ other ∈ w.world.table.rows.map Row.id,
      other ∈ after.world.table.rows.map Row.id := by
    intro other hother
    rw [htable, Table.mem_addRow_ids]
    exact Or.inl hother
  refine ⟨⟨?_, ?_, hupdates ▸ hw.once, ?_⟩, fun j => ⟨?_, hrows⟩⟩
  · rw [htable]
    exact ⟨hw.wellFormed.columns,
      Table.addRow_ids_nodup hw.wellFormed.ids hfresh⟩
  · intro row hrow
    rw [htable] at hrow
    rw [Counted.increments, hupdates]
    rcases Table.mem_addRow.mp hrow with hold | rfl
    · exact hw.counts row hold
    · exact (hw.increments_fresh hfresh).symm
  · intro update hupdate
    rw [hupdates] at hupdate
    obtain ⟨other, now', hquery, hmem⟩ := hw.onRows update hupdate
    exact ⟨other, now', hquery, hrows other hmem⟩
  · rw [Counted.made, hupdates, Counted.made]

/-- The update of a call that has made none so far. -/
theorem CountsUpdates.incremented (hw : CountsUpdates w) {id : Nat}
    (hmem : id ∈ w.world.table.rows.map Row.id) (now : Nat)
    (hnone : w.made i = [])
    (htable : after.world.table = passed w.world.table id now)
    (hupdates : after.updates = w.updates ++ [(i, incrementQuery id now)]) :
    CountsUpdates after ∧ (∀ j, j ≠ i → KeepsUpdates j w after) ∧
      (after.made i).length = 1 := by
  have hids : after.world.table.rows.map Row.id =
      w.world.table.rows.map Row.id := by
    rw [htable, passed_ids]
  have hcount : ∀ other, after.increments other =
      w.increments other + if other = id then 1 else 0 := by
    intro other
    simp only [Counted.increments, hupdates, List.countP_append,
      List.countP_singleton]
    congr 1
    simp [incrementQuery, BaseQuery.addIncrement, BaseQuery.addSet,
      BaseQuery.addWhere, Row.idColumn, eq_comm]
  have hnew : i ∉ w.updates.map Prod.fst := by
    intro hmade
    obtain ⟨update, hupdate, rfl⟩ := List.mem_map.mp hmade
    have hin : update ∈ w.made update.1 := by simp [Counted.made, hupdate]
    rw [hnone] at hin
    cases hin
  refine ⟨⟨?_, ?_, ?_, ?_⟩, ?_, ?_⟩
  · exact ⟨by rw [htable]; exact hw.wellFormed.columns,
      hids ▸ hw.wellFormed.ids⟩
  · intro row hrow
    rw [htable] at hrow
    obtain ⟨old, hold, rfl⟩ := mem_passed.mp hrow
    rw [hcount]
    split
    · next hid =>
        rw [countOf_passedRow, hw.counts old hold]
        simp [passedRow, Row.assign, hid]
    · next hid =>
        rw [hw.counts old hold, Nat.add_zero]
  · rw [hupdates, List.map_append]
    refine List.nodup_append.mpr ⟨hw.once, by simp, ?_⟩
    intro made hmade last hlast heq
    rw [List.map_cons, List.map_nil, List.mem_singleton] at hlast
    rw [heq, hlast] at hmade
    exact hnew hmade
  · intro update hupdate
    rw [hids]
    rw [hupdates] at hupdate
    rcases List.mem_append.mp hupdate with hold | hlast
    · exact hw.onRows update hold
    · rw [List.mem_singleton.mp hlast]
      exact ⟨id, now, rfl, hmem⟩
  · intro j hj
    refine ⟨?_, fun other hother => hids.symm ▸ hother⟩
    have hne : ¬ i = j := fun heq => hj heq.symm
    simp [Counted.made, hupdates, List.filter_append, hne]
  · have hfilter : after.made i = w.made i ++ [(i, incrementQuery id now)] := by
      simp [Counted.made, hupdates, List.filter_append]
    rw [hfilter, hnone]
    rfl

section Safety

variable (i : Nat)

theorem counting_ret {outcome : Outcome} (hnone : w.made i = [])
    (hno : outcome.action ≠ .ok .dunno) :
    counting.Safe countedStatements i (CountedOnce i) (.ret outcome) w := by
  change (w.made i).length = _
  rw [hnone, if_neg hno]
  rfl

/-- The branch of an unknown triplet. -/
theorem insertTriplet_counts (t : Triplet)
    {next : Except Error Unit → Triplet → Session Outcome}
    (hnext : ∀ result t {w : Counted}, w.made i = [] →
      counting.Safe countedStatements i (CountedOnce i) (next result t) w)
    {w : Counted} (hnone : w.made i = []) :
    counting.Safe countedStatements i (CountedOnce i)
      (insertTriplet t next) w := by
  rintro start hstart hinv now read ⟨⟨rfl, hworld⟩, hupdates⟩
  simp only [logged, List.append_nil] at hupdates
  have htable : read.world.table = start.world.table := by
    rw [hworld]
    rfl
  refine ⟨hinv.of_eq htable hupdates,
    fun j _ => KeepsUpdates.of_eq htable hupdates, ?_⟩
  have hread : read.made i = [] := by
    rw [Counted.made, hupdates]
    exact hstart.updates.trans hnone
  rcases hquery : insertQuery t start.world.clock with ⟨query, t'⟩
  simp only [hquery]
  cases query with
  | error e => exact hnext _ _ hread
  | ok q =>
      have hvalues : q = { values := rowValues t start.world.clock } := by
        rcases insertQuery_cases t start.world.clock with ⟨e, he⟩ | hok
        · rw [hquery] at he
          cases he
        · rw [hquery] at hok
          exact Except.ok.inj hok
      subst hvalues
      rintro before hbefore hinv' answer after ⟨hexec, hlog⟩
      simp only [logged, List.append_nil] at hlog
      have hafter : after.made i = [] := by
        rw [Counted.made, hlog]
        exact hbefore.updates.trans hread
      rcases hexec with ⟨id, hfresh, -, hworld'⟩ | ⟨thrown, -, hworld'⟩
      · obtain ⟨hkept, hothers⟩ := hinv'.inserted hfresh t _ hworld' hlog
        exact ⟨hkept, fun j _ => hothers j, hnext _ _ hafter⟩
      · have hsame : after.world.table = before.world.table := by rw [hworld']
        exact ⟨hinv'.of_eq hsame hlog,
          fun j _ => KeepsUpdates.of_eq hsame hlog, hnext _ _ hafter⟩

/-- The branch of a due row. -/
theorem pass_counts {id now : Nat} {w : Counted} (hnone : w.made i = [])
    (hmem : id ∈ w.world.table.rows.map Row.id)
    {next : Except Error Unit → Session Outcome} {extra : Extra} {t : Triplet}
    (hok : next (.ok ()) = .ret ⟨.ok .dunno, extra, t⟩) :
    counting.Safe countedStatements i (CountedOnce i)
      (.call (.update (incrementQuery id now)) next) w := by
  rintro before hbefore hinv answer after ⟨⟨rfl, hworld⟩, hupdates⟩
  rw [incrementQuery_update id now hinv.wellFormed.columns] at hworld ⊢
  obtain ⟨hkept, hothers, hone⟩ := hinv.incremented (hbefore.rows id hmem) now
    (hbefore.updates.trans hnone) (by rw [hworld]) hupdates
  refine ⟨hkept, hothers, ?_⟩
  rw [hok]
  exact hone

/-- A decision counts exactly its pass, whatever runs between its
statements. -/
theorem decide_counts (g : Greylist) (t : Triplet) (extra : Extra)
    {w : Counted} (hnone : w.made i = []) :
    counting.Safe countedStatements i (CountedOnce i)
      (g.decide t extra) w := by
  obtain ⟨-, hcases⟩ := g.findQuery_cases t
  rcases hquery : g.findQuery t with ⟨query, t'⟩
  simp only [decide, findTriplet, hquery]
  rw [hquery] at hcases
  cases query with
  | error e => exact counting_ret i hnone (by rintro ⟨⟩)
  | ok q =>
      have hfound := hcases.resolve_left (by simp)
      simp only [Except.ok.injEq] at hfound
      subst hfound
      rintro seen hseen hinv answer after ⟨⟨delivery, rfl, hworld⟩, hupdates⟩
      simp only [logged, List.append_nil] at hupdates
      have htable : after.world.table = seen.world.table := by rw [hworld]
      refine ⟨hinv.of_eq htable hupdates,
        fun j _ => KeepsUpdates.of_eq htable hupdates, ?_⟩
      have hafter : after.made i = [] := by
        rw [Counted.made, hupdates]
        exact hseen.updates.trans hnone
      rw [g.findQuery_lookup t delivery hinv.wellFormed.columns]
      rcases hrows : delivery.order (seen.world.table.matching
        (g.conditions t)) with _ | ⟨row, rest⟩
      · refine insertTriplet_counts i t' ?_ hafter
        intro result t w hw
        cases result with
        | error e => exact counting_ret i hw (by rintro ⟨⟩)
        | ok _ => exact counting_ret i hw (by rintro ⟨⟩)
      · have hrow : row ∈ seen.world.table.matching (g.conditions t) := by
          rw [← delivery.mem_order, hrows]
          exact List.mem_cons_self
        have hid : row.id ∈ after.world.table.rows.map Row.id := by
          rw [htable]
          exact List.mem_map.mpr ⟨row, (Table.mem_matching.mp hrow).1, rfl⟩
        rintro start hstart hinv' now read ⟨⟨rfl, hworld'⟩, hupdates'⟩
        simp only [logged, List.append_nil] at hupdates'
        have htable' : read.world.table = start.world.table := by
          rw [hworld']
          rfl
        refine ⟨hinv'.of_eq htable' hupdates',
          fun j _ => KeepsUpdates.of_eq htable' hupdates', ?_⟩
        have hread : read.made i = [] := by
          rw [Counted.made, hupdates']
          exact hstart.updates.trans hafter
        cases hdue : g.due (column (returnFields.map row.get) 2).getNumeric
            (column (returnFields.map row.get) 3).getNumeric
            start.world.clock with
        | false =>
            simp only [hdue, Bool.false_eq_true, ↓reduceIte]
            exact counting_ret i hread (by rintro ⟨⟩)
        | true =>
            simp only [hdue, ↓reduceIte]
            refine pass_counts i hread ?_ rfl
            rw [htable']
            exact hstart.rows row.id hid

end Safety

theorem initial_countsUpdates (clock : Nat) :
    CountsUpdates (Counted.initial clock) := by
  refine ⟨⟨rfl, List.nodup_nil⟩, ?_, List.nodup_nil, ?_⟩
  · intro row hrow
    cases hrow
  · intro update hupdate
    cases hupdate

/-- Every reachable state counts its updates, and every call is safe where it
stands. -/
theorem reachable_counting {clock : Nat}
    {s : Interleaved Statement Statement.Answer Outcome Counted (Call 0)}
    (hreach : Reachable countedStatements Call.body (Counted.initial clock)
      s) :
    CountsUpdates s.world ∧ ∀ i call p, s.calls[i]? = some (call, p) →
      counting.Safe countedStatements i (CountedOnce i) p s.world := by
  have hsafe : counting.inv s.world ∧
      (∀ i call p, s.calls[i]? = some (call, p) →
        counting.Safe countedStatements i (CountedOnce i) p s.world) ∧
      ∀ i, s.calls.length ≤ i →
        counting.evolves i (Counted.initial clock) s.world := by
    refine Protocol.reachable_safe_from ?_ (initial_countsUpdates clock) ?_ ?_
      hreach
    · intro i call outcome w after hmove hpost
      rw [CountedOnce, hmove.updates]
      exact hpost
    · intro i call w _ hmove
      exact decide_counts i call.greylist call.triplet call.extra hmove.updates
    · rintro w after hinv ⟨⟨clock', -, hworld⟩, hupdates⟩
      have htable : after.world.table = w.world.table := by rw [hworld]
      exact ⟨hinv.of_eq htable hupdates,
        fun j => KeepsUpdates.of_eq htable hupdates⟩
  exact ⟨hsafe.1, hsafe.2.1⟩

/-- What an increment of the row `id` leaves as it was. -/
def IncrementsOnly (id : Nat) (table after : Table) : Prop :=
  after.rows.length = table.rows.length ∧
    ∀ (k : Nat) row, table.rows[k]? = some row →
      ∃ new, after.rows[k]? = some new ∧ new.id = row.id ∧
        (row.id ≠ id → new = row) ∧
        (row.id = id → countOf new = countOf row + 1 ∧
          ∀ column, column ≠ "count".toList → column ≠ "uts".toList →
            new.get column = row.get column)

theorem passed_incrementsOnly (table : Table) (id now : Nat) :
    IncrementsOnly id table (passed table id now) := by
  have hrows : (passed table id now).rows = table.rows.map fun row =>
      if row.id = id then passedRow row now else row := by
    simp [passed, Table.modify, passedRow]
  refine ⟨by rw [hrows, List.length_map], ?_⟩
  intro k row hk
  refine ⟨if row.id = id then passedRow row now else row, ?_, ?_, ?_, ?_⟩
  · rw [hrows, List.getElem?_map, hk]
    rfl
  · split <;> rfl
  · intro hne
    exact if_neg hne
  · intro hid
    rw [if_pos hid]
    refine ⟨countOf_passedRow row now, ?_⟩
    intro column hcount huts
    apply Row.get_assign_of_lookup_none
    simp only [List.lookup, beq_eq_false_iff_ne.mpr hcount,
      beq_eq_false_iff_ne.mpr huts]

/-- Interleaved in any way, the count of every row is the number of calls that
have incremented it; a call that returned `dunno` has made exactly one
increment, and one that is about to make its own changes only the count and
the time of the row with the id in its statement. -/
theorem reachable_counts (clock : Nat)
    (s : Interleaved Statement Statement.Answer Outcome Counted (Call 0))
    (hreach : Reachable countedStatements Call.body (Counted.initial clock)
      s) :
    (∀ row ∈ s.world.world.table.rows,
        countOf row = s.world.increments row.id) ∧
      (s.world.updates.map Prod.fst).Nodup ∧
      (∀ (i : Nat) call outcome, s.calls[i]? = some (call, .ret outcome) →
        outcome.action = .ok .dunno → (s.world.made i).length = 1) ∧
      ∀ (i : Nat) call q next,
        s.calls[i]? = some (call, .call (.update q) next) →
        ∃ id now, q = incrementQuery id now ∧
          IncrementsOnly id s.world.world.table
            (q.update s.world.world.table).2 ∧
          ∀ quote table, '%' ∉ table →
            (DBQuery.incrementTriplet table id now).update quote =
              .ok (("UPDATE " : Str) ++ table ++
                (" SET `count`=`count`+1,`uts`=" : Str) ++
                decimal (now % 2 ^ 32) ++ (" WHERE(`id`=" : Str) ++
                decimal id ++ (")" : Str)) := by
  obtain ⟨hinv, hcalls⟩ := reachable_counting hreach
  refine ⟨hinv.counts, hinv.once, ?_, ?_⟩
  · intro i call outcome hreturned hdunno
    have hpost : (s.world.made i).length = _ := hcalls i call _ hreturned
    rw [hpost, if_pos hdunno]
  · intro i call q next hcall
    have hupdate : countedStatements.exec i (.update q) s.world
        (q.update s.world.world.table).1
        ⟨{ s.world.world with table := (q.update s.world.world.table).2 },
          s.world.updates ++ [(i, q)]⟩ := ⟨⟨rfl, rfl⟩, rfl⟩
    obtain ⟨hafter, -⟩ := hcalls i call _ hcall s.world
      (counting.refl i _) hinv _ _ hupdate
    obtain ⟨id, now, hquery, -⟩ := hafter.onRows (i, q) (by simp)
    simp only at hquery
    subst hquery
    refine ⟨id, now, rfl, ?_, fun quote table htable =>
      incrementTriplet_update quote htable id now⟩
    rw [incrementQuery_update id now hinv.wellFormed.columns]
    exact passed_incrementsOnly _ id now

end Greylist

namespace GreylistCounterWitness

open Greylist GreylistConcurrentWitness

/-- Call `i` alone with the server, its updates logged. -/
def aloneCounted (i : Nat) (op : Statement) (w : Counted) :
    op.Answer × Counted :=
  ((alone i op w.world).1, ⟨(alone i op w.world).2, w.updates ++ logged i op⟩)

theorem aloneCounted_exec (i : Nat) (op : Statement) (w : Counted) :
    countedStatements.exec i op w (aloneCounted i op w).1
      (aloneCounted i op w).2 :=
  ⟨alone_exec i op w.world, rfl⟩

def repeated : Call 0 where
  greylist := call.greylist
  triplet := call.triplet
  extra := {}
  timeout_le := Nat.zero_le _

/-- The outcome and the state after a first call at time zero. -/
def firstCounted : Outcome × Counted :=
  repeated.body.eval (aloneCounted 0) (Counted.initial 0)

/-- The outcome and the state after a second call at time 61. -/
def secondCounted : Outcome × Counted :=
  repeated.body.eval (aloneCounted 1)
    ⟨{ firstCounted.2.world with clock := 61 }, firstCounted.2.updates⟩

theorem secondCounted_counts :
    secondCounted.1.action = .ok .dunno ∧
      (secondCounted.2.made 1).length = 1 ∧
      ∀ row ∈ secondCounted.2.world.table.rows,
        countOf row = secondCounted.2.increments row.id := by
  have hstart : Reachable countedStatements Call.body (Counted.initial 0)
      ⟨Counted.initial 0, [(repeated, repeated.body)]⟩ :=
    Relation.ReflTransGen.single (Step.start _ repeated)
  have hfirst := reachable_eval (aloneCounted 0) (aloneCounted_exec 0)
    repeated.body rfl hstart
  have hmoved := hfirst.tail (Step.env _
    ⟨{ firstCounted.2.world with clock := 61 }, firstCounted.2.updates⟩
    ⟨⟨61, by decide +kernel, rfl⟩, rfl⟩)
  have hagain := hmoved.tail (Step.start _ repeated)
  have hsecond := reachable_eval (aloneCounted 1) (aloneCounted_exec 1)
    repeated.body rfl hagain
  have hdunno : secondCounted.1.action = .ok .dunno := by decide +kernel
  obtain ⟨hcounts, -, hreturned, -⟩ := reachable_counts 0 _ hsecond
  exact ⟨hdunno, hreturned 1 repeated secondCounted.1 rfl hdunno, hcounts⟩

end GreylistCounterWitness

end GreylistServer
