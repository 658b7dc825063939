/-
The name mode.  A client with a usable name is looked up by it and keeps
passing once it has passed.  A client without one falls back to its address,
where the lookup may meet rows of several clients; it keeps passing exactly as
long as all of those rows are due.
-/
import GreylistServer.GreylistRun

namespace GreylistServer

namespace Delivery

/-- Deliver the rows `wanted` selects before the others. -/
def preferring (wanted : Row → Bool) : Delivery where
  order rows := rows.filter wanted ++ rows.filter fun row => !wanted row
  perm rows := List.filter_append_perm wanted rows

theorem preferring_order (wanted : Row → Bool) {rows : List Row} {row : Row}
    (hrow : row ∈ rows) (hwanted : wanted row = true) :
    ∃ first rest, (preferring wanted).order rows = first :: rest ∧
      first ∈ rows ∧ wanted first = true := by
  have hmem : row ∈ rows.filter wanted := List.mem_filter.mpr ⟨hrow, hwanted⟩
  rcases hfilter : rows.filter wanted with _ | ⟨first, rest⟩
  · rw [hfilter] at hmem
    cases hmem
  · have hfirst : first ∈ rows.filter wanted := by
      rw [hfilter]
      exact List.mem_cons_self
    refine ⟨first, rest ++ rows.filter fun row => !wanted row, ?_,
      List.mem_filter.mp hfirst⟩
    simp only [preferring, hfilter, List.cons_append]

end Delivery

namespace Greylist

theorem Decided.extends {g : Greylist} {ids : IdSource} {t : Triplet}
    {now : Nat} {table after : Table} {action : Except Error ActionType}
    (hdecided : Decided g ids t now table action after) :
    Extends table after := by
  cases hdecided with
  | failed e hparses hwhy => exact Extends.refl table
  | stored hnone => exact addRow_extends table _ _
  | waits row hrow hdue => exact Extends.refl table
  | passes row hrow hfound hdue => exact passed_extends table _ _

/-- No row is lost in the course of a run. -/
theorem tableAfter_extends (g : Greylist) (ids : IdSource)
    (pre mid : List Contact) :
    Extends (g.tableAfter ids pre) (g.tableAfter ids (pre ++ mid)) := by
  induction mid using List.reverseRecOn with
  | nil =>
      rw [List.append_nil]
      exact Extends.refl _
  | append_singleton mid x ih =>
      have hcolumns := (g.tableAfter_wellFormed ids (pre ++ mid)).columns
      rw [← List.append_assoc]
      exact ih.trans (g.verdict_decided ids (pre ++ mid) x hcolumns).extends

/-- What the name mode keeps: every row was stored for some triplet, and at
most one row answers the lookup of a client with a usable name. -/
structure NamedOnce (g : Greylist) (table : Table) : Prop where
  stored : ∀ row ∈ table.rows, ∃ u, StoredFor row u
  once : ∀ t : Triplet, t.shortName ≠ [] →
    ∀ left ∈ table.matching (g.conditions t),
      ∀ right ∈ table.matching (g.conditions t), left.id = right.id

theorem answers_of_named {g : Greylist} (hmode : g.mode = .reverse)
    {t : Triplet} (hname : t.shortName ≠ []) (u : Triplet) :
    g.Answers u t ↔ u.sender = t.sender ∧ u.recipient = t.recipient ∧
      u.shortName = t.shortName := by
  have hreverse : g.modeOf t = .reverse := by simp [modeOf, hmode, hname]
  simp only [Answers, if_pos hreverse]

/-- A new row answers a named lookup only when no older row did. -/
theorem NamedOnce.addRow {g : Greylist} (hmode : g.mode = .reverse)
    {table : Table} (honce : g.NamedOnce table) {t : Triplet}
    (hnone : table.matching (g.conditions t) = []) (id now : Nat) :
    g.NamedOnce (table.addRow id (rowValues t now)) := by
  have hnew := newRow_storedFor id t now
  have hclash : ∀ u : Triplet, u.shortName ≠ [] →
      (newRow id t now).holdsAll (g.conditions u) = true →
      ∀ row ∈ table.rows, row.holdsAll (g.conditions u) = true → False := by
    intro u hname hholds row hrow hrowholds
    have htu := (answers_of_named hmode hname t).mp
      ((g.holdsAll_conditions_iff hnew u).mp hholds)
    obtain ⟨v, hv⟩ := honce.stored row hrow
    have hvu := (answers_of_named hmode hname v).mp
      ((g.holdsAll_conditions_iff hv u).mp hrowholds)
    have htname : t.shortName ≠ [] := htu.2.2 ▸ hname
    have hvt : g.Answers v t := (answers_of_named hmode htname v).mpr
      ⟨hvu.1.trans htu.1.symm, hvu.2.1.trans htu.2.1.symm,
        hvu.2.2.trans htu.2.2.symm⟩
    have hmatch : row ∈ table.matching (g.conditions t) :=
      Table.mem_matching.mpr ⟨hrow, (g.holdsAll_conditions_iff hv t).mpr hvt⟩
    rw [hnone] at hmatch
    cases hmatch
  refine ⟨?_, ?_⟩
  · intro row hrow
    rcases Table.mem_addRow.mp hrow with hold | rfl
    · exact honce.stored row hold
    · exact ⟨t, hnew⟩
  · intro u hname left hleft right hright
    obtain ⟨hleftmem, hleftholds⟩ := Table.mem_matching.mp hleft
    obtain ⟨hrightmem, hrightholds⟩ := Table.mem_matching.mp hright
    rcases Table.mem_addRow.mp hleftmem with hl | rfl
    · rcases Table.mem_addRow.mp hrightmem with hr | rfl
      · exact honce.once u hname left
          (Table.mem_matching.mpr ⟨hl, hleftholds⟩) right
          (Table.mem_matching.mpr ⟨hr, hrightholds⟩)
      · exact (hclash u hname hrightholds left hl hleftholds).elim
    · rcases Table.mem_addRow.mp hrightmem with hr | rfl
      · exact (hclash u hname hleftholds right hr hrightholds).elim
      · rfl

theorem NamedOnce.passed {g : Greylist} {table : Table}
    (honce : g.NamedOnce table) (id now : Nat) :
    g.NamedOnce (Greylist.passed table id now) := by
  have hback : ∀ row ∈ (Greylist.passed table id now).rows,
      ∃ old ∈ table.rows, Continues old row ∧
        ∀ u, StoredFor old u → StoredFor row u := by
    intro row hrow
    obtain ⟨old, hold, rfl⟩ := mem_passed.mp hrow
    refine ⟨old, hold, ?_⟩
    split
    · exact ⟨passedRow_continues old now,
        fun _ hstored => passedRow_storedFor now hstored⟩
    · exact ⟨Continues.refl old, fun _ hstored => hstored⟩
  refine ⟨?_, ?_⟩
  · intro row hrow
    obtain ⟨old, hold, -, hstored⟩ := hback row hrow
    obtain ⟨u, hu⟩ := honce.stored old hold
    exact ⟨u, hstored u hu⟩
  · intro t hname left hleft right hright
    obtain ⟨hleftmem, hleftholds⟩ := Table.mem_matching.mp hleft
    obtain ⟨hrightmem, hrightholds⟩ := Table.mem_matching.mp hright
    obtain ⟨oldl, holdl, hl, -⟩ := hback left hleftmem
    obtain ⟨oldr, holdr, hr, -⟩ := hback right hrightmem
    rw [hl.id, hr.id]
    refine honce.once t hname oldl ?_ oldr ?_
    · exact Table.mem_matching.mpr ⟨holdl, (hl.holdsAll g t) ▸ hleftholds⟩
    · exact Table.mem_matching.mpr ⟨holdr, (hr.holdsAll g t) ▸ hrightholds⟩

theorem tableAfter_namedOnce {g : Greylist} (ids : IdSource)
    (hmode : g.mode = .reverse) (run : List Contact) :
    g.NamedOnce (g.tableAfter ids run) := by
  induction run using List.reverseRecOn with
  | nil =>
      refine ⟨?_, ?_⟩
      · intro row hrow
        cases hrow
      · intro t _ left hleft
        cases hleft
  | append_singleton pre x ih =>
      have hcolumns := (g.tableAfter_wellFormed ids pre).columns
      have hdecided := g.verdict_decided ids pre x hcolumns
      generalize g.verdict ids pre x = action at hdecided
      generalize g.tableAfter ids (pre ++ [x]) = after at hdecided ⊢
      cases hdecided with
      | failed e hparses hwhy => exact ih
      | stored hnone => exact ih.addRow hmode hnone _ _
      | waits row hrow hdue => exact ih
      | passes row hrow hfound hdue => exact ih.passed _ _

/-- Every row the lookup of `t` matches is due. -/
def RowsDue (g : Greylist) (table : Table) (t : Triplet) (now : Nat) : Prop :=
  ∀ row ∈ table.matching (g.conditions t),
    g.due (countOf row) (utsOf row) now = true

/-- The row would make its triplet wait. -/
def waiting (g : Greylist) (now : Nat) (row : Row) : Bool :=
  !g.due (countOf row) (utsOf row) now

/-- In `run`, the request of `x` passes after `pre` and comes again as `y`
after the calls `mid` in between. -/
structure Returns (g : Greylist) (ids : IdSource) (run pre : List Contact)
    (x : Contact) (mid : List Contact) (y : Contact) : Prop where
  run : pre ++ x :: mid ++ [y] <+: run
  request : y.request = x.request
  pass : g.verdict ids pre x = .ok .dunno

/-- A request that has passed passes again, whichever of its rows the server
delivers first. -/
def KeepsPassing (g : Greylist) (ids : IdSource) (run : List Contact) : Prop :=
  ∀ pre x mid y, g.Returns ids run pre x mid y → ∀ delivery,
    g.verdict ids (pre ++ x :: mid) { y with delivery := delivery } =
      .ok .dunno

/-- What a pass leaves for the next time: a row that is due for ever, and a
lookup that does not fail. -/
theorem Returns.due_row {g : Greylist} {ids : IdSource}
    {run pre mid : List Contact} {x y : Contact}
    (hreturns : g.Returns ids run pre x mid y) :
    (¬ ∃ e, (g.findQuery y.request.triplet).1 = .error e) ∧
      ∃ row ∈ (g.tableAfter ids (pre ++ x :: mid)).matching
        (g.conditions y.request.triplet), 0 < countOf row := by
  have hcolumns := (g.tableAfter_wellFormed ids pre).columns
  have hdecided := g.verdict_decided ids pre x hcolumns
  rw [hreturns.pass] at hdecided
  have hextends := g.tableAfter_extends ids (pre ++ [x]) mid
  rw [hreturns.request]
  rw [List.append_assoc, List.singleton_append] at hextends
  generalize g.tableAfter ids (pre ++ [x]) = after at hdecided hextends
  cases hdecided with
  | passes row hrow hfound hdue =>
      refine ⟨hfound, ?_⟩
      obtain ⟨hmem, hholds⟩ := Table.mem_matching.mp hrow
      obtain ⟨new, hnew, hcontinues⟩ := hextends (passedRow row x.now)
        (mem_passed.mpr ⟨row, hmem, if_pos rfl⟩)
      have hboth := (passedRow_continues row x.now).trans hcontinues
      refine ⟨new, Table.mem_matching.mpr ⟨hnew, ?_⟩, ?_⟩
      · rw [hboth.holdsAll]
        exact hholds
      · have hcount := hcontinues.count
        rw [countOf_passedRow] at hcount
        omega

/-- The verdict when every row that answers is due. -/
theorem verdict_of_all_due {g : Greylist} {ids : IdSource}
    {pre : List Contact} {x : Contact}
    (hfound : ¬ ∃ e, (g.findQuery x.request.triplet).1 = .error e)
    {row : Row} (hrow : row ∈ (g.tableAfter ids pre).matching
      (g.conditions x.request.triplet))
    (hall : ∀ row ∈ (g.tableAfter ids pre).matching
      (g.conditions x.request.triplet),
      g.due (countOf row) (utsOf row) x.now = true) :
    g.verdict ids pre x = .ok .dunno := by
  have hcolumns := (g.tableAfter_wellFormed ids pre).columns
  have hdecided := g.verdict_decided ids pre x hcolumns
  generalize g.verdict ids pre x = action at hdecided ⊢
  generalize g.tableAfter ids (pre ++ [x]) = after at hdecided
  cases hdecided with
  | failed e hparses hwhy =>
      rcases hwhy with hfail | hnone
      · exact absurd hfail hfound
      · rw [hnone] at hrow
        cases hrow
  | stored hnone =>
      rw [hnone] at hrow
      cases hrow
  | waits row hrow hdue =>
      rw [hall row hrow] at hdue
      cases hdue
  | passes row hrow hfound hdue => rfl

/-- The verdict when the first delivered row is waiting. -/
theorem verdict_of_first_waiting (g : Greylist) (ids : IdSource)
    (pre : List Contact) (x : Contact)
    (hfound : ¬ ∃ e, (g.findQuery x.request.triplet).1 = .error e)
    {row : Row} {rest : List Row}
    (horder : x.delivery.order ((g.tableAfter ids pre).matching
      (g.conditions x.request.triplet)) = row :: rest)
    (hdue : g.due (countOf row) (utsOf row) x.now = false) :
    g.verdict ids pre x = .ok .defer := by
  have hcolumns := (g.tableAfter_wellFormed ids pre).columns
  obtain ⟨hsame, hcases⟩ := g.findQuery_cases x.request.triplet
  have hok := hcases.resolve_left hfound
  have hlookup := g.findQuery_lookup x.request.triplet x.delivery hcolumns
  rcases hquery : g.findQuery x.request.triplet with ⟨query, t'⟩
  rw [hquery] at hok
  simp only at hok
  subst hok
  rw [horder, List.map_cons] at hlookup
  have hcount : (column (returnFields.map row.get) 2).getNumeric =
      countOf row := rfl
  have huts : (column (returnFields.map row.get) 3).getNumeric =
      utsOf row := rfl
  simp only [verdict, decideContact, decideAlone, decide, findTriplet, hquery,
    Prog.eval, handler, hlookup, hcount, huts, hdue, Bool.false_eq_true,
    ↓reduceIte]

/-- In the name mode a run keeps letting through what has passed exactly when
every row that matches is due at every return of a client without a usable
name. -/
theorem keepsPassing_iff_rowsDue (g : Greylist) (ids : IdSource)
    (hmode : g.mode = .reverse) (run : List Contact) :
    g.KeepsPassing ids run ↔
      ∀ pre x mid y, g.Returns ids run pre x mid y →
        y.request.triplet.shortName = [] →
        g.RowsDue (g.tableAfter ids (pre ++ x :: mid)) y.request.triplet
          y.now := by
  constructor
  · intro hkeeps pre x mid y hreturns hnameless row hrow
    obtain ⟨hfound, -⟩ := hreturns.due_row
    by_contra hnot
    have hwaiting : g.waiting y.now row = true := by
      simpa [waiting] using hnot
    obtain ⟨first, rest, horder, -, hfirst⟩ :=
      Delivery.preferring_order (g.waiting y.now) hrow hwaiting
    have hdefer := g.verdict_of_first_waiting ids (pre ++ x :: mid)
      { y with delivery := .preferring (g.waiting y.now) } hfound horder
      (by simpa [waiting] using hfirst)
    have hdunno := hkeeps pre x mid y hreturns (.preferring (g.waiting y.now))
    rw [hdefer] at hdunno
    cases hdunno
  · intro hdue pre x mid y hreturns delivery
    obtain ⟨hfound, row, hrow, hpos⟩ := hreturns.due_row
    have hrowdue : g.due (countOf row) (utsOf row) y.now = true :=
      (g.due_eq_true_iff _ _ _).mpr (Or.inl hpos)
    refine verdict_of_all_due hfound hrow ?_
    intro other hother
    by_cases hname : y.request.triplet.shortName = []
    · exact hdue pre x mid y hreturns hname other hother
    · have hid := (tableAfter_namedOnce ids hmode _).once _ hname other hother
        row hrow
      have hids := (g.tableAfter_wellFormed ids (pre ++ x :: mid)).ids
      have hsame := Table.eq_of_id_eq hids (Table.mem_matching.mp hother).1
        (Table.mem_matching.mp hrow).1 hid
      exact hsame ▸ hrowdue

end Greylist

namespace GreylistReverseWitness

def policy : Greylist :=
  { mode := .reverse, verbose := false, timeout := 60, weakbytes := 3
    weakbytes_le := IPAddress.three_le_default_length }

def nameless : Request :=
  { client_address := "192.0.2.7".toList
    sender := "alice@example.org".toList
    recipient := "bob@example.net".toList }

def named : Request :=
  { nameless with
    client_address := "192.0.2.8".toList
    client_name := "mail.example.org".toList }

/-- The client without a name is stored and passes, then a named client of its
network is stored. -/
def earlier : List Contact :=
  [⟨0, nameless, .inTableOrder, {}⟩, ⟨100, nameless, .inTableOrder, {}⟩,
    ⟨100, named, .inTableOrder, {}⟩]

def again : Contact := ⟨101, nameless, .reversed, {}⟩

/-- A request that has passed is deferred when the row of the named client is
delivered first. -/
theorem passed_request_deferred :
    (earlier ++ [again]).Pairwise (fun x y => x.now ≤ y.now) ∧
      policy.verdict .autoIncrement (earlier.take 1)
        ⟨100, nameless, .inTableOrder, {}⟩ = .ok .dunno ∧
      policy.verdict .autoIncrement earlier again = .ok .defer := by
  refine ⟨?_, ?_, ?_⟩
  · simp [earlier, again]
  · decide +kernel
  · decide +kernel

/-- The condition fails on that run: at the return one row is not due. -/
theorem rows_not_due :
    ¬ ∀ pre x mid y,
      policy.Returns .autoIncrement (earlier ++ [again]) pre x mid y →
        y.request.triplet.shortName = [] →
        policy.RowsDue (policy.tableAfter .autoIncrement (pre ++ x :: mid))
          y.request.triplet y.now := by
  intro hdue
  have hkeeps := (Greylist.keepsPassing_iff_rowsDue policy .autoIncrement
    rfl (earlier ++ [again])).mpr hdue
  have hdunno := hkeeps (earlier.take 1) ⟨100, nameless, .inTableOrder, {}⟩
    (earlier.drop 2) again ⟨List.prefix_refl _, rfl, by decide +kernel⟩
    .reversed
  have hdefer : policy.verdict .autoIncrement earlier again = .ok .defer := by
    decide +kernel
  exact absurd (hdefer.symm.trans hdunno) (by decide)

end GreylistReverseWitness

end GreylistServer
