/-
Decisions one after the other.  Which rows answer a lookup is a matter of the
triplet each row was stored for; from that follow the two laws of a run: in the
address modes a triplet passes exactly when its key was first seen long enough
ago, and a triplet that has passed keeps passing as long as no lookup meets
rows that disagree.
-/
import GreylistServer.GreylistStep

namespace GreylistServer

namespace Greylist

/-- The row says what an insertion for `t` wrote into the key columns. -/
structure StoredFor (row : Row) (t : Triplet) : Prop where
  sender : row.get "sender" = .text t.sender
  recipient : row.get "recipient" = .text t.recipient
  name : row.get "client_address" = .text t.shortName
  address : ∀ k, k < IPAddress.default_length →
    row.get (ipColumn (64 >>> k)) = .number (t.part k)

/-- A row stored for `u` answers the lookup of `t`. -/
def Answers (g : Greylist) (u t : Triplet) : Prop :=
  u.sender = t.sender ∧ u.recipient = t.recipient ∧
    if g.modeOf t = .reverse then u.shortName = t.shortName
    else ∀ k, k < g.parts t → u.part k = t.part k

/-- The row an insertion writes. -/
def newRow (id : Nat) (t : Triplet) (now : Nat) : Row :=
  ⟨id, fun name => ((rowValues t now).lookup name).getD (.text [])⟩

theorem newRow_storedFor (id : Nat) (t : Triplet) (now : Nat) :
    StoredFor (newRow id t now) t where
  sender := rfl
  recipient := rfl
  name := rfl
  address := by
    intro k hk
    unfold IPAddress.default_length at hk
    interval_cases k <;> rfl

theorem utsOf_newRow (id : Nat) (t : Triplet) (now : Nat) :
    utsOf (newRow id t now) = now := rfl

theorem holdsAll_addressConditions {row : Row} {u : Triplet}
    (hstored : StoredFor row u) (t : Triplet) {count : Nat}
    (hcount : count ≤ IPAddress.default_length) :
    row.holdsAll (addressConditions t 0 count) = true ↔
      ∀ k, k < count → u.part k = t.part k := by
  simp only [Row.holdsAll, addressConditions, List.all_map, List.all_eq_true,
    List.mem_range'_1, Function.comp_apply, Row.holds]
  constructor
  · intro hall k hk
    have hcell := hall k ⟨Nat.zero_le k, by omega⟩
    rw [hstored.address k (by omega)] at hcell
    simpa using hcell
  · intro hall k hk
    rw [hstored.address k (by omega)]
    simpa using hall k (by omega)

/-- A stored row satisfies the conditions of a lookup exactly when the triplet
it was stored for answers it. -/
theorem holdsAll_conditions_iff (g : Greylist) {row : Row} {u : Triplet}
    (hstored : StoredFor row u) (t : Triplet) :
    row.holdsAll (g.conditions t) = true ↔ g.Answers u t := by
  have hsender : row.holds ("sender", .text t.sender) = true ↔
      u.sender = t.sender := by
    rw [Row.holds, hstored.sender]
    exact Cell.sqlEq_text_iff u.sender_lower t.sender_lower
  have hrecipient : row.holds ("recipient", .text t.recipient) = true ↔
      u.recipient = t.recipient := by
    rw [Row.holds, hstored.recipient]
    exact Cell.sqlEq_text_iff u.recipient_lower t.recipient_lower
  unfold Answers conditions
  simp only [Row.holdsAll, List.all_cons, Bool.and_eq_true, hsender,
    hrecipient]
  refine and_congr_right fun _ => and_congr_right fun _ => ?_
  split
  · simp only [List.all_cons, List.all_nil, Bool.and_true, Row.holds,
      hstored.name]
    exact Cell.sqlEq_text_iff u.lowercase_shortName t.lowercase_shortName
  · exact holdsAll_addressConditions hstored t (g.parts_le t)

theorem get_assign_keyColumn (row : Row) (now : Nat) {name : Str}
    (hname : name ∈ keyColumns) :
    (row.assign [("count", Update.apply (.increment 1)),
      ("uts", Update.apply (.set (now % 2 ^ 32)))]).get name =
      row.get name := by
  apply Row.get_assign_of_lookup_none
  have hother : name ≠ "count".toList ∧ name ≠ "uts".toList := by
    revert hname
    revert name
    decide
  simp only [List.lookup, beq_eq_false_iff_ne.mpr hother.1,
    beq_eq_false_iff_ne.mpr hother.2]

/-- The row after a pass. -/
def passedRow (row : Row) (now : Nat) : Row :=
  row.assign [("count", Update.apply (.increment 1)),
    ("uts", Update.apply (.set (now % 2 ^ 32)))]

theorem passedRow_storedFor {row : Row} {t : Triplet} (now : Nat)
    (hstored : StoredFor row t) : StoredFor (passedRow row now) t where
  sender := (get_assign_keyColumn row now (by decide)).trans hstored.sender
  recipient :=
    (get_assign_keyColumn row now (by decide)).trans hstored.recipient
  name := (get_assign_keyColumn row now (by decide)).trans hstored.name
  address := fun k hk =>
    (get_assign_keyColumn row now (ipColumn_mem_keyColumns hk)).trans
      (hstored.address k hk)

theorem countOf_passedRow (row : Row) (now : Nat) :
    countOf (passedRow row now) = countOf row + 1 := rfl

/-- A pass changes the rows with its id and no other row. -/
theorem mem_passed {table : Table} {id now : Nat} {row : Row} :
    row ∈ (passed table id now).rows ↔
      ∃ old ∈ table.rows,
        (if old.id = id then passedRow old now else old) = row := by
  simp [passed, Table.mem_modify, passedRow]

theorem passed_ids (table : Table) (id now : Nat) :
    (passed table id now).rows.map Row.id = table.rows.map Row.id :=
  Table.modify_ids _ _ _

/-- The same stored triplet, possibly passed more often. -/
structure Continues (old new : Row) : Prop where
  id : new.id = old.id
  key : ∀ name ∈ keyColumns, new.get name = old.get name
  count : countOf old ≤ countOf new

theorem Continues.refl (row : Row) : Continues row row :=
  ⟨rfl, fun _ _ => rfl, Nat.le_refl _⟩

theorem Continues.trans {a b c : Row} (hab : Continues a b)
    (hbc : Continues b c) : Continues a c where
  id := hbc.id.trans hab.id
  key := fun name hname => (hbc.key name hname).trans (hab.key name hname)
  count := Nat.le_trans hab.count hbc.count

theorem passedRow_continues (row : Row) (now : Nat) :
    Continues row (passedRow row now) where
  id := rfl
  key := fun _ hname => get_assign_keyColumn row now hname
  count := Nat.le_succ _

/-- A lookup that selected a row goes on selecting it. -/
theorem Continues.holdsAll {old new : Row} (hcontinues : Continues old new)
    (g : Greylist) (t : Triplet) :
    new.holdsAll (g.conditions t) = old.holdsAll (g.conditions t) :=
  Row.holdsAll_congr fun _ hmem =>
    hcontinues.key _ (g.conditions_mem_keyColumns t hmem)

/-- Every row is still there. -/
def Extends (table after : Table) : Prop :=
  ∀ old ∈ table.rows, ∃ new ∈ after.rows, Continues old new

theorem Extends.refl (table : Table) : Extends table table :=
  fun row hrow => ⟨row, hrow, Continues.refl row⟩

theorem Extends.trans {a b c : Table} (hab : Extends a b)
    (hbc : Extends b c) : Extends a c := by
  intro old hold
  obtain ⟨mid, hmid, hfirst⟩ := hab old hold
  obtain ⟨new, hnew, hsecond⟩ := hbc mid hmid
  exact ⟨new, hnew, hfirst.trans hsecond⟩

theorem addRow_extends (table : Table) (id : Nat) (values) :
    Extends table (table.addRow id values) :=
  fun row hrow => ⟨row, Table.mem_addRow.mpr (Or.inl hrow),
    Continues.refl row⟩

theorem passed_extends (table : Table) (id now : Nat) :
    Extends table (passed table id now) := by
  intro old hold
  refine ⟨_, mem_passed.mpr ⟨old, hold, rfl⟩, ?_⟩
  split
  · exact passedRow_continues old now
  · exact Continues.refl old

theorem due_eq_true_iff (g : Greylist) (count uts now : Nat) :
    g.due count uts now = true ↔
      0 < count ∨ g.timeout < timeDiff uts now := by
  simp [due]

theorem timeDiff_le (uts now : Nat) : timeDiff uts now ≤ now - uts := by
  unfold timeDiff
  split
  · exact Nat.le_refl _
  · exact Nat.zero_le _

theorem timeDiff_of_le {uts now : Nat} (hle : uts ≤ now) :
    timeDiff uts now = now - uts := by
  unfold timeDiff
  split
  · rfl
  · omega

end Greylist

/-- One call of a sequential run: when it reads the clock, what it is called
on and in which order the server delivers the rows it selects. -/
structure Contact where
  now : Nat
  request : Request
  delivery : Delivery := .inTableOrder
  extra : Extra := {}

namespace Greylist

/-- The table before anything was stored. -/
def emptyTable : Table :=
  ⟨tripletColumns, [], allColumns_not_mem_tripletColumns⟩

def decideContact (g : Greylist) (ids : IdSource) (table : Table)
    (x : Contact) : Outcome × Table :=
  g.decideAlone ids x.delivery x.now x.request.triplet x.extra table

/-- The table a run leaves behind. -/
def tableAfter (g : Greylist) (ids : IdSource) (run : List Contact) : Table :=
  run.foldl (fun table x => (g.decideContact ids table x).2) emptyTable

/-- The verdict on `x` after the calls `pre`. -/
def verdict (g : Greylist) (ids : IdSource) (pre : List Contact)
    (x : Contact) : Except Error ActionType :=
  (g.decideContact ids (g.tableAfter ids pre) x).1.action

theorem tableAfter_append_singleton (g : Greylist) (ids : IdSource)
    (pre : List Contact) (x : Contact) :
    g.tableAfter ids (pre ++ [x]) =
      (g.decideContact ids (g.tableAfter ids pre) x).2 := by
  simp [tableAfter]

/-- One more call of a run does one of the four things to the table. -/
theorem verdict_decided (g : Greylist) (ids : IdSource) (pre : List Contact)
    (x : Contact) (hcolumns : (g.tableAfter ids pre).columns = tripletColumns) :
    Decided g ids x.request.triplet x.now (g.tableAfter ids pre)
      (g.verdict ids pre x) (g.tableAfter ids (pre ++ [x])) := by
  rw [tableAfter_append_singleton]
  exact g.decideAlone_decided ids x.delivery x.now x.request.triplet x.extra
    hcolumns

/-- What every call keeps: the columns and the distinctness of the ids. -/
structure WellFormed (table : Table) : Prop where
  columns : table.columns = tripletColumns
  ids : (table.rows.map Row.id).Nodup

theorem Decided.wellFormed {g : Greylist} {ids : IdSource} {t : Triplet}
    {now : Nat} {table after : Table} {action : Except Error ActionType}
    (hdecided : Decided g ids t now table action after)
    (hwf : WellFormed table) : WellFormed after := by
  cases hdecided with
  | failed e hparses hwhy => exact hwf
  | stored hnone =>
      exact ⟨hwf.columns, Table.addRow_ids_nodup hwf.ids
        (ids.fresh_not_mem table.rows)⟩
  | waits row hrow hdue => exact hwf
  | passes row hrow hfound hdue =>
      exact ⟨hwf.columns, (passed_ids table row.id now).symm ▸ hwf.ids⟩

theorem tableAfter_wellFormed (g : Greylist) (ids : IdSource)
    (run : List Contact) : WellFormed (g.tableAfter ids run) := by
  induction run using List.reverseRecOn with
  | nil => exact ⟨rfl, List.nodup_nil⟩
  | append_singleton pre x ih =>
      exact (g.verdict_decided ids pre x ih.columns).wellFormed ih

/-- How many address components belong to the key in the address modes. -/
def keyParts (g : Greylist) : Nat :=
  if g.mode = .normal then IPAddress.default_length else g.weakbytes

/-- The key under which the address modes remember a request. -/
def keyOf (g : Greylist) (r : Request) : Str × Str × List Nat :=
  (lowercase r.sender, lowercase r.recipient,
    (IPAddress.numbers r.client_address).take g.keyParts)

theorem keyParts_le (g : Greylist) : g.keyParts ≤ IPAddress.default_length := by
  unfold keyParts
  split
  · exact Nat.le_refl _
  · exact g.weakbytes_le

theorem modeOf_of_address {g : Greylist}
    (hmode : g.mode = .normal ∨ g.mode = .weak) (t : Triplet) :
    g.modeOf t = g.mode := by
  rcases hmode with hmode | hmode <;> simp [modeOf, hmode]

theorem parts_of_address {g : Greylist}
    (hmode : g.mode = .normal ∨ g.mode = .weak) (t : Triplet) :
    g.parts t = g.keyParts := by
  rcases hmode with hmode | hmode <;> simp [parts, keyParts, modeOf, hmode]

theorem take_eq_take_iff {left right : List Nat} {length count : Nat}
    (hleft : left.length = length) (hright : right.length = length)
    (hcount : count ≤ length) :
    left.take count = right.take count ↔
      ∀ k, k < count → left.getD k 0 = right.getD k 0 := by
  constructor
  · intro heq k hk
    have hget := congrArg (fun l => l.getD k 0) heq
    simpa [List.getD, List.getElem?_take, hk] using hget
  · intro hall
    apply List.ext_getElem
    · simp [hleft, hright]
    · intro k hk _
      have hlt : k < count := by
        rw [List.length_take] at hk
        omega
      have hget := hall k hlt
      rw [List.getD_eq_getElem _ _ (by omega),
        List.getD_eq_getElem _ _ (by omega)] at hget
      simpa using hget

/-- In the address modes a stored request answers a lookup exactly when the
two have the same key. -/
theorem answers_iff_keyOf_eq {g : Greylist}
    (hmode : g.mode = .normal ∨ g.mode = .weak) {u t : Request}
    (hu : u.triplet.Parses) (ht : t.triplet.Parses) :
    g.Answers u.triplet t.triplet ↔ g.keyOf u = g.keyOf t := by
  have hreverse : ¬ g.modeOf t.triplet = .reverse := by
    rw [modeOf_of_address hmode]
    rcases hmode with hmode | hmode <;> simp [hmode]
  have htake := take_eq_take_iff
    ((IPAddress.length_numbers u.client_address).trans hu.1)
    ((IPAddress.length_numbers t.client_address).trans ht.1) g.keyParts_le
  simp only [Answers, if_neg hreverse, parts_of_address hmode, keyOf,
    Prod.mk.injEq]
  exact and_congr_right fun _ => and_congr_right fun _ => htake.symm

/-- A row as the record of a first contact: it was stored by the first request
with its key and carries that time until it is passed, and a passed row is
older than the timeout. -/
def Recalls (g : Greylist) (pre : List Contact) (row : Row) : Prop :=
  ∃ u ∈ pre, StoredFor row u.request.triplet ∧
    (∀ v ∈ pre, g.keyOf v.request = g.keyOf u.request → u.now ≤ v.now) ∧
    ((countOf row = 0 ∧ utsOf row = u.now) ∨
      (0 < countOf row ∧ ∃ v ∈ pre, u.now + g.timeout < v.now))

/-- The table as the record of first contacts: every row is one, and every
earlier request is answered. -/
structure Remembers (g : Greylist) (pre : List Contact) (table : Table) :
    Prop where
  wellFormed : WellFormed table
  rows : ∀ row ∈ table.rows, g.Recalls pre row
  covered : ∀ v ∈ pre, ∃ row ∈ table.rows,
    row.holdsAll (g.conditions v.request.triplet) = true

/-- A row that answers the lookup is due exactly when some earlier request
with the same key is older than the timeout. -/
theorem Remembers.due_iff {g : Greylist} {pre : List Contact} {table : Table}
    (hremembers : g.Remembers pre table)
    (hmode : g.mode = .normal ∨ g.mode = .weak) {x : Contact}
    (hclock : ∀ y ∈ pre, y.now ≤ x.now)
    (hparses : ∀ y ∈ pre, y.request.triplet.Parses)
    (hx : x.request.triplet.Parses) {row : Row}
    (hrow : row ∈ table.matching (g.conditions x.request.triplet)) :
    g.due (countOf row) (utsOf row) x.now = true ↔
      ∃ y ∈ pre, g.keyOf y.request = g.keyOf x.request ∧
        g.timeout < x.now - y.now := by
  obtain ⟨hmem, hholds⟩ := Table.mem_matching.mp hrow
  obtain ⟨u, hu, hstored, hfirst, hstate⟩ := hremembers.rows row hmem
  have hkey : g.keyOf u.request = g.keyOf x.request :=
    (answers_iff_keyOf_eq hmode (hparses u hu) hx).mp
      ((g.holdsAll_conditions_iff hstored _).mp hholds)
  rw [due_eq_true_iff]
  constructor
  · intro hdue
    refine ⟨u, hu, hkey, ?_⟩
    rcases hstate with ⟨hzero, huts⟩ | ⟨hpos, v, hv, hold⟩
    · rcases hdue with hpos | hdiff
      · omega
      · have hle := timeDiff_le (utsOf row) x.now
        rw [huts] at hle hdiff
        omega
    · have hvle := hclock v hv
      omega
  · rintro ⟨y, hy, hykey, hold⟩
    have hule : u.now ≤ y.now := hfirst y hy (hykey.trans hkey.symm)
    rcases hstate with ⟨hzero, huts⟩ | ⟨hpos, -⟩
    · right
      rw [huts, timeDiff_of_le (hclock u hu)]
      omega
    · exact Or.inl hpos

/-- An earlier request with the same key has left a row that answers. -/
theorem Remembers.answered {g : Greylist} {pre : List Contact} {table : Table}
    (hremembers : g.Remembers pre table)
    (hmode : g.mode = .normal ∨ g.mode = .weak)
    (hparses : ∀ y ∈ pre, y.request.triplet.Parses) {x : Contact}
    (hx : x.request.triplet.Parses) {y : Contact} (hy : y ∈ pre)
    (hkey : g.keyOf y.request = g.keyOf x.request) :
    ∃ row, row ∈ table.matching (g.conditions x.request.triplet) := by
  obtain ⟨row, hrow, hholds⟩ := hremembers.covered y hy
  obtain ⟨u, hu, hstored, -, -⟩ := hremembers.rows row hrow
  have hukey : g.keyOf u.request = g.keyOf y.request :=
    (answers_iff_keyOf_eq hmode (hparses u hu) (hparses y hy)).mp
      ((g.holdsAll_conditions_iff hstored _).mp hholds)
  refine ⟨row, Table.mem_matching.mpr ⟨hrow, ?_⟩⟩
  exact (g.holdsAll_conditions_iff hstored _).mpr
    ((answers_iff_keyOf_eq hmode (hparses u hu) hx).mpr (hukey.trans hkey))

/-- The request a row was stored by stays the first one with its key. -/
theorem first_later {g : Greylist} {pre : List Contact} {u x : Contact}
    (hu : u ∈ pre) (hclock : ∀ y ∈ pre, y.now ≤ x.now)
    (hfirst : ∀ v ∈ pre, g.keyOf v.request = g.keyOf u.request →
      u.now ≤ v.now) :
    ∀ v ∈ pre ++ [x], g.keyOf v.request = g.keyOf u.request →
      u.now ≤ v.now := by
  intro v hv hkey
  rcases List.mem_append.mp hv with hold | hnew
  · exact hfirst v hold hkey
  · rw [List.mem_singleton] at hnew
    exact hnew ▸ hclock u hu

theorem Recalls.later {g : Greylist} {pre : List Contact} {row : Row}
    (hrecalls : g.Recalls pre row) {x : Contact}
    (hclock : ∀ y ∈ pre, y.now ≤ x.now) : g.Recalls (pre ++ [x]) row := by
  obtain ⟨u, hu, hstored, hfirst, hstate⟩ := hrecalls
  refine ⟨u, List.mem_append_left _ hu, hstored,
    first_later hu hclock hfirst, ?_⟩
  rcases hstate with hzero | ⟨hpos, v, hv, hold⟩
  · exact Or.inl hzero
  · exact Or.inr ⟨hpos, v, List.mem_append_left _ hv, hold⟩

/-- A row that answers a request is passed when an earlier request with the
same key is older than the timeout. -/
theorem Recalls.passed {g : Greylist} {pre : List Contact} {row : Row}
    (hrecalls : g.Recalls pre row)
    (hmode : g.mode = .normal ∨ g.mode = .weak) {x : Contact}
    (hclock : ∀ y ∈ pre, y.now ≤ x.now)
    (hparses : ∀ y ∈ pre, y.request.triplet.Parses)
    (hx : x.request.triplet.Parses)
    (hholds : row.holdsAll (g.conditions x.request.triplet) = true)
    {y : Contact} (hy : y ∈ pre) (hykey : g.keyOf y.request = g.keyOf x.request)
    (hold : g.timeout < x.now - y.now) :
    g.Recalls (pre ++ [x]) (passedRow row x.now) := by
  obtain ⟨u, hu, hstored, hfirst, -⟩ := hrecalls
  have hukey : g.keyOf u.request = g.keyOf x.request :=
    (answers_iff_keyOf_eq hmode (hparses u hu) hx).mp
      ((g.holdsAll_conditions_iff hstored _).mp hholds)
  have hle : u.now ≤ y.now := hfirst y hy (hykey.trans hukey.symm)
  refine ⟨u, List.mem_append_left _ hu, passedRow_storedFor x.now hstored,
    first_later hu hclock hfirst, Or.inr ⟨?_, x, ?_, ?_⟩⟩
  · rw [countOf_passedRow]
    omega
  · exact List.mem_append_right _ (List.mem_singleton_self x)
  · omega

theorem recalls_newRow {g : Greylist} {pre : List Contact} {x : Contact}
    (hnone : ∀ v ∈ pre, g.keyOf v.request ≠ g.keyOf x.request) (id : Nat) :
    g.Recalls (pre ++ [x]) (newRow id x.request.triplet x.now) := by
  refine ⟨x, List.mem_append_right _ (List.mem_singleton_self x),
    newRow_storedFor id x.request.triplet x.now, ?_, Or.inl ⟨rfl, rfl⟩⟩
  intro v hv hkey
  rcases List.mem_append.mp hv with hold | hself
  · exact absurd hkey (hnone v hold)
  · rw [List.mem_singleton] at hself
    exact hself ▸ Nat.le_refl _

theorem Remembers.covered_later {g : Greylist} {pre : List Contact}
    {table after : Table} (hremembers : g.Remembers pre table)
    (hextends : Extends table after) {x : Contact} {row : Row}
    (hrow : row ∈ after.rows)
    (hholds : row.holdsAll (g.conditions x.request.triplet) = true) :
    ∀ v ∈ pre ++ [x], ∃ row ∈ after.rows,
      row.holdsAll (g.conditions v.request.triplet) = true := by
  intro v hv
  rcases List.mem_append.mp hv with hold | hnew
  · obtain ⟨old, hmem, hcovers⟩ := hremembers.covered v hold
    obtain ⟨new, hnew, hcontinues⟩ := hextends old hmem
    exact ⟨new, hnew, (hcontinues.holdsAll g _).trans hcovers⟩
  · rw [List.mem_singleton] at hnew
    exact ⟨row, hrow, hnew ▸ hholds⟩

theorem Remembers.step {g : Greylist} {ids : IdSource} {pre : List Contact}
    {table after : Table} {x : Contact} {action : Except Error ActionType}
    (hremembers : g.Remembers pre table)
    (hmode : g.mode = .normal ∨ g.mode = .weak)
    (hclock : ∀ y ∈ pre, y.now ≤ x.now)
    (hparses : ∀ y ∈ pre, y.request.triplet.Parses)
    (hx : x.request.triplet.Parses)
    (hdecided : Decided g ids x.request.triplet x.now table action after) :
    g.Remembers (pre ++ [x]) after := by
  have hwf := hdecided.wellFormed hremembers.wellFormed
  have hlater : ∀ row ∈ table.rows, g.Recalls (pre ++ [x]) row :=
    fun row hrow => (hremembers.rows row hrow).later hclock
  cases hdecided with
  | failed e hnot hwhy => exact absurd hx hnot
  | waits row hrow hdue =>
      obtain ⟨hmem, hholds⟩ := Table.mem_matching.mp hrow
      exact ⟨hwf, hlater,
        hremembers.covered_later (Extends.refl table) hmem hholds⟩
  | stored hnone =>
      have hfirst : ∀ v ∈ pre, g.keyOf v.request ≠ g.keyOf x.request := by
        intro v hv hkey
        obtain ⟨row, hrow⟩ := hremembers.answered hmode hparses hx hv hkey
        rw [hnone] at hrow
        cases hrow
      have hnew := newRow_storedFor (ids.fresh table.rows) x.request.triplet
        x.now
      have hholds := (g.holdsAll_conditions_iff hnew _).mpr
        ((answers_iff_keyOf_eq hmode hx hx).mpr rfl)
      refine ⟨hwf, ?_, hremembers.covered_later (addRow_extends table _ _)
        (Table.mem_addRow.mpr (Or.inr rfl)) hholds⟩
      intro row hrow
      rcases Table.mem_addRow.mp hrow with hold | rfl
      · exact hlater row hold
      · exact recalls_newRow hfirst _
  | passes row hrow hfound hdue =>
      obtain ⟨hmem, hholds⟩ := Table.mem_matching.mp hrow
      obtain ⟨y, hy, hykey, hold⟩ := (hremembers.due_iff hmode hclock hparses
        hx hrow).mp hdue
      have hpassed := (passedRow_continues row x.now).holdsAll g
        x.request.triplet
      refine ⟨hwf, ?_, hremembers.covered_later (passed_extends table _ _)
        (mem_passed.mpr ⟨row, hmem, if_pos rfl⟩) (hpassed.trans hholds)⟩
      intro after hafter
      obtain ⟨old, hold', rfl⟩ := mem_passed.mp hafter
      by_cases hid : old.id = row.id
      · obtain rfl := Table.eq_of_id_eq hremembers.wellFormed.ids hold' hmem
          hid
        rw [if_pos rfl]
        exact (hremembers.rows old hmem).passed hmode hclock hparses hx hholds
          hy hykey hold
      · rw [if_neg hid]
        exact hlater old hold'

/-- In the address modes the table of a run is the record of its first
contacts. -/
theorem tableAfter_remembers {g : Greylist} (ids : IdSource)
    (hmode : g.mode = .normal ∨ g.mode = .weak) (run : List Contact)
    (hclock : run.Pairwise fun x y => x.now ≤ y.now)
    (hparses : ∀ x ∈ run, x.request.triplet.Parses) :
    g.Remembers run (g.tableAfter ids run) := by
  induction run using List.reverseRecOn with
  | nil =>
      refine ⟨⟨rfl, List.nodup_nil⟩, ?_, ?_⟩
      · intro row hrow
        cases hrow
      · intro v hv
        cases hv
  | append_singleton pre x ih =>
      obtain ⟨hpre, -, hlast⟩ := List.pairwise_append.mp hclock
      have hparsesPre : ∀ y ∈ pre, y.request.triplet.Parses :=
        fun y hy => hparses y (List.mem_append_left _ hy)
      have hremembers := ih hpre hparsesPre
      exact hremembers.step hmode
        (fun y hy => hlast y hy x (List.mem_singleton_self x)) hparsesPre
        (hparses x (List.mem_append_right _ (List.mem_singleton_self x)))
        (g.verdict_decided ids pre x hremembers.wellFormed.columns)

/-- In the address modes a request passes exactly when an earlier request with
the same key is older than the timeout; otherwise it is deferred. -/
theorem verdict_iff_first_contact (g : Greylist) (ids : IdSource)
    (hmode : g.mode = .normal ∨ g.mode = .weak) (pre : List Contact)
    (x : Contact)
    (hclock : (pre ++ [x]).Pairwise fun x y => x.now ≤ y.now)
    (hparses : ∀ y ∈ pre ++ [x], y.request.triplet.Parses) :
    (g.verdict ids pre x = .ok .dunno ↔
        ∃ y ∈ pre, g.keyOf y.request = g.keyOf x.request ∧
          g.timeout < x.now - y.now) ∧
      (g.verdict ids pre x = .ok .dunno ∨ g.verdict ids pre x = .ok .defer) := by
  obtain ⟨hpre, -, hlast⟩ := List.pairwise_append.mp hclock
  have hclockPre : ∀ y ∈ pre, y.now ≤ x.now :=
    fun y hy => hlast y hy x (List.mem_singleton_self x)
  have hparsesPre : ∀ y ∈ pre, y.request.triplet.Parses :=
    fun y hy => hparses y (List.mem_append_left _ hy)
  have hx : x.request.triplet.Parses :=
    hparses x (List.mem_append_right _ (List.mem_singleton_self x))
  have hremembers := tableAfter_remembers ids hmode pre hpre hparsesPre
  have hdecided := g.verdict_decided ids pre x hremembers.wellFormed.columns
  generalize g.verdict ids pre x = action at hdecided ⊢
  generalize g.tableAfter ids (pre ++ [x]) = after at hdecided
  cases hdecided with
  | failed e hnot hwhy => exact absurd hx hnot
  | stored hnone =>
      refine ⟨⟨nofun, ?_⟩, Or.inr rfl⟩
      rintro ⟨y, hy, hkey, -⟩
      have hrow := hremembers.answered hmode hparsesPre hx hy hkey
      rw [hnone] at hrow
      obtain ⟨row, hrow⟩ := hrow
      cases hrow
  | waits row hrow hdue =>
      refine ⟨⟨nofun, ?_⟩, Or.inr rfl⟩
      intro hold
      rw [(hremembers.due_iff hmode hclockPre hparsesPre hx hrow).mpr hold]
        at hdue
      cases hdue
  | passes row hrow hfound hdue =>
      refine ⟨⟨fun _ => ?_, fun _ => rfl⟩, Or.inl rfl⟩
      exact (hremembers.due_iff hmode hclockPre hparsesPre hx hrow).mp hdue

end Greylist

namespace GreylistRunWitness

def policy : Greylist :=
  { mode := .weak, verbose := false, timeout := 60, weakbytes := 3
    weakbytes_le := IPAddress.three_le_default_length }

def first : Contact :=
  { now := 1000
    request :=
      { client_address := "192.0.2.7".toList
        sender := "Alice@example.org".toList
        recipient := "bob@example.net".toList } }

/-- The same key from another host of the network, 61 seconds later. -/
def retry : Contact :=
  { now := 1061
    request :=
      { client_address := "192.0.2.99".toList
        sender := "alice@example.org".toList
        recipient := "bob@example.net".toList } }

theorem verdict_retry :
    policy.verdict .autoIncrement [first] retry = .ok .dunno := by
  refine (Greylist.verdict_iff_first_contact policy .autoIncrement
    (Or.inr rfl) [first] retry ?_ ?_).1.mpr ⟨first, ?_, ?_, ?_⟩
  · simp [first, retry]
  · intro y hy
    simp only [List.cons_append, List.nil_append, List.mem_cons,
      List.not_mem_nil, or_false] at hy
    rcases hy with rfl | rfl
    · decide +kernel
    · decide +kernel
  · exact List.mem_singleton_self first
  · decide +kernel
  · decide

end GreylistRunWitness

end GreylistServer
