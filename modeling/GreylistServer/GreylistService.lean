/-
Greylisting as a service.  It remembers which keys it was asked about and
when, and lets a key pass that it has seen longer ago than the timeout.  The
policy with its table of triplets does this in the address modes, also for the
requests whose address has not the expected number of components.
-/
import GreylistServer.GreylistRun

namespace GreylistServer

/-- The keys seen so far, with the times. -/
abbrev Sightings (K : Type) := List (K × Nat)

/-- What can be done with the address of a request: it can be stored, or it
cannot but is not compared either, or it is compared and cannot be read. -/
inductive AddressUse where
  | complete
  | ignored
  | unusable
deriving Repr, DecidableEq

namespace Sightings

variable {K : Type} [DecidableEq K]

def knows (seen : Sightings K) (key : K) : Bool :=
  seen.any fun sighting => sighting.1 = key

def due (timeout : Nat) (seen : Sightings K) (key : K) (now : Nat) : Bool :=
  seen.any fun sighting =>
    decide (sighting.1 = key) && decide (timeout < now - sighting.2)

/-- A key passes when it is due, and is remembered in either case. -/
def sight (timeout : Nat) (seen : Sightings K) (key : K) (now : Nat) :
    ActionType × Sightings K :=
  (if seen.due timeout key now then .dunno else .defer, seen ++ [(key, now)])

/-- An address that cannot be stored is good enough for a known key when it is
not compared. -/
def answer (timeout : Nat) (seen : Sightings K) (key : K) (now : Nat) :
    AddressUse → ActionType × Sightings K
  | .complete => seen.sight timeout key now
  | .ignored =>
      if seen.knows key then seen.sight timeout key now else (.error, seen)
  | .unusable => (.error, seen)

theorem knows_iff (seen : Sightings K) (key : K) :
    seen.knows key = true ↔ ∃ sighting ∈ seen, sighting.1 = key := by
  simp [knows]

theorem due_iff (timeout : Nat) (seen : Sightings K) (key : K) (now : Nat) :
    seen.due timeout key now = true ↔
      ∃ sighting ∈ seen, sighting.1 = key ∧ timeout < now - sighting.2 := by
  simp [due]

end Sightings

/-- An exception is answered like the verdict for errors. -/
def verdictOf : Except Error ActionType → ActionType
  | .ok action => action
  | .error _ => .error

namespace Triplet

theorem getClientAddressNumericIdx_of_not_parses {t : Triplet}
    (hnumeric : t.client_address.numeric = []) (hset : t.NumbersSet)
    (hnot : ¬ t.Parses) (idx : Nat) :
    ∃ e, (t.getClientAddressNumericIdx idx).1 = .error e := by
  have hlength : (IPAddress.components t.client_address.str).length ≠
      IPAddress.default_length := fun hfour => hnot ⟨hfour, hset⟩
  simp only [getClientAddressNumericIdx, IPAddress.getNumericIdx, hnumeric,
    ↓reduceIte]
  rw [if_pos hlength]
  exact ⟨_, rfl⟩

theorem getShortClientName_numeric (t : Triplet) :
    t.getShortClientName.2.client_address.numeric =
      t.client_address.numeric := by
  simp only [getShortClientName, IPAddress.getShortClientName]
  split
  · rfl
  · split <;> rfl

end Triplet

namespace Greylist

/-- What the address of a request is good for. -/
def addressUse (g : Greylist) (r : Request) : AddressUse :=
  if r.triplet.Parses then .complete
  else if g.keyParts = 0 then .ignored
  else .unusable

theorem insertQuery_of_not_parses {t : Triplet}
    (hnumeric : t.client_address.numeric = []) (hset : t.NumbersSet)
    (hnot : ¬ t.Parses) (now : Nat) :
    ∃ e, (insertQuery t now).1 = .error e := by
  have hname := t.getShortClientName_sameData
  obtain ⟨e, he⟩ := Triplet.getClientAddressNumericIdx_of_not_parses
    ((t.getShortClientName_numeric).trans hnumeric)
    (hname.numbersSet_iff.mpr hset)
    (fun hparses => hnot (hname.parses_iff.mp hparses)) 0
  have haddress : (addressOf t.getShortClientName.2).1 = .error e := by
    unfold addressOf
    split
    · next e' t' hget =>
        rw [hget] at he
        cases he
        rfl
    · next a t' hget =>
        rw [hget] at he
        cases he
  refine ⟨e, ?_⟩
  simp only [insertQuery]
  split
  · next hok =>
      rw [hok] at haddress
      cases haddress
  · next hok =>
      rw [hok] at haddress
      cases haddress
  · next e' t' herror =>
      rw [herror] at haddress
      cases haddress
      rfl

section Decision

variable {g : Greylist} (ids : IdSource) (delivery : Delivery) (now : Nat)
  {t : Triplet} (extra : Extra) (table : Table)

/-- A lookup of an address that cannot be read fails where a component of it
is compared, and asks for sender and recipient where none is. -/
theorem findQuery_of_not_parses
    (hmode : g.mode = .normal ∨ g.mode = .weak)
    (hnumeric : t.client_address.numeric = []) (hset : t.NumbersSet)
    (hnot : ¬ t.Parses) :
    (g.keyParts ≠ 0 → ∃ e, (g.findQuery t).1 = .error e) ∧
      (g.keyParts = 0 → g.findQuery t = (.ok
        { returnFields := returnFields, whereClause := g.conditions t },
        t)) := by
  have hparts : ∀ (count : Nat) (q : BaseQuery), count ≠ 0 →
      ∃ e, (addAddressParts count 0 64 t q).1 = .error e := by
    intro count q hcount
    obtain ⟨e, he⟩ := Triplet.getClientAddressNumericIdx_of_not_parses
      hnumeric hset hnot 0
    obtain ⟨rest, rfl⟩ := Nat.exists_eq_succ_of_ne_zero hcount
    rcases hget : t.getClientAddressNumericIdx 0 with ⟨result, t'⟩
    rw [hget] at he
    cases he
    exact ⟨e, by rw [addAddressParts, hget]⟩
  have hlookup : g.lookupMode t = (g.mode, t) := by
    rcases hmode with hmode | hmode <;> simp [lookupMode, hmode]
  have hfour : IPAddress.default_length ≠ 0 := by decide
  constructor
  · intro hkey
    rw [findQuery, hlookup]
    rcases hmode with hmode | hmode
    · rw [hmode]
      exact hparts _ _ hfour
    · rw [hmode]
      refine hparts _ _ ?_
      simpa [keyParts, hmode] using hkey
  · intro hkey
    have hweak : g.mode = .weak := by
      rcases hmode with hmode | hmode
      · exact absurd (by simpa [keyParts, hmode] using hkey) hfour
      · exact hmode
    have hbytes : g.weakbytes = 0 := by simpa [keyParts, hweak] using hkey
    rw [findQuery, findQuery_fields, hlookup, hweak, hbytes]
    simp [addAddressParts, BaseQuery.addWhere, conditions, modeOf, hweak,
      parts, hbytes, addressConditions]

theorem decideAlone_of_findQuery_error {e : Error}
    (hquery : (g.findQuery t).1 = .error e) :
    (g.decideAlone ids delivery now t extra table).1.action = .error e ∧
      (g.decideAlone ids delivery now t extra table).2 = table := by
  rcases hfind : g.findQuery t with ⟨query, t'⟩
  rw [hfind] at hquery
  cases hquery
  simp only [decideAlone, decide, findTriplet, hfind, Prog.eval, and_self]

theorem decideAlone_of_insertQuery_error
    {table : Table} (hcolumns : table.columns = tripletColumns)
    (hquery : g.findQuery t = (.ok
      { returnFields := returnFields, whereClause := g.conditions t }, t))
    (hnone : table.matching (g.conditions t) = []) {e : Error}
    (hinsert : (insertQuery t now).1 = .error e) :
    (g.decideAlone ids delivery now t extra table).1.action = .error e ∧
      (g.decideAlone ids delivery now t extra table).2 = table := by
  have hlookup := g.findQuery_lookup t delivery hcolumns
  rw [delivery.order_eq_nil_iff.mpr hnone, List.map_nil] at hlookup
  rcases hvalues : insertQuery t now with ⟨query, t'⟩
  rw [hvalues] at hinsert
  cases hinsert
  simp only [decideAlone, decide, findTriplet, hquery, Prog.eval, handler,
    hlookup, insertTriplet, hvalues, and_self]

end Decision

/-- A decision that finds rows is the decision on every request with the same
conditions. -/
theorem Decided.of_conditions {g : Greylist} {ids : IdSource} {t u : Triplet}
    {now : Nat} {table after : Table} {action : Except Error ActionType}
    (hdecided : Decided g ids t now table action after)
    (hconditions : g.conditions t = g.conditions u) (hparses : u.Parses)
    (hfind : ¬ ∃ e, (g.findQuery t).1 = .error e)
    (hrows : table.matching (g.conditions t) ≠ []) :
    Decided g ids u now table action after := by
  cases hdecided with
  | failed e hnot hwhy =>
      rcases hwhy with hwhy | hnone
      · exact absurd hwhy hfind
      · exact absurd hnone hrows
  | stored hnone => exact absurd hnone hrows
  | waits row hrow hdue => exact .waits row (hconditions ▸ hrow) hdue
  | passes row hrow hfound hdue =>
      refine .passes row (hconditions ▸ hrow) ?_ hdue
      rintro ⟨e, he⟩
      rw [g.findQuery_of_parses hparses] at he
      cases he

theorem conditions_congr (g : Greylist) {t u : Triplet}
    (hsame : t.SameData u) : g.conditions t = g.conditions u := by
  have hmode : g.modeOf t = g.modeOf u := by
    simp only [modeOf, hsame.shortName_eq]
  have hparts : g.parts t = g.parts u := by
    simp only [parts, hmode]
  simp only [conditions, hsame.1, hsame.2.1, hsame.shortName_eq, hmode,
    hparts, addressConditions_congr hsame]

/-- The members a triplet has filled do not matter for an address that can be
read. -/
theorem Decided.of_sameData {g : Greylist} {ids : IdSource} {t u : Triplet}
    {now : Nat} {table after : Table} {action : Except Error ActionType}
    (hdecided : Decided g ids t now table action after)
    (hsame : t.SameData u) (hparses : u.Parses) :
    Decided g ids u now table action after := by
  have hconditions := g.conditions_congr hsame
  have ht := hsame.parses_iff.mpr hparses
  cases hdecided with
  | failed e hnot hwhy => exact absurd ht hnot
  | stored hnone =>
      rw [rowValues_congr hsame now]
      exact .stored (hconditions ▸ hnone)
  | waits row hrow hdue => exact .waits row (hconditions ▸ hrow) hdue
  | passes row hrow hfound hdue =>
      refine .passes row (hconditions ▸ hrow) ?_ hdue
      rintro ⟨e, he⟩
      rw [g.findQuery_of_parses hparses] at he
      cases he

/-- The table is the record of the sightings. -/
def Recorded (g : Greylist) (seen : Sightings (Str × Str × List Nat))
    (table : Table) : Prop :=
  ∃ pre : List Contact, g.Remembers pre table ∧
    (∀ y ∈ pre, y.request.triplet.Parses) ∧
    seen = pre.map fun y => (g.keyOf y.request, y.now)

section Recorded

variable {g : Greylist} {ids : IdSource}
  {seen : Sightings (Str × Str × List Nat)} {table after : Table}
  {x : Contact} {action : Except Error ActionType}

/-- A request is due for the service exactly when a row that answers it is due
for the policy. -/
theorem due_sightings_iff (pre : List Contact) (x : Contact) :
    Sightings.due g.timeout (pre.map fun y => (g.keyOf y.request, y.now))
        (g.keyOf x.request) x.now = true ↔
      ∃ y ∈ pre, g.keyOf y.request = g.keyOf x.request ∧
        g.timeout < x.now - y.now := by
  simp [Sightings.due_iff]

theorem Recorded.decided (hrecorded : g.Recorded seen table)
    (hmode : g.mode = .normal ∨ g.mode = .weak)
    (hclock : ∀ sighting ∈ seen, sighting.2 ≤ x.now)
    (hx : x.request.triplet.Parses)
    (hdecided : Decided g ids x.request.triplet x.now table action after) :
    action = .ok (seen.sight g.timeout (g.keyOf x.request) x.now).1 ∧
      g.Recorded (seen.sight g.timeout (g.keyOf x.request) x.now).2
        after := by
  obtain ⟨pre, hremembers, hparses, rfl⟩ := hrecorded
  have hbefore : ∀ y ∈ pre, y.now ≤ x.now := by
    intro y hy
    exact hclock _ (List.mem_map_of_mem hy)
  constructor
  · rw [Sightings.sight]
    cases hdue : Sightings.due g.timeout
        (pre.map fun y => (g.keyOf y.request, y.now)) (g.keyOf x.request)
        x.now with
    | false =>
        have hnot := fun hold =>
          Bool.eq_false_iff.mp hdue ((due_sightings_iff pre x).mpr hold)
        cases hdecided with
        | failed e hnot' hwhy => exact absurd hx hnot'
        | stored hnone => rfl
        | waits row hrow _ => rfl
        | passes row hrow hfound hpass =>
            exact absurd ((hremembers.due_iff hmode hbefore hparses hx
              hrow).mp hpass) hnot
    | true =>
        have hold := (due_sightings_iff pre x).mp hdue
        cases hdecided with
        | failed e hnot hwhy => exact absurd hx hnot
        | stored hnone =>
            obtain ⟨y, hy, hkey, -⟩ := hold
            obtain ⟨row, hrow⟩ := hremembers.answered hmode hparses hx hy
              hkey
            rw [hnone] at hrow
            cases hrow
        | waits row hrow hwait =>
            rw [(hremembers.due_iff hmode hbefore hparses hx hrow).mpr hold]
              at hwait
            cases hwait
        | passes row hrow hfound hpass => rfl
  · refine ⟨pre ++ [x], hremembers.step hmode hbefore hparses hx hdecided,
      ?_, by simp [Sightings.sight]⟩
    intro y hy
    rcases List.mem_append.mp hy with hold | hnew
    · exact hparses y hold
    · rw [List.mem_singleton.mp hnew]
      exact hx

/-- A key is known exactly when a row answers its request. -/
theorem Recorded.knows_iff (hrecorded : g.Recorded seen table)
    (hmode : g.mode = .normal ∨ g.mode = .weak) {r : Request}
    (hr : r.triplet.Parses) :
    seen.knows (g.keyOf r) = true ↔
      table.matching (g.conditions r.triplet) ≠ [] := by
  obtain ⟨pre, hremembers, hparses, rfl⟩ := hrecorded
  rw [Sightings.knows_iff]
  constructor
  · rintro ⟨sighting, hmem, hkey⟩
    obtain ⟨y, hy, rfl⟩ := List.mem_map.mp hmem
    obtain ⟨row, hrow⟩ := hremembers.answered hmode hparses
      (x := { now := 0, request := r }) hr hy hkey
    exact List.ne_nil_of_mem hrow
  · intro hrows
    obtain ⟨row, hrow⟩ := List.exists_mem_of_ne_nil _ hrows
    obtain ⟨hmem, hholds⟩ := Table.mem_matching.mp hrow
    obtain ⟨u, hu, hstored, -, -⟩ := hremembers.rows row hmem
    refine ⟨_, List.mem_map_of_mem hu, ?_⟩
    exact (answers_iff_keyOf_eq hmode (hparses u hu) hr).mp
      ((g.holdsAll_conditions_iff hstored _).mp hholds)

end Recorded

/-- The same request from an address that can be stored. -/
def standIn (r : Request) : Request :=
  { r with client_address := "0.0.0.0".toList }

theorem standIn_parses (r : Request) : (standIn r).triplet.Parses := by
  change (IPAddress.components "0.0.0.0".toList).length =
    IPAddress.default_length ∧ none ∉ IPAddress.components "0.0.0.0".toList
  decide +kernel

section StandIn

variable {g : Greylist} (hkey : g.keyParts = 0)

include hkey

theorem keyOf_standIn (r : Request) : g.keyOf (standIn r) = g.keyOf r := by
  simp only [keyOf, hkey, List.take_zero]
  rfl

theorem conditions_standIn (hmode : g.mode = .normal ∨ g.mode = .weak)
    (r : Request) {t : Triplet} (hsame : t.SameData r.triplet) :
    g.conditions t = g.conditions (standIn r).triplet := by
  have hreverse : ∀ u : Triplet, ¬ g.modeOf u = .reverse := by
    intro u
    rw [modeOf_of_address hmode]
    rcases hmode with hmode | hmode <;> simp [hmode]
  simp only [conditions, hsame.1, hsame.2.1, if_neg (hreverse _),
    parts_of_address hmode, hkey, addressConditions, List.range'_zero,
    List.map_nil]
  rfl

end StandIn

/-- What the policy answers and leaves in its table is what the service
answers and remembers, for every request whose numbers are set. -/
theorem decideAlone_answers {g : Greylist} (ids : IdSource)
    (delivery : Delivery) (extra : Extra)
    (hmode : g.mode = .normal ∨ g.mode = .weak)
    {seen : Sightings (Str × Str × List Nat)} {table : Table}
    (hrecorded : g.Recorded seen table) {now : Nat}
    (hclock : ∀ sighting ∈ seen, sighting.2 ≤ now) {r : Request}
    (hset : r.triplet.NumbersSet) {t : Triplet} (hsame : t.SameData r.triplet)
    (hnumeric : t.client_address.numeric = []) :
    verdictOf (g.decideAlone ids delivery now t extra table).1.action =
        (seen.answer g.timeout (g.keyOf r) now (g.addressUse r)).1 ∧
      g.Recorded (seen.answer g.timeout (g.keyOf r) now (g.addressUse r)).2
        (g.decideAlone ids delivery now t extra table).2 := by
  have hcolumns : table.columns = tripletColumns := by
    obtain ⟨pre, hremembers, -⟩ := hrecorded
    exact hremembers.wellFormed.columns
  have hdecided := g.decideAlone_decided ids delivery now t extra hcolumns
  by_cases hparses : r.triplet.Parses
  · have huse : g.addressUse r = .complete := if_pos hparses
    obtain ⟨hverdict, hafter⟩ := hrecorded.decided (x := ⟨now, r, delivery,
      extra⟩) hmode hclock hparses (hdecided.of_sameData hsame hparses)
    rw [huse, hverdict]
    exact ⟨rfl, hafter⟩
  · have hnot : ¬ t.Parses := fun ht => hparses (hsame.parses_iff.mp ht)
    have htset : t.NumbersSet := hsame.numbersSet_iff.mpr hset
    obtain ⟨hcompared, hignored⟩ := findQuery_of_not_parses hmode hnumeric
      htset hnot
    by_cases hkey : g.keyParts = 0
    · have huse : g.addressUse r = .ignored := by
        rw [addressUse, if_neg hparses, if_pos hkey]
      have hquery := hignored hkey
      have hconditions := conditions_standIn hkey hmode r hsame
      have hknows := hrecorded.knows_iff hmode (standIn_parses r)
      rw [keyOf_standIn hkey, ← hconditions] at hknows
      rw [huse, Sightings.answer]
      by_cases hrows : table.matching (g.conditions t) = []
      · obtain ⟨e, hinsert⟩ := insertQuery_of_not_parses hnumeric htset
          hnot now
        obtain ⟨haction, htable⟩ := decideAlone_of_insertQuery_error ids
          delivery now extra hcolumns hquery hrows hinsert
        have hunknown : seen.knows (g.keyOf r) = false := by
          rw [Bool.eq_false_iff]
          exact fun hknown => hknows.mp hknown hrows
        rw [haction, htable, hunknown]
        exact ⟨rfl, hrecorded⟩
      · have hfind : ¬ ∃ e, (g.findQuery t).1 = .error e := by
          rintro ⟨e, he⟩
          rw [hquery] at he
          cases he
        obtain ⟨hverdict, hafter⟩ := hrecorded.decided (x := ⟨now, standIn r,
          delivery, extra⟩) hmode hclock (standIn_parses r)
          (hdecided.of_conditions hconditions (standIn_parses r) hfind hrows)
        simp only [keyOf_standIn hkey] at hverdict hafter
        rw [hknows.mpr hrows, hverdict]
        exact ⟨rfl, hafter⟩
    · have huse : g.addressUse r = .unusable := by
        rw [addressUse, if_neg hparses, if_neg hkey]
      obtain ⟨e, he⟩ := hcompared hkey
      obtain ⟨haction, htable⟩ := decideAlone_of_findQuery_error ids delivery
        now extra table he
      rw [huse, haction, htable]
      exact ⟨rfl, hrecorded⟩

end Greylist

end GreylistServer
