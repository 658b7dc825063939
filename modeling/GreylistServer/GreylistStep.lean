/-
What one decision does.  The two queries are computed from the triplet's data,
whatever members it has filled before, and a decision run on its own does one
of four things: it fails, stores the triplet, lets it wait or lets it pass.
-/
import GreylistServer.Greylist

namespace GreylistServer

namespace Triplet

/-- The data an accessor never changes. -/
def SameData (left right : Triplet) : Prop :=
  left.sender = right.sender ∧ left.recipient = right.recipient ∧
    left.client_address.str = right.client_address.str ∧
    left.client_address.clientname = right.client_address.clientname

theorem SameData.refl (t : Triplet) : t.SameData t :=
  ⟨rfl, rfl, rfl, rfl⟩

theorem SameData.trans {a b c : Triplet} (hab : a.SameData b)
    (hbc : b.SameData c) : a.SameData c :=
  ⟨hab.1.trans hbc.1, hab.2.1.trans hbc.2.1, hab.2.2.1.trans hbc.2.2.1,
    hab.2.2.2.trans hbc.2.2.2⟩

/-- Component `k` of the client's address, computed. -/
def part (t : Triplet) (k : Nat) : Nat :=
  (IPAddress.numbers t.client_address.str).getD k 0

/-- Every number of the address is set: neither its first nor its last piece
is blank. -/
def NumbersSet (t : Triplet) : Prop :=
  none ∉ IPAddress.components t.client_address.str

instance (t : Triplet) : Decidable t.NumbersSet :=
  inferInstanceAs (Decidable (_ ∉ _))

/-- The address has as many components as the daemon expects, with their
numbers set. -/
def Parses (t : Triplet) : Prop :=
  (IPAddress.components t.client_address.str).length =
      IPAddress.default_length ∧ t.NumbersSet

instance (t : Triplet) : Decidable t.Parses :=
  inferInstanceAs (Decidable (_ ∧ _))

theorem SameData.shortName_eq {left right : Triplet}
    (hsame : left.SameData right) : left.shortName = right.shortName := by
  simp only [shortName, hsame.2.2.2]

theorem SameData.part_eq {left right : Triplet}
    (hsame : left.SameData right) (k : Nat) : left.part k = right.part k := by
  simp only [part, hsame.2.2.1]

theorem SameData.numbersSet_iff {left right : Triplet}
    (hsame : left.SameData right) : left.NumbersSet ↔ right.NumbersSet := by
  simp only [NumbersSet, hsame.2.2.1]

theorem SameData.parses_iff {left right : Triplet}
    (hsame : left.SameData right) : left.Parses ↔ right.Parses := by
  simp only [Parses, NumbersSet, hsame.2.2.1]

theorem getShortClientName_sameData (t : Triplet) :
    t.getShortClientName.2.SameData t :=
  ⟨rfl, rfl, IPAddress.getShortClientName_str _,
    IPAddress.getShortClientName_clientname _⟩

theorem getClientAddressNumericIdx_sameData (t : Triplet) (idx : Nat) :
    (t.getClientAddressNumericIdx idx).2.SameData t :=
  ⟨rfl, rfl, IPAddress.getNumericIdx_str _ _,
    IPAddress.getNumericIdx_clientname _ _⟩

theorem part_of_getElem? {t : Triplet} {idx value : Nat}
    (hget : (IPAddress.components t.client_address.str)[idx]? =
      some (some value)) : t.part idx = value := by
  simp [part, IPAddress.numbers, List.getD, hget]

/-- An accessor call fails or returns the computed component. -/
theorem getClientAddressNumericIdx_cases (t : Triplet) (idx : Nat) :
    (∃ e, (t.getClientAddressNumericIdx idx).1 = .error e) ∨
      (t.getClientAddressNumericIdx idx).1 = .ok (t.part idx) := by
  have hread : ∀ ip : IPAddress, ip.str = t.client_address.str →
      ip.numeric = IPAddress.components ip.str →
        (∃ e, ip.numericAt idx = .error e) ∨
          ip.numericAt idx = .ok (t.part idx) := by
    intro ip hstr hnumeric
    unfold IPAddress.numericAt
    split
    · next value hget =>
        rw [hnumeric, hstr] at hget
        exact Or.inr (congrArg Except.ok (part_of_getElem? hget).symm)
    · exact Or.inl ⟨_, rfl⟩
    · exact Or.inl ⟨_, rfl⟩
  simp only [getClientAddressNumericIdx, IPAddress.getNumericIdx]
  split
  · split
    · exact Or.inl ⟨_, rfl⟩
    · exact hread _ rfl rfl
  · next hset =>
      rcases t.client_address.numeric_eq with hempty | heq
      · exact absurd hempty hset
      · exact hread _ rfl heq

theorem getClientAddressNumericIdx_of_parses {t : Triplet} (hparses : t.Parses)
    {idx : Nat} (hidx : idx < IPAddress.default_length) :
    (t.getClientAddressNumericIdx idx).1 = .ok (t.part idx) := by
  obtain ⟨hfour, hset⟩ := hparses
  have hlt : idx < (IPAddress.components t.client_address.str).length :=
    hfour ▸ hidx
  have hget := List.getElem?_eq_getElem hlt
  cases hnumber : (IPAddress.components t.client_address.str)[idx] with
  | none => exact absurd (hnumber ▸ List.getElem_mem hlt) hset
  | some value =>
      rw [hnumber] at hget
      rw [part_of_getElem? hget]
      simp only [getClientAddressNumericIdx]
      rw [IPAddress.getNumericIdx_fst t.client_address hfour, hget]

end Triplet

namespace Greylist

/-- The mode of a lookup, computed. -/
def modeOf (g : Greylist) (t : Triplet) : ModeType :=
  if g.mode = .reverse ∧ t.shortName = [] then .weak else g.mode

/-- How many address components a lookup compares. -/
def parts (g : Greylist) (t : Triplet) : Nat :=
  match g.modeOf t with
  | .weak => g.weakbytes
  | .normal => IPAddress.default_length
  | _ => 0

theorem parts_le (g : Greylist) (t : Triplet) :
    g.parts t ≤ IPAddress.default_length := by
  unfold parts
  split
  · exact g.weakbytes_le
  · exact Nat.le_refl _
  · exact Nat.zero_le _

/-- The conditions on the address components from `i` on. -/
def addressConditions (t : Triplet) (i parts : Nat) : List Condition :=
  (List.range' i parts).map fun k => (ipColumn (64 >>> k), .number (t.part k))

/-- The conditions of a lookup, read off the triplet's data. -/
def conditions (g : Greylist) (t : Triplet) : List Condition :=
  ("sender", .text t.sender) :: ("recipient", .text t.recipient) ::
    if g.modeOf t = .reverse then [("client_address", .text t.shortName)]
    else addressConditions t 0 (g.parts t)

/-- The cells of a new row, read off the triplet's data. -/
def rowValues (t : Triplet) (now : Nat) : List (Str × Cell) :=
  [("client_address", .text t.shortName), ("sender", .text t.sender),
    ("recipient", .text t.recipient), ("ip64", .number (t.part 0)),
    ("ip32", .number (t.part 1)), ("ip16", .number (t.part 2)),
    ("ip8", .number (t.part 3)), ("count", .number 0), ("uts", .number now)]

def returnFields : List Str := ["id", "count", "uts"].map String.toList

theorem findQuery_fields :
    ((({} : BaseQuery).addReturnField "id").addReturnField
      "count").addReturnField "uts" = { returnFields := returnFields } := rfl

theorem lookupMode_fst (g : Greylist) (t : Triplet) :
    (g.lookupMode t).1 = g.modeOf t := by
  unfold lookupMode modeOf
  by_cases hmode : g.mode = .reverse
  · by_cases hname : t.shortName = []
    · simp [hmode, hname]
    · simp [hmode, hname]
  · simp [hmode]

theorem lookupMode_sameData (g : Greylist) (t : Triplet) :
    (g.lookupMode t).2.SameData t := by
  unfold lookupMode
  split
  · exact t.getShortClientName_sameData
  · exact Triplet.SameData.refl t

theorem addressConditions_congr {left right : Triplet}
    (hsame : left.SameData right) (i count : Nat) :
    addressConditions left i count = addressConditions right i count := by
  simp only [addressConditions, hsame.part_eq]

/-- The loop over the address components fails or adds one condition for each
component it was asked for. -/
theorem addAddressParts_cases (count i : Nat) (t : Triplet) (q : BaseQuery) :
    (addAddressParts count i (64 >>> i) t q).2.SameData t ∧
      ((∃ e, (addAddressParts count i (64 >>> i) t q).1 = .error e) ∨
        (addAddressParts count i (64 >>> i) t q).1 = .ok
          { q with
            whereClause := q.whereClause ++ addressConditions t i count }) := by
  induction count generalizing i t q with
  | zero =>
      refine ⟨Triplet.SameData.refl t, Or.inr ?_⟩
      simp [addAddressParts, addressConditions]
  | succ rest ih =>
      have hsame := t.getClientAddressNumericIdx_sameData i
      rcases hget : t.getClientAddressNumericIdx i with ⟨result, t'⟩
      rw [hget] at hsame
      cases result with
      | error e =>
          simp only [addAddressParts, hget]
          exact ⟨hsame, Or.inl ⟨e, rfl⟩⟩
      | ok value =>
          have hvalue : value = t.part i := by
            rcases t.getClientAddressNumericIdx_cases i with ⟨e, he⟩ | hok
            · rw [hget] at he
              cases he
            · rw [hget] at hok
              exact Except.ok.inj hok
          have hshift : 64 >>> i >>> 1 = 64 >>> (i + 1) :=
            (Nat.shiftRight_add 64 i 1).symm
          obtain ⟨hdata, hcases⟩ := ih (i + 1) t'
            (q.addWhere (ipColumn (64 >>> i)) (.number value))
          simp only [addAddressParts, hget, hshift]
          refine ⟨hdata.trans hsame, ?_⟩
          rcases hcases with hfail | hok
          · exact Or.inl hfail
          · right
            rw [hok, addressConditions_congr hsame, hvalue]
            simp [BaseQuery.addWhere, addressConditions, List.range'_succ]

theorem addAddressParts_of_parses (count i : Nat) (t : Triplet) (q : BaseQuery)
    (hparses : t.Parses) (hcount : i + count ≤ IPAddress.default_length) :
    ∃ query, (addAddressParts count i (64 >>> i) t q).1 = .ok query := by
  induction count generalizing i t q with
  | zero => exact ⟨q, rfl⟩
  | succ rest ih =>
      have hsame := t.getClientAddressNumericIdx_sameData i
      have hok := Triplet.getClientAddressNumericIdx_of_parses hparses
        (show i < IPAddress.default_length by omega)
      rcases hget : t.getClientAddressNumericIdx i with ⟨result, t'⟩
      rw [hget] at hsame hok
      simp only at hok
      subst hok
      have hshift : 64 >>> i >>> 1 = 64 >>> (i + 1) :=
        (Nat.shiftRight_add 64 i 1).symm
      simp only [addAddressParts, hget, hshift]
      exact ih (i + 1) t' _ (hsame.parses_iff.mpr hparses) (by omega)

/-- The lookup query fails or asks for id, count and time under the computed
conditions. -/
theorem findQuery_cases (g : Greylist) (t : Triplet) :
    (g.findQuery t).2.SameData t ∧
      ((∃ e, (g.findQuery t).1 = .error e) ∨
        (g.findQuery t).1 = .ok
          { returnFields := returnFields, whereClause := g.conditions t }) := by
  have hdata := g.lookupMode_sameData t
  have hmode := g.lookupMode_fst t
  have haddress : ∀ count, addressConditions (g.lookupMode t).2 0 count =
      addressConditions t 0 count := addressConditions_congr hdata 0
  rw [findQuery, findQuery_fields]
  simp only
  split
  · next hreverse =>
      rw [hmode] at hreverse
      refine ⟨(Triplet.getShortClientName_sameData _).trans hdata, Or.inr ?_⟩
      simp [BaseQuery.addWhere, conditions, hreverse, hdata.shortName_eq]
  · next hweak =>
      rw [hmode] at hweak
      obtain ⟨hsame, hcases⟩ := addAddressParts_cases g.weakbytes 0
        (g.lookupMode t).2 _
      refine ⟨hsame.trans hdata, ?_⟩
      rcases hcases with hfail | hok
      · exact Or.inl hfail
      · right
        refine hok.trans ?_
        simp [BaseQuery.addWhere, conditions, hweak, haddress, parts]
  · next hnormal =>
      rw [hmode] at hnormal
      obtain ⟨hsame, hcases⟩ := addAddressParts_cases
        IPAddress.default_length 0 (g.lookupMode t).2 _
      refine ⟨hsame.trans hdata, ?_⟩
      rcases hcases with hfail | hok
      · exact Or.inl hfail
      · right
        refine hok.trans ?_
        simp [BaseQuery.addWhere, conditions, hnormal, haddress, parts]
  · next hinit =>
      rw [hmode] at hinit
      refine ⟨hdata, Or.inr ?_⟩
      simp [BaseQuery.addWhere, conditions, hinit, parts, addressConditions]

theorem findQuery_of_parses (g : Greylist) {t : Triplet} (hparses : t.Parses) :
    (g.findQuery t).1 = .ok
      { returnFields := returnFields, whereClause := g.conditions t } := by
  rcases (g.findQuery_cases t).2 with ⟨e, hfail⟩ | hok
  · exfalso
    have hdata := (g.lookupMode_sameData t).parses_iff.mpr hparses
    unfold findQuery at hfail
    simp only at hfail
    split at hfail
    · cases hfail
    · obtain ⟨query, hquery⟩ := addAddressParts_of_parses g.weakbytes 0
        (g.lookupMode t).2 _ hdata (by simpa using g.weakbytes_le)
      exact absurd (hfail.symm.trans hquery) (by simp)
    · obtain ⟨query, hquery⟩ := addAddressParts_of_parses
        IPAddress.default_length 0 (g.lookupMode t).2 _ hdata (by simp)
      exact absurd (hfail.symm.trans hquery) (by simp)
    · cases hfail
  · exact hok

/-- The four accessor calls of an insertion fail or return the computed
components. -/
theorem addressOf_cases (t : Triplet) :
    (addressOf t).2.SameData t ∧
      ((∃ e, (addressOf t).1 = .error e) ∨
        (addressOf t).1 = .ok [t.part 0, t.part 1, t.part 2, t.part 3]) := by
  have hread : ∀ (u : Triplet) (k value : Nat) (u' : Triplet),
      u.SameData t → u.getClientAddressNumericIdx k = (.ok value, u') →
        u'.SameData t ∧ value = t.part k := by
    intro u k value u' hsame hget
    have hdata := u.getClientAddressNumericIdx_sameData k
    rw [hget] at hdata
    refine ⟨hdata.trans hsame, ?_⟩
    rcases u.getClientAddressNumericIdx_cases k with ⟨e, he⟩ | hok
    · rw [hget] at he
      cases he
    · rw [hget] at hok
      exact (Except.ok.inj hok).trans (hsame.part_eq k)
  have hfail : ∀ (u : Triplet) (k : Nat) (e : Error) (u' : Triplet),
      u.SameData t → u.getClientAddressNumericIdx k = (.error e, u') →
        u'.SameData t := by
    intro u k e u' hsame hget
    have hdata := u.getClientAddressNumericIdx_sameData k
    rw [hget] at hdata
    exact hdata.trans hsame
  unfold addressOf
  split
  · next e t0 h0 =>
      exact ⟨hfail t 0 e t0 (Triplet.SameData.refl t) h0, Or.inl ⟨e, rfl⟩⟩
  · next a t0 h0 =>
      obtain ⟨hs0, rfl⟩ := hread t 0 a t0 (Triplet.SameData.refl t) h0
      split
      · next e t1 h1 => exact ⟨hfail t0 1 e t1 hs0 h1, Or.inl ⟨e, rfl⟩⟩
      · next b t1 h1 =>
          obtain ⟨hs1, rfl⟩ := hread t0 1 b t1 hs0 h1
          split
          · next e t2 h2 => exact ⟨hfail t1 2 e t2 hs1 h2, Or.inl ⟨e, rfl⟩⟩
          · next c t2 h2 =>
              obtain ⟨hs2, rfl⟩ := hread t1 2 c t2 hs1 h2
              split
              · next e t3 h3 =>
                  exact ⟨hfail t2 3 e t3 hs2 h3, Or.inl ⟨e, rfl⟩⟩
              · next d t3 h3 =>
                  obtain ⟨hs3, rfl⟩ := hread t2 3 d t3 hs2 h3
                  exact ⟨hs3, Or.inr rfl⟩

theorem addressOf_of_parses {t : Triplet} (hparses : t.Parses) :
    (addressOf t).1 = .ok [t.part 0, t.part 1, t.part 2, t.part 3] := by
  rcases (addressOf_cases t).2 with ⟨e, hfail⟩ | hok
  · exfalso
    have hread : ∀ (u : Triplet) (k : Nat), u.SameData t →
        k < IPAddress.default_length →
        ∃ u', u.getClientAddressNumericIdx k = (.ok (u.part k), u') ∧
          u'.SameData t := by
      intro u k hsame hk
      have hvalue := Triplet.getClientAddressNumericIdx_of_parses
        (hsame.parses_iff.mpr hparses) hk
      exact ⟨_, Prod.ext hvalue rfl,
        (u.getClientAddressNumericIdx_sameData k).trans hsame⟩
    obtain ⟨t0, h0, hs0⟩ := hread t 0 (Triplet.SameData.refl t) (by decide)
    obtain ⟨t1, h1, hs1⟩ := hread t0 1 hs0 (by decide)
    obtain ⟨t2, h2, hs2⟩ := hread t1 2 hs1 (by decide)
    obtain ⟨t3, h3, -⟩ := hread t2 3 hs2 (by decide)
    simp [addressOf, h0, h1, h2, h3] at hfail
  · exact hok

/-- The insertion fails or stores the computed cells. -/
theorem insertQuery_cases (t : Triplet) (now : Nat) :
    (∃ e, (insertQuery t now).1 = .error e) ∨
      (insertQuery t now).1 = .ok { values := rowValues t now } := by
  have hname := t.getShortClientName_sameData
  obtain ⟨-, hcases⟩ := addressOf_cases t.getShortClientName.2
  rcases hresult : addressOf t.getShortClientName.2 with ⟨result, t'⟩
  rw [hresult] at hcases
  rcases hcases with ⟨e, he⟩ | hok
  · simp only at he
    subst he
    exact Or.inl ⟨e, by simp [insertQuery, hresult]⟩
  · simp only at hok
    subst hok
    right
    simp [insertQuery, hresult, BaseQuery.addString, BaseQuery.addNumeric,
      rowValues, hname.1, hname.2.1, hname.part_eq]

theorem insertQuery_of_parses {t : Triplet} (hparses : t.Parses) (now : Nat) :
    (insertQuery t now).1 = .ok { values := rowValues t now } := by
  rcases insertQuery_cases t now with ⟨e, hfail⟩ | hok
  · exfalso
    have hname := t.getShortClientName_sameData
    have haddress := addressOf_of_parses (hname.parses_iff.mpr hparses)
    rcases hresult : addressOf t.getShortClientName.2 with ⟨result, t'⟩
    rw [hresult] at haddress
    simp only at haddress
    subst haddress
    simp [insertQuery, hresult] at hfail
  · exact hok

theorem ipColumn_mem_keyColumns {k : Nat} (hk : k < IPAddress.default_length) :
    ipColumn (64 >>> k) ∈ keyColumns := by
  unfold IPAddress.default_length at hk
  interval_cases k <;> decide

/-- A lookup compares columns that no statement ever changes. -/
theorem conditions_mem_keyColumns (g : Greylist) (t : Triplet)
    {condition : Condition} (hmem : condition ∈ g.conditions t) :
    condition.1 ∈ keyColumns := by
  unfold conditions at hmem
  rcases List.mem_cons.mp hmem with rfl | hmem
  · change ("sender" : Str) ∈ keyColumns
    decide
  rcases List.mem_cons.mp hmem with rfl | hmem
  · change ("recipient" : Str) ∈ keyColumns
    decide
  split at hmem
  · rw [List.mem_singleton] at hmem
    subst hmem
    change ("client_address" : Str) ∈ keyColumns
    decide
  · simp only [addressConditions, List.mem_map, List.mem_range'_1] at hmem
    obtain ⟨k, ⟨-, hk⟩, rfl⟩ := hmem
    have hle := g.parts_le t
    exact ipColumn_mem_keyColumns (by omega)

theorem knows_of_mem_tripletColumns {table : Table}
    (hcolumns : table.columns = tripletColumns) {column : Str}
    (hmem : column ∈ tripletColumns) : table.knows column = true := by
  simp [Table.knows, hcolumns, hmem]

theorem findQuery_check (g : Greylist) (t : Triplet) {table : Table}
    (hcolumns : table.columns = tripletColumns) :
    ({ returnFields := returnFields
       whereClause := g.conditions t } : BaseQuery).check table = .ok () := by
  apply BaseQuery.check_eq_ok
  intro name hname
  simp only [BaseQuery.columns, List.map_nil, List.append_nil,
    List.mem_append, List.mem_map] at hname
  rcases hname with hreturn | ⟨condition, hcondition, rfl⟩
  · have hfields : name = Row.idColumn ∨ name ∈ tripletColumns := by
      revert hreturn
      revert name
      decide
    rcases hfields with rfl | hmem
    · simp [Table.knows]
    · exact knows_of_mem_tripletColumns hcolumns hmem
  · exact knows_of_mem_tripletColumns hcolumns
      (List.mem_append_left _ (g.conditions_mem_keyColumns t hcondition))

/-- A lookup delivers id, count and time of the rows that match. -/
theorem findQuery_lookup (g : Greylist) (t : Triplet) (delivery : Delivery)
    {table : Table} (hcolumns : table.columns = tripletColumns) :
    ({ returnFields := returnFields
       whereClause := g.conditions t } : BaseQuery).lookup delivery table =
      .ok ((delivery.order (table.matching (g.conditions t))).map fun row =>
        returnFields.map row.get) := by
  unfold BaseQuery.lookup
  rw [g.findQuery_check t hcolumns]
  rfl

theorem rowValues_congr {left right : Triplet} (hsame : left.SameData right)
    (now : Nat) : rowValues left now = rowValues right now := by
  simp only [rowValues, hsame.shortName_eq, hsame.part_eq]
  rw [hsame.1, hsame.2.1]

theorem rowValues_check (t : Triplet) (now : Nat) {table : Table}
    (hcolumns : table.columns = tripletColumns) :
    ({ values := rowValues t now } : BaseQuery).check table = .ok () := by
  apply BaseQuery.check_eq_ok
  intro name hname
  have hmem : name ∈ tripletColumns := by
    change name ∈ tripletColumns at hname
    exact hname
  exact knows_of_mem_tripletColumns hcolumns hmem

theorem incrementQuery_check (id now : Nat) {table : Table}
    (hcolumns : table.columns = tripletColumns) :
    (incrementQuery id now).check table = .ok () := by
  apply BaseQuery.check_eq_ok
  intro name hname
  have hfields : name = Row.idColumn ∨ name ∈ tripletColumns := by
    change name ∈ ["id".toList, "count".toList, "uts".toList] at hname
    revert hname
    revert name
    decide
  rcases hfields with rfl | hmem
  · simp [Table.knows]
  · exact knows_of_mem_tripletColumns hcolumns hmem

/-- The count a stored row carries. -/
def countOf (row : Row) : Nat := (row.get "count").getNumeric

/-- The time a stored row carries. -/
def utsOf (row : Row) : Nat := (row.get "uts").getNumeric

/-- The table after a pass of the row `id` at time `now`. -/
def passed (table : Table) (id now : Nat) : Table :=
  table.modify [(Row.idColumn, .number id)]
    [("count", Update.apply (.increment 1)),
      ("uts", Update.apply (.set (now % 2 ^ 32)))]

theorem incrementQuery_update (id now : Nat) {table : Table}
    (hcolumns : table.columns = tripletColumns) :
    (incrementQuery id now).update table = (.ok (), passed table id now) := by
  unfold BaseQuery.update
  rw [incrementQuery_check id now hcolumns]
  rfl

/-- The statements of one call with nothing in between: the clock shows `now`,
the server delivers rows as `delivery` says and gives out ids by `ids`. -/
def handler (ids : IdSource) (delivery : Delivery) (now : Nat) :
    (op : Statement) → Table → op.Answer × Table
  | .select q, table => (q.lookup delivery table, table)
  | .insert q, table => q.insert (ids.fresh table.rows) table
  | .update q, table => q.update table
  | .getNow, table => (now, table)

/-- What one decision can do to the table, with its verdict. -/
inductive Decided (g : Greylist) (ids : IdSource) (t : Triplet) (now : Nat)
    (table : Table) : Except Error ActionType → Table → Prop
  | failed (e : Error) (hparses : ¬ t.Parses)
      (hwhy : (∃ e, (g.findQuery t).1 = .error e) ∨
        table.matching (g.conditions t) = []) :
      Decided g ids t now table (.error e) table
  | stored (hnone : table.matching (g.conditions t) = []) :
      Decided g ids t now table (.ok .defer)
        (table.addRow (ids.fresh table.rows) (rowValues t now))
  | waits (row : Row) (hrow : row ∈ table.matching (g.conditions t))
      (hdue : g.due (countOf row) (utsOf row) now = false) :
      Decided g ids t now table (.ok .defer) table
  | passes (row : Row) (hrow : row ∈ table.matching (g.conditions t))
      (hfound : ¬ ∃ e, (g.findQuery t).1 = .error e)
      (hdue : g.due (countOf row) (utsOf row) now = true) :
      Decided g ids t now table (.ok .dunno) (passed table row.id now)

/-- One decision run on its own. -/
def decideAlone (g : Greylist) (ids : IdSource) (delivery : Delivery)
    (now : Nat) (t : Triplet) (extra : Extra) (table : Table) :
    Outcome × Table :=
  (g.decide t extra).eval (handler ids delivery now) table

section

variable {g : Greylist} {ids : IdSource} {delivery : Delivery} {now : Nat}
  {t t' : Triplet} {extra : Extra} {table : Table}

/-- No row answers: the triplet is stored, or building the insertion fails. -/
theorem decided_of_unknown (hcolumns : table.columns = tripletColumns)
    (hquery : g.findQuery t =
      (.ok { returnFields := returnFields, whereClause := g.conditions t }, t'))
    (hsame : t'.SameData t)
    (hrows : delivery.order (table.matching (g.conditions t)) = []) :
    Decided g ids t now table
      (g.decideAlone ids delivery now t extra table).1.action
      (g.decideAlone ids delivery now t extra table).2 := by
  have hnone := delivery.order_eq_nil_iff.mp hrows
  have hlookup := g.findQuery_lookup t delivery hcolumns
  rw [hrows, List.map_nil] at hlookup
  have hcases := insertQuery_cases t' now
  rcases hinsert : insertQuery t' now with ⟨result, t''⟩
  rw [hinsert] at hcases
  simp only [decideAlone, decide, findTriplet, hquery, Prog.eval, handler,
    hlookup, insertTriplet, hinsert]
  rcases hcases with ⟨e, rfl⟩ | rfl
  · have hparses : ¬ t.Parses := by
      intro hparses
      have hok := insertQuery_of_parses (hsame.parses_iff.mpr hparses) now
      rw [hinsert] at hok
      cases hok
    exact Decided.failed e hparses (Or.inr hnone)
  · simp only [Prog.eval, handler, BaseQuery.insert, rowValues_congr hsame now,
      rowValues_check t now hcolumns]
    exact Decided.stored hnone

/-- The first row delivered decides between waiting and passing. -/
theorem decided_of_known (hcolumns : table.columns = tripletColumns)
    (hquery : g.findQuery t =
      (.ok { returnFields := returnFields, whereClause := g.conditions t }, t'))
    {row : Row} {rest : List Row}
    (hrows : delivery.order (table.matching (g.conditions t)) = row :: rest) :
    Decided g ids t now table
      (g.decideAlone ids delivery now t extra table).1.action
      (g.decideAlone ids delivery now t extra table).2 := by
  have hfound : ¬ ∃ e, (g.findQuery t).1 = .error e := by
    rintro ⟨e, he⟩
    rw [hquery] at he
    cases he
  have hrow : row ∈ table.matching (g.conditions t) := by
    rw [← delivery.mem_order, hrows]
    exact List.mem_cons_self
  have hlookup := g.findQuery_lookup t delivery hcolumns
  rw [hrows, List.map_cons] at hlookup
  have hid : (column (returnFields.map row.get) 1).getNumeric = row.id := rfl
  have hcount : (column (returnFields.map row.get) 2).getNumeric =
      countOf row := rfl
  have huts : (column (returnFields.map row.get) 3).getNumeric =
      utsOf row := rfl
  cases hdue : g.due (countOf row) (utsOf row) now with
  | false =>
      simp only [decideAlone, decide, findTriplet, hquery, Prog.eval, handler,
        hlookup, hcount, huts, hdue, Bool.false_eq_true, ↓reduceIte]
      exact Decided.waits row hrow hdue
  | true =>
      simp only [decideAlone, decide, findTriplet, hquery, Prog.eval, handler,
        hlookup, hid, hcount, huts, hdue, ↓reduceIte,
        incrementQuery_update row.id now hcolumns]
      exact Decided.passes row hrow hfound hdue

end

/-- A decision run on its own does one of the four things. -/
theorem decideAlone_decided (g : Greylist) (ids : IdSource)
    (delivery : Delivery) (now : Nat) (t : Triplet) (extra : Extra)
    {table : Table} (hcolumns : table.columns = tripletColumns) :
    Decided g ids t now table
      (g.decideAlone ids delivery now t extra table).1.action
      (g.decideAlone ids delivery now t extra table).2 := by
  obtain ⟨hsame, hfind⟩ := g.findQuery_cases t
  rcases hquery : g.findQuery t with ⟨query, t'⟩
  rw [hquery] at hsame hfind
  rcases hfind with ⟨e, rfl⟩ | rfl
  · have hparses : ¬ t.Parses := by
      intro hparses
      have hok := g.findQuery_of_parses hparses
      rw [hquery] at hok
      cases hok
    simp only [decideAlone, decide, findTriplet, hquery, Prog.eval]
    exact Decided.failed e hparses (Or.inl ⟨e, by rw [hquery]⟩)
  · cases hrows : delivery.order (table.matching (g.conditions t)) with
    | nil => exact decided_of_unknown hcolumns hquery hsame hrows
    | cons row rest => exact decided_of_known hcolumns hquery hrows

end Greylist

end GreylistServer
