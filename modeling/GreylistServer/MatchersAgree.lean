/-
The cached matchers against the uncached ones.  The exact matchers agree on
every table of text keys unless the return field is the one that stands for all
columns: it replaces the lookup column in the query of the cached one, which
then looks for the member in the first column.  The pattern matchers agree unless an expression
behind the first match does not compile: the cached one has compiled it, the
other one never gets there.  An exact matcher without a return field asks for
the number of rows, which is always one row, and so matches everything.
-/
import GreylistServer.Matchers

namespace GreylistServer

/-- The same answer with the same remarks, or an exception on both sides. -/
def MatchOutcome.Same (left right : MatchOutcome) : Prop :=
  (∃ answer, left.result = .ok answer ∧ right.result = .ok answer ∧
    left.extra = right.extra) ∨
  ∃ e e', left.result = .error e ∧ right.result = .error e'

theorem MatchOutcome.Same.refl (outcome : MatchOutcome) :
    outcome.Same outcome := by
  cases hresult : outcome.result with
  | ok answer => exact Or.inl ⟨answer, hresult, hresult, rfl⟩
  | error e => exact Or.inr ⟨e, e, hresult, hresult⟩

namespace CachedPatternMatch

/-- The expression of a row compiles. -/
def Compiles (regcomp : RegexCompiler) (row : List Cell) : Prop :=
  ∃ regex, regcomp (column row 1).getString = .ok regex

theorem new_of_compiles {regcomp : RegexCompiler} {row : List Cell}
    (hcompiles : Compiles regcomp row) :
    ∃ regex, RegEx.new regcomp (column row 1).getString = .ok regex := by
  obtain ⟨regex, hregex⟩ := hcompiles
  exact ⟨regex, by rw [RegEx.new, hregex]⟩

theorem new_of_not_compiles {regcomp : RegexCompiler} {row : List Cell}
    (hfails : ¬ Compiles regcomp row) :
    ∃ e, RegEx.new regcomp (column row 1).getString = .error e := by
  cases hregex : regcomp (column row 1).getString with
  | ok regex => exact absurd ⟨regex, hregex⟩ hfails
  | error failure => exact ⟨_, by rw [RegEx.new, hregex]⟩

/-- The rows behind the first one that matches, if the scan gets to one. -/
def behindMatch (regcomp : RegexCompiler) (m : Matcher)
    (dns : Nat → Resolution) : ResultSet → Triplet → Option ResultSet
  | [], _ => none
  | row :: rest, triplet =>
      match regcomp (column row 1).getString with
      | .error _ => none
      | .ok regex =>
          match triplet.getMember dns m.member with
          | (.error _, _) => none
          | (.ok value, triplet) =>
              if regex value then some rest
              else behindMatch regcomp m dns rest triplet

/-- The table compiles exactly when every row does. -/
theorem fill_ok_of_compiles {regcomp : RegexCompiler} {rows : ResultSet}
    (hall : ∀ row ∈ rows, Compiles regcomp row) :
    ∃ cache, fill regcomp rows = .ok cache := by
  induction rows with
  | nil => exact ⟨[], rfl⟩
  | cons row rest ih =>
      obtain ⟨regex, hregex⟩ := new_of_compiles (hall row List.mem_cons_self)
      obtain ⟨cache, hcache⟩ := ih fun other hother =>
        hall other (List.mem_cons_of_mem row hother)
      refine ⟨(regex, (column row 2).getString) :: cache, ?_⟩
      simp only [fill, hregex, hcache]

theorem fill_error_of_not_compiles {regcomp : RegexCompiler}
    {rows : ResultSet} {row : List Cell} (hrow : row ∈ rows)
    (hfails : ¬ Compiles regcomp row) : ∃ e, fill regcomp rows = .error e := by
  induction rows with
  | nil => cases hrow
  | cons head rest ih =>
      cases hhead : RegEx.new regcomp (column head 1).getString with
      | error e => exact ⟨e, by simp only [fill, hhead]⟩
      | ok regex =>
          have hrest : row ∈ rest := by
            rcases List.mem_cons.mp hrow with rfl | hrest
            · obtain ⟨e, he⟩ := new_of_not_compiles hfails
              rw [hhead] at he
              cases he
            · exact hrest
          obtain ⟨e, he⟩ := ih hrest
          exact ⟨e, by simp only [fill, hhead, he]⟩

/-- Once the table has compiled, both scans do the same. -/
theorem answer_of_fill_ok {regcomp : RegexCompiler} (m : Matcher)
    (dns : Nat → Resolution) {rows : ResultSet} {cache : Cache}
    (hfill : fill regcomp rows = .ok cache) (triplet : Triplet)
    (extra : Extra) :
    answer m dns cache triplet extra =
      PatternMatch.scan regcomp m dns rows triplet extra := by
  induction rows generalizing cache triplet with
  | nil =>
      cases hfill
      rfl
  | cons row rest ih =>
      cases hnew : RegEx.new regcomp (column row 1).getString with
      | error e =>
          simp only [fill, hnew] at hfill
          cases hfill
      | ok regex =>
          cases hrest : fill regcomp rest with
          | error e =>
              simp only [fill, hnew, hrest] at hfill
              cases hfill
          | ok data =>
              simp only [fill, hnew, hrest, Except.ok.injEq] at hfill
              subst hfill
              simp only [answer, PatternMatch.scan, hnew, ih hrest]

section

variable {regcomp : RegexCompiler} {m : Matcher} {dns : Nat → Resolution}
  {row : List Cell} {triplet after : Triplet} {regex : Str → Bool} {value : Str}

theorem new_of_regcomp (hregex : regcomp (column row 1).getString = .ok regex) :
    RegEx.new regcomp (column row 1).getString = .ok regex := by
  rw [RegEx.new, hregex]

/-- The first row matches: the scan stops there. -/
theorem scan_hit (hregex : regcomp (column row 1).getString = .ok regex)
    (hmember : triplet.getMember dns m.member = (.ok value, after))
    (hhit : regex value = true) (rest : ResultSet) (extra : Extra) :
    behindMatch regcomp m dns (row :: rest) triplet = some rest ∧
      PatternMatch.scan regcomp m dns (row :: rest) triplet extra =
        ⟨.ok true, extra.setComment (column row 2).getString, after⟩ := by
  simp only [behindMatch, PatternMatch.scan, new_of_regcomp hregex, hregex,
    hmember, hhit, ↓reduceIte, and_self]

/-- The first row does not match: the scan goes on behind it. -/
theorem scan_miss (hregex : regcomp (column row 1).getString = .ok regex)
    (hmember : triplet.getMember dns m.member = (.ok value, after))
    (hmiss : regex value = false) (rest : ResultSet) (extra : Extra) :
    behindMatch regcomp m dns (row :: rest) triplet =
        behindMatch regcomp m dns rest after ∧
      PatternMatch.scan regcomp m dns (row :: rest) triplet extra =
        PatternMatch.scan regcomp m dns rest after extra := by
  simp only [behindMatch, PatternMatch.scan, new_of_regcomp hregex, hregex,
    hmember, hmiss, Bool.false_eq_true, ↓reduceIte, and_self]

end

/-- What a scan can come to: a match with rows behind it, or neither a match
nor an expression left out. -/
theorem scan_cases (regcomp : RegexCompiler) (m : Matcher)
    (dns : Nat → Resolution) (rows : ResultSet) (triplet : Triplet)
    (extra : Extra) :
    (∃ before row behind, rows = before ++ row :: behind ∧
        behindMatch regcomp m dns rows triplet = some behind ∧
        (∀ other ∈ before ++ [row], Compiles regcomp other) ∧
        (PatternMatch.scan regcomp m dns rows triplet extra).result =
          .ok true ∧
        (PatternMatch.scan regcomp m dns rows triplet extra).extra =
          extra.setComment (column row 2).getString) ∨
      (behindMatch regcomp m dns rows triplet = none ∧
        ((∀ row ∈ rows, Compiles regcomp row) ∨
          ∃ e, (PatternMatch.scan regcomp m dns rows triplet extra).result =
            .error e)) := by
  induction rows generalizing triplet with
  | nil => exact Or.inr ⟨rfl, Or.inl (List.forall_mem_nil _)⟩
  | cons row rest ih =>
      cases hregex : regcomp (column row 1).getString with
      | error failure =>
          have hfails : ¬ Compiles regcomp row := by
            rintro ⟨regex, hok⟩
            rw [hregex] at hok
            cases hok
          obtain ⟨e, hnew⟩ := new_of_not_compiles hfails
          refine Or.inr ⟨by simp only [behindMatch, hregex], Or.inr ⟨e, ?_⟩⟩
          simp only [PatternMatch.scan, hnew]
      | ok regex =>
          have hrow : Compiles regcomp row := ⟨regex, hregex⟩
          rcases hmember : triplet.getMember dns m.member with
            ⟨e | value, after⟩
          · refine Or.inr ⟨by simp only [behindMatch, hregex, hmember],
              Or.inr ⟨e, ?_⟩⟩
            simp only [PatternMatch.scan, new_of_regcomp hregex, hmember]
          · cases hhit : regex value with
            | true =>
                obtain ⟨hbehind, hscan⟩ :=
                  scan_hit hregex hmember hhit rest extra
                rw [hbehind, hscan]
                exact Or.inl ⟨[], row, rest, rfl, rfl,
                  List.forall_mem_singleton.mpr hrow, rfl, rfl⟩
            | false =>
                obtain ⟨hbehind, hscan⟩ :=
                  scan_miss hregex hmember hhit rest extra
                rw [hbehind, hscan]
                rcases ih after with
                  ⟨before, hit, behind, rfl, hsome, hall, hresult, hextra⟩ |
                  ⟨hnone, hall | herror⟩
                · exact Or.inl ⟨row :: before, hit, behind, rfl, hsome,
                    List.forall_mem_cons.mpr ⟨hrow, hall⟩, hresult, hextra⟩
                · exact Or.inr ⟨hnone, Or.inl
                    (List.forall_mem_cons.mpr ⟨hrow, hall⟩)⟩
                · exact Or.inr ⟨hnone, Or.inr herror⟩

/-- The outcome of a cached match that starts without a cache. -/
def matchUncached (regcomp : RegexCompiler) (m : Matcher)
    (delivery : Delivery) (table : Table) (dns : Nat → Resolution)
    (triplet : Triplet) (extra : Extra) : MatchOutcome :=
  (CachedPatternMatch.match regcomp m delivery table dns {} triplet extra).1

theorem matchUncached_eq (regcomp : RegexCompiler) (m : Matcher)
    (delivery : Delivery) (table : Table) (dns : Nat → Resolution)
    (triplet : Triplet) (extra : Extra) :
    matchUncached regcomp m delivery table dns triplet extra =
      match create regcomp m delivery table with
      | .error e => ⟨.error e, extra, triplet⟩
      | .ok cache => answer m dns cache triplet extra := by
  rw [matchUncached, CachedPatternMatch.match]
  have hget : ({} : CacheHandler Cache).get m.ds = none := rfl
  have hmiss := CacheHandler.consult_of_miss hget
    (create regcomp m delivery table)
  rcases hconsult : ({} : CacheHandler Cache).consult m.ds
    (create regcomp m delivery table) with ⟨result, handler⟩
  rw [hconsult] at hmiss
  simp only at hmiss
  rw [← hmiss]
  cases result <;> rfl

/-- The table has an expression behind the first match that does not
compile. -/
def IllFormedBehindMatch (regcomp : RegexCompiler) (m : Matcher)
    (delivery : Delivery) (table : Table) (dns : Nat → Resolution)
    (triplet : Triplet) : Prop :=
  ∃ rows behind row, m.tableQuery.lookup delivery table = .ok rows ∧
    behindMatch regcomp m dns rows triplet = some behind ∧ row ∈ behind ∧
    ¬ Compiles regcomp row

/-- There the two matchers differ: one matches, the other one throws. -/
theorem illFormedBehindMatch_outcomes {regcomp : RegexCompiler} {m : Matcher}
    {delivery : Delivery} {table : Table} {dns : Nat → Resolution}
    {triplet : Triplet}
    (hbehind : IllFormedBehindMatch regcomp m delivery table dns triplet)
    (extra : Extra) :
    (PatternMatch.match regcomp m delivery table dns triplet extra).result =
        .ok true ∧
      ∃ e, (matchUncached regcomp m delivery table dns triplet
        extra).result = .error e := by
  obtain ⟨rows, behind, row, hlookup, hsome, hrow, hfails⟩ := hbehind
  rw [matchUncached_eq]
  simp only [PatternMatch.match, create, hlookup]
  rcases scan_cases regcomp m dns rows triplet extra with
    ⟨before, hit, rest, rfl, hsome', -, hresult, -⟩ | ⟨hnone, -⟩
  · rw [hsome] at hsome'
    obtain rfl := Option.some.inj hsome'
    have hmem : row ∈ before ++ hit :: behind :=
      List.mem_append_right _ (List.mem_cons_of_mem hit hrow)
    obtain ⟨e, he⟩ := fill_error_of_not_compiles hmem hfails
    rw [he]
    exact ⟨hresult, e, rfl⟩
  · rw [hsome] at hnone
    cases hnone

/-- Everywhere else they agree. -/
theorem matchUncached_same {regcomp : RegexCompiler} {m : Matcher}
    {delivery : Delivery} {table : Table} {dns : Nat → Resolution}
    {triplet : Triplet}
    (hnot : ¬ IllFormedBehindMatch regcomp m delivery table dns triplet)
    (extra : Extra) :
    (matchUncached regcomp m delivery table dns triplet extra).Same
      (PatternMatch.match regcomp m delivery table dns triplet extra) := by
  rw [matchUncached_eq]
  cases hlookup : m.tableQuery.lookup delivery table with
  | error e =>
      simp only [PatternMatch.match, create, hlookup]
      exact Or.inr ⟨e, e, rfl, rfl⟩
  | ok rows =>
      simp only [PatternMatch.match, create, hlookup]
      have hcompiled : (∀ row ∈ rows, Compiles regcomp row) →
          (match fill regcomp rows with
            | .error e => (⟨.error e, extra, triplet⟩ : MatchOutcome)
            | .ok cache => answer m dns cache triplet extra).Same
            (PatternMatch.scan regcomp m dns rows triplet extra) := by
        intro hall
        obtain ⟨cache, hcache⟩ := fill_ok_of_compiles hall
        rw [hcache]
        simp only [answer_of_fill_ok m dns hcache]
        exact MatchOutcome.Same.refl _
      rcases scan_cases regcomp m dns rows triplet extra with
        ⟨before, hit, behind, rfl, hsome, hbefore, -, -⟩ | ⟨hnone, hrest⟩
      · apply hcompiled
        intro row hrow
        rw [← List.singleton_append, ← List.append_assoc,
          List.mem_append] at hrow
        rcases hrow with hearly | hlate
        · exact hbefore row hearly
        · by_contra hfails
          exact hnot ⟨_, behind, row, hlookup, hsome, hlate, hfails⟩
      · rcases hrest with hall | ⟨e, herror⟩
        · exact hcompiled hall
        · cases hfill : fill regcomp rows with
          | error e' => exact Or.inr ⟨e', e, rfl, herror⟩
          | ok cache =>
              simp only [answer_of_fill_ok m dns hfill]
              exact MatchOutcome.Same.refl _

/-- The pattern matchers have the same outcome exactly when every expression
behind the first match compiles; otherwise the uncached one matches and the
cached one throws. -/
theorem matchUncached_same_iff (regcomp : RegexCompiler) (m : Matcher)
    (delivery : Delivery) (table : Table) (dns : Nat → Resolution)
    (triplet : Triplet) (extra : Extra) :
    ((matchUncached regcomp m delivery table dns triplet extra).Same
        (PatternMatch.match regcomp m delivery table dns triplet extra) ↔
      ¬ IllFormedBehindMatch regcomp m delivery table dns triplet) ∧
    (IllFormedBehindMatch regcomp m delivery table dns triplet →
      (PatternMatch.match regcomp m delivery table dns triplet extra).result =
          .ok true ∧
        ∃ e, (matchUncached regcomp m delivery table dns triplet
          extra).result = .error e) := by
  refine ⟨⟨?_, fun hnot => matchUncached_same hnot extra⟩,
    fun hbehind => illFormedBehindMatch_outcomes hbehind extra⟩
  intro hsame hbehind
  obtain ⟨hmatch, e, hthrow⟩ := illFormedBehindMatch_outcomes hbehind extra
  rcases hsame with ⟨answer, hleft, -, -⟩ | ⟨-, e', -, hright⟩
  · rw [hthrow] at hleft
    cases hleft
  · rw [hmatch] at hright
    cases hright

end CachedPatternMatch

namespace CachedExactMatch

/-- The key and the value the fill loop takes from a fetched row. -/
def keyOf (row : List Cell) : Str := lowercase (column row 1).getString

def valOf (row : List Cell) : Str := lowercase (column row 2).getString

theorem fill_cons (row : List Cell) (rest : ResultSet) (count : Nat)
    (cache : Cache) :
    fill (row :: rest) count cache =
      fill rest (count + 1)
        { data := cache.data ++ [valOf row]
          index := cache.index.insert (keyOf row) count } := rfl

/-- The fill loop keeps one value for every row, and for every key the
position of its first row. -/
theorem fill_spec (rows : ResultSet) (count : Nat) (cache : Cache) :
    (fill rows count cache).data = cache.data ++ rows.map valOf ∧
      ∀ key, (fill rows count cache).index.find key =
        (cache.index.find key).or
          ((rows.findIdx? (keyOf · == key)).map (· + count)) := by
  induction rows generalizing count cache with
  | nil => simp [fill]
  | cons row rest ih =>
      obtain ⟨hdata, hindex⟩ := ih (count + 1)
        { data := cache.data ++ [valOf row]
          index := cache.index.insert (keyOf row) count }
      constructor
      · rw [fill_cons, hdata]
        simp
      · intro key
        rw [fill_cons, hindex, OrdMap.find_insert, List.findIdx?_cons]
        by_cases heq : key = keyOf row
        · subst heq
          cases cache.index.find (keyOf row) <;> simp
        · have hne : (keyOf row == key) = false :=
            beq_eq_false_iff_ne.mpr fun h => heq h.symm
          rw [if_neg heq, hne]
          simp only [Bool.false_eq_true, ↓reduceIte, Option.map_map]
          congr 1
          cases rest.findIdx? (keyOf · == key) with
          | none => rfl
          | some position =>
              simp only [Option.map_some, Function.comp_apply,
                Option.some.injEq]
              omega

/-- A fresh cache answers with the first row that has the key. -/
theorem answer_fill (m : Matcher) (rows : ResultSet)
    (dns : Nat → Resolution) (triplet : Triplet) (extra : Extra)
    {value : Str} {after : Triplet}
    (hmember : triplet.getMember dns m.member = (.ok value, after)) :
    answer m (fill rows 0 {}) dns triplet extra =
      match rows.find? (keyOf · == value) with
      | none => ⟨.ok false, extra, after⟩
      | some row => ⟨.ok true, extra.setComment (valOf row), after⟩ := by
  obtain ⟨hdata, hindex⟩ := fill_spec rows 0 {}
  have hfind : (fill rows 0 {}).index.find value =
      rows.findIdx? (keyOf · == value) := by
    rw [hindex value]
    cases rows.findIdx? (keyOf · == value) <;> rfl
  simp only [answer, hmember, hfind]
  cases hposition : rows.findIdx? (keyOf · == value) with
  | none =>
      have hnone : rows.find? (keyOf · == value) = none := by
        rw [List.find?_eq_none]
        intro row hrow
        rw [List.findIdx?_eq_none_iff.mp hposition row hrow]
        exact Bool.false_ne_true
      rw [hnone]
  | some position =>
      rw [List.findIdx?_eq_some_iff_getElem] at hposition
      obtain ⟨hlt, hhit, hbefore⟩ := hposition
      have hsome : rows.find? (keyOf · == value) = some rows[position] := by
        rw [List.find?_eq_some_iff_getElem]
        refine ⟨hhit, position, hlt, rfl, ?_⟩
        intro earlier hearlier
        simpa using hbefore earlier hearlier
      have hget : (fill rows 0 {}).data[position]? =
          some (valOf rows[position]) := by
        rw [hdata]
        simp [List.getElem?_eq_getElem hlt]
      rw [hsome]
      simp only [hget]

/-- The members that are kept in lowercase. -/
def LowercaseMember (member : MemberType) : Prop :=
  member = .sender ∨ member = .recipient ∨ member = .client_name ∨
    member = .short_client_name

theorem getMember_lowercase {member : MemberType}
    (hmember : LowercaseMember member) (dns : Nat → Resolution)
    (triplet : Triplet) :
    ∃ value after, triplet.getMember dns member = (.ok value, after) ∧
      lowercase value = value := by
  rcases hmember with rfl | rfl | rfl | rfl
  · exact ⟨_, _, rfl, triplet.sender_lower⟩
  · exact ⟨_, _, rfl, triplet.recipient_lower⟩
  · exact ⟨_, _, rfl, triplet.client_address.clientname_lower⟩
  · refine ⟨_, _, rfl, ?_⟩
    rw [Triplet.getShortClientName_fst]
    exact triplet.lowercase_shortName

/-- What the fill loop fetches when lookup column and return field are columns
of the table. -/
theorem tableQuery_lookup {m : Matcher} {table : Table}
    (hcolumn : table.knows m.column = true)
    (hreturn : table.knows m.returnfield = true) (delivery : Delivery) :
    m.tableQuery.lookup delivery table =
      .ok ((delivery.order table.rows).map fun row =>
        [row.get m.column, row.get m.returnfield]) := by
  have hcolumnNe := Table.ne_allColumns_of_knows hcolumn
  have hreturnNe := Table.ne_allColumns_of_knows hreturn
  have hquery : m.tableQuery =
      { returnFields := [m.column, m.returnfield] } := by
    simp [Matcher.tableQuery, BaseQuery.addReturnField, hcolumnNe, hreturnNe]
  have hcheck : m.tableQuery.check table = .ok () := by
    apply BaseQuery.check_eq_ok
    intro name hname
    rw [hquery] at hname
    simp only [BaseQuery.columns, List.map_nil, List.append_nil,
      List.mem_filter, List.mem_cons, List.not_mem_nil, or_false] at hname
    rcases hname.1 with rfl | rfl
    · exact hcolumn
    · exact hreturn
  have hfields : allColumns ∉ [m.column, m.returnfield] := by
    simp only [List.mem_cons, List.not_mem_nil, or_false, not_or]
    exact ⟨hcolumnNe.symm, hreturnNe.symm⟩
  rw [BaseQuery.lookup, hcheck, hquery]
  simp only [List.cons_ne_nil, ↓reduceIte,
    Table.matching, Row.holdsAll, List.all_nil, List.filter_true,
    Except.ok.injEq]
  apply List.map_congr_left
  intro row _
  rw [Table.project_of_not_mem hfields]
  rfl

/-- What the uncached matcher fetches for a member. -/
theorem exactQuery_lookup {m : Matcher} {table : Table}
    (hcolumn : table.knows m.column = true)
    (hreturn : table.knows m.returnfield = true) (value : Str) :
    ((({} : BaseQuery).addReturnField m.returnfield).addWhere m.column
        (.text value)).lookup .inTableOrder table =
      .ok ((table.matching [(m.column, .text value)]).map fun row =>
        [row.get m.returnfield]) := by
  have hreturnNe := Table.ne_allColumns_of_knows hreturn
  have hquery : (({} : BaseQuery).addReturnField m.returnfield).addWhere
      m.column (.text value) =
      { returnFields := [m.returnfield]
        whereClause := [(m.column, .text value)] } := by
    simp [BaseQuery.addReturnField, BaseQuery.addWhere, hreturnNe]
  have hcheck : ({ returnFields := [m.returnfield]
                   whereClause := [(m.column, .text value)] } :
      BaseQuery).check table = .ok () := by
    apply BaseQuery.check_eq_ok
    intro name hname
    simp only [BaseQuery.columns, List.map_cons, List.map_nil,
      List.append_nil, List.mem_append, List.mem_filter, List.mem_cons,
      List.not_mem_nil, or_false] at hname
    rcases hname with ⟨rfl, -⟩ | rfl
    · exact hreturn
    · exact hcolumn
  have hfields : allColumns ∉ [m.returnfield] := by
    simp only [List.mem_singleton]
    exact hreturnNe.symm
  rw [hquery, BaseQuery.lookup, hcheck]
  simp only [List.cons_ne_nil, ↓reduceIte, Delivery.inTableOrder, id,
    Except.ok.injEq]
  apply List.map_congr_left
  intro row _
  rw [Table.project_of_not_mem hfields]
  rfl

/-- On text keys the server and the index select by the same test. -/
theorem holdsAll_iff_keyOf {m : Matcher} {row : Row} {text value : Str}
    (htext : row.get m.column = .text text)
    (hvalue : lowercase value = value) :
    row.holdsAll [(m.column, .text value)] =
      (keyOf [row.get m.column, row.get m.returnfield] == value) := by
  simp only [Row.holdsAll, List.all_cons, List.all_nil, Bool.and_true,
    Row.holds, htext, Cell.sqlEq, hvalue]
  exact (beq_eq_decide (lowercase text) value).symm

/-- A cached match with a fresh cache and the uncached match on a table: the
same answer or the same exception, an answer where the return field is a
column, and on a match the same comment up to case. -/
structure Agrees (m : Matcher) (table : Table) (dns : Nat → Resolution)
    (triplet : Triplet) (extra : Extra) : Prop where
  result :
    (CachedExactMatch.match m .inTableOrder table dns {} triplet
        extra).1.result =
      (ExactMatch.match m .inTableOrder table dns triplet extra).result
  answers : table.knows m.returnfield = true →
    ∃ answer, (CachedExactMatch.match m .inTableOrder table dns {} triplet
      extra).1.result = .ok answer
  comment :
    (CachedExactMatch.match m .inTableOrder table dns {} triplet
        extra).1.result = .ok true →
      lowercase (CachedExactMatch.match m .inTableOrder table dns {} triplet
          extra).1.extra.comment =
        lowercase (ExactMatch.match m .inTableOrder table dns triplet
          extra).extra.comment

/-- What a fresh cache answers. -/
theorem match_fresh {m : Matcher} {table : Table} {delivery : Delivery}
    {rows : ResultSet} (hlookup : m.tableQuery.lookup delivery table = .ok rows)
    (dns : Nat → Resolution) (triplet : Triplet) (extra : Extra) :
    (CachedExactMatch.match m delivery table dns {} triplet extra).1 =
      answer m (fill rows 0 {}) dns triplet extra := by
  have hget : ({} : CacheHandler Cache).get m.ds = none := rfl
  have hmiss := CacheHandler.consult_of_miss hget (create m delivery table)
  have hcreate : create m delivery table = .ok (fill rows 0 {}) := by
    rw [create, hlookup]
  rw [CachedExactMatch.match]
  rcases hconsult : ({} : CacheHandler Cache).consult m.ds
    (create m delivery table) with ⟨result, handler⟩
  rw [hconsult, hcreate] at hmiss
  simp only at hmiss
  subst hmiss
  rfl

/-- On a table of text keys whose return field is a column, a cached match with
a fresh cache answers as the uncached match does, with the same comment up to
case. -/
theorem agrees_of_knows {m : Matcher} {table : Table}
    (hcolumn : table.knows m.column = true)
    (hreturn : table.knows m.returnfield = true)
    (hnonempty : m.returnfield ≠ [])
    (hkeys : ∀ row ∈ table.rows, ∃ text, row.get m.column = .text text)
    (hmember : LowercaseMember m.member) (dns : Nat → Resolution)
    (triplet : Triplet) (extra : Extra) :
    Agrees m table dns triplet extra := by
  obtain ⟨value, after, hvalue, hlower⟩ :=
    getMember_lowercase hmember dns triplet
  have hcached : (CachedExactMatch.match m .inTableOrder table dns {} triplet
      extra).1 = answer m (fill (table.rows.map fun row =>
        [row.get m.column, row.get m.returnfield]) 0 {}) dns triplet extra :=
    match_fresh (tableQuery_lookup hcolumn hreturn .inTableOrder) dns triplet
      extra
  have hfind : (table.rows.map fun row =>
      [row.get m.column, row.get m.returnfield]).find? (keyOf · == value) =
      (table.matching [(m.column, .text value)]).head?.map fun row =>
        [row.get m.column, row.get m.returnfield] := by
    rw [List.find?_map, Table.matching, List.head?_filter]
    congr 1
    apply List.find?_congr
    intro row hrow
    obtain ⟨text, htext⟩ := hkeys row hrow
    exact (holdsAll_iff_keyOf htext hlower).symm
  have houtcomes : (∃ answer, (CachedExactMatch.match m .inTableOrder table dns
          {} triplet extra).1.result = .ok answer ∧
        (ExactMatch.match m .inTableOrder table dns triplet extra).result =
          .ok answer) ∧
      ((CachedExactMatch.match m .inTableOrder table dns {} triplet
          extra).1.result = .ok true →
        lowercase (CachedExactMatch.match m .inTableOrder table dns {} triplet
            extra).1.extra.comment =
          lowercase (ExactMatch.match m .inTableOrder table dns triplet
            extra).extra.comment) := by
    simp only [hcached, answer_fill m _ dns triplet extra hvalue, hfind,
      ExactMatch.match, hvalue, hnonempty, ne_eq, not_false_eq_true,
      ↓reduceIte, exactQuery_lookup hcolumn hreturn]
    cases table.matching [(m.column, .text value)] with
    | nil => exact ⟨⟨false, rfl, rfl⟩, nofun⟩
    | cons row rest =>
        refine ⟨⟨true, rfl, rfl⟩, fun _ => ?_⟩
        exact lowercase_lowercase _
  obtain ⟨⟨answer, hleft, hright⟩, hcomment⟩ := houtcomes
  exact ⟨hleft.trans hright.symm, fun _ => ⟨answer, hleft⟩, hcomment⟩

/-- A return field the server does not know is rejected in either query. -/
theorem agrees_of_unknown {m : Matcher} {table : Table}
    (hcolumn : table.knows m.column = true)
    (hall : m.returnfield ≠ allColumns)
    (hunknown : table.knows m.returnfield = false)
    (hnonempty : m.returnfield ≠ []) (hmember : LowercaseMember m.member)
    (dns : Nat → Resolution) (triplet : Triplet) (extra : Extra) :
    Agrees m table dns triplet extra := by
  obtain ⟨value, after, hvalue, -⟩ := getMember_lowercase hmember dns triplet
  have hcolumnNe := Table.ne_allColumns_of_knows hcolumn
  have hcached : m.tableQuery.lookup .inTableOrder table =
      .error (.DBIError 1054 (("query failed: Unknown column '" : Str) ++
        m.returnfield ++ ("'" : Str))) := by
    simp [BaseQuery.lookup, BaseQuery.check, BaseQuery.columns,
      Matcher.tableQuery, BaseQuery.addReturnField, hall, hcolumnNe, hcolumn,
      hunknown]
  have hexact : ((({} : BaseQuery).addReturnField m.returnfield).addWhere
      m.column (.text value)).lookup .inTableOrder table =
      .error (.DBIError 1054 (("query failed: Unknown column '" : Str) ++
        m.returnfield ++ ("'" : Str))) := by
    simp [BaseQuery.lookup, BaseQuery.check, BaseQuery.columns,
      BaseQuery.addReturnField, BaseQuery.addWhere, hall, hunknown]
  have hthrown : (CachedExactMatch.match m .inTableOrder table dns {} triplet
      extra).1.result = .error (.DBIError 1054
        (("query failed: Unknown column '" : Str) ++ m.returnfield ++
          ("'" : Str))) := by
    simp only [CachedExactMatch.match, CacheHandler.consult,
      CacheHandler.get, CacheHandler.create, OrdMap.find, List.lookup_nil,
      create, hcached]
  refine ⟨?_, ?_, ?_⟩
  · rw [hthrown]
    simp only [ExactMatch.match, hvalue, hnonempty, ne_eq, not_false_eq_true,
      ↓reduceIte, hexact]
  · intro hknown
    rw [hunknown] at hknown
    cases hknown
  · intro htrue
    rw [hthrown] at htrue
    cases htrue

/-- The request for all columns replaces the one for the lookup column, and the
first of all columns is the id, which is no text. -/
theorem tableQuery_lookup_all {m : Matcher}
    (hall : m.returnfield = allColumns) (delivery : Delivery)
    (table : Table) :
    ∃ rows, m.tableQuery.lookup delivery table = .ok rows ∧
      ∀ row ∈ rows, keyOf row = [] := by
  have hquery : m.tableQuery = { returnFields := [allColumns] } := by
    rw [Matcher.tableQuery, hall]
    simp only [BaseQuery.addReturnField, ↓reduceIte]
    split <;> rfl
  have hcheck : m.tableQuery.check table = .ok () := by
    apply BaseQuery.check_eq_ok
    rw [hquery]
    simp [BaseQuery.columns]
  refine ⟨(delivery.order (table.matching m.tableQuery.whereClause)).map
    (table.project m.tableQuery.returnFields), ?_, ?_⟩
  · rw [BaseQuery.lookup, hcheck]
    simp only [hquery, List.cons_ne_nil, ↓reduceIte]
  · intro fetched hfetched
    obtain ⟨row, -, rfl⟩ := List.mem_map.mp hfetched
    rw [hquery]
    rfl

end CachedExactMatch

namespace ExactMatch

/-- Some row of the table has the lookup column equal to the value. -/
def Listed (m : Matcher) (table : Table) (value : Str) : Prop :=
  ∃ row ∈ table.rows, row.holds (m.column, .text value) = true

theorem matching_eq_nil_iff (m : Matcher) (table : Table) (value : Str) :
    table.matching [(m.column, .text value)] = [] ↔
      ¬ Listed m table value := by
  rw [Table.matching, List.filter_eq_nil_iff, Listed]
  simp [Row.holdsAll]

/-- The return field is one the server knows, if there is one. -/
def ReturnKnown (m : Matcher) (table : Table) : Prop :=
  m.returnfield = [] ∨ m.returnfield = allColumns ∨
    table.knows m.returnfield = true

/-- The query of a match. -/
def query (m : Matcher) (value : Str) : BaseQuery :=
  (if m.returnfield ≠ [] then ({} : BaseQuery).addReturnField m.returnfield
    else {}).addWhere m.column (.text value)

theorem query_check {m : Matcher} {table : Table}
    (hcolumn : table.knows m.column = true) (hreturn : ReturnKnown m table)
    (value : Str) : (query m value).check table = .ok () := by
  apply BaseQuery.check_eq_ok
  intro name hname
  rcases hreturn with hempty | hall | hknown
  · simp [query, hempty, BaseQuery.columns, BaseQuery.addWhere] at hname
    rw [hname]
    exact hcolumn
  · have hne : allColumns ≠ [] := by decide
    simp [query, hall, hne, BaseQuery.columns, BaseQuery.addWhere,
      BaseQuery.addReturnField] at hname
    rw [hname]
    exact hcolumn
  · have hne := Table.ne_allColumns_of_knows hknown
    by_cases hempty : m.returnfield = []
    · simp [query, hempty, BaseQuery.columns, BaseQuery.addWhere] at hname
      rw [hname]
      exact hcolumn
    · simp [query, hempty, hne, BaseQuery.columns, BaseQuery.addWhere,
        BaseQuery.addReturnField] at hname
      rcases hname with hname | hname
      · rw [hname]
        exact hknown
      · rw [hname]
        exact hcolumn

/-- The query has no row exactly when a return field is asked for and no row
of the table has the value. -/
theorem query_lookup {m : Matcher} {table : Table}
    (hcolumn : table.knows m.column = true) (hreturn : ReturnKnown m table)
    (delivery : Delivery) (value : Str) :
    ∃ rows, (query m value).lookup delivery table = .ok rows ∧
      (rows = [] ↔ m.returnfield ≠ [] ∧ ¬ Listed m table value) := by
  have hwhere : (query m value).whereClause = [(m.column, .text value)] := by
    unfold query
    split
    · unfold BaseQuery.addReturnField
      split <;> rfl
    · rfl
  have hfields : (query m value).returnFields = [] ↔ m.returnfield = [] := by
    unfold query
    split
    · next hne =>
        unfold BaseQuery.addReturnField
        split <;> simp [BaseQuery.addWhere, hne]
    · next hempty => simpa [BaseQuery.addWhere] using hempty
  rw [BaseQuery.lookup, query_check hcolumn hreturn, hwhere]
  simp only
  split
  · next hnone =>
      refine ⟨_, rfl, ?_⟩
      simp [hfields.mp hnone]
  · next hsome =>
      refine ⟨_, rfl, ?_⟩
      have hne : m.returnfield ≠ [] := fun hempty =>
        hsome (hfields.mpr hempty)
      rw [List.map_eq_nil_iff, Delivery.order_eq_nil_iff,
        matching_eq_nil_iff]
      exact (and_iff_right hne).symm

/-- An exact matcher answers whether some row has the member's value exactly
when it has a return field, or some row has the value anyway. -/
theorem match_true_iff_listed_iff (m : Matcher) (delivery : Delivery)
    {table : Table} (hcolumn : table.knows m.column = true)
    (hreturn : ReturnKnown m table) (dns : Nat → Resolution)
    (triplet : Triplet) (extra : Extra) :
    ((ExactMatch.match m delivery table dns triplet extra).result = .ok true ↔
        ∃ value, (triplet.getMember dns m.member).1 = .ok value ∧
          Listed m table value) ↔
      (m.returnfield ≠ [] ∨
        ∀ value, (triplet.getMember dns m.member).1 = .ok value →
          Listed m table value) := by
  rcases hmember : triplet.getMember dns m.member with ⟨result, after⟩
  cases result with
  | error e => simp [ExactMatch.match, hmember]
  | ok value =>
      obtain ⟨rows, hlookup, hrows⟩ :=
        query_lookup hcolumn hreturn delivery value
      have hresult : (ExactMatch.match m delivery table dns triplet
          extra).result = .ok (decide (rows ≠ [])) := by
        unfold query at hlookup
        simp only [ExactMatch.match, hmember, hlookup]
        cases rows <;> rfl
      simp only [hresult, Except.ok.injEq, decide_eq_true_eq, ne_eq, hrows,
        exists_eq_left', forall_eq']
      tauto

end ExactMatch

namespace CachedExactMatch

/-- A request in which every member that is kept in lowercase says the same. -/
def uniform : Triplet :=
  Triplet.new [] "a.b".toList "a.b".toList [] "a.b".toList

theorem getMember_uniform {member : MemberType}
    (hmember : LowercaseMember member) (dns : Nat → Resolution) :
    ∃ after, uniform.getMember dns member = (.ok "a.b".toList, after) := by
  rcases hmember with rfl | rfl | rfl | rfl
  · exact ⟨_, rfl⟩
  · exact ⟨_, rfl⟩
  · exact ⟨_, rfl⟩
  · have hshort : uniform.getShortClientName.1 = "a.b".toList := by decide
    exact ⟨_, Prod.ext (congrArg Except.ok hshort) rfl⟩

/-- With all columns as the return field, a sender that is listed is found by
the uncached match and not by the cached one. -/
theorem not_agrees_of_all {m : Matcher} {table : Table}
    (hcolumn : m.column ∈ table.columns) (hkey : m.column ≠ Row.idColumn)
    (hall : m.returnfield = allColumns) (hmember : LowercaseMember m.member)
    (dns : Nat → Resolution) (extra : Extra) :
    ¬ Agrees m (table.withRows [⟨0, fun _ => .text "a.b".toList⟩]) dns uniform
      extra := by
  intro hagrees
  have hknown : (table.withRows [⟨0, fun _ => .text "a.b".toList⟩]).knows
      m.column = true := by
    rw [Table.withRows_knows]
    simp [Table.knows, hcolumn]
  obtain ⟨after, hvalue⟩ := getMember_uniform hmember dns
  have hcached : (CachedExactMatch.match m .inTableOrder
      (table.withRows [⟨0, fun _ => .text "a.b".toList⟩]) dns {} uniform
      extra).1.result = .ok false := by
    obtain ⟨rows, hlookup, hkeys⟩ := tableQuery_lookup_all hall .inTableOrder
      (table.withRows [⟨0, fun _ => .text "a.b".toList⟩])
    have hnone : rows.find? (keyOf · == "a.b".toList) = none := by
      rw [List.find?_eq_none]
      intro row hrow
      rw [hkeys row hrow]
      decide
    rw [match_fresh hlookup, answer_fill m rows dns uniform extra hvalue, hnone]
  have hexact : (ExactMatch.match m .inTableOrder
      (table.withRows [⟨0, fun _ => .text "a.b".toList⟩]) dns uniform
      extra).result = .ok true := by
    obtain ⟨rows, hlookup, hrows⟩ := ExactMatch.query_lookup hknown
      (Or.inr (Or.inl hall)) .inTableOrder "a.b".toList
    have hlisted : ExactMatch.Listed m
        (table.withRows [⟨0, fun _ => .text "a.b".toList⟩]) "a.b".toList := by
      refine ⟨_, List.mem_singleton_self _, ?_⟩
      simp only [Row.holds, Row.get, if_neg hkey]
      decide
    obtain ⟨row, rest, rfl⟩ := List.exists_cons_of_ne_nil
      fun hempty => (hrows.mp hempty).2 hlisted
    unfold ExactMatch.query at hlookup
    simp only [ExactMatch.match, hvalue, hlookup]
  have hsame := hagrees.result
  rw [hcached, hexact] at hsame
  cases hsame

/-- On tables with a text column for the keys, the cached match with a fresh
cache and the uncached match agree on all contents and all requests exactly
when the return field is not the one for all columns. -/
theorem match_agrees_iff (m : Matcher) (table : Table)
    (hcolumn : m.column ∈ table.columns) (hkey : m.column ≠ Row.idColumn)
    (hnonempty : m.returnfield ≠ []) (hmember : LowercaseMember m.member) :
    (∀ rows : List Row,
        (∀ row ∈ rows, ∃ text, row.get m.column = .text text) →
        ∀ dns triplet extra,
          Agrees m (table.withRows rows) dns triplet extra) ↔
      m.returnfield ≠ allColumns := by
  constructor
  · intro hagrees hall
    refine not_agrees_of_all hcolumn hkey hall hmember
      (fun _ => .failure [] []) {} (hagrees _ ?_ _ _ _)
    intro row hrow
    rw [List.mem_singleton.mp hrow]
    exact ⟨"a.b".toList, by rw [Row.get, if_neg hkey]⟩
  · intro hall rows hkeys dns triplet extra
    have hknown : (table.withRows rows).knows m.column = true := by
      rw [Table.withRows_knows]
      simp [Table.knows, hcolumn]
    cases hreturn : table.knows m.returnfield with
    | true =>
        exact agrees_of_knows hknown hreturn hnonempty hkeys hmember dns
          triplet extra
    | false =>
        exact agrees_of_unknown hknown hall hreturn hnonempty hmember dns
          triplet extra

end CachedExactMatch

namespace MatchersWitness

/-- A table with one text column for keys or expressions and one for
comments. -/
def table (rows : List (String × String)) : Table where
  columns := ["expression".toList, "comment".toList]
  rows := rows.zipIdx.map fun entry =>
    ⟨entry.2, fun name =>
      if name = "expression".toList then .text entry.1.1.toList
      else .text entry.1.2.toList⟩
  columns_named := by decide

def matcher : Matcher where
  ds := 1
  column := "expression".toList
  member := .sender
  returnfield := "comment".toList

/-- Every text but a lone parenthesis compiles, to the test for equality. -/
def regcomp : RegexCompiler := fun expr =>
  if expr = "(".toList then .error (8, "Unmatched ( or \\(".toList)
  else .ok fun text => text = expr

def noNames : Nat → Resolution := fun _ => .failure [] []

def triplet : Triplet :=
  Triplet.new "192.0.2.7".toList "Alice@example.org".toList
    "bob@example.net".toList [] []

/-- The broken expression stands behind the one that matches. -/
def broken : Table := table [("alice@example.org", "friend"), ("(", "broken")]

theorem cached_throws_on_broken :
    (PatternMatch.match regcomp matcher .inTableOrder broken noNames triplet
        {}).result = .ok true ∧
      (CachedPatternMatch.match regcomp matcher .inTableOrder broken noNames {}
        triplet {}).1.result =
        .error (.runtime_error "Regex: Unmatched ( or \\((8), (".toList) := by
  constructor
  · decide
  · decide

theorem same_on_sound_table :
    (CachedPatternMatch.matchUncached regcomp matcher .inTableOrder
      (table [("alice@example.org", "friend")]) noNames triplet {}).Same
      (PatternMatch.match regcomp matcher .inTableOrder
        (table [("alice@example.org", "friend")]) noNames triplet {}) := by
  refine ((CachedPatternMatch.matchUncached_same_iff regcomp matcher
    .inTableOrder _ noNames triplet {}).1).mpr ?_
  rintro ⟨rows, behind, row, hlookup, hbehind, hrow, -⟩
  have hrows : matcher.tableQuery.lookup .inTableOrder
      (table [("alice@example.org", "friend")]) =
      .ok [[.text "alice@example.org".toList, .text "friend".toList]] := rfl
  obtain rfl := Except.ok.inj (hrows.symm.trans hlookup)
  obtain rfl := Option.some.inj
    ((show CachedPatternMatch.behindMatch regcomp matcher noNames
      [[.text "alice@example.org".toList, .text "friend".toList]] triplet =
      some [] by decide).symm.trans hbehind)
  cases hrow

/-- Two rows with the same key up to case. -/
def duplicates : Table :=
  table [("Alice@Example.org", "Friend"), ("alice@example.org", "other")]

theorem agrees_on_duplicates :
    (CachedExactMatch.match matcher .inTableOrder duplicates noNames {}
        triplet {}).1.result = .ok true ∧
      lowercase (CachedExactMatch.match matcher .inTableOrder duplicates
          noNames {} triplet {}).1.extra.comment =
        lowercase (ExactMatch.match matcher .inTableOrder duplicates noNames
          triplet {}).extra.comment := by
  have htrue : (CachedExactMatch.match matcher .inTableOrder duplicates noNames
      {} triplet {}).1.result = .ok true := by
    decide
  have hkeys : ∀ row ∈ duplicates.rows,
      ∃ text, row.get matcher.column = .text text := by
    intro row hrow
    change row ∈ [_, _] at hrow
    rcases List.mem_cons.mp hrow with rfl | hrow
    · exact ⟨_, rfl⟩
    · obtain rfl := List.mem_singleton.mp hrow
      exact ⟨_, rfl⟩
  exact ⟨htrue, ((CachedExactMatch.match_agrees_iff matcher duplicates
    (by decide) (by decide) (by decide) (Or.inl rfl)).mpr (by decide)
    duplicates.rows hkeys noNames triplet {}).comment htrue⟩

/-- All columns are asked for. -/
def unlimited : Matcher :=
  { matcher with returnfield := allColumns }

/-- The sender is listed, but the cache knows the rows by their ids. -/
theorem disagree_on_all_columns :
    (CachedExactMatch.match unlimited .inTableOrder duplicates noNames {}
        triplet {}).1.result = .ok false ∧
      (ExactMatch.match unlimited .inTableOrder duplicates noNames triplet
        {}).result = .ok true := by
  decide

/-- The return token is optional. -/
def unreturned : Matcher :=
  { matcher with returnfield := [] }

/-- Without a return field the matcher matches on an empty table. -/
theorem matches_empty_table :
    (ExactMatch.match unreturned .inTableOrder (table []) noNames triplet
        {}).result = .ok true ∧
      (table []).rows = [] := by
  decide +kernel

theorem listed_sender_matches :
    (ExactMatch.match matcher .reversed broken noNames triplet {}).result =
      .ok true := by
  have hcolumn : broken.knows matcher.column = true := by decide
  have hreturn : broken.knows matcher.returnfield = true := by decide
  have hiff := ExactMatch.match_true_iff_listed_iff matcher .reversed hcolumn
    (Or.inr (Or.inr hreturn)) noNames triplet {}
  apply (hiff.mpr (Or.inl (by decide))).mpr
  refine ⟨"alice@example.org".toList, by decide +kernel, ?_⟩
  exact ⟨_, List.mem_cons_self, by decide +kernel⟩

end MatchersWitness

end GreylistServer
