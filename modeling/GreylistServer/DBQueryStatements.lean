/-
The statements of the query objects.  When the calls came in the order of the
statement, a lookup, an insertion and an update are sent as asked for, whatever
the strings hold.  A lookup without a condition leaves the name of its table
open.
-/
import GreylistServer.DBQueryBinding

namespace GreylistServer

/-- The fields of a lookup. -/
def selected (calls : List BuilderCall) : Str :=
  if returnFieldsOf calls = [] then "COUNT(*)".toList
  else (",".toList).intercalate ((returnFieldsOf calls).map fieldText)

/-- Some items with their own values. -/
def renderItems (quote : Str → Str) (separator : Str) (items : List Item) :
    Str :=
  separator.intercalate (items.map (Item.rendered quote))

/-- The lookup that was asked for. -/
def lookupStatement (quote : Str → Str) (table : Str)
    (calls : List BuilderCall) : Str :=
  ("SELECT " : Str) ++ selected calls ++ (" FROM " : Str) ++ ticked table ++
    if itemsOf .condition calls = [] then []
    else (" WHERE (" : Str) ++
      renderItems quote " AND " (itemsOf .condition calls) ++ (")" : Str)

/-- The insertion that was asked for. -/
def insertStatement (quote : Str → Str) (table : Str)
    (calls : List BuilderCall) : Str :=
  ("INSERT INTO " : Str) ++ table ++ (" (" : Str) ++
    (",".toList).intercalate
      ((insertionsOf calls).map fun entry => ticked entry.1) ++
    (")  VALUES(" : Str) ++
    (",".toList).intercalate
      ((insertionsOf calls).map fun entry => entry.2.rendered quote) ++
    (")" : Str)

/-- The update that was asked for. -/
def updateStatement (quote : Str → Str) (table : Str)
    (calls : List BuilderCall) : Str :=
  ("UPDATE " : Str) ++ table ++ (" SET " : Str) ++
    renderItems quote "," (itemsOf .assignment calls) ++ (" WHERE(" : Str) ++
    renderItems quote " AND " (itemsOf .condition calls) ++ (")" : Str)

/-- The calls came in the order of the statement: the values of the kinds in
their order, and the others after them. -/
def InOrder (kinds : List ItemKind) (calls : List BuilderCall) : Prop :=
  (entries calls).Pairwise fun first second =>
    kinds.idxOf first.1 ≤ kinds.idxOf second.1

instance (kinds : List ItemKind) (calls : List BuilderCall) :
    Decidable (InOrder kinds calls) :=
  inferInstanceAs (Decidable (List.Pairwise _ _))

/-- A list in which the chosen elements come first is the chosen elements and
then the others. -/
theorem eq_filter_append_filter_not {α : Type} {p : α → Bool} {list : List α}
    (hfirst : list.Pairwise fun a b => p b = true → p a = true) :
    list = list.filter p ++ list.filter fun a => !p a := by
  induction list with
  | nil => rfl
  | cons a list ih =>
      rw [List.pairwise_cons] at hfirst
      obtain ⟨hhead, htail⟩ := hfirst
      by_cases ha : p a = true
      · simp only [List.filter_cons, ha, ↓reduceIte, Bool.not_true,
          Bool.false_eq_true, List.cons_append]
        exact congrArg (a :: ·) (ih htail)
      · have hnone : list.filter p = [] := by
          rw [List.filter_eq_nil_iff]
          intro b hb hpb
          exact ha (hhead b hb hpb)
        have hall : list.filter (fun a => !p a) = list := by
          have hlist := ih htail
          rw [hnone, List.nil_append] at hlist
          exact hlist.symm
        simp [ha, hnone, hall]

/-- The arguments of a statement, sorted by their kinds. -/
theorem exists_eq_flatMap_filter {kinds : List ItemKind} (hkinds : kinds.Nodup)
    {list : List (ItemKind × Item)}
    (horder : list.Pairwise fun first second =>
      kinds.idxOf first.1 ≤ kinds.idxOf second.1) :
    ∃ others, list =
      (kinds.flatMap fun kind => list.filter fun entry => entry.1 = kind) ++
        others := by
  induction kinds generalizing list with
  | nil => exact ⟨list, rfl⟩
  | cons kind kinds ih =>
      rw [List.nodup_cons] at hkinds
      obtain ⟨hnew, hkinds⟩ := hkinds
      have hfirst : list.Pairwise fun a b =>
          decide (b.1 = kind) = true → decide (a.1 = kind) = true := by
        refine horder.imp fun {a b} hle hb => ?_
        rw [decide_eq_true_iff] at hb ⊢
        by_contra ha
        rw [hb, List.idxOf_cons_self, List.idxOf_cons_ne _ (Ne.symm ha)]
          at hle
        omega
      have hsplit := eq_filter_append_filter_not hfirst
      have hrest : (list.filter fun entry => !decide (entry.1 = kind)).Pairwise
          fun first second =>
            kinds.idxOf first.1 ≤ kinds.idxOf second.1 := by
        rw [List.pairwise_filter]
        refine horder.imp fun {a b} hle ha hb => ?_
        have hane : kind ≠ a.1 := by
          rintro heq
          simp [heq] at ha
        have hbne : kind ≠ b.1 := by
          rintro heq
          simp [heq] at hb
        rw [List.idxOf_cons_ne _ hane, List.idxOf_cons_ne _ hbne] at hle
        omega
      obtain ⟨others, hothers⟩ := ih hkinds hrest
      have hsame : (kinds.flatMap fun other =>
          (list.filter fun entry => !decide (entry.1 = kind)).filter
            fun entry => entry.1 = other) =
          kinds.flatMap fun other =>
            list.filter fun entry => entry.1 = other := by
        apply List.flatMap_congr
        intro other hother
        rw [List.filter_filter]
        apply List.filter_congr
        intro entry _
        have hne : other ≠ kind := fun heq => hnew (heq ▸ hother)
        by_cases hentry : entry.1 = other
        · simp [hentry, hne]
        · simp [hentry]
      refine ⟨others, ?_⟩
      rw [List.flatMap_cons, List.append_assoc, ← hsame, ← hothers]
      exact hsplit

/-- The arguments that the placeholders of a statement take. -/
theorem InOrder.args {kinds : List ItemKind} {calls : List BuilderCall}
    (horder : InOrder kinds calls) (hkinds : kinds.Nodup) (table : Str) :
    ∃ others, (built table calls).args =
      (kinds.flatMap fun kind =>
        (itemsOf kind calls).map fun item => item.value.arg) ++ others := by
  obtain ⟨others, hentries⟩ := exists_eq_flatMap_filter hkinds horder
  refine ⟨others.map fun entry => entry.2.value.arg, ?_⟩
  rw [built_args]
  conv_lhs => rw [hentries]
  rw [List.map_append, List.map_flatMap]
  simp only [itemsOf, List.map_map]
  rfl

/-- The names and operators do not hold a character. -/
structure Without (c : Char) (table : Str) (calls : List BuilderCall) :
    Prop where
  table : c ∉ table
  names : ∀ call ∈ calls, ∀ name ∈ call.names, c ∉ name

/-- The strings are quoted as they should be. -/
def Quoted (copy : Str → Option Str) (quote : Str → Str)
    (calls : List BuilderCall) : Prop :=
  ∀ entry ∈ entries calls, ∀ text, entry.2.value = .string text →
    copy text = some (quote text)

theorem not_mem_ticked {c : Char} (hc : [c] ≠ ("`" : Str)) {name : Str}
    (hname : c ∉ name) : c ∉ ticked name := by
  intro hmem
  simp only [ticked, List.mem_append] at hmem
  obtain (hopen | hin) | hclose := hmem
  · exact hc (by simpa using hopen)
  · exact hname hin
  · exact hc (by simpa using hclose)

theorem not_mem_intercalate {α : Type} {c : α} {separator : List α}
    (hseparator : c ∉ separator) {items : List (List α)}
    (hitems : ∀ item ∈ items, c ∉ item) : c ∉ separator.intercalate items := by
  induction items with
  | nil => simp [List.intercalate]
  | cons item items ih =>
      have hitem := hitems item List.mem_cons_self
      have hrest := ih fun other hmem =>
        hitems other (List.mem_cons_of_mem item hmem)
      cases items with
      | nil => simpa [List.intercalate] using hitem
      | cons second items =>
          rw [intercalate_cons_cons, List.mem_append, List.mem_append]
          rintro (hin | hin | hin)
          · exact hitem hin
          · exact hseparator hin
          · exact hrest hin

theorem mem_of_mem_requested {fields : List Str} {field : Str}
    (hfield : field ∈ requested fields) : field ∈ fields := by
  induction fields with
  | nil => exact hfield
  | cons first rest ih =>
      rw [requested] at hfield
      split at hfield
      · exact List.mem_cons_of_mem first (ih hfield)
      · exact hfield

namespace Without

variable {table : Str} {calls : List BuilderCall}

theorem returnField {c : Char} (hfree : Without c table calls) {field : Str}
    (hfield : field ∈ returnFieldsOf calls) : c ∉ field := by
  obtain ⟨call, hcall, hreturn⟩ :=
    List.mem_filterMap.mp (mem_of_mem_requested hfield)
  apply hfree.names call hcall
  cases call with
  | addReturnField name =>
      cases hreturn
      exact List.mem_singleton_self field
  | _ => cases hreturn

theorem not_mem_selected (hplain : Without '%' table calls) :
    '%' ∉ selected calls := by
  unfold selected
  split
  · decide
  · apply not_mem_intercalate (by decide)
    intro text htext
    obtain ⟨field, hfield, rfl⟩ := List.mem_map.mp htext
    have hfree := hplain.returnField hfield
    unfold fieldText
    split
    · exact hfree
    · exact not_mem_ticked (by decide) hfree

theorem not_mem_insertions (hplain : Without '%' table calls) :
    '%' ∉ (",".toList).intercalate
      ((insertionsOf calls).map fun entry => ticked entry.1) := by
  apply not_mem_intercalate (by decide)
  intro text htext
  obtain ⟨entry, hentry, rfl⟩ := List.mem_map.mp htext
  obtain ⟨call, hcall, hinsertion⟩ := List.mem_filterMap.mp hentry
  apply not_mem_ticked (by decide)
  apply hplain.names call hcall
  cases call with
  | addString field val =>
      cases hinsertion
      exact List.mem_singleton_self field
  | addNumeric field val =>
      cases hinsertion
      exact List.mem_singleton_self field
  | _ => cases hinsertion

/-- The text in front of a value holds nothing but names and operators. -/
theorem text (hplain : Without '%' table calls) {entry : ItemKind × Item}
    (hentry : entry ∈ entries calls) : '%' ∉ entry.2.text := by
  obtain ⟨call, hcall, hitem⟩ := List.mem_filterMap.mp hentry
  have hticked : ∀ name ∈ call.names, '%' ∉ ticked name := fun name hname =>
    not_mem_ticked (by decide) (hplain.names call hcall name hname)
  have hnames := hplain.names call hcall
  cases call <;> cases hitem <;>
    simp_all [BuilderCall.names]

theorem sound (hplain : Without '%' table calls) {copy : Str → Option Str}
    {quote : Str → Str} (hquoted : Quoted copy quote calls)
    (kind : ItemKind) : ∀ item ∈ itemsOf kind calls, item.Sound copy quote := by
  intro item hitem
  obtain ⟨entry, hentry, rfl⟩ := List.mem_map.mp hitem
  have hmem := (List.mem_filter.mp hentry).1
  exact ⟨hplain.text hmem, hquoted entry hmem⟩

end Without

/-- The lookup as it is sent: with a condition the name of the table is closed
in front of it. -/
def lookupText (quote : Str → Str) (table : Str) (calls : List BuilderCall) :
    Str :=
  ("SELECT " : Str) ++ selected calls ++ (" FROM `" : Str) ++ table ++
    if itemsOf .condition calls = [] then []
    else ("` WHERE (" : Str) ++
      renderItems quote " AND " (itemsOf .condition calls) ++ (")" : Str)

theorem lookupText_of_conditions (quote : Str → Str) (table : Str)
    {calls : List BuilderCall} (hconditions : itemsOf .condition calls ≠ []) :
    lookupText quote table calls = lookupStatement quote table calls := by
  have hfrom : (" FROM `" : Str) = (" FROM " : Str) ++ ("`" : Str) := rfl
  have hwhere : ("` WHERE (" : Str) = ("`" : Str) ++ (" WHERE (" : Str) := rfl
  unfold lookupText lookupStatement ticked
  rw [if_neg hconditions, if_neg hconditions, hfrom, hwhere]
  simp only [List.append_assoc]

theorem lookupText_of_no_condition (quote : Str → Str) (table : Str)
    {calls : List BuilderCall} (hconditions : itemsOf .condition calls = []) :
    lookupStatement quote table calls =
      lookupText quote table calls ++ ("`" : Str) := by
  have hfrom : (" FROM `" : Str) = (" FROM " : Str) ++ ("`" : Str) := rfl
  unfold lookupText lookupStatement ticked
  rw [if_pos hconditions, if_pos hconditions, hfrom]
  simp only [List.append_assoc, List.append_nil]

section

variable (table : Str) (calls : List BuilderCall)

theorem built_selected :
    (if (built table calls).returnFields = [] then "COUNT(*)".toList
      else (built table calls).returnFields) = selected calls := by
  have hnil : (built table calls).returnFields = [] ↔
      returnFieldsOf calls = [] := by
    rw [built_returnFields,
      intercalate_eq_nil_iff (ne_nil_of_mem_map fieldText_ne_nil _),
      List.map_eq_nil_iff]
  by_cases hfields : returnFieldsOf calls = []
  · rw [selected, if_pos hfields, if_pos (hnil.mpr hfields)]
  · rw [selected, if_neg hfields, if_neg fun heq => hfields (hnil.mp heq),
      built_returnFields]

theorem built_whereClause_eq_nil_iff :
    (built table calls).whereClause = [] ↔
      itemsOf .condition calls = [] := by
  rw [built_whereClause,
    intercalate_eq_nil_iff (ne_nil_of_mem_map Item.format_ne_nil _),
    List.map_eq_nil_iff]

end

section

variable {table : Str} {calls : List BuilderCall} {copy : Str → Option Str}
  {quote : Str → Str}

/-- The text behind the last placeholder. -/
theorem executef_last {text : Str} (hplain : '%' ∉ text) (args : List Str) :
    executef copy false text args = .ok text := by
  have hcopied : executef copy false (text ++ []) args =
      (executef copy false [] args).map (text ++ ·) :=
    executef_append hplain [] args
  rw [List.append_nil] at hcopied
  rw [hcopied, executef]
  exact congrArg Except.ok (List.append_nil text)

theorem executef_lookup (hplain : Without '%' table calls)
    (hquoted : Quoted copy quote calls) (horder : InOrder [.condition] calls) :
    executef copy false (built table calls).lookupFormat
        (built table calls).args =
      .ok (lookupText quote table calls) := by
  obtain ⟨others, hargs⟩ := horder.args (by decide) table
  simp only [List.flatMap_singleton] at hargs
  unfold DBQuery.lookupFormat
  simp only [built_selected, built_table, List.append_assoc]
  rw [executef_append (by decide), executef_append hplain.not_mem_selected,
    executef_append (by decide), executef_append hplain.table]
  by_cases hconditions : itemsOf .condition calls = []
  · rw [if_pos ((built_whereClause_eq_nil_iff table calls).mpr hconditions),
      executef]
    unfold lookupText
    rw [if_pos hconditions]
    simp only [Except.map, List.append_assoc]
  · rw [if_neg fun heq =>
        hconditions ((built_whereClause_eq_nil_iff table calls).mp heq),
      hargs, built_whereClause, executef_append (by decide),
      executef_items (by decide) (hplain.sound hquoted .condition),
      executef_last (by decide)]
    unfold lookupText renderItems
    rw [if_neg hconditions]
    simp only [Except.map, List.append_assoc]

theorem executef_insert (hplain : Without '%' table calls)
    (hquoted : Quoted copy quote calls) (horder : InOrder [.insertion] calls) :
    executef copy false (built table calls).insertFormat
        (built table calls).args =
      .ok (insertStatement quote table calls) := by
  obtain ⟨others, hargs⟩ := horder.args (by decide) table
  simp only [List.flatMap_singleton] at hargs
  have hvalues : (itemsOf .insertion calls).map (Item.rendered quote) =
      (insertionsOf calls).map fun entry => entry.2.rendered quote := by
    rw [itemsOf_insertion, List.map_map]
    rfl
  unfold DBQuery.insertFormat
  simp only [built_table, List.append_assoc]
  rw [executef_append (by decide), executef_append hplain.table,
    executef_append (by decide), built_insFields,
    executef_append hplain.not_mem_insertions, executef_append (by decide),
    executef_append (by decide), built_values, hargs,
    executef_items (by decide) (hplain.sound hquoted .insertion), hvalues,
    executef_last (by decide)]
  have hbetween : (")  VALUES(" : Str) = (") " : Str) ++ (" VALUES(" : Str) :=
    rfl
  unfold insertStatement
  rw [hbetween]
  simp only [Except.map, List.append_assoc]

theorem executef_update (hplain : Without '%' table calls)
    (hquoted : Quoted copy quote calls)
    (horder : InOrder [.assignment, .condition] calls) :
    executef copy false (built table calls).updateFormat
        (built table calls).args =
      .ok (updateStatement quote table calls) := by
  obtain ⟨others, hargs⟩ := horder.args (by decide) table
  simp only [List.flatMap_cons, List.flatMap_nil, List.append_nil,
    List.append_assoc] at hargs
  unfold DBQuery.updateFormat
  simp only [built_table, List.append_assoc]
  rw [executef_append (by decide), executef_append hplain.table,
    executef_append (by decide), built_updFields, hargs,
    executef_items (by decide) (hplain.sound hquoted .assignment),
    executef_append (by decide), built_whereClause,
    executef_items (by decide) (hplain.sound hquoted .condition),
    executef_last (by decide)]
  unfold updateStatement renderItems
  simp only [Except.map, List.append_assoc]

end

/-- When the calls came in the order of the statement, every column, condition
and assignment of the statement sent has its own value. -/
theorem statement_binds_own_values (driver : Driver) {quote : Str → Str}
    (hquote : ∀ text, Char.ofNat 0 ∉ text →
      driver.quote text = some (quote text))
    {q : Query} (hcon : q.con = true) (hres : q.res = false) {table : Str}
    {calls : List BuilderCall} (hplain : Without '%' table calls)
    (hvalues : ∀ entry ∈ entries calls, ∀ text,
      entry.2.value = .string text → Char.ofNat 0 ∉ text) :
    (InOrder [.condition] calls → itemsOf .condition calls ≠ [] →
      (q.getResultf driver (built table calls).lookupFormat
          (built table calls).args).2.sent =
        q.sent ++ [lookupStatement quote table calls]) ∧
    (InOrder [.insertion] calls →
      (q.executef driver (built table calls).insertFormat
          (built table calls).args).2.sent =
        q.sent ++ [insertStatement quote table calls]) ∧
    (InOrder [.assignment, .condition] calls →
      (q.executef driver (built table calls).updateFormat
          (built table calls).args).2.sent =
        q.sent ++ [updateStatement quote table calls]) := by
  have hquoted : Quoted driver.quote quote calls :=
    fun entry hentry text hvalue =>
      hquote text (hvalues entry hentry text hvalue)
  refine ⟨?_, ?_, ?_⟩
  · intro horder hconditions
    have hrender := executef_lookup hplain hquoted horder
    rw [lookupText_of_conditions quote table hconditions] at hrender
    rw [Query.getResultf_sent hcon hres]
    exact (Query.executef_of_ok hcon hres hrender).1
  · intro horder
    have hrender := executef_insert hplain hquoted horder
    exact (Query.executef_of_ok hcon hres hrender).1
  · intro horder
    have hrender := executef_update hplain hquoted horder
    exact (Query.executef_of_ok hcon hres hrender).1

/-- Every name in backticks is closed. -/
def Closed (text : Str) : Prop :=
  Even (text.count (Char.ofNat 96))

instance (text : Str) : Decidable (Closed text) :=
  inferInstanceAs (Decidable (Even _))

namespace Closed

theorem append {left right : Str} (hleft : Closed left)
    (hright : Closed right) : Closed (left ++ right) := by
  rw [Closed, List.count_append]
  exact Even.add hleft hright

theorem of_not_mem {text : Str} (hfree : Char.ofNat 96 ∉ text) :
    Closed text := by
  rw [Closed, List.count_eq_zero.mpr hfree]
  exact Even.zero

theorem of_ticked {name : Str} (hfree : Char.ofNat 96 ∉ name) :
    Closed (ticked name) := by
  have hcount : ("`" : Str).count (Char.ofNat 96) = 1 := rfl
  rw [Closed, ticked, List.count_append, List.count_append, hcount,
    List.count_eq_zero.mpr hfree]
  decide

theorem of_placeholder (value : Value) : Closed value.placeholder := by
  apply of_not_mem
  cases value <;> simp [Value.placeholder]

theorem of_intercalate {separator : Str} (hseparator : Closed separator)
    {items : List Str} (hitems : ∀ item ∈ items, Closed item) :
    Closed (separator.intercalate items) := by
  induction items with
  | nil => exact Even.zero
  | cons item items ih =>
      have hitem := hitems item List.mem_cons_self
      have hrest := ih fun other hmem =>
        hitems other (List.mem_cons_of_mem item hmem)
      cases items with
      | nil => simpa [List.intercalate] using hitem
      | cons second items =>
          rw [intercalate_cons_cons]
          exact hitem.append (hseparator.append hrest)

end Closed

namespace Without

variable {table : Str} {calls : List BuilderCall}

theorem closed_selected (hfree : Without (Char.ofNat 96) table calls) :
    Closed (selected calls) := by
  unfold selected
  split
  · decide
  · apply Closed.of_intercalate (by decide)
    intro text htext
    obtain ⟨field, hfield, rfl⟩ := List.mem_map.mp htext
    unfold fieldText
    split
    · next heq =>
        rw [heq]
        decide
    · exact Closed.of_ticked (hfree.returnField hfield)

theorem closed_conditions (hfree : Without (Char.ofNat 96) table calls) :
    Closed ((" AND ".toList).intercalate
      ((itemsOf .condition calls).map Item.format)) := by
  apply Closed.of_intercalate (by decide)
  intro text htext
  obtain ⟨item, hitem, rfl⟩ := List.mem_map.mp htext
  obtain ⟨entry, hentry, rfl⟩ := List.mem_map.mp hitem
  obtain ⟨hmem, hkind⟩ := List.mem_filter.mp hentry
  obtain ⟨call, hcall, hentryOf⟩ := List.mem_filterMap.mp hmem
  have hnames := hfree.names call hcall
  cases call with
  | addWhereString field val op =>
      cases hentryOf
      have hfield := Closed.of_ticked (hnames field List.mem_cons_self)
      have hop := Closed.of_not_mem
        (hnames op (List.mem_cons_of_mem field List.mem_cons_self))
      exact (hfield.append hop).append (Closed.of_placeholder _)
  | addWhere field val op =>
      cases hentryOf
      have hfield := Closed.of_ticked (hnames field List.mem_cons_self)
      have hop := Closed.of_not_mem
        (hnames op (List.mem_cons_of_mem field List.mem_cons_self))
      exact (hfield.append hop).append (Closed.of_placeholder _)
  | addReturnField field => cases hentryOf
  | _ =>
      cases hentryOf
      cases hkind

end Without

/-- The format of a lookup with a condition. -/
theorem closed_lookupFormat {table : Str} {calls : List BuilderCall}
    (hfree : Without (Char.ofNat 96) table calls)
    (hconditions : itemsOf .condition calls ≠ []) :
    Closed (built table calls).lookupFormat := by
  have hfrom : (" FROM `" : Str) = (" FROM " : Str) ++ ("`" : Str) := rfl
  have hwhere : ("` WHERE (" : Str) = ("`" : Str) ++ (" WHERE (" : Str) := rfl
  have htable : Closed (("`" : Str) ++ (table ++ ("`" : Str))) := by
    have hticked := Closed.of_ticked hfree.table
    unfold ticked at hticked
    rwa [List.append_assoc] at hticked
  unfold DBQuery.lookupFormat
  simp only [built_selected, built_table]
  rw [if_neg fun heq =>
      hconditions ((built_whereClause_eq_nil_iff table calls).mp heq),
    built_whereClause, hfrom, hwhere]
  have hparts := ((((((show Closed ("SELECT " : Str) by decide).append
    hfree.closed_selected).append
    (show Closed (" FROM " : Str) by decide)).append htable).append
    (show Closed (" WHERE (" : Str) by decide)).append
    hfree.closed_conditions).append (show Closed (")" : Str) by decide)
  simpa only [List.append_assoc] using hparts

/-- A lookup is sent as it was asked for exactly when it has a condition. -/
theorem lookup_closed_iff (driver : Driver) {quote : Str → Str}
    (hquote : ∀ text, driver.quote text = some (quote text)) {q : Query}
    (hcon : q.con = true) (hres : q.res = false) {table : Str}
    {calls : List BuilderCall} (hplain : Without '%' table calls)
    (hfree : Without (Char.ofNat 96) table calls)
    (hlookup : ∀ entry ∈ entries calls, entry.1 = .condition) :
    ((q.getResultf driver (built table calls).lookupFormat
        (built table calls).args).2.sent =
          q.sent ++ [lookupStatement quote table calls] ∧
      Closed (built table calls).lookupFormat) ↔
    itemsOf .condition calls ≠ [] := by
  have horder : InOrder [.condition] calls := by
    apply List.Pairwise.imp_of_mem _ (List.pairwise_of_forall (R := fun _ _ =>
      True) fun _ _ => trivial)
    intro first second hfirst hsecond _
    rw [hlookup first hfirst, hlookup second hsecond]
  have hrender := executef_lookup hplain
    (fun entry _ text _ => hquote text) horder
  have hsent := (Query.executef_of_ok hcon hres hrender).1
  rw [Query.getResultf_sent hcon hres, hsent]
  constructor
  · rintro ⟨hstatement, -⟩ hnone
    have htext := List.singleton_inj.mp (List.append_cancel_left hstatement)
    rw [lookupText_of_no_condition quote table hnone] at htext
    have hlength := congrArg List.length htext
    simp at hlength
  · intro hconditions
    rw [lookupText_of_conditions quote table hconditions]
    exact ⟨rfl, closed_lookupFormat hfree hconditions⟩

namespace QueryWitness

/-- A value put in before a condition is the value the condition gets. -/
def mixed : List BuilderCall :=
  [.addString "note".toList "x".toList,
    .addWhereString "sender".toList "y".toList "=".toList]

theorem condition_takes_other_value :
    Without '%' "t".toList mixed ∧ itemsOf .condition mixed ≠ [] ∧
    (idle.getResultf driver (built "t".toList mixed).lookupFormat
        (built "t".toList mixed).args).2.sent =
      ["SELECT COUNT(*) FROM `t` WHERE (`sender`='x')".toList] ∧
    lookupStatement quote "t".toList mixed =
      "SELECT COUNT(*) FROM `t` WHERE (`sender`='y')".toList := by
  refine ⟨⟨by decide, by decide⟩, by decide, by decide, by decide⟩

/-- The calls of an update that increments a counter. -/
def counting : List BuilderCall :=
  [.addIncrement "count".toList 1,
    .addWhereString "sender".toList "100%d'".toList "=".toList,
    .addWhere "id".toList 7 ">".toList]

theorem counting_binds_own_values :
    (idle.executef driver (built "t".toList counting).updateFormat
        (built "t".toList counting).args).2.sent =
      [updateStatement quote "t".toList counting] := by
  have hvalues : ∀ entry ∈ entries counting, ∀ text,
      entry.2.value = .string text → Char.ofNat 0 ∉ text := by
    simp only [entries, counting, BuilderCall.item, List.filterMap_cons,
      List.filterMap_nil, List.mem_cons, List.not_mem_nil, or_false]
    rintro entry (rfl | rfl | rfl) text hvalue
    · cases hvalue
    · cases hvalue
      decide
    · cases hvalue
  exact (statement_binds_own_values driver (fun text _ => rfl) (q := idle) rfl
    rfl ⟨by decide, by decide⟩ hvalues).2.2 (by decide)

/-- The calls of the matchers that load a whole table. -/
def whole : List BuilderCall :=
  [.addReturnField "pattern".toList]

theorem whole_table_left_open :
    Without '%' "t".toList whole ∧ Without (Char.ofNat 96) "t".toList whole ∧
    (idle.getResultf driver (built "t".toList whole).lookupFormat
        (built "t".toList whole).args).2.sent =
      ["SELECT `pattern` FROM `t".toList] ∧
    lookupStatement quote "t".toList whole =
      "SELECT `pattern` FROM `t`".toList ∧
    ¬ Closed (built "t".toList whole).lookupFormat := by
  refine ⟨⟨by decide, by decide⟩, ⟨by decide, by decide⟩, by decide,
    by decide, by decide⟩

def narrowed : List BuilderCall :=
  [.addReturnField "pattern".toList,
    .addWhereString "sender".toList "x`y".toList "=".toList]

theorem narrowed_closed :
    (idle.getResultf driver (built "t".toList narrowed).lookupFormat
        (built "t".toList narrowed).args).2.sent =
      [lookupStatement quote "t".toList narrowed] := by
  have hlookup : ∀ entry ∈ entries narrowed, entry.1 = .condition := by
    decide
  exact ((lookup_closed_iff driver (fun text => rfl) (q := idle) rfl rfl
    ⟨by decide, by decide⟩ ⟨by decide, by decide⟩ hlookup).mpr
    (by decide)).1

end QueryWitness

end GreylistServer
