/-
Which value a statement binds to which column.  The builder calls collect the
columns in several texts and the values in one list, and the values are put in
from left to right when the texts have been joined; so every item gets its own
value when the calls came in the order of the statement.
-/
import GreylistServer.QueryRender

namespace GreylistServer

/-- A value of a builder call. -/
inductive Value where
  | string (text : Str)
  | number (value : Nat)
deriving Repr, DecidableEq

namespace Value

def placeholder : Value → Str
  | .string _ => "%s"
  | .number _ => "%d"

def arg : Value → Str
  | .string text => text
  | .number value => decimal value

/-- The value as it has to stand in the statement. -/
def rendered (quote : Str → Str) : Value → Str
  | .string text => quote text
  | .number value => decimal value

end Value

/-- A value with the text in front of it. -/
structure Item where
  text : Str
  value : Value
deriving Repr, DecidableEq

namespace Item

def format (item : Item) : Str :=
  item.text ++ item.value.placeholder

def rendered (quote : Str → Str) (item : Item) : Str :=
  item.text ++ item.value.rendered quote

/-- The text holds no percent sign, and a string is quoted as it should be. -/
def Sound (copy : Str → Option Str) (quote : Str → Str) (item : Item) : Prop :=
  '%' ∉ item.text ∧ ∀ text, item.value = .string text →
    copy text = some (quote text)

end Item

section

variable {copy : Str → Option Str} {quote : Str → Str}

theorem executef_item {item : Item} (hitem : item.Sound copy quote)
    (rest : Str) (more : List Str) :
    executef copy false (item.format ++ rest) (item.value.arg :: more) =
      (executef copy false rest more).map (item.rendered quote ++ ·) := by
  obtain ⟨hplain, hvalue⟩ := hitem
  rw [Item.format, List.append_assoc, executef_append hplain]
  have hplaceholder : executef copy false (item.value.placeholder ++ rest)
      (item.value.arg :: more) =
      (executef copy false rest more).map
        (item.value.rendered quote ++ ·) := by
    cases hval : item.value with
    | number value => rfl
    | string text =>
        have hquote := hvalue text hval
        simp [Value.placeholder, Value.arg, Value.rendered, executef, hquote]
  rw [hplaceholder]
  cases executef copy false rest more with
  | error e => rfl
  | ok text => simp [Except.map, Item.rendered]

theorem intercalate_cons_cons {α : Type} (separator first second : List α)
    (rest : List (List α)) :
    separator.intercalate (first :: second :: rest) =
      first ++ (separator ++ separator.intercalate (second :: rest)) := by
  simp [List.intercalate]

/-- Items joined by a separator take their own values one after the other. -/
theorem executef_items {separator : Str} (hseparator : '%' ∉ separator)
    {items : List Item} (hitems : ∀ item ∈ items, item.Sound copy quote)
    (rest : Str) (more : List Str) :
    executef copy false
        (separator.intercalate (items.map Item.format) ++ rest)
        (items.map (fun item => item.value.arg) ++ more) =
      (executef copy false rest more).map
        (separator.intercalate (items.map (Item.rendered quote)) ++ ·) := by
  induction items with
  | nil =>
      simp only [List.map_nil, List.intercalate, List.intersperse_nil,
        List.flatten_nil, List.nil_append]
      cases executef copy false rest more <;> rfl
  | cons item items ih =>
      have hitem := hitems item List.mem_cons_self
      have hrest := ih fun other hmem =>
        hitems other (List.mem_cons_of_mem item hmem)
      cases items with
      | nil =>
          simp only [List.map_cons, List.map_nil, List.intercalate,
            List.intersperse_singleton, List.flatten_singleton,
            List.cons_append, List.nil_append]
          exact executef_item hitem rest more
      | cons second items =>
          rw [List.map_cons, List.map_cons, List.map_cons, List.map_cons,
            List.map_cons, List.map_cons, intercalate_cons_cons,
            intercalate_cons_cons, List.cons_append, List.append_assoc,
            executef_item hitem, List.append_assoc,
            executef_append hseparator]
          rw [List.map_cons, List.map_cons, List.map_cons] at hrest
          rw [hrest]
          cases executef copy false rest more with
          | error e => rfl
          | ok text => simp [Except.map]

end

/-- A name in backticks. -/
def ticked (name : Str) : Str :=
  ("`" : Str) ++ name ++ ("`" : Str)

/-- Where the value of a builder call goes. -/
inductive ItemKind where
  | insertion
  | assignment
  | condition
deriving Repr, DecidableEq

/-- The builder calls with the types of their arguments. -/
inductive BuilderCall where
  | addReturnField (field : Str)
  | addWhereString (field val op : Str)
  | addWhere (field : Str) (val : UInt64) (op : Str)
  | addString (field val : Str)
  | addNumeric (field : Str) (val : UInt64)
  | addIncrement (field : Str) (inc : UInt32)
  | addSet (field : Str) (val : UInt32)
deriving DecidableEq

namespace BuilderCall

def apply (q : DBQuery) : BuilderCall → DBQuery
  | .addReturnField field => q.addReturnField field
  | .addWhereString field val op => q.addWhereString field val op
  | .addWhere field val op => q.addWhere field val.toNat op
  | .addString field val => q.addString field val
  | .addNumeric field val => q.addNumeric field val.toNat
  | .addIncrement field inc => q.addIncrement field inc.toNat
  | .addSet field val => q.addSet field val.toNat

/-- The value of a call with the text it is bound to. -/
def item : BuilderCall → Option (ItemKind × Item)
  | .addReturnField _ => none
  | .addWhereString field val op =>
      some (.condition, ⟨ticked field ++ op, .string val⟩)
  | .addWhere field val op =>
      some (.condition, ⟨ticked field ++ op, .number val.toNat⟩)
  | .addString _ val => some (.insertion, ⟨[], .string val⟩)
  | .addNumeric _ val => some (.insertion, ⟨[], .number val.toNat⟩)
  | .addIncrement field inc =>
      some (.assignment,
        ⟨ticked field ++ ("=" : Str) ++ ticked field ++ ("+" : Str),
          .number inc.toNat⟩)
  | .addSet field val =>
      some (.assignment, ⟨ticked field ++ ("=" : Str), .number val.toNat⟩)

def returnField : BuilderCall → Option Str
  | .addReturnField field => some field
  | _ => none

/-- The column a call inserts, with its value. -/
def insertion : BuilderCall → Option (Str × Value)
  | .addString field val => some (field, .string val)
  | .addNumeric field val => some (field, .number val.toNat)
  | _ => none

/-- The names and operators of a call. -/
def names : BuilderCall → List Str
  | .addReturnField field => [field]
  | .addWhereString field _ op => [field, op]
  | .addWhere field _ op => [field, op]
  | .addString field _ => [field]
  | .addNumeric field _ => [field]
  | .addIncrement field _ => [field]
  | .addSet field _ => [field]

end BuilderCall

/-- The values of some calls, in the order of the calls. -/
def entries (calls : List BuilderCall) : List (ItemKind × Item) :=
  calls.filterMap BuilderCall.item

/-- The items of one kind. -/
def itemsOf (kind : ItemKind) (calls : List BuilderCall) : List Item :=
  ((entries calls).filter fun entry => entry.1 = kind).map Prod.snd

/-- The fields a lookup is asked for: those from the last `*` on. -/
def requested : List Str → List Str
  | [] => []
  | field :: rest =>
      if allColumns ∈ rest then requested rest else field :: rest

def fieldText (field : Str) : Str :=
  if field = allColumns then field else ticked field

def returnFieldsOf (calls : List BuilderCall) : List Str :=
  requested (calls.filterMap BuilderCall.returnField)

def insertionsOf (calls : List BuilderCall) : List (Str × Value) :=
  calls.filterMap BuilderCall.insertion

/-- The query object after some calls. -/
def built (table : Str) (calls : List BuilderCall) : DBQuery :=
  calls.foldl BuilderCall.apply { table := table }

section

variable {α : Type} {separator : List α}

theorem intercalate_concat (items : List (List α)) (last : List α) :
    separator.intercalate (items ++ [last]) =
      (if items = [] then [] else separator.intercalate items ++ separator) ++
        last := by
  induction items with
  | nil => simp [List.intercalate]
  | cons item items ih =>
      cases items with
      | nil => simp [List.intercalate]
      | cons second items =>
          rw [List.cons_append, List.cons_append, intercalate_cons_cons,
            ← List.cons_append, ih, intercalate_cons_cons]
          simp

theorem intercalate_eq_nil_iff {items : List (List α)}
    (hitems : ∀ item ∈ items, item ≠ []) :
    separator.intercalate items = [] ↔ items = [] := by
  cases items with
  | nil => simp [List.intercalate]
  | cons item items =>
      have hitem := hitems item List.mem_cons_self
      cases items with
      | nil => simp [List.intercalate, hitem]
      | cons second items => simp [hitem]

/-- The rule by which the builder calls put a separator. -/
theorem intercalate_push [DecidableEq α] {items : List (List α)}
    (hitems : ∀ item ∈ items, item ≠ []) (last : List α) :
    (if separator.intercalate items = [] then []
      else separator.intercalate items ++ separator) ++ last =
      separator.intercalate (items ++ [last]) := by
  rw [intercalate_concat]
  by_cases hnil : items = []
  · rw [if_pos hnil, if_pos ((intercalate_eq_nil_iff hitems).mpr hnil)]
  · rw [if_neg hnil,
      if_neg fun heq => hnil ((intercalate_eq_nil_iff hitems).mp heq)]

end

theorem requested_concat (fields : List Str) (last : Str) :
    requested (fields ++ [last]) =
      if last = allColumns then [last] else requested fields ++ [last] := by
  induction fields with
  | nil => simp [requested]
  | cons field fields ih =>
      rw [List.cons_append, requested, ih]
      by_cases hlast : last = allColumns
      · simp [hlast]
      · by_cases hmem : allColumns ∈ fields
        · simp [requested, hmem, hlast]
        · simp [requested, hmem, hlast, Ne.symm hlast]

section

variable (table : Str) (calls : List BuilderCall) (call : BuilderCall)

theorem built_concat :
    built table (calls ++ [call]) = call.apply (built table calls) := by
  simp [built]

theorem entries_concat :
    entries (calls ++ [call]) = entries calls ++ call.item.toList := by
  rw [entries, List.filterMap_append, entries]
  cases hitem : call.item <;> simp [hitem]

theorem itemsOf_concat (kind : ItemKind) :
    itemsOf kind (calls ++ [call]) =
      itemsOf kind calls ++
        (call.item.toList.filter fun entry => entry.1 = kind).map Prod.snd := by
  rw [itemsOf, entries_concat, List.filter_append, List.map_append, itemsOf]

theorem insertionsOf_concat :
    insertionsOf (calls ++ [call]) =
      insertionsOf calls ++ call.insertion.toList := by
  rw [insertionsOf, List.filterMap_append, insertionsOf]
  cases hinsertion : call.insertion <;> simp [hinsertion]

end

theorem ne_nil_of_mem_map {α : Type} {f : α → Str} (hf : ∀ a, f a ≠ [])
    (list : List α) : ∀ text ∈ list.map f, text ≠ [] := by
  intro text htext
  obtain ⟨a, -, rfl⟩ := List.mem_map.mp htext
  exact hf a

theorem ticked_ne_nil (name : Str) : ticked name ≠ [] := by
  simp [ticked]

theorem fieldText_ne_nil (field : Str) : fieldText field ≠ [] := by
  unfold fieldText
  split
  · next heq =>
      rw [heq]
      decide
  · exact ticked_ne_nil field

theorem Item.format_ne_nil (item : Item) : item.format ≠ [] := by
  cases hvalue : item.value <;> simp [Item.format, Value.placeholder, hvalue]

/-- A clause grows by an item the way the builder calls let it grow. -/
theorem push_eq {α : Type} {f : α → Str} (hf : ∀ a, f a ≠ []) {separator : Str}
    {list : List α} {clause : Str}
    (hclause : clause = separator.intercalate (list.map f)) (last : α) :
    (if clause = [] then [] else clause ++ separator) ++ f last =
      separator.intercalate ((list ++ [last]).map f) := by
  rw [hclause, intercalate_push (ne_nil_of_mem_map hf list), List.map_append]
  rfl

/-- A clause after a call, when the call adds an item of the given kind. -/
def grown (kind : ItemKind) (separator clause : Str) :
    Option (ItemKind × Item) → Str
  | none => clause
  | some (own, item) =>
      if own = kind then
        (if clause = [] then [] else clause ++ separator) ++ item.format
      else clause

namespace BuilderCall

variable (q : DBQuery) (call : BuilderCall)

theorem addReturnField_eq (field : Str) : q.addReturnField field =
    { q with returnFields := (q.addReturnField field).returnFields } := by
  unfold DBQuery.addReturnField
  split <;> rfl

theorem apply_table : (call.apply q).table = q.table := by
  cases call with
  | addReturnField field =>
      rw [apply, addReturnField_eq]
  | _ => rfl

theorem apply_whereClause : (call.apply q).whereClause =
    grown .condition " AND " q.whereClause call.item := by
  cases call with
  | addReturnField field =>
      rw [apply, addReturnField_eq]
      rfl
  | addWhereString field val op =>
      unfold apply DBQuery.addWhereString grown item Item.format ticked
      simp only [if_true, List.append_assoc]
      rfl
  | addWhere field val op =>
      unfold apply DBQuery.addWhere grown item Item.format ticked
      simp only [if_true, List.append_assoc]
      rfl
  | _ => rfl

theorem apply_updFields : (call.apply q).updFields =
    grown .assignment "," q.updFields call.item := by
  cases call with
  | addReturnField field =>
      rw [apply, addReturnField_eq]
      rfl
  | addIncrement field inc =>
      unfold apply DBQuery.addIncrement grown item Item.format ticked
      simp only [if_true, List.append_assoc]
      rfl
  | addSet field val =>
      unfold apply DBQuery.addSet grown item Item.format ticked
      simp only [if_true, List.append_assoc]
      rfl
  | _ => rfl

theorem apply_insFields : (call.apply q).insFields =
    match call.insertion with
    | none => q.insFields
    | some (field, _) =>
        (if q.insFields = [] then [] else q.insFields ++ ("," : Str)) ++
          ticked field := by
  cases call with
  | addReturnField field =>
      rw [apply, addReturnField_eq]
      rfl
  | addString field val =>
      unfold apply DBQuery.addString DBQuery.addInsertField insertion ticked
      simp only [List.append_assoc]
  | addNumeric field val =>
      unfold apply DBQuery.addNumeric DBQuery.addInsertField insertion ticked
      simp only [List.append_assoc]
  | _ => rfl

theorem apply_values : (call.apply q).values =
    match call.insertion with
    | none => q.values
    | some (_, value) =>
        (if q.insFields = [] then q.values else q.values ++ ("," : Str)) ++
          value.placeholder := by
  cases call with
  | addReturnField field =>
      rw [apply, addReturnField_eq]
      rfl
  | _ => rfl

theorem apply_returnFields : (call.apply q).returnFields =
    match call.returnField with
    | none => q.returnFields
    | some field =>
        if field = allColumns then fieldText field
        else
          (if q.returnFields = [] then []
            else q.returnFields ++ ("," : Str)) ++ fieldText field := by
  cases call with
  | addReturnField field =>
      unfold apply DBQuery.addReturnField returnField fieldText ticked
      by_cases hall : field = allColumns
      · simp only [if_pos hall]
      · simp only [if_neg hall, List.append_assoc]
  | _ => rfl

theorem apply_args : (call.apply q).args =
    q.args ++ call.item.toList.map fun entry => entry.2.value.arg := by
  cases call with
  | addReturnField field =>
      rw [item, Option.toList_none, List.map_nil, List.append_nil, apply,
        addReturnField_eq]
  | addIncrement field inc =>
      unfold apply DBQuery.addIncrement
      simp only [Nat.mod_eq_of_lt inc.toNat_lt]
      rfl
  | addSet field val =>
      unfold apply DBQuery.addSet
      simp only [Nat.mod_eq_of_lt val.toNat_lt]
      rfl
  | _ => rfl

end BuilderCall

section

variable (table : Str) (calls : List BuilderCall)

theorem built_table : (built table calls).table = table := by
  induction calls using List.reverseRecOn with
  | nil => rfl
  | append_singleton calls call ih =>
      rw [built_concat, BuilderCall.apply_table, ih]

/-- A text that every call grows by its items of one kind holds the items of
that kind in the order of the calls. -/
theorem built_clause {kind : ItemKind} {separator : Str}
    {clause : DBQuery → Str} (hinit : clause { table := table } = [])
    (happly : ∀ (q : DBQuery) (call : BuilderCall),
      clause (call.apply q) = grown kind separator (clause q) call.item) :
    clause (built table calls) =
      separator.intercalate ((itemsOf kind calls).map Item.format) := by
  induction calls using List.reverseRecOn with
  | nil => exact hinit
  | append_singleton calls call ih =>
      rw [built_concat, happly, itemsOf_concat]
      cases call.item with
      | none =>
          rw [Option.toList_none, List.filter_nil, List.map_nil,
            List.append_nil]
          exact ih
      | some entry =>
          obtain ⟨own, item⟩ := entry
          have hgrow := push_eq Item.format_ne_nil ih item
          by_cases hkind : own = kind
          · simpa only [grown, hkind, if_true, Option.toList_some,
              List.filter_cons, decide_true, List.filter_nil, List.map_cons,
              List.map_nil] using hgrow
          · simpa only [grown, hkind, if_false, Option.toList_some,
              List.filter_cons, decide_false, Bool.false_eq_true,
              List.filter_nil, List.map_nil, List.append_nil] using ih

theorem built_whereClause : (built table calls).whereClause =
    (" AND ".toList).intercalate
      ((itemsOf .condition calls).map Item.format) :=
  built_clause table calls rfl BuilderCall.apply_whereClause

theorem built_updFields : (built table calls).updFields =
    (",".toList).intercalate
      ((itemsOf .assignment calls).map Item.format) :=
  built_clause table calls rfl BuilderCall.apply_updFields

theorem built_insFields : (built table calls).insFields =
    (",".toList).intercalate
      ((insertionsOf calls).map fun entry => ticked entry.1) := by
  induction calls using List.reverseRecOn with
  | nil => rfl
  | append_singleton calls call ih =>
      rw [built_concat, insertionsOf_concat, BuilderCall.apply_insFields]
      cases call.insertion with
      | none =>
          rw [Option.toList_none, List.append_nil]
          exact ih
      | some entry =>
          exact push_eq (fun entry : Str × Value => ticked_ne_nil entry.1) ih
            entry

/-- Every column of an insertion has its value among the items. -/
theorem itemsOf_insertion : itemsOf .insertion calls =
    (insertionsOf calls).map fun entry => ⟨[], entry.2⟩ := by
  induction calls using List.reverseRecOn with
  | nil => rfl
  | append_singleton calls call ih =>
      rw [insertionsOf_concat, itemsOf_concat, ih]
      cases call <;> simp [BuilderCall.insertion, BuilderCall.item]

theorem built_insFields_eq_nil_iff :
    (built table calls).insFields = [] ↔ insertionsOf calls = [] := by
  have hticked := ne_nil_of_mem_map
    (fun entry : Str × Value => ticked_ne_nil entry.1) (insertionsOf calls)
  rw [built_insFields, intercalate_eq_nil_iff hticked, List.map_eq_nil_iff]

/-- The placeholders of an insertion, in the order of its columns. -/
theorem built_placeholders : (built table calls).values =
    (",".toList).intercalate
      ((insertionsOf calls).map fun entry => entry.2.placeholder) := by
  induction calls using List.reverseRecOn with
  | nil => rfl
  | append_singleton calls call ih =>
      rw [built_concat, insertionsOf_concat, BuilderCall.apply_values]
      cases call.insertion with
      | none =>
          rw [Option.toList_none, List.append_nil]
          exact ih
      | some entry =>
          obtain ⟨field, value⟩ := entry
          simp only [Option.toList_some, List.map_append, List.map_singleton]
          rw [intercalate_concat, ← ih]
          by_cases hnil : insertionsOf calls = []
          · have hvalues : (built table calls).values = [] := by
              rw [ih, hnil]
              rfl
            rw [if_pos ((built_insFields_eq_nil_iff table calls).mpr hnil),
              if_pos (List.map_eq_nil_iff.mpr hnil), hvalues]
          · rw [if_neg (mt (built_insFields_eq_nil_iff table calls).mp hnil),
              if_neg (mt List.map_eq_nil_iff.mp hnil)]

theorem built_values : (built table calls).values =
    (",".toList).intercalate
      ((itemsOf .insertion calls).map Item.format) := by
  rw [built_placeholders, itemsOf_insertion, List.map_map]
  rfl

theorem built_returnFields : (built table calls).returnFields =
    (",".toList).intercalate ((returnFieldsOf calls).map fieldText) := by
  induction calls using List.reverseRecOn with
  | nil => rfl
  | append_singleton calls call ih =>
      rw [built_concat, BuilderCall.apply_returnFields, returnFieldsOf,
        List.filterMap_append]
      cases hfield : call.returnField with
      | none =>
          rw [List.filterMap_cons_none hfield, List.filterMap_nil,
            List.append_nil]
          exact ih
      | some field =>
          rw [List.filterMap_cons_some hfield, List.filterMap_nil,
            requested_concat]
          by_cases hall : field = allColumns
          · simp [hall, List.intercalate]
          · simp only [if_neg hall]
            exact push_eq fieldText_ne_nil ih field

theorem built_args : (built table calls).args =
    (entries calls).map fun entry => entry.2.value.arg := by
  induction calls using List.reverseRecOn with
  | nil => rfl
  | append_singleton calls call ih =>
      rw [built_concat, entries_concat, List.map_append, ← ih,
        BuilderCall.apply_args]

end

end GreylistServer
