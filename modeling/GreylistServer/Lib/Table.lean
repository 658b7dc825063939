/-
A relational table with the three statements that are issued against it: a
selection by equalities, the insertion of a row under a new id and a change of
the rows a condition selects.  Text compares up to ASCII case.
-/
import GreylistServer.Lib.Text

namespace GreylistServer

/-- A stored value. -/
inductive Cell where
  | text (value : Str)
  | number (value : Nat)
deriving Repr, DecidableEq

namespace Cell

/-- Equality as the server evaluates it. -/
def sqlEq : Cell → Cell → Bool
  | .text left, .text right => lowercase left = lowercase right
  | .number left, .number right => left = right
  | _, _ => false

/-- Text read from a result column; other types read as the empty string. -/
def getString : Cell → Str
  | .text value => value
  | .number _ => []

/-- A number read from a result column; other types read as zero. -/
def getNumeric : Cell → Nat
  | .text _ => 0
  | .number value => value

@[simp] theorem sqlEq_number (left right : Nat) :
    (Cell.number left).sqlEq (.number right) = decide (left = right) := rfl

theorem sqlEq_text_iff {left right : Str} (hleft : lowercase left = left)
    (hright : lowercase right = right) :
    (Cell.text left).sqlEq (.text right) = true ↔ left = right := by
  simp [sqlEq, hleft, hright]

end Cell

/-- A row with its id and its other cells. -/
structure Row where
  id : Nat
  cell : Str → Cell

/-- One conjunct `column = value` of a condition. -/
abbrev Condition := Str × Cell

namespace Row

def idColumn : Str := "id"

def get (row : Row) (column : Str) : Cell :=
  if column = idColumn then .number row.id else row.cell column

def holds (row : Row) (condition : Condition) : Bool :=
  (row.get condition.1).sqlEq condition.2

def holdsAll (row : Row) (conditions : List Condition) : Bool :=
  conditions.all row.holds

/-- Replace the cells an assignment list names. -/
def assign (row : Row) (assignments : List (Str × (Cell → Cell))) : Row :=
  { row with
    cell := fun column =>
      match assignments.lookup column with
      | some change => change (row.cell column)
      | none => row.cell column }

theorem get_assign_of_lookup_none (row : Row)
    (assignments : List (Str × (Cell → Cell))) {column : Str}
    (habsent : assignments.lookup column = none) :
    (row.assign assignments).get column = row.get column := by
  simp [get, assign, habsent]

/-- Two rows that agree on every column of a condition satisfy it together. -/
theorem holdsAll_congr {left right : Row} {conditions : List Condition}
    (hagree : ∀ condition ∈ conditions,
      left.get condition.1 = right.get condition.1) :
    left.holdsAll conditions = right.holdsAll conditions := by
  induction conditions with
  | nil => rfl
  | cons condition rest ih =>
      have hhead := hagree condition List.mem_cons_self
      have htail := ih fun other hother =>
        hagree other (List.mem_cons_of_mem condition hother)
      simp only [holdsAll, List.all_cons] at htail ⊢
      rw [htail, holds, holds, hhead]

@[simp] theorem holdsAll_id (row : Row) (id : Nat) :
    row.holdsAll [(idColumn, .number id)] = decide (row.id = id) := by
  simp [holdsAll, holds, get]

end Row

/-- The name that stands for all columns of a table. -/
def allColumns : Str := "*"

/-- A table: its columns besides the id, and its rows. -/
structure Table where
  columns : List Str
  rows : List Row
  columns_named : allColumns ∉ columns

namespace Table

/-- Every table has the id column. -/
def knows (table : Table) (column : Str) : Bool :=
  column = Row.idColumn || table.columns.contains column

theorem ne_allColumns_of_knows {table : Table} {column : Str}
    (hknown : table.knows column = true) : column ≠ allColumns := by
  rintro rfl
  simp only [knows, Bool.or_eq_true, decide_eq_true_eq,
    List.contains_iff_mem] at hknown
  rcases hknown with hid | hmem
  · exact absurd hid (by decide)
  · exact table.columns_named hmem

/-- What a row holds in a column, if the table has the column. -/
def read (table : Table) (row : Row) (column : Str) : Option Cell :=
  if table.knows column then some (row.get column) else none

/-- The same columns with other rows. -/
def withRows (table : Table) (rows : List Row) : Table :=
  { table with rows := rows }

@[simp] theorem withRows_knows (table : Table) (rows : List Row)
    (column : Str) : (table.withRows rows).knows column = table.knows column :=
  rfl

/-- The cells of the requested columns of a row. -/
def project (table : Table) (fields : List Str) (row : Row) : List Cell :=
  fields.flatMap fun field =>
    if field = allColumns then (Row.idColumn :: table.columns).map row.get
    else [row.get field]

theorem project_of_not_mem {table : Table} {fields : List Str}
    (habsent : allColumns ∉ fields) (row : Row) :
    table.project fields row = fields.map row.get := by
  induction fields with
  | nil => rfl
  | cons field rest ih =>
      have hne : ¬ field = allColumns :=
        fun heq => habsent (heq ▸ List.mem_cons_self)
      have htail := ih fun hmem => habsent (List.mem_cons_of_mem field hmem)
      simp only [project, List.flatMap_cons, if_neg hne] at htail ⊢
      rw [htail]
      rfl

/-- The rows a condition selects, in table order. -/
def matching (table : Table) (conditions : List Condition) : List Row :=
  table.rows.filter (·.holdsAll conditions)

theorem mem_matching {table : Table} {conditions : List Condition}
    {row : Row} :
    row ∈ table.matching conditions ↔
      row ∈ table.rows ∧ row.holdsAll conditions = true :=
  List.mem_filter

/-- Append a row; a column without a value takes the empty text. -/
def addRow (table : Table) (id : Nat) (values : List (Str × Cell)) : Table :=
  { table with
    rows := table.rows ++
      [⟨id, fun column => (values.lookup column).getD (.text [])⟩] }

/-- Apply an assignment list to every row a condition selects. -/
def modify (table : Table) (conditions : List Condition)
    (assignments : List (Str × (Cell → Cell))) : Table :=
  { table with
    rows := table.rows.map fun row =>
      if row.holdsAll conditions then row.assign assignments else row }

theorem mem_addRow {table : Table} {id : Nat} {values : List (Str × Cell)}
    {row : Row} :
    row ∈ (table.addRow id values).rows ↔
      row ∈ table.rows ∨
        row = ⟨id, fun column => (values.lookup column).getD (.text [])⟩ := by
  simp [addRow]

theorem mem_modify {table : Table} {conditions : List Condition}
    {assignments : List (Str × (Cell → Cell))} {row : Row} :
    row ∈ (table.modify conditions assignments).rows ↔
      ∃ old ∈ table.rows,
        (if old.holdsAll conditions then old.assign assignments else old) =
          row := by
  simp [modify]

@[simp] theorem modify_ids (table : Table) (conditions assignments) :
    (table.modify conditions assignments).rows.map Row.id =
      table.rows.map Row.id := by
  simp only [modify, List.map_map]
  apply List.map_congr_left
  intro row _
  simp only [Function.comp_apply]
  split <;> rfl

theorem mem_addRow_ids {table : Table} {id other : Nat}
    {values : List (Str × Cell)} :
    other ∈ (table.addRow id values).rows.map Row.id ↔
      other ∈ table.rows.map Row.id ∨ other = id := by
  simp [addRow]

theorem addRow_ids_nodup {table : Table} {id : Nat}
    {values : List (Str × Cell)} (hids : (table.rows.map Row.id).Nodup)
    (hfresh : id ∉ table.rows.map Row.id) :
    ((table.addRow id values).rows.map Row.id).Nodup := by
  simp only [addRow, List.map_append, List.map_cons, List.map_nil]
  rw [List.nodup_append]
  refine ⟨hids, List.nodup_singleton _, ?_⟩
  intro old hold new hnew heq
  rw [List.mem_singleton] at hnew
  exact hfresh (hnew ▸ heq ▸ hold)

/-- Rows with different ids stay different rows. -/
theorem eq_of_id_eq {table : Table} (hids : (table.rows.map Row.id).Nodup)
    {left right : Row} (hleft : left ∈ table.rows)
    (hright : right ∈ table.rows) (heq : left.id = right.id) :
    left = right :=
  List.inj_on_of_nodup_map hids hleft hright heq

end Table

/-- The order in which the server delivers the rows of one result set. -/
structure Delivery where
  order : List Row → List Row
  perm : ∀ rows, (order rows).Perm rows

namespace Delivery

/-- Rows as they stand in the table. -/
def inTableOrder : Delivery := ⟨id, fun rows => List.Perm.refl rows⟩

def reversed : Delivery := ⟨List.reverse, List.reverse_perm⟩

theorem mem_order (delivery : Delivery) {rows : List Row} {row : Row} :
    row ∈ delivery.order rows ↔ row ∈ rows :=
  (delivery.perm rows).mem_iff

theorem order_eq_nil_iff (delivery : Delivery) {rows : List Row} :
    delivery.order rows = [] ↔ rows = [] := by
  constructor
  · intro hempty
    exact List.Perm.eq_nil (hempty ▸ (delivery.perm rows).symm)
  · rintro rfl
    exact List.Perm.eq_nil (delivery.perm [])

end Delivery

/-- A rule that gives a new row an id no row of the table has. -/
structure IdSource where
  fresh : List Row → Nat
  fresh_not_mem : ∀ rows, fresh rows ∉ rows.map Row.id

namespace IdSource

/-- One more than every id in use. -/
def autoIncrement : IdSource where
  fresh rows := (rows.map Row.id).foldr max 0 + 1
  fresh_not_mem rows := by
    intro hmem
    have hbound : ∀ (ids : List Nat) (id : Nat),
        id ∈ ids → id ≤ ids.foldr max 0 := by
      intro ids
      induction ids with
      | nil => simp
      | cons head tail ih =>
          intro id hid
          simp only [List.foldr_cons]
          rcases List.mem_cons.mp hid with rfl | htail
          · exact Nat.le_max_left _ _
          · exact Nat.le_trans (ih id htail) (Nat.le_max_right _ _)
    exact absurd (hbound _ _ hmem) (Nat.not_succ_le_self _)

end IdSource

end GreylistServer
