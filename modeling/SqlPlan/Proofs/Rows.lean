import Mathlib.Data.List.Basic
import SqlPlan.Statement

/-!
# Rows and the columns of statements

A row holds a cell for each column that comes out of a statement, in order.
The rows that the clauses of a statement read are tuples, whose cells carry
the side of a join that they come from.  What a select list makes of a tuple
does not depend on what the cells hold, so one definition serves both the
values of a statement and the list of its columns.
-/

namespace SqlPlan

/-- A row: its cells in order, each under the name of its column. -/
abbrev Cells (α : Type) := List (String × α)

abbrev Tuple (α : Type) := List (ColumnRef × α)

variable {α β : Type}

namespace Cells

def names (row : Cells α) : List String := row.map Prod.fst

/-- The cell of the first column of that name. -/
def get? (row : Cells α) (name : String) : Option α :=
  (row.find? fun cell => cell.1 == name).map Prod.snd

/-- The row as what a source provides under the name of a side. -/
def tagged (side : Option String) (row : Cells α) : Tuple α :=
  row.map fun cell => ({ table := side, name := cell.1 }, cell.2)

end Cells

namespace Tuple

/-- The first cell that a reference fits. -/
def get? (tuple : Tuple α) (ref : ColumnRef) : Option α :=
  (tuple.find? fun cell =>
    cell.1.name == ref.name && (ref.table.isNone || cell.1.table == ref.table)).map Prod.snd

/-- All cells, without their sides. -/
def row (tuple : Tuple α) : Cells α := tuple.map fun cell => (cell.1.name, cell.2)

/-- The cells of one side, or all cells. -/
def star (side : Option String) (tuple : Tuple α) : Cells α :=
  match side with
  | none => Tuple.row tuple
  | some side => Tuple.row (tuple.filter fun cell => cell.1.table == some side)

end Tuple

def SelectItem.cells (value : SelectOutput → α) (tuple : Tuple α) : SelectItem → Cells α
  | .output selected => [(selected.name, value selected)]
  | .star side => Tuple.star side tuple

/-- What the select list makes of a tuple, given the values of expressions in it. -/
def Clauses.selected (clauses : Clauses) (value : SelectOutput → α) (tuple : Tuple α) : Cells α :=
  match clauses.select with
  | none => Tuple.row tuple
  | some items => items.flatMap (SelectItem.cells value tuple)

/-! ## The columns of a statement -/

/-- The columns that tables have.  A declared table has the declared ones. -/
structure Schema where
  columns : TableRef → List String
  declared : ∀ {table : TableRef} {declared : List ColumnSchema},
    table.columns = some declared → columns table = declared.map (·.name)

/-- The schema in which tables have their declared columns only. -/
def Schema.ofDeclared : Schema where
  columns table := (table.columns.getD []).map (·.name)
  declared found := by simp [found]

mutual

/-- The columns of a relation in order, each with a mark that tells whether it
is an ordering key that was selected only to be read outside. -/
def Relation.fields (schema : Schema) : Relation → Cells Bool
  | .table ref _ => (schema.columns ref).map fun name => (name, false)
  | .subquery source clauses =>
      clauses.selected (fun output => output.hidden) (source.fields schema)

def Source.fields (schema : Schema) : Source → Tuple Bool
  | .relation relation => Cells.tagged none (relation.fields schema)
  | .join left leftName right rightName _ _ =>
      Cells.tagged (some leftName) (left.fields schema) ++
        Cells.tagged (some rightName) (right.fields schema)

end

/-- The columns that come out of a statement, stars written out. -/
def Statement.fields (schema : Schema) (statement : Statement) : Cells Bool :=
  statement.selected (fun output => output.hidden) (statement.source.fields schema)

/-! ## Laws -/

theorem Cells.refs_tagged (side : Option String) (row : Cells α) :
    (Cells.tagged side row).map Prod.fst = row.names.map fun name => { table := side, name } := by
  simp [Cells.tagged, Cells.names, Function.comp_def]

@[simp] theorem Tuple.row_tagged (side : Option String) (row : Cells α) :
    Tuple.row (Cells.tagged side row) = row := by
  simp [Tuple.row, Cells.tagged, Function.comp_def]

/-- An unqualified reference finds the first column of its name. -/
theorem Tuple.get?_unqualified (tuple : Tuple α) (name : String) :
    Tuple.get? tuple { name } = (Tuple.row tuple).get? name := by
  simp [Tuple.get?, Cells.get?, Tuple.row, List.find?_map, Function.comp_def]

theorem Tuple.names_row (tuple : Tuple α) :
    (Tuple.row tuple).names = (tuple.map Prod.fst).map (·.name) := by
  simp [Tuple.row, Cells.names]

theorem Tuple.names_star (side : Option String) (tuple : Tuple α) :
    (Tuple.star side tuple).names =
      match side with
      | none => (tuple.map Prod.fst).map (·.name)
      | some side =>
          ((tuple.map Prod.fst).filter fun ref => ref.table == some side).map (·.name) := by
  cases side with
  | none => exact Tuple.names_row tuple
  | some side => simp [Tuple.star, Tuple.names_row, List.filter_map, Function.comp_def]

/-- The names that a select list puts out depend only on the names it reads. -/
theorem Clauses.names_selected (clauses : Clauses) {value : SelectOutput → α}
    {value' : SelectOutput → β} {tuple : Tuple α} {tuple' : Tuple β}
    (refs : tuple.map Prod.fst = tuple'.map Prod.fst) :
    (clauses.selected value tuple).names = (clauses.selected value' tuple').names := by
  have cells : ∀ item : SelectItem,
      (item.cells value tuple).names = (item.cells value' tuple').names := by
    intro item
    cases item with
    | output selected => rfl
    | star side => rw [SelectItem.cells, SelectItem.cells, Tuple.names_star, Tuple.names_star, refs]
  unfold Clauses.selected
  cases clauses.select with
  | none => simp only [Tuple.names_row, refs]
  | some items =>
      simp only [Cells.names, List.map_flatMap] at cells ⊢
      exact List.flatMap_congr fun item _ => cells item

/-- A select list without stars and hidden items lists the visible outputs. -/
theorem Clauses.select_eq_visibleOutputs {clauses : Clauses} {items : List SelectItem}
    (select : clauses.select = some items) (starless : clauses.star? = none)
    (unhidden : ∀ item ∈ items, item.isHidden = false) :
    items = clauses.visibleOutputs.map .output := by
  simp only [Clauses.visibleOutputs, Clauses.outputs, Clauses.star?, select, Option.getD_some,
    List.findSome?_eq_none_iff] at starless ⊢
  clear select
  induction items with
  | nil => rfl
  | cons item items induction =>
      simp only [List.forall_mem_cons] at starless unhidden
      have rest := induction unhidden.2 starless.2
      cases item with
      | star side => simp [SelectItem.star?] at starless
      | output selected =>
          have visible : selected.hidden = false := unhidden.1
          simp [SelectItem.output?, visible, ← rest]

/-- A list of visible outputs selects their values. -/
theorem Clauses.selected_eq_visibleOutputs {clauses : Clauses} {items : List SelectItem}
    (select : clauses.select = some items) (starless : clauses.star? = none)
    (unhidden : ∀ item ∈ items, item.isHidden = false) (value : SelectOutput → α)
    (tuple : Tuple α) :
    clauses.selected value tuple =
      clauses.visibleOutputs.map fun output => (output.name, value output) := by
  simp only [Clauses.selected, select]
  rw [Clauses.select_eq_visibleOutputs select starless unhidden, List.flatMap_map]
  exact List.map_eq_flatMap.symm

namespace Cells

theorem get?_cons (cell : String × α) (row : Cells α) (name : String) :
    Cells.get? (cell :: row) name = if cell.1 = name then some cell.2 else row.get? name := by
  by_cases equal : cell.1 = name <;> simp [Cells.get?, equal]

theorem get?_append (first second : Cells α) (name : String) :
    Cells.get? (first ++ second) name = (first.get? name).or (second.get? name) := by
  simp [Cells.get?, List.find?_append, Option.map_or]

theorem get?_eq_none_iff {row : Cells α} {name : String} :
    row.get? name = none ↔ name ∉ row.names := by
  rw [Cells.get?, Option.map_eq_none_iff, List.find?_eq_none, Cells.names, List.mem_map]
  constructor
  · rintro absent ⟨cell, member, equal⟩
    exact absent cell member (by simp [equal])
  · intro absent cell member equal
    exact absent ⟨cell, member, by simpa using equal⟩

theorem get?_append_left {first second : Cells α} {name : String} (present : name ∈ first.names) :
    Cells.get? (first ++ second) name = first.get? name := by
  rw [get?_append]
  cases found : first.get? name with
  | none => exact absurd present (get?_eq_none_iff.mp found)
  | some value => rfl

/-- Where no name occurs twice, every cell is found. -/
theorem get?_of_mem {row : Cells α} {name : String} {value : α} (distinct : row.names.Nodup)
    (member : (name, value) ∈ row) : row.get? name = some value := by
  induction row with
  | nil => cases member
  | cons cell row induction =>
      simp only [names, List.map_cons, List.nodup_cons] at distinct
      rw [get?_cons]
      rcases List.mem_cons.mp member with here | later
      · subst here
        simp
      · have different : cell.1 ≠ name := by
          intro equal
          exact distinct.1 (List.mem_map.mpr ⟨_, later, equal.symm⟩)
        rw [if_neg different]
        exact induction distinct.2 later

/-- Reading all columns of a row by name gives the row back. -/
theorem map_get?_names {row : Cells α} (distinct : row.names.Nodup) (default : α) :
    row.names.map (fun name => (name, (row.get? name).getD default)) = row := by
  rw [Cells.names, List.map_map]
  conv_rhs => rw [← List.map_id row]
  apply List.map_congr_left
  intro cell member
  simp [get?_of_mem distinct member]

end Cells

end SqlPlan
