import SqlPlan.Error
import SqlPlan.Record

/-!
# Result tables

Rows as an executor hands them back, and the table made of them: every row
has exactly the columns of the table.
-/

namespace SqlPlan

abbrev Row := Record Data

/-- What an executor hands back for one statement. -/
structure QueryRows where
  /-- The names of the columns, where the executor reports them. -/
  fields : Option (List String) := none
  rows : List Row

/-- A row of a table.  Rows are objects, so a column that was not given may
still be a method. -/
abbrev ResultRow := Record Data.Held

structure ResultTable where
  columns : List String
  rows : List ResultRow
  sql : String

namespace Row

/-- What a row holds in a column; it is null where the row answers nothing. -/
def held (row : Row) (name : String) : Data.Held :=
  (((row.get? name).map .value).or (Data.unlisted name)).getD (.value .null)

/-- The given columns of a row.  Nothing can be put under the name of an object's parent. -/
def restrict (row : Row) (columns : List String) : ResultRow :=
  .ofList ((columns.filter (· != Data.parentName)).map fun name => (name, row.held name))

end Row

namespace ResultTable

/-- The columns are those reported, else those expected, else those of the first row. -/
def columnsOf (result : QueryRows) (expected : Option (List String)) : List String :=
  match result.fields.or expected with
  | some columns => columns
  | none => (result.rows.head?.map Record.keys).getD []

def ofRows (result : QueryRows) (sql : String) (expected : Option (List String)) : ResultTable :=
  let columns := columnsOf result expected
  { columns, rows := result.rows.map fun row => Row.restrict row columns, sql }

/-- The values of one column, from top to bottom. -/
def values (table : ResultTable) (name : String) : Except Error (List Data.Held) :=
  if table.columns.contains name then
    .ok (table.rows.map fun row =>
      ((row.get? name).or (Data.unlisted name)).getD (.value .null))
  else
    .error (.missingColumn name table.columns)

end ResultTable

end SqlPlan
