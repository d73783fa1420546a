import SqlPlan.Dialect
import SqlPlan.Expr.Typing
import SqlPlan.Plan
import SqlPlan.Scope

/-!
# Statements

A statement is one flat SELECT over a source: a relation or a join of two.
A relation is a base table or another statement.  All expressions of a
statement are in terms of its source; `scope` lists what they may name.
-/

namespace SqlPlan

/-- A selected expression.  A hidden one is an ordering key that the enclosing
statement reads and nobody else sees. -/
structure SelectOutput where
  name : String
  expr : Expr
  hidden : Bool := false

inductive SelectItem where
  | output (selected : SelectOutput)
  | star (table : Option String)

structure Clauses where
  scope : Scope
  /-- The names that qualify columns of a single source. -/
  qualifiers : List String
  /-- Without a list every column of the scope is selected. -/
  select : Option (List SelectItem) := none
  conditions : List Expr := []
  /-- The keys of a grouped statement. -/
  grouping : Option (List Expr) := none
  orderBy : List SortKey := []
  distinct : Bool := false
  limit : Option Nat := none

mutual

inductive Relation where
  | table (ref : TableRef) (shownAs : Option String)
  | subquery (source : Source) (clauses : Clauses)

inductive Source where
  | relation (relation : Relation)
  | join (left : Relation) (leftName : String) (right : Relation) (rightName : String)
      (kind : JoinKind) (on : Expr)

end

structure Statement extends Clauses where
  source : Source

def SelectItem.output? : SelectItem → Option SelectOutput
  | .output selected => some selected
  | .star _ => none

/-- The qualifier of a star. -/
def SelectItem.star? : SelectItem → Option (Option String)
  | .output _ => none
  | .star table => some table

def SelectItem.name? (item : SelectItem) : Option String :=
  item.output?.map (·.name)

def SelectItem.isHidden : SelectItem → Bool
  | .output selected => selected.hidden
  | .star _ => false

/-- The selection of a source column under its own name. -/
def SelectItem.ofColumn (name : String) : SelectItem :=
  .output { name, expr := .named name }

/-- The scope of a base table. -/
def TableRef.scope (table : TableRef) : Scope :=
  match table.columns with
  | none => { columns := [], extent := .single true }
  | some columns =>
      { columns := columns.map fun column => { name := column.name, type := column.type }
        extent := .single false }

namespace Clauses

/-- All selected expressions, hidden ones included. -/
def outputs (clauses : Clauses) : List SelectOutput :=
  (clauses.select.getD []).filterMap SelectItem.output?

def visibleOutputs (clauses : Clauses) : List SelectOutput :=
  clauses.outputs.filter fun output => !output.hidden

/-- The qualifier of the first star, if a star is selected. -/
def star? (clauses : Clauses) : Option (Option String) :=
  (clauses.select.getD []).findSome? SelectItem.star?

def isGrouped (clauses : Clauses) : Bool := clauses.grouping.isSome

/-- Further steps other than a limit need a statement around this one. -/
def isSealed (clauses : Clauses) : Bool := clauses.distinct || clauses.limit.isSome

/-- The names that the next step sees. -/
def visibleNames (clauses : Clauses) : List String :=
  match clauses.select with
  | none => clauses.scope.names
  | some _ => clauses.visibleOutputs.map (·.name)

/-- What the next step sees: the output of the statement as a single source. -/
def visibleScope (dialect : Dialect) (clauses : Clauses) : Scope :=
  match clauses.select with
  | none =>
      { columns := clauses.scope.columns.map fun column => { column with table := none }
        extent := .single clauses.scope.isOpen }
  | some _ =>
      { columns := clauses.visibleOutputs.map fun output =>
          { name := output.name, type := output.expr.type? dialect clauses.scope.columnType }
        extent := .single clauses.star?.isSome }

/-- The selected items written out as far as the columns are known. -/
def expandedSelect (clauses : Clauses) : List SelectItem :=
  match clauses.select with
  | some items => items
  | none =>
      if clauses.scope.isOpen then [.star none]
      else clauses.scope.names.map SelectItem.ofColumn

end Clauses

/-- The statement that selects a whole table. -/
def Statement.ofTable (table : TableRef) : Statement where
  source := .relation (.table table none)
  scope := table.scope
  qualifiers := [table.name]

end SqlPlan
