import SqlPlan.Proofs.Built
import SqlPlan.Proofs.Meaning.Statement

/-!
# Running a plan step by step

The rows that a plan over a single table describes, by running its steps one
after another on the rows of the table.  A sort does not move rows: it attaches
key values to them, in place of earlier ones.  A limit sorts the rows stably by
the keys that they carry and keeps the first; at the end they are sorted once
more.
-/

namespace SqlPlan

variable {V : Type}

/-- A row on its way through the steps, with the key values of the last sort. -/
structure Pending (V : Type) where
  row : Cells V
  keys : List (Direction × V)

namespace Cells

/-- The columns of a row by name; the qualifier of a reference plays no part. -/
def env (meaning : Interpretation V) (row : Cells V) : Env V :=
  fun ref => (row.get? ref.name).getD meaning.null

def value (meaning : Interpretation V) (row : Cells V) (expr : Expr) : V :=
  expr.eval meaning [] (row.env meaning)

/-- Exactly the outputs, computed from the row. -/
def project (meaning : Interpretation V) (outputs : List Output) (row : Cells V) : Cells V :=
  outputs.map fun output => (output.name, row.value meaning output.expr)

end Cells

/-- All columns of the row, those that outputs redefine replaced in their
places, and the other outputs after them.  Every output is computed from the
row as it was. -/
def Cells.extend (meaning : Interpretation V) (outputs : List Output) (row : Cells V) : Cells V :=
  (row.map fun cell =>
    match outputs.find? fun output => output.target == cell.1 with
    | some output => (output.name, row.value meaning output.expr)
    | none => cell) ++
  row.project meaning (outputs.filter fun output => !row.names.contains output.target)

/-- The row of a group: the values of the keys, then those of the aggregates,
which may name a key outside of aggregate calls. -/
def Cells.aggregate (meaning : Interpretation V) (groupKeys aggregates : List Output)
    (members : List (Cells V)) : Cells V :=
  let first := members.headD []
  let env : Env V := fun ref =>
    match groupKeys.find? fun key => ref.table.isNone && key.name == ref.name with
    | some key => first.value meaning key.expr
    | none => first.env meaning ref
  first.project meaning groupKeys ++
    aggregates.map fun output =>
      (output.name, output.expr.eval meaning (members.map (Cells.env meaning)) env)

/-- Rows in the order of their keys; rows with equal keys stay as they are. -/
def Pending.sorted (meaning : Interpretation V) (rows : List (Pending V)) : List (Pending V) :=
  rows.mergeSort fun left right => meaning.leKeys left.keys right.keys

namespace Plan

variable [DecidableEq V]

/-- The rows after the steps of a plan.  A join and a step that removes
duplicates have no order of rows to go by, so plans with them are left out. -/
def pending? (meaning : Interpretation V) (database : Database V) :
    Plan → Option (List (Pending V))
  | .base table => some ((database.rows table).map fun row => { row, keys := [] })
  | .projected input outputs keep => do
      let rows ← input.pending? meaning database
      return rows.map fun pending =>
        { pending with
          row :=
            if keep then pending.row.extend meaning outputs
            else pending.row.project meaning outputs }
  | .filtered input predicate => do
      let rows ← input.pending? meaning database
      return rows.filter fun pending => meaning.isTrue (pending.row.value meaning predicate)
  | .sorted input keys => do
      let rows ← input.pending? meaning database
      return rows.map fun pending =>
        { pending with
          keys := keys.map fun key => (key.direction, pending.row.value meaning key.expr) }
  | .grouped input groupKeys aggregates => do
      let rows := (← input.pending? meaning database).map (·.row)
      let groups :=
        if groupKeys.isEmpty then [rows]
        else classesBy (fun row => groupKeys.map fun key => Cells.value meaning row key.expr) rows
      return groups.map fun members =>
        { row := Cells.aggregate meaning groupKeys aggregates members, keys := [] }
  | .limited input count => do
      let rows ← input.pending? meaning database
      return (Pending.sorted meaning rows).take count
  | .aliased input _ => input.pending? meaning database
  | .joined _ _ _ _ => none
  | .deduplicated _ => none

/-- The rows that a plan over a single table describes. -/
def result? (meaning : Interpretation V) (database : Database V) (plan : Plan) :
    Option (List (Cells V)) := do
  let rows ← plan.pending? meaning database
  return (Pending.sorted meaning rows).map (·.row)

end Plan

end SqlPlan
