import SqlPlan.Expr.Columns
import SqlPlan.Expr.Equality
import SqlPlan.Statement

/-!
# Nesting statements

Nesting makes a statement the subquery of a new one that selects all it
shows.  The ordering moves outwards: keys that the output carries are written
in terms of it, and the others are selected under fresh names that only the
new statement sees.  A distinct or grouped statement can select nothing more,
so there such keys are dropped.
-/

namespace SqlPlan

/-- A statement under construction and the number of ordering keys that were
given fresh names so far. -/
structure Draft where
  statement : Statement
  hoisted : Nat

namespace Clauses

/-- A source column in terms of the output. -/
def carriedRef? (clauses : Clauses) (ref : ColumnRef) : Option Expr :=
  match clauses.visibleOutputs.find? fun output => output.expr.same (.column ref) with
  | some output => some (.named output.name)
  | none =>
      if clauses.star? = some ref.table ∧ ¬ clauses.visibleOutputs.any (·.name == ref.name) then
        some (.named ref.name)
      else
        none

/-- An ordering key in terms of the output, if the output carries it. -/
def carried? (clauses : Clauses) (key : Expr) : Option Expr :=
  match clauses.select with
  | none => some key
  | some _ =>
      match clauses.visibleOutputs.find? fun output => output.expr.same key with
      | some output => some (.named output.name)
      | none =>
          if key.columnRefs.all fun ref => (clauses.carriedRef? ref).isSome then
            some (key.mapColumns .everywhere fun ref =>
              (clauses.carriedRef? ref).getD (.column ref))
          else
            none

/-- The name of the `count`-th ordering key that is selected only to be read outside. -/
def hoistedName (count : Nat) : String := "__order_" ++ Nat.repr count

/-- The ordering keys as the enclosing statement writes them, and the outputs
that have to be selected for it, named from `used` onwards. -/
def carriedKeys (clauses : Clauses) (used : Nat) :
    List SortKey → List SortKey × List SelectOutput
  | [] => ([], [])
  | key :: rest =>
      match clauses.carried? key.expr with
      | some expr =>
          let (keys, hoisted) := clauses.carriedKeys used rest
          ({ key with expr } :: keys, hoisted)
      | none =>
          if clauses.distinct || clauses.isGrouped then
            clauses.carriedKeys used rest
          else
            let name := hoistedName (used + 1)
            let (keys, hoisted) := clauses.carriedKeys (used + 1) rest
            ({ key with expr := .named name } :: keys,
              { name, expr := key.expr, hidden := true } :: hoisted)

/-- The clauses of a statement that becomes a subquery.  An ordering stays
only where it decides which rows a limit keeps. -/
def nested (clauses : Clauses) (hoisted : List SelectOutput) : Clauses :=
  { clauses with
    select :=
      if hoisted.isEmpty then clauses.select
      else some (clauses.expandedSelect ++ hoisted.map .output)
    orderBy := if clauses.limit.isSome then clauses.orderBy else [] }

end Clauses

/-- A new statement around the one under construction. -/
def Draft.nest (dialect : Dialect) (draft : Draft) : Draft :=
  let statement := draft.statement
  let (keys, hoisted) := statement.carriedKeys draft.hoisted statement.orderBy
  let inner := statement.toClauses.nested hoisted
  let scope := inner.visibleScope dialect
  { statement :=
      { source := .relation (.subquery statement.source inner)
        scope
        qualifiers := statement.qualifiers
        select :=
          if hoisted.isEmpty || scope.isOpen then none
          else some (scope.names.map SelectItem.ofColumn)
        orderBy := keys }
    hoisted := draft.hoisted + hoisted.length }

/-- Nests a statement that is distinct or limited. -/
def Draft.unsealed (dialect : Dialect) (draft : Draft) : Draft :=
  if draft.statement.isSealed then draft.nest dialect else draft

end SqlPlan
