import SqlPlan.Dialect.Registry
import SqlPlan.Statement.Join
import SqlPlan.Statement.Text

/-!
# From plans to SQL

A plan is folded into as few nested statements as its names allow, and the
statements are written out.  Every name is resolved before any text exists.
-/

namespace SqlPlan

structure Compiled where
  sql : String
  /-- The base tables that the statement reads, each once. -/
  tables : List TableRef

namespace Plan

/-- The statement of a plan, after `used` ordering keys with fresh names. -/
def draft (dialect : Dialect) (used : Nat) : Plan → Except Error Draft
  | .base table => .ok { statement := .ofTable table, hoisted := used }
  | .projected input outputs keep => do
      (← input.draft dialect used).project dialect outputs keep
  | .filtered input predicate => do (← input.draft dialect used).filter dialect predicate
  | .sorted input keys => do (← input.draft dialect used).sort dialect keys
  | .grouped input groupKeys aggregates => do
      (← input.draft dialect used).aggregate dialect groupKeys aggregates
  | .joined input other kind on => do
      let left ← input.draft dialect used
      refuseJoin dialect kind input.refName other.refName
      let right ← other.draft dialect left.hoisted
      let statement ← Statement.join dialect kind on
        { statement := left.statement
          name := input.refName
          scope := left.statement.visibleScope dialect }
        { statement := right.statement
          name := other.refName
          scope := right.statement.visibleScope dialect }
      return { statement, hoisted := right.hoisted }
  | .deduplicated input => return (← input.draft dialect used).distinct dialect
  | .limited input count => return (← input.draft dialect used).limit count
  | .aliased input name => return (← input.draft dialect used).named name

def statement (dialect : Dialect) (plan : Plan) : Except Error Statement :=
  return (← plan.draft dialect 0).statement

def compile (dialect : Dialect) (plan : Plan) : Except Error Compiled := do
  let statement ← plan.statement dialect
  return { sql := ← statement.sql dialect, tables := statement.tables }

/-- The names of the columns that come out, unless some were never declared. -/
def columns (dialect : Dialect) (plan : Plan) : Except Error (Option (List String)) := do
  let scope := (← plan.statement dialect).visibleScope dialect
  return if scope.isOpen then none else some scope.names

end Plan

end SqlPlan
