import SqlPlan.Expr

/-!
# Plans

A plan is a base table followed by relational steps.  Steps hold the plan
they follow, so plans that begin alike share their beginning.
-/

namespace SqlPlan

structure ColumnSchema where
  name : String
  type : Option DataType
deriving DecidableEq

/-- A base table.  Without declared columns any name may be one of its columns. -/
structure TableRef where
  name : String
  schema : Option String := none
  columns : Option (List ColumnSchema) := none
deriving DecidableEq

inductive JoinKind where
  | inner
  | left
  | right
  | full
deriving DecidableEq

inductive Direction where
  | ascending
  | descending
deriving DecidableEq

structure SortKey where
  expr : Expr
  direction : Direction := .ascending

/-- A column that a step puts out.  With `replaces` it takes the place of
that column and hides it. -/
structure Output where
  name : String
  expr : Expr
  replaces : Option String := none

inductive Plan where
  | base (table : TableRef)
  /-- With `keep` every visible column that is not redefined stays. -/
  | projected (input : Plan) (outputs : List Output) (keep : Bool)
  | filtered (input : Plan) (predicate : Expr)
  | sorted (input : Plan) (keys : List SortKey)
  | grouped (input : Plan) (groupKeys aggregates : List Output)
  | joined (input other : Plan) (kind : JoinKind) (on : Expr)
  | deduplicated (input : Plan)
  | limited (input : Plan) (count : Nat)
  | aliased (input : Plan) (name : String)

/-- The name by which other plans qualify the columns of this one. -/
def Plan.refName : Plan → String
  | .base table => table.name
  | .aliased _ name => name
  | .projected input _ _ => input.refName
  | .filtered input _ => input.refName
  | .sorted input _ => input.refName
  | .grouped input _ _ => input.refName
  | .joined input _ _ _ => input.refName
  | .deduplicated input => input.refName
  | .limited input _ => input.refName

end SqlPlan
