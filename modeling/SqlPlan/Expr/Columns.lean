import SqlPlan.Expr

/-!
# Columns of an expression

The column references of an expression in order of appearance, and the
replacement of each of them by an expression.  Both reach everywhere or only
outside aggregate calls.  A replacement that may fail reports the first
reference that does.
-/

namespace SqlPlan.Expr

/-- How far a traversal goes into aggregate calls. -/
inductive Reach where
  | everywhere
  | outsideAggregates
deriving DecidableEq

mutual

def refs (reach : Reach) : Expr → List ColumnRef
  | .column ref => [ref]
  | .literal _ => []
  | .unary _ arg => arg.refs reach
  | .binary _ left right => left.refs reach ++ right.refs reach
  | .member arg _ _ => arg.refs reach
  | .call _ args => refsList reach args
  | .case branches none => refsBranches reach branches
  | .case branches (some otherwise) => refsBranches reach branches ++ otherwise.refs reach
  | .cast arg _ => arg.refs reach
  | .aggregate _ none _ => []
  | .aggregate _ (some arg) _ =>
      match reach with
      | .everywhere => arg.refs reach
      | .outsideAggregates => []

def refsList (reach : Reach) : List Expr → List ColumnRef
  | [] => []
  | expr :: rest => expr.refs reach ++ refsList reach rest

def refsBranches (reach : Reach) : List (Expr × Expr) → List ColumnRef
  | [] => []
  | (condition, result) :: rest =>
      condition.refs reach ++ (result.refs reach ++ refsBranches reach rest)

end

/-- The references of an expression in order of appearance. -/
abbrev columnRefs (expr : Expr) : List ColumnRef := expr.refs .everywhere

mutual

def mapColumns (reach : Reach) (replace : ColumnRef → Expr) : Expr → Expr
  | .column ref => replace ref
  | .literal constant => .literal constant
  | .unary op arg => .unary op (arg.mapColumns reach replace)
  | .binary op left right =>
      .binary op (left.mapColumns reach replace) (right.mapColumns reach replace)
  | .member arg values negated => .member (arg.mapColumns reach replace) values negated
  | .call name args => .call name (mapColumnsList reach replace args)
  | .case branches none => .case (mapColumnsBranches reach replace branches) none
  | .case branches (some otherwise) =>
      .case (mapColumnsBranches reach replace branches) (some (otherwise.mapColumns reach replace))
  | .cast arg type => .cast (arg.mapColumns reach replace) type
  | .aggregate name none distinct => .aggregate name none distinct
  | .aggregate name (some arg) distinct =>
      match reach with
      | .everywhere => .aggregate name (some (arg.mapColumns reach replace)) distinct
      | .outsideAggregates => .aggregate name (some arg) distinct

def mapColumnsList (reach : Reach) (replace : ColumnRef → Expr) : List Expr → List Expr
  | [] => []
  | expr :: rest => expr.mapColumns reach replace :: mapColumnsList reach replace rest

def mapColumnsBranches (reach : Reach) (replace : ColumnRef → Expr) :
    List (Expr × Expr) → List (Expr × Expr)
  | [] => []
  | (condition, result) :: rest =>
      (condition.mapColumns reach replace, result.mapColumns reach replace) ::
        mapColumnsBranches reach replace rest

end

def failure? {ε α : Type} : Except ε α → Option ε
  | .error failure => some failure
  | .ok _ => none

/-- Replaces every reference, or reports the first one that has no replacement. -/
def tryMapColumns {ε : Type} (reach : Reach) (replace : ColumnRef → Except ε Expr) (expr : Expr) :
    Except ε Expr :=
  match (expr.refs reach).findSome? fun ref => failure? (replace ref) with
  | some failure => .error failure
  | none => .ok (expr.mapColumns reach fun ref => (replace ref).toOption.getD (.column ref))

/-- An aggregate call, apart from the expression it stands in. -/
structure AggregateCall where
  name : String
  arg : Option Expr
  distinct : Bool

def AggregateCall.toExpr (call : AggregateCall) : Expr :=
  .aggregate call.name call.arg call.distinct

mutual

/-- The first aggregate call, outermost and leftmost first. -/
def aggregate? : Expr → Option AggregateCall
  | .column _ => none
  | .literal _ => none
  | .unary _ arg => arg.aggregate?
  | .binary _ left right => left.aggregate?.or right.aggregate?
  | .member arg _ _ => arg.aggregate?
  | .call _ args => aggregateList? args
  | .case branches none => aggregateBranches? branches
  | .case branches (some otherwise) => (aggregateBranches? branches).or otherwise.aggregate?
  | .cast arg _ => arg.aggregate?
  | .aggregate name arg distinct => some { name, arg, distinct }

def aggregateList? : List Expr → Option AggregateCall
  | [] => none
  | expr :: rest => expr.aggregate?.or (aggregateList? rest)

def aggregateBranches? : List (Expr × Expr) → Option AggregateCall
  | [] => none
  | (condition, result) :: rest =>
      condition.aggregate?.or (result.aggregate?.or (aggregateBranches? rest))

end

end SqlPlan.Expr
