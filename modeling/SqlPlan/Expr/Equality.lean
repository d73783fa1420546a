import SqlPlan.Expr

/-!
# Equality of expressions

Two expressions are equal when they are built alike from equal parts.
Literals are compared by value, so an expression that holds a literal
not-a-number does not equal itself.
-/

namespace SqlPlan.Expr

def sameLiterals : List Literal → List Literal → Bool
  | [], [] => true
  | left :: lefts, right :: rights => left.same right && sameLiterals lefts rights
  | _, _ => false

mutual

def same : Expr → Expr → Bool
  | .column left, .column right => left == right
  | .literal left, .literal right => left.same right
  | .unary op arg, .unary op' arg' => op == op' && arg.same arg'
  | .binary op left right, .binary op' left' right' =>
      op == op' && left.same left' && right.same right'
  | .member arg values negated, .member arg' values' negated' =>
      negated == negated' && arg.same arg' && sameLiterals values values'
  | .call name args, .call name' args' => name == name' && sameList args args'
  | .case branches none, .case branches' none => sameBranches branches branches'
  | .case branches (some otherwise), .case branches' (some otherwise') =>
      sameBranches branches branches' && otherwise.same otherwise'
  | .cast arg type, .cast arg' type' => type == type' && arg.same arg'
  | .aggregate name none distinct, .aggregate name' none distinct' =>
      name == name' && distinct == distinct'
  | .aggregate name (some arg) distinct, .aggregate name' (some arg') distinct' =>
      name == name' && distinct == distinct' && arg.same arg'
  | _, _ => false

def sameList : List Expr → List Expr → Bool
  | [], [] => true
  | left :: lefts, right :: rights => left.same right && sameList lefts rights
  | _, _ => false

def sameBranches : List (Expr × Expr) → List (Expr × Expr) → Bool
  | [], [] => true
  | (condition, result) :: rest, (condition', result') :: rest' =>
      condition.same condition' && result.same result' && sameBranches rest rest'
  | _, _ => false

end

end SqlPlan.Expr
