import SqlPlan.Error
import SqlPlan.Expr

/-!
# Building expressions

Constructors with the conventions of the query language: dotted column names,
chains of AND and OR, and case distinctions that need a branch.
-/

namespace SqlPlan.Expr

/-- The two parts around the first dot, when neither is empty. -/
def splitDotted (name : String) : ColumnRef :=
  let table := name.toList.takeWhile (· ≠ '.')
  match name.toList.dropWhile (· ≠ '.') with
  | _ :: rest =>
      if table.isEmpty || rest.isEmpty then { name }
      else { table := some (String.ofList table), name := String.ofList rest }
  | [] => { name }

/-- A reference to a column, whose dotted name is split when no table is given. -/
def columnRef (name : String) (table : Option String) : ColumnRef :=
  match table with
  | none => splitDotted name
  | some table => { table := some table, name }

def col (name : String) : Expr := .column (splitDotted name)

def value (scalar : Scalar) : Expr := .literal { value := scalar }

/-- A numeric literal that keeps its fraction even when it is whole. -/
def float (number : Number) : Expr := .literal { value := .number number, mark := some .float }

def equal (left right : Expr) : Expr := .binary (.comparison .equal) left right

/-- A chain of two or more operands, grouped from the left. -/
def chain (op : LogicalOp) (first second : Expr) (rest : List Expr) : Expr :=
  rest.foldl (.binary (.logical op)) (.binary (.logical op) first second)

def isIn (arg : Expr) (values : List Scalar) : Expr :=
  .member arg (values.map fun value => { value }) false

def notIn (arg : Expr) (values : List Scalar) : Expr :=
  .member arg (values.map fun value => { value }) true

def caseWhen (branches : List (Expr × Expr)) (otherwise : Option Expr) : Except Error Expr :=
  if branches.isEmpty then .error .emptyCase else .ok (.case branches otherwise)

def count (arg : Option Expr) : Expr := .aggregate "count" arg false

end SqlPlan.Expr
