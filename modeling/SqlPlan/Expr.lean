import SqlPlan.Number

/-!
# Expressions

Scalar expressions over columns: literals, operators, membership tests,
function calls, case distinctions, casts and aggregate calls.
-/

namespace SqlPlan

/-- The types that an expression can be cast to. -/
inductive DataType where
  | integer
  | float
  | string
  | boolean
  | date
  | timestamp
deriving DecidableEq

/-- A column name, qualified or not by a table or a side of a join. -/
structure ColumnRef where
  table : Option String := none
  name : String
deriving DecidableEq

inductive Scalar where
  | null
  | boolean (value : Bool)
  | number (value : Number)
  | text (value : String)
deriving DecidableEq

/-- How a numeric literal was meant. -/
inductive NumericMark where
  | integer
  | float
deriving DecidableEq

structure Literal where
  value : Scalar
  mark : Option NumericMark := none
deriving DecidableEq

inductive UnaryOp where
  | not
  | negate
  | isNull
  | isNotNull
deriving DecidableEq

inductive ArithmeticOp where
  | add
  | sub
  | mul
  | div
  | mod
deriving DecidableEq

inductive ComparisonOp where
  | equal
  | notEqual
  | less
  | lessEqual
  | greater
  | greaterEqual
  | like
deriving DecidableEq

inductive LogicalOp where
  | and
  | or
deriving DecidableEq

inductive BinaryOp where
  | arithmetic (op : ArithmeticOp)
  | comparison (op : ComparisonOp)
  | logical (op : LogicalOp)
deriving DecidableEq

inductive Expr where
  | column (ref : ColumnRef)
  | literal (constant : Literal)
  | unary (op : UnaryOp) (arg : Expr)
  | binary (op : BinaryOp) (left right : Expr)
  | member (arg : Expr) (values : List Literal) (negated : Bool)
  | call (name : String) (args : List Expr)
  | case (branches : List (Expr × Expr)) (otherwise : Option Expr)
  | cast (arg : Expr) (type : DataType)
  | aggregate (name : String) (arg : Option Expr) (distinct : Bool)

/-- The qualifier and the name with a dot between them. -/
def ColumnRef.display (ref : ColumnRef) : String :=
  match ref.table with
  | some table => table ++ "." ++ ref.name
  | none => ref.name

/-- Equality of values, in which not-a-number equals nothing. -/
def Scalar.same : Scalar → Scalar → Bool
  | .number left, .number right => left.same right
  | .null, .null => true
  | .boolean left, .boolean right => left == right
  | .text left, .text right => left == right
  | _, _ => false

def Literal.same (left right : Literal) : Bool :=
  left.value.same right.value && left.mark == right.mark

def Literal.isNull (literal : Literal) : Bool :=
  literal.value == .null

namespace Expr

def isNullLiteral : Expr → Bool
  | .literal constant => constant.isNull
  | _ => false

def column? : Expr → Option ColumnRef
  | .column ref => some ref
  | _ => none

/-- An unqualified column. -/
abbrev named (name : String) : Expr := .column { name }

end Expr

end SqlPlan
