import SqlPlan.Data
import SqlPlan.Dialect

/-!
# Types of expressions

The type of an expression as far as the types of its columns and the
dialect's functions determine it.
-/

namespace SqlPlan

def Literal.type? (literal : Literal) : Option DataType :=
  match literal.value with
  | .number number =>
      if literal.mark == some .float || !number.isInteger then some .float else some .integer
  | .text _ => some .string
  | .boolean _ => some .boolean
  | .null => none

/-- Aggregates that every dialect has.  They are looked up by name in an object, which
also answers to the names that every object has. -/
inductive NativeAggregate where
  | count
  | sum
  | mean
  | min
  | max
  | inherited (held : Data.Held)

def NativeAggregate.ofName? (name : String) : Option NativeAggregate :=
  match Text.lower name with
  | "count" => some .count
  | "sum" => some .sum
  | "mean" | "avg" => some .mean
  | "min" => some .min
  | "max" => some .max
  | lowered => (Data.unlisted lowered).map .inherited

namespace Expr

/-- The common type of two numbers. -/
def numericResult : Option DataType → Option DataType → Option DataType
  | some .integer, some .integer => some .integer
  | some .integer, some .float => some .float
  | some .float, some .integer => some .float
  | some .float, some .float => some .float
  | _, _ => none

/-- A quotient of integers is a float where the division has to be cast. -/
def quotientResult (dialect : Dialect) (result : Option DataType) : Option DataType :=
  if result = some .integer ∧ dialect.truncatesDivision then some .float else result

/-- The type of a call from the entry of its function and the type of its first argument. -/
def callResult (entry : Option FunctionEntry) (first : Option DataType) : Option DataType :=
  match entry.bind (·.returns) with
  | some (.type type) => some type
  | some .same => first
  | some .unknown | none => none

def aggregateResult (dialect : Dialect) (name : String) (arg : Option DataType) : Option DataType :=
  match NativeAggregate.ofName? name with
  | some .count => some .integer
  | some .mean => some .float
  | some .sum | some .min | some .max => arg
  | some (.inherited _) | none => callResult (dialect.function? name) none

def type? (dialect : Dialect) (columnType : ColumnRef → Option DataType) : Expr → Option DataType
  | .column ref => columnType ref
  | .literal constant => constant.type?
  | .unary .negate arg => arg.type? dialect columnType
  | .unary _ _ => some .boolean
  | .binary (.arithmetic .div) left right =>
      quotientResult dialect
        (numericResult (left.type? dialect columnType) (right.type? dialect columnType))
  | .binary (.arithmetic _) left right =>
      numericResult (left.type? dialect columnType) (right.type? dialect columnType)
  | .binary _ _ _ => some .boolean
  | .member _ _ _ => some .boolean
  | .call name [] => callResult (dialect.function? name) none
  | .call name (first :: _) =>
      callResult (dialect.function? name) (first.type? dialect columnType)
  | .case [] _ => none
  | .case ((_, result) :: _) _ => result.type? dialect columnType
  | .cast _ type => some type
  | .aggregate name none _ => aggregateResult dialect name none
  | .aggregate name (some arg) _ => aggregateResult dialect name (arg.type? dialect columnType)

end Expr

end SqlPlan
