import SqlPlan.Data
import SqlPlan.Spelling

/-!
# Expressions as data

The form in which expressions are shown to other programs: objects that name
their kind and hold their parts, absent parts left out.
-/

namespace SqlPlan

def Scalar.toData : Scalar → Data
  | .null => .null
  | .boolean value => .boolean value
  | .number value => .number value
  | .text value => .text value

/-- An object without the fields that are absent. -/
def Data.ofFields (fields : List (String × Option Data)) : Data :=
  .object (fields.filterMap fun (name, value) => value.map fun value => (name, value))

def ColumnRef.toData (ref : ColumnRef) : Data :=
  .ofFields [("type", some (.text "column")), ("name", some (.text ref.name)),
    ("table", ref.table.map .text)]

def Literal.toData (literal : Literal) : Data :=
  .ofFields [("type", some (.text "literal")), ("value", some literal.value.toData),
    ("numeric", literal.mark.map fun mark => .text mark.word)]

namespace Expr

def typedData (type : String) (fields : List (String × Data)) : Data :=
  .object (("type", .text type) :: fields)

mutual

def toData : Expr → Data
  | .column ref => ref.toData
  | .literal constant => constant.toData
  | .unary op arg => typedData "unary" [("op", .text op.word), ("arg", arg.toData)]
  | .binary op left right =>
      typedData "binary" [("op", .text op.word), ("left", left.toData), ("right", right.toData)]
  | .member arg values negated =>
      typedData "in" [("arg", arg.toData), ("values", .list (values.map Literal.toData)),
        ("negated", .boolean negated)]
  | .call name args => typedData "func" [("name", .text name), ("args", .list (toDataList args))]
  | .case branches none => typedData "case" [("branches", .list (toDataBranches branches))]
  | .case branches (some otherwise) =>
      typedData "case"
        [("branches", .list (toDataBranches branches)), ("otherwise", otherwise.toData)]
  | .cast arg type => typedData "cast" [("arg", arg.toData), ("to", .text type.word)]
  | .aggregate name none distinct =>
      typedData "aggregate" [("fn", .text name), ("distinct", .boolean distinct)]
  | .aggregate name (some arg) distinct =>
      typedData "aggregate"
        [("fn", .text name), ("arg", arg.toData), ("distinct", .boolean distinct)]

def toDataList : List Expr → List Data
  | [] => []
  | expr :: rest => expr.toData :: toDataList rest

def toDataBranches : List (Expr × Expr) → List Data
  | [] => []
  | (condition, result) :: rest =>
      .object [("when", condition.toData), ("then", result.toData)] :: toDataBranches rest

end

end Expr

end SqlPlan
