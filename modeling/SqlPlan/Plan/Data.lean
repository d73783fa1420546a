import SqlPlan.Expr.Data
import SqlPlan.Number.Rounding

/-!
# Plans as data

The form in which plans are shown to other programs: every step is an object
that names its kind and holds the plan that it follows.
-/

namespace SqlPlan

def ColumnSchema.toData (column : ColumnSchema) : Data :=
  .object [("name", .text column.name), ("type", .text (DataType.wordOf column.type))]

def TableRef.toData (table : TableRef) : Data :=
  .ofFields [("kind", some (.text "table")), ("name", some (.text table.name)),
    ("schema", table.schema.map .text),
    ("columns", table.columns.map fun columns => .list (columns.map ColumnSchema.toData))]

def Output.toData (output : Output) : Data :=
  .ofFields [("name", some (.text output.name)), ("expr", some output.expr.toData),
    ("replaces", output.replaces.map .text)]

def SortKey.toData (key : SortKey) : Data :=
  .object [("expr", key.expr.toData), ("direction", .text key.direction.word)]

/-- A step after the plan that `input` shows. -/
def Plan.stepData (kind : String) (input : Data) (fields : List (String × Data)) : Data :=
  .object (("kind", .text kind) :: ("input", input) :: fields)

def Plan.toData (plan : Plan) : Data :=
  match plan with
  | .base table => table.toData
  | .projected input outputs keep =>
      stepData plan.kindWord input.toData
        [("outputs", .list (outputs.map Output.toData)), ("keep", .boolean keep)]
  | .filtered input predicate =>
      stepData plan.kindWord input.toData [("predicate", predicate.toData)]
  | .sorted input keys =>
      stepData plan.kindWord input.toData [("keys", .list (keys.map SortKey.toData))]
  | .grouped input groupKeys aggregates =>
      stepData plan.kindWord input.toData
        [("groupKeys", .list (groupKeys.map Output.toData)),
          ("aggregates", .list (aggregates.map Output.toData))]
  | .joined input other kind on =>
      stepData plan.kindWord input.toData
        [("other", other.toData), ("joinKind", .text kind.word), ("on", on.toData)]
  | .deduplicated input => stepData plan.kindWord input.toData []
  | .limited input count =>
      stepData plan.kindWord input.toData [("count", .number (Number.ofNat count))]
  | .aliased input name => stepData plan.kindWord input.toData [("name", .text name)]

end SqlPlan
