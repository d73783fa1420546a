import SqlPlan.Names
import SqlPlan.Statement.Resolve

/-!
# Steps on statements

Each relational step turns a statement into the next.  A step joins the
clauses of the statement where their meaning allows it and nests the
statement where it does not.
-/

namespace SqlPlan

/-! ## Projection -/

/-- Refuses two outputs of one name. -/
def SelectItem.requireDistinct (tables : List String) (items : List SelectItem) :
    Except Error Unit :=
  match Names.firstRepeat? (items.filterMap SelectItem.name?) with
  | some name => .error (.ambiguous name tables .repeatedOutput)
  | none => .ok ()

/-- The names that expressions read through the star among the items, which
therefore exist behind it. -/
def SelectItem.readBehindStar (items : List SelectItem) (exprs : List Expr) : List String :=
  match items.findSome? SelectItem.star? with
  | none => []
  | some table =>
      ((exprs.flatMap (·.columnRefs)).filter fun ref => ref.table == table).map (·.name)

/-- Puts an output in the place of the column it redefines, or at the end.
Places are those of the names before the step, so that names may be swapped. -/
def SelectItem.place (places : List (Option String)) (behindStar qualifiers : List String)
    (items : List SelectItem) (output : Output) : Except Error (List SelectItem) :=
  let item := SelectItem.output { name := output.name, expr := output.expr }
  match places.idxOf? (some (output.replaces.getD output.name)) with
  | some place => .ok (items.set place item)
  | none =>
      if behindStar.contains output.name then
        .error (.ambiguous output.name qualifiers .behindStar)
      else
        .ok (items ++ [item])

/-- The selected items after outputs are added to those of a statement. -/
def Clauses.extendedSelect (clauses : Clauses) (outputs : List Output) :
    Except Error (List SelectItem) := do
  let items := clauses.expandedSelect.filter fun item => !item.isHidden
  let places := items.map SelectItem.name?
  let behindStar := SelectItem.readBehindStar items (outputs.map (·.expr))
  let placed ← outputs.foldlM (SelectItem.place places behindStar clauses.qualifiers) items
  SelectItem.requireDistinct clauses.qualifiers placed
  return placed

namespace Draft

/-- Selects the outputs, beside all other visible columns when these are kept. -/
def project (dialect : Dialect) (outputs : List Output) (keep : Bool) (draft : Draft) :
    Except Error Draft := do
  outputs.forM fun output => output.expr.refuseAggregate dialect
  let (current, exprs) ← (draft.unsealed dialect).resolve dialect (outputs.map (·.expr))
  let resolved := outputs.zipWith (fun output expr => { output with expr }) exprs
  let items ←
    if keep then
      current.statement.extendedSelect resolved
    else
      .ok (resolved.map fun output => .output { name := output.name, expr := output.expr })
  return { current with statement := { current.statement with select := some items } }

/-! ## Rows and their order -/

def filter (dialect : Dialect) (predicate : Expr) (draft : Draft) : Except Error Draft := do
  predicate.refuseAggregate dialect
  let (current, exprs) ← (draft.unsealed dialect).resolve dialect [predicate]
  return { current with
    statement := { current.statement with conditions := current.statement.conditions ++ exprs } }

/-- Orders by keys that may read any output. -/
def sort (dialect : Dialect) (keys : List SortKey) (draft : Draft) : Except Error Draft := do
  keys.forM fun key => key.expr.refuseAggregate dialect
  let current := draft.unsealed dialect
  let orderBy ← keys.mapM fun key =>
    return { key with expr := ← current.statement.inlined key.expr }
  return { current with statement := { current.statement with orderBy } }

/-- A distinct statement is ordered only by what it selects. -/
def distinct (dialect : Dialect) (draft : Draft) : Draft :=
  let current := if draft.statement.limit.isSome then draft.nest dialect else draft
  let statement := current.statement
  if statement.distinct then
    current
  else
    let orderBy :=
      if statement.select.isNone || statement.star?.isSome then
        statement.orderBy
      else
        statement.orderBy.filter fun key =>
          statement.visibleOutputs.any fun output => output.expr.same key.expr
    { current with statement := { statement with distinct := true, orderBy } }

/-- The smaller of two limits holds. -/
def limit (count : Nat) (draft : Draft) : Draft :=
  let least := match draft.statement.limit with
    | none => count
    | some earlier => min earlier count
  { draft with statement := { draft.statement with limit := some least } }

/-! ## Aggregation -/

/-- An output of an aggregation with the names of group keys replaced by the
keys.  Outside aggregate calls no other column may be read. -/
def bindGroupKeys (groupKeys : List Output) (output : Output) : Except Error Expr :=
  output.expr.tryMapColumns .outsideAggregates fun ref =>
    let byName :=
      if ref.table.isNone then groupKeys.find? fun key => key.name == ref.name else none
    match byName with
    | some key => .ok key.expr
    | none =>
        if groupKeys.any fun key => key.expr.same (.column ref) then
          .ok (.column ref)
        else
          .error (.unresolved ref.display (groupKeys.map (·.name)) (.notGrouped output.name))

/-- Groups the rows; an earlier ordering means nothing for groups. -/
def aggregate (dialect : Dialect) (groupKeys aggregates : List Output) (draft : Draft) :
    Except Error Draft := do
  groupKeys.forM fun key => key.expr.refuseAggregate dialect
  let bound ← aggregates.mapM (bindGroupKeys groupKeys)
  let start :=
    if draft.statement.isSealed || draft.statement.isGrouped then draft.nest dialect else draft
  let (current, exprs) ← start.resolve dialect (groupKeys.map (·.expr) ++ bound)
  let items := (groupKeys ++ aggregates).zipWith
    (fun output expr => SelectItem.output { name := output.name, expr }) exprs
  return { current with
    statement := { current.statement with
      select := some items
      grouping := some (exprs.take groupKeys.length)
      orderBy := [] } }

end Draft

/-! ## Naming -/

/-- The table of a statement that selects all of it and does nothing else. -/
def Statement.wholeTable? (statement : Statement) : Option TableRef :=
  match statement.source with
  | .relation (.table ref _) =>
      if statement.select.isNone && statement.conditions.isEmpty && !statement.isGrouped &&
          statement.orderBy.isEmpty && !statement.distinct && statement.limit.isNone then
        some ref
      else
        none
  | _ => none

/-- From here on the columns are qualified by a new name only. -/
def Draft.named (name : String) (draft : Draft) : Draft :=
  let statement := draft.statement
  let source := match statement.wholeTable? with
    | some ref => .relation (.table ref (some name))
    | none => statement.source
  { draft with statement := { statement with source, qualifiers := [name] } }

end SqlPlan
