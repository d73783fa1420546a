import SqlPlan.Expr.Build
import SqlPlan.Expr.Columns
import SqlPlan.Names
import SqlPlan.Plan
import SqlPlan.Record

/-!
# Building plans

The steps that follow a table or another plan.  A step that means nothing is
refused here; whether its names are visible is found out when the plan is
turned into a statement.
-/

namespace SqlPlan

/-- The columns of a table, by name only or with types. -/
inductive Declaration where
  | names (declared : List String)
  | types (declared : Record (Option DataType))

def Declaration.columns : Declaration → List ColumnSchema
  | .names declared => declared.map fun name => { name, type := none }
  | .types declared => declared.entries.map fun (name, type) => { name, type }

/-- Keys to group by: columns under their own names, or named expressions. -/
inductive GroupKeys where
  | names (keys : List String)
  | mapping (keys : Record Expr)

/-- A condition, or the names of columns that both sides share. -/
inductive JoinOn where
  | condition (condition : Expr)
  | keys (keys : List String)

/-- The outputs that a mapping of names to expressions describes. -/
def Output.ofRecord (mapping : Record Expr) : List Output :=
  mapping.entries.map fun (name, expr) => { name, expr }

def GroupKeys.outputs : GroupKeys → List Output
  | .names keys =>
      keys.map fun name =>
        let ref := Expr.splitDotted name
        { name := ref.name, expr := .column ref }
  | .mapping keys => Output.ofRecord keys

namespace Plan

/-- A plan that reads one table. -/
def table (name : String) (schema : Option String) (declared : Option Declaration) :
    Except Error Plan :=
  if name.isEmpty then
    .error (.misuse .emptyTableName)
  else
    let columns := declared.map Declaration.columns
    match Names.firstRepeat? ((columns.getD []).map (·.name)) with
    | some column => .error (.misuse (.declaredTwice column))
    | none => .ok (.base { name, schema, columns })

/-- The bare column behind an output of an earlier projection. -/
def passedColumn? (earlier : List Output) (ref : ColumnRef) : Option ColumnRef :=
  match ref.table with
  | some _ => none
  | none => (earlier.find? fun output => output.name == ref.name).bind (·.expr.column?)

/-- One projection in place of two, when every reference of the later one goes
through a bare column of the earlier one and no earlier output goes unused. -/
def mergedOutputs? (earlier later : List Output) : Option (List Output) :=
  let refs := later.flatMap (·.expr.columnRefs)
  if refs.all (fun ref => (passedColumn? earlier ref).isSome) &&
      earlier.all (fun output => refs.any fun ref => ref.name == output.name) then
    some (later.map fun output =>
      { name := output.name
        expr := output.expr.mapColumns .everywhere fun ref =>
          .column ((passedColumn? earlier ref).getD ref) })
  else
    none

/-- Puts out exactly the given columns. -/
def project (plan : Plan) (mapping : Record Expr) : Except Error Plan :=
  let outputs := Output.ofRecord mapping
  if outputs.isEmpty then
    .error (.misuse .emptyProjection)
  else
    match plan with
    | .projected input earlier false =>
        match mergedOutputs? earlier outputs with
        | some merged => .ok (.projected input merged false)
        | none => .ok (.projected plan outputs false)
    | _ => .ok (.projected plan outputs false)

/-- Puts out the named columns under their own names. -/
def select (plan : Plan) (names : List String) : Except Error Plan :=
  plan.project (.ofList (names.map fun name =>
    let ref := Expr.splitDotted name
    (ref.name, .column ref)))

/-- Adds or replaces columns and keeps all others. -/
def mutate (plan : Plan) (mapping : Record Expr) : Plan :=
  .projected plan (Output.ofRecord mapping) true

/-- Gives new names to columns, from new name to old. -/
def rename (plan : Plan) (mapping : Record String) : Except Error Plan :=
  match Names.firstRepeat? (mapping.entries.map Prod.snd) with
  | some column => .error (.misuse (.renamedTwice column))
  | none =>
      let outputs := mapping.entries.map fun (name, column) =>
        { name, expr := Expr.col column, replaces := some column : Output }
      .ok (.projected plan outputs true)

def filter (plan : Plan) (predicate : Expr) : Plan := .filtered plan predicate

/-- Orders the rows; an earlier ordering is forgotten. -/
def sort (plan : Plan) (keys : List SortKey) : Except Error Plan :=
  if keys.isEmpty then .error (.misuse .emptySort) else .ok (.sorted plan keys)

def aggregate (plan : Plan) (keys : GroupKeys) (aggregates : Record Expr) : Except Error Plan :=
  let groupKeys := keys.outputs
  let values := Output.ofRecord aggregates
  if groupKeys.isEmpty && values.isEmpty then
    .error (.misuse .emptyAggregate)
  else
    match Names.firstRepeat? ((groupKeys ++ values).map (·.name)) with
    | some name => .error (.misuse (.definedTwice name))
    | none => .ok (.grouped plan groupKeys values)

/-- The number of rows of each group. -/
def count (plan : Plan) (keys : GroupKeys) (name : String) : Except Error Plan :=
  plan.aggregate keys (.ofList [(name, Expr.count none)])

/-- The condition of a join; keys are compared between the two sides. -/
def joinCondition (left right : Plan) : JoinOn → Except Error Expr
  | .condition condition => .ok condition
  | .keys keys =>
      let comparisons := keys.map fun name =>
        Expr.equal (.column { table := some left.refName, name })
          (.column { table := some right.refName, name })
      match comparisons with
      | [] => .error (.misuse .emptyJoinKeys)
      | [comparison] => .ok comparison
      | first :: second :: rest => .ok (Expr.chain .and first second rest)

def join (plan other : Plan) (kind : JoinKind) (on : JoinOn) : Except Error Plan := do
  return .joined plan other kind (← joinCondition plan other on)

def distinct (plan : Plan) : Plan := .deduplicated plan

/-- Keeps the first rows; the number of them has to be whole and not negative. -/
def limit (plan : Plan) (count : Number) : Except Error Plan :=
  match count.toNat? with
  | some rows => .ok (.limited plan rows)
  | none => .error (.misuse (.badLimit count))

/-- Names a plan for qualified references. -/
def named (plan : Plan) (name : String) : Except Error Plan :=
  if name.isEmpty then .error (.misuse .emptyAlias) else .ok (.aliased plan name)

end Plan

end SqlPlan
