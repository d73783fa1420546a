import SqlPlan.Statement.Nest

/-!
# Resolving expressions

An expression of a step is written against the names that a statement shows
and has to be written in terms of the statement's source.  Outputs that pass
a column on are replaced by that column; an output that the statement derives
needs a statement around it first, except in an ordering.
-/

namespace SqlPlan

/-- What a reference against a statement's output stands for. -/
inductive Located where
  | source (expr : Expr)
  | derived (output : SelectOutput)

/-- The expression in terms of the source, derived outputs written out. -/
def Located.inlined : Located → Expr
  | .source expr => expr
  | .derived output => output.expr

def Located.isDerived : Located → Bool
  | .source _ => false
  | .derived _ => true

namespace Clauses

/-- A reference that the source itself has to answer. -/
def locateInSource (clauses : Clauses) (ref : ColumnRef) : Except Error Located := do
  return .source (.column (← clauses.scope.resolve clauses.qualifiers ref))

/-- A name among the selected items. -/
def locateOutput (clauses : Clauses) (ref : ColumnRef) : Except Error Located :=
  match clauses.visibleOutputs.find? fun output => output.name == ref.name with
  | some output =>
      match output.expr with
      | .column _ => .ok (.source output.expr)
      | _ => .ok (.derived output)
  | none =>
      match clauses.star? with
      | some table => clauses.locateInSource { table, name := ref.name }
      | none =>
          let sides := clauses.scope.matching ref.name
          if clauses.scope.isJoined ∧ 1 < sides.length then
            let tables := sides.map fun column => column.table.getD ""
            .error (.ambiguous ref.name tables .several)
          else
            .error (.unresolved ref.name clauses.visibleNames .notVisible)

/-- A reference as the statement's output or its join sides answer it. -/
def locate (clauses : Clauses) (ref : ColumnRef) : Except Error Located :=
  match clauses.select, ref.table with
  | none, _ => clauses.locateInSource ref
  | some _, none => clauses.locateOutput ref
  | some _, some table =>
      if clauses.scope.isJoined then
        clauses.locateInSource ref
      else if clauses.qualifiers.contains table then
        clauses.locateOutput ref
      else
        .error (.unresolved ref.display clauses.visibleNames .notVisible)

def isDerived (clauses : Clauses) (ref : ColumnRef) : Bool :=
  match clauses.locate ref with
  | .ok located => located.isDerived
  | .error _ => false

/-- An expression in terms of the source, derived outputs written out. -/
def inlined (clauses : Clauses) (expr : Expr) : Except Error Expr :=
  expr.tryMapColumns .everywhere fun ref => return (← clauses.locate ref).inlined

/-- Expressions in terms of the source, or nothing when one of them reads a
derived output.  Every reference has to be visible in either case. -/
def resolved? (clauses : Clauses) (exprs : List Expr) : Except Error (Option (List Expr)) := do
  let inlined ← exprs.mapM clauses.inlined
  if exprs.any fun expr => expr.columnRefs.any clauses.isDerived then
    return none
  else
    return some inlined

end Clauses

/-- Expressions in terms of the source of a statement, which is nested once
when one of them reads a derived output. -/
def Draft.resolve (dialect : Dialect) (draft : Draft) (exprs : List Expr) :
    Except Error (Draft × List Expr) := do
  match ← draft.statement.resolved? exprs with
  | some resolved => return (draft, resolved)
  | none =>
      let outer := draft.nest dialect
      match ← outer.statement.resolved? exprs with
      | some resolved => return (outer, resolved)
      | none => .error (.misuse .derivedAfterNesting)

/-- Refuses aggregate calls outside an aggregation. -/
def Expr.refuseAggregate (dialect : Dialect) (expr : Expr) : Except Error Unit :=
  match expr.aggregate? with
  | some found => .error (.unsupported found.name dialect.name .aggregateOutside)
  | none => .ok ()

end SqlPlan
