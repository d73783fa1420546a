import SqlPlan.Statement.Step

/-!
# Joining statements

A join reads from two statements at once.  The columns of both sides are
selected, the left ones first: a name that both sides have is prefixed by its
side, and a key that the condition equates between the sides appears once.
Where one side's columns are not declared, it is selected as a whole and the
other side is prefixed throughout.
-/

namespace SqlPlan

/-- One side of a join: its statement, the name that qualifies it, and what it shows. -/
structure JoinInput where
  statement : Statement
  name : String
  scope : Scope

namespace JoinInput

/-- The side as a relation.  Its ordering matters only below a limit. -/
def relation (side : JoinInput) : Relation :=
  let statement :=
    if side.statement.limit.isNone then { side.statement with orderBy := [] } else side.statement
  match statement.wholeTable? with
  | some ref => .table ref (some side.name)
  | none => .subquery statement.source statement.toClauses

/-- A column of the side under the side's name. -/
def prefixedItem (side : JoinInput) (name : String) : SelectItem :=
  .output { name := side.name ++ "_" ++ name, expr := .column { table := some side.name, name } }

end JoinInput

/-- The scope of the clauses of a join. -/
def joinScope (left right : JoinInput) : Scope :=
  { columns := left.scope.tagged left.name ++ right.scope.tagged right.name
    extent := .joined
      (if left.scope.isOpen then some left.name
       else if right.scope.isOpen then some right.name
       else none) }

/-- The names that a condition equates between the two sides, under AND only. -/
def Expr.equatedNames (left right : String) : Expr → List String
  | .binary (.logical .and) first second =>
      first.equatedNames left right ++ second.equatedNames left right
  | .binary (.comparison .equal) (.column first) (.column second) =>
      let tables := [first.table, second.table]
      if first.name = second.name ∧ some left ∈ tables ∧ some right ∈ tables then [first.name]
      else []
  | _ => []

/-- The value of a key that both sides have: that of the side whose rows all
appear, or of whichever side has one. -/
def joinKey (kind : JoinKind) (left right name : String) : Expr :=
  let leftColumn := Expr.column { table := some left, name }
  let rightColumn := Expr.column { table := some right, name }
  match kind with
  | .inner | .left => leftColumn
  | .right => rightColumn
  | .full => .call "coalesce" [leftColumn, rightColumn]

/-- The columns of one side, when the columns of both are known. -/
def joinItems (keys : List String) (side other : JoinInput) (keyItem : String → List SelectItem) :
    List SelectItem :=
  side.scope.names.flatMap fun name =>
    if keys.contains name then keyItem name
    else if other.scope.names.contains name then [side.prefixedItem name]
    else [.ofColumn name]

/-- The columns of one side, when those of the other side are not known. -/
def joinItemsBesideOpen (side : JoinInput) : List SelectItem :=
  if side.scope.isOpen then [.star (some side.name)] else side.scope.names.map side.prefixedItem

def joinSelect (kind : JoinKind) (on : Expr) (left right : JoinInput) : List SelectItem :=
  if left.scope.isOpen || right.scope.isOpen then
    joinItemsBesideOpen left ++ joinItemsBesideOpen right
  else
    let keys := on.equatedNames left.name right.name
    let keyItem := fun name => [.output { name, expr := joinKey kind left.name right.name name }]
    joinItems keys left right keyItem ++ joinItems keys right left fun _ => []

/-- Refuses a condition that reads a column of the open side whose name the
other side declares: the two could not be told apart. -/
def refuseShared (openSide closedSide : JoinInput) (tables : List String) (on : Expr) :
    Except Error Unit :=
  let shared := on.columnRefs.find? fun ref =>
    ref.table == some openSide.name && closedSide.scope.names.contains ref.name
  match shared with
  | some ref =>
      .error (.ambiguous ref.name tables (.sharedBehindStar openSide.name closedSide.name))
  | none => .ok ()

/-- Refuses a join that no names or no dialect can carry. -/
def refuseJoin (dialect : Dialect) (kind : JoinKind) (left right : String) : Except Error Unit :=
  if left = right then
    .error (.ambiguous left [left, right] .sameJoinName)
  else if kind = .full ∧ ¬ dialect.supportsFullJoin then
    .error (.incapable "FULL JOIN" dialect.name none)
  else
    .ok ()

def Statement.join (dialect : Dialect) (kind : JoinKind) (on : Expr) (left right : JoinInput) :
    Except Error Statement := do
  let tables := [left.name, right.name]
  if left.scope.isOpen && right.scope.isOpen then
    .error (.ambiguous "*" tables (.bothSidesOpen left.name right.name))
  let scope := joinScope left right
  on.refuseAggregate dialect
  let on ← on.tryMapColumns .everywhere fun ref => return .column (← scope.resolve [] ref)
  if left.scope.isOpen then
    refuseShared left right tables on
  if right.scope.isOpen then
    refuseShared right left tables on
  let select := joinSelect kind on left right
  SelectItem.requireDistinct tables select
  return {
    source := .join left.relation left.name right.relation right.name kind on
    scope
    qualifiers := []
    select := some select }

end SqlPlan
