import SqlPlan.Error
import SqlPlan.Expr

/-!
# Scopes

The columns that the clauses of a statement may name.  A statement reads from
a single relation or from the two sides of a join; a scope is open where
columns were never declared, and then any name may stand for one of them.
-/

namespace SqlPlan

/-- A column that can be named; columns of a join carry their side. -/
structure ScopeColumn where
  name : String
  table : Option String := none
  type : Option DataType
deriving DecidableEq

def ScopeColumn.ref (column : ScopeColumn) : ColumnRef :=
  { table := column.table, name := column.name }

inductive Scope.Extent where
  /-- One relation, with undeclared columns when open. -/
  | single (isOpen : Bool)
  /-- Two sides, at most one of them with undeclared columns. -/
  | joined (openSide : Option String)
deriving DecidableEq

structure Scope where
  columns : List ScopeColumn
  extent : Scope.Extent
deriving DecidableEq

namespace Scope

def isOpen (scope : Scope) : Bool :=
  match scope.extent with
  | .single isOpen => isOpen
  | .joined openSide => openSide.isSome

def isJoined (scope : Scope) : Bool :=
  match scope.extent with
  | .single _ => false
  | .joined _ => true

def openSide? (scope : Scope) : Option String :=
  match scope.extent with
  | .single _ => none
  | .joined openSide => openSide

def names (scope : Scope) : List String := scope.columns.map (·.name)

/-- The columns as a message lists them. -/
def listed (scope : Scope) : List String :=
  if scope.isJoined then scope.columns.map (·.ref.display) else scope.names

/-- The columns as those of one side of a join. -/
def tagged (scope : Scope) (side : String) : List ScopeColumn :=
  scope.columns.map fun column => { column with table := some side }

/-- The columns with the given name. -/
def matching (scope : Scope) (name : String) : List ScopeColumn :=
  scope.columns.filter fun column => column.name == name

/-- A reference to a single relation loses its qualifier, which has to be one
of the names of the relation. -/
def resolveSingle (scope : Scope) (isOpen : Bool) (qualifiers : List String) (ref : ColumnRef) :
    Except Error ColumnRef :=
  match ref.table with
  | some table =>
      if qualifiers.contains table then unqualified
      else .error (.unresolved ref.display scope.listed .notVisible)
  | none => unqualified
where
  unqualified : Except Error ColumnRef :=
    if isOpen || scope.names.contains ref.name then .ok { name := ref.name }
    else .error (.unresolved ref.name scope.listed .notVisible)

/-- A reference into a join keeps or gets a qualifier whenever an undeclared
column of the open side could have its name. -/
def resolveJoined (scope : Scope) (openSide : Option String) (ref : ColumnRef) :
    Except Error ColumnRef :=
  match ref.table with
  | some table =>
      if scope.columns.any (fun column => column.ref == ref) || openSide == some table then .ok ref
      else .error (.unresolved ref.display scope.listed .notVisible)
  | none =>
      match scope.matching ref.name, openSide with
      | _ :: _ :: _, _ =>
          let tables := (scope.matching ref.name).map fun column => column.table.getD ""
          .error (.ambiguous ref.name tables .several)
      | [_], none => .ok ref
      | [column], some side => .ok { ref with table := some (column.table.getD side) }
      | [], some side => .ok { ref with table := some side }
      | [], none => .error (.unresolved ref.name scope.listed .notVisible)

/-- The reference as the clauses of a statement over this scope write it. -/
def resolve (scope : Scope) (qualifiers : List String) (ref : ColumnRef) : Except Error ColumnRef :=
  match scope.extent with
  | .single isOpen => scope.resolveSingle isOpen qualifiers ref
  | .joined openSide => scope.resolveJoined openSide ref

/-- The type of the column that a reference names, where it is known. -/
def columnType (scope : Scope) (ref : ColumnRef) : Option DataType :=
  let hit := scope.columns.find? fun column =>
    column.name == ref.name &&
      (ref.table.isNone || column.table.isNone || column.table == ref.table)
  hit.bind (·.type)

end Scope

end SqlPlan
