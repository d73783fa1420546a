import SqlPlan.Expr.Columns
import SqlPlan.Expr.Equality
import SqlPlan.Expr.Sql
import SqlPlan.Statement

/-!
# Statements as SQL

The text of a statement, clause by clause, with subqueries indented below
their opening parenthesis.  Subqueries are numbered from the outside in; the
sides of a join go by their own names.
-/

namespace SqlPlan

namespace Text

def indentedRest : List Char → List Char
  | [] => []
  | char :: rest =>
      if char = '\n' then '\n' :: ' ' :: ' ' :: indentedRest rest else char :: indentedRest rest

/-- Every line moved two places to the right. -/
def indented (text : String) : String :=
  String.ofList (' ' :: ' ' :: indentedRest text.toList)

end Text

/-- The name of the `count`-th subquery. -/
def subqueryName (count : Nat) : String :=
  (if count < 10 then "q0" else "q") ++ Nat.repr count

def JoinKind.keyword : JoinKind → String
  | .inner => "INNER JOIN"
  | .left => "LEFT JOIN"
  | .right => "RIGHT JOIN"
  | .full => "FULL JOIN"

/-- A predicate beside others; a logical group has parentheses already. -/
def Expr.groupedText (expr : Expr) (text : String) : String :=
  if expr.isLogical then text else Expr.parenthesized text

def TableRef.text (dialect : Dialect) (shownAs : Option String) (table : TableRef) : String :=
  let name := dialect.qualified table.schema table.name
  match shownAs with
  | none => name
  | some shownAs =>
      if shownAs = table.name then name else name ++ " AS " ++ dialect.identifier shownAs

namespace Clauses

/-- How expressions over the scope of a statement are written. -/
def setting (dialect : Dialect) (clauses : Clauses) : Expr.Setting :=
  { dialect, columnType := clauses.scope.columnType }

def itemText (dialect : Dialect) (clauses : Clauses) : SelectItem → Except Error String
  | .star none => .ok "*"
  | .star (some table) => .ok (dialect.identifier table ++ ".*")
  | .output output => do
      let text ← output.expr.sql (clauses.setting dialect) clauses.isGrouped
      if output.expr.column?.any fun ref => ref.name == output.name then
        return text
      else
        return text ++ " AS " ++ dialect.identifier output.name

def itemTexts (dialect : Dialect) (clauses : Clauses) : Except Error (List String) :=
  match clauses.select with
  | none => .ok ["*"]
  | some items => items.mapM (clauses.itemText dialect)

def selectText (dialect : Dialect) (clauses : Clauses) : Except Error String := do
  let items ← clauses.itemTexts dialect
  return "SELECT " ++ (if clauses.distinct then "DISTINCT " else "") ++ ", ".intercalate items

/-- Names that an ordering would take for an output, although a source column has them too. -/
def shadowedNames (clauses : Clauses) : List String :=
  (clauses.outputs.filter fun output =>
    !output.expr.column?.any fun ref => ref.name == output.name).map (·.name)

/-- The qualifier that tells a source column from an output of its name: that
of a single source, or the side of a join that has the column. -/
def sourceQualifier? (clauses : Clauses) (qualifier : Option String) (name : String) :
    Option String :=
  qualifier
    |>.or ((clauses.scope.columns.find? fun column => column.name == name).bind (·.table))
    |>.or clauses.scope.openSide?

/-- An ordering key whose source columns cannot be mistaken for outputs. -/
def unshadowed (clauses : Clauses) (qualifier : Option String) (key : Expr) : Expr :=
  key.mapColumns .everywhere fun ref =>
    if ref.table.isNone && clauses.shadowedNames.contains ref.name then
      .column { ref with table := clauses.sourceQualifier? qualifier ref.name }
    else
      .column ref

/-- An ordering key; one that is a derived output goes by the output's name. -/
def keyText (dialect : Dialect) (qualifier : Option String) (clauses : Clauses) (key : SortKey) :
    Except Error String := do
  let derived := clauses.outputs.find? fun output =>
    output.expr.column?.isNone && output.expr.same key.expr
  let text ← match derived with
    | some output => .ok (dialect.identifier output.name)
    | none =>
        (clauses.unshadowed qualifier key.expr).sql (clauses.setting dialect) clauses.isGrouped
  return match key.direction with
    | .ascending => text
    | .descending => text ++ " DESC"

def conditionText (dialect : Dialect) (clauses : Clauses) (condition : Expr) :
    Except Error String := do
  let text ← condition.sql (clauses.setting dialect) false
  return if clauses.conditions.length = 1 then text else condition.groupedText text

/-- A clause whose parts stand between separators, or nothing without parts. -/
def clauseLines (keyword separator : String) (parts : List String) : List String :=
  if parts.isEmpty then [] else [keyword ++ " " ++ separator.intercalate parts]

/-- The clauses after FROM, one a line. -/
def tailLines (dialect : Dialect) (qualifier : Option String) (clauses : Clauses) :
    Except Error (List String) := do
  let conditions ← clauses.conditions.mapM (clauses.conditionText dialect)
  let groups ← (clauses.grouping.getD []).mapM fun key => key.sql (clauses.setting dialect) false
  let keys ← clauses.orderBy.mapM (clauses.keyText dialect qualifier)
  let limit := clauses.limit.toList.map fun count => "LIMIT " ++ (Number.ofNat count).text
  return clauseLines "WHERE" " AND " conditions ++ clauseLines "GROUP BY" ", " groups ++
    clauseLines "ORDER BY" ", " keys ++ limit

def statementText (select source : String) (tail : List String) : String :=
  "\n".intercalate (select :: ("FROM " ++ source) :: tail)

end Clauses

mutual

/-- How many subqueries below a relation are numbered; its own name is given elsewhere. -/
def Relation.numbered : Relation → Nat
  | .table _ _ => 0
  | .subquery source _ => source.numbered

def Source.numbered : Source → Nat
  | .relation (.table _ _) => 0
  | .relation (.subquery source _) => source.numbered + 1
  | .join left _ right _ _ _ => left.numbered + right.numbered

end

def subqueryText (dialect : Dialect) (name inner : String) : String :=
  "(\n" ++ Text.indented inner ++ "\n) AS " ++ dialect.identifier name

mutual

/-- A relation under the given name, after `used` numbered subqueries. -/
def Relation.text (dialect : Dialect) (name : String) (used : Nat) : Relation → Except Error String
  | .table ref _ => .ok (ref.text dialect (some name))
  | .subquery source clauses => do
      return subqueryText dialect name (← source.text dialect used clauses)

/-- The statement of a source and its clauses, after `used` numbered subqueries. -/
def Source.text (dialect : Dialect) (used : Nat) (clauses : Clauses) : Source → Except Error String
  | .relation (.table ref shownAs) => do
      let select ← clauses.selectText dialect
      let tail ← clauses.tailLines dialect (some (shownAs.getD ref.name))
      return Clauses.statementText select (ref.text dialect shownAs) tail
  | .relation (.subquery source inner) => do
      let select ← clauses.selectText dialect
      let name := subqueryName (used + 1)
      let relation := subqueryText dialect name (← source.text dialect (used + 1) inner)
      let tail ← clauses.tailLines dialect (some name)
      return Clauses.statementText select relation tail
  | .join left leftName right rightName kind on => do
      let select ← clauses.selectText dialect
      let leftText ← left.text dialect leftName used
      let rightText ← right.text dialect rightName (used + left.numbered)
      let onText ← on.sql (clauses.setting dialect) false
      let joined :=
        leftText ++ "\n" ++ kind.keyword ++ " " ++ rightText ++ " ON " ++ on.groupedText onText
      let tail ← clauses.tailLines dialect none
      return Clauses.statementText select joined tail

end

def Statement.sql (dialect : Dialect) (statement : Statement) : Except Error String :=
  statement.source.text dialect 0 statement.toClauses

/-! ## Tables -/

mutual

def Relation.tables : Relation → List TableRef
  | .table ref _ => [ref]
  | .subquery source _ => source.tables

/-- The base tables of a source from left to right. -/
def Source.tables : Source → List TableRef
  | .relation relation => relation.tables
  | .join left _ right _ _ _ => left.tables ++ right.tables

end

def TableRef.isNamesake (first second : TableRef) : Bool :=
  first.name == second.name && first.schema == second.schema

/-- Of tables with one name and schema only the first. -/
def TableRef.firsts (seen : List TableRef) : List TableRef → List TableRef
  | [] => []
  | table :: rest =>
      if seen.any table.isNamesake then firsts seen rest else table :: firsts (table :: seen) rest

/-- The base tables that a statement reads, in the order in which it first names them. -/
def Statement.tables (statement : Statement) : List TableRef :=
  TableRef.firsts [] statement.source.tables

end SqlPlan
