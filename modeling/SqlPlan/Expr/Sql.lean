import SqlPlan.Dialect.Identifier
import SqlPlan.Dialect.Template
import SqlPlan.Error
import SqlPlan.Expr.Typing

/-!
# Expressions as SQL

The text of an expression in a dialect.  Operators are parenthesised by
strength, chains of one logical operator become one group, comparisons with
null become null tests, and a quotient of integers is cast where the dialect
would truncate it.  Writing fails on functions the dialect does not map,
on aggregates where none may stand, and on numbers without a literal.
-/

namespace SqlPlan

def ArithmeticOp.symbol : ArithmeticOp → String
  | .add => "+"
  | .sub => "-"
  | .mul => "*"
  | .div => "/"
  | .mod => "%"

def ComparisonOp.symbol : ComparisonOp → String
  | .equal => "="
  | .notEqual => "<>"
  | .less => "<"
  | .lessEqual => "<="
  | .greater => ">"
  | .greaterEqual => ">="
  | .like => "LIKE"

def LogicalOp.symbol : LogicalOp → String
  | .and => "AND"
  | .or => "OR"

def ArithmeticOp.strength : ArithmeticOp → Nat
  | .mul | .div | .mod => 5
  | .add | .sub => 4

/-- How tightly an operator binds; logical groups carry their own parentheses. -/
def BinaryOp.strength : BinaryOp → Nat
  | .logical _ => 6
  | .arithmetic op => op.strength
  | .comparison _ => 3

def NativeAggregate.symbol : NativeAggregate → String
  | .count => "COUNT"
  | .sum => "SUM"
  | .mean => "AVG"
  | .min => "MIN"
  | .max => "MAX"
  | .inherited held => held.display

namespace Expr

/-- Where an expression is written: the dialect and the types of the columns. -/
structure Setting where
  dialect : Dialect
  columnType : ColumnRef → Option DataType := fun _ => none

/-- The text of an expression; a group of AND or OR also keeps its operands apart. -/
structure Fragment where
  text : String
  group : Option (LogicalOp × List String) := none

/-- The operands that a fragment brings into a group of `op`. -/
def Fragment.operands (op : LogicalOp) (fragment : Fragment) : List String :=
  match fragment.group with
  | some (op', operands) => if op' = op then operands else [fragment.text]
  | none => [fragment.text]

def parenthesized (text : String) : String := "(" ++ text ++ ")"

def isLogical : Expr → Bool
  | .binary (.logical _) _ _ => true
  | _ => false

def isComparison : Expr → Bool
  | .binary (.comparison _) _ _ => true
  | _ => false

/-- The operand of a test: only a comparison needs parentheses. -/
def testOperand (operand : Expr) (text : String) : String :=
  if operand.isComparison then parenthesized text else text

/-- The operand of an operator: a weaker operator needs parentheses, one of
equal strength does on the right, and comparisons do not chain. -/
def operandText (op : BinaryOp) (onRight : Bool) (operand : Expr) (text : String) : String :=
  match operand with
  | .binary inner _ _ =>
      let outerStrength := op.strength
      let innerStrength := inner.strength
      if innerStrength = 6 then text
      else if innerStrength < outerStrength ∨ (onRight ∧ innerStrength = outerStrength) ∨
          (outerStrength = 3 ∧ innerStrength = 3) then
        parenthesized text
      else text
  | _ => text

def literalText (dialect : Dialect) (literal : Literal) : Except Error String :=
  match literal.value with
  | .null => .ok "NULL"
  | .boolean truth => .ok (dialect.truthText truth)
  | .number number =>
      if number.isFinite then
        .ok (if literal.mark = some .float ∧ number.isInteger then number.text ++ ".0"
          else number.text)
      else
        .error (.unsupported number.text dialect.name .numericLiteral)
  | .text text => .ok (Text.quoted '\'' text)

def nullTest (isNull : Bool) (operand : String) : String :=
  operand ++ (if isNull then " IS NULL" else " IS NOT NULL")

def unaryText (op : UnaryOp) (arg : Expr) (text : String) : String :=
  match op with
  | .not => if arg.isLogical then "NOT " ++ text else "NOT(" ++ text ++ ")"
  | .negate =>
      match arg with
      | .column _ => "-" ++ text
      | _ => "-(" ++ text ++ ")"
  | .isNull => nullTest true (testOperand arg text)
  | .isNotNull => nullTest false (testOperand arg text)

/-- The texts of the values of a membership test that are not null. -/
def memberValues (dialect : Dialect) (values : List Literal) : Except Error (List String) :=
  (values.filter fun value => !value.isNull).mapM (literalText dialect)

/-- A membership test; a null among the values becomes a null test beside the list. -/
def memberText (dialect : Dialect) (arg : String) (values : List String) (hasNull negated : Bool) :
    String :=
  if values.isEmpty then
    if hasNull then nullTest (!negated) arg else dialect.truthText negated
  else
    let list := arg ++ (if negated then " NOT IN (" else " IN (") ++ ", ".intercalate values ++ ")"
    if hasNull then
      parenthesized (list ++ (if negated then " AND " else " OR ") ++ nullTest (!negated) arg)
    else
      list

/-- The entry of a function that may be called here. -/
def lookupFunction (dialect : Dialect) (aggregates : Bool) (name : String) :
    Except Error FunctionEntry :=
  match dialect.function? name with
  | none => .error (.unsupported name dialect.name .unmapped)
  | some entry =>
      if entry.isAggregate && !aggregates then
        .error (.unsupported name dialect.name .aggregateOutside)
      else
        .ok entry

def fillTemplate (dialect : Dialect) (name template : String) (args : List String) :
    Except Error String :=
  match Template.fill template args with
  | .ok text => .ok text
  | .error slot => .error (.unsupported name dialect.name (.missingArgument slot args.length))

/-- The text of an aggregate call whose argument is written already. -/
def aggregateText (dialect : Dialect) (name : String) (arg : Option String) (distinct : Bool) :
    Except Error String :=
  match NativeAggregate.ofName? name, arg with
  | some .count, none => .ok "COUNT(*)"
  | some _, none => .error (.unsupported name dialect.name .aggregateArgument)
  | some native, some arg =>
      .ok (native.symbol ++ (if distinct then "(DISTINCT " else "(") ++ arg ++ ")")
  | none, arg => do
      let entry ← lookupFunction dialect true name
      if !entry.isAggregate then
        .error (.unsupported name dialect.name .notAggregate)
      else if distinct then
        .error (.unsupported name dialect.name .aggregateDistinct)
      else
        fillTemplate dialect name entry.template arg.toList

def castText (dialect : Dialect) (text : String) (type : DataType) : String :=
  "CAST(" ++ text ++ " AS " ++ dialect.typeNames.get type ++ ")"

/-- Whether a division has to be cast so as not to lose its fraction. -/
def castsDivision (setting : Setting) (op : ArithmeticOp) (left right : Expr) : Bool :=
  op == .div && setting.dialect.truncatesDivision &&
    left.type? setting.dialect setting.columnType == some .integer &&
    right.type? setting.dialect setting.columnType == some .integer

mutual

def fragment (setting : Setting) (aggregates : Bool) : Expr → Except Error Fragment
  | .column ref => .ok { text := setting.dialect.qualified ref.table ref.name }
  | .literal constant => do return { text := ← literalText setting.dialect constant }
  | .unary op arg => do
      let text := (← arg.fragment setting aggregates).text
      return { text := unaryText op arg text }
  | .binary (.logical op) left right => do
      let leftOperands := (← left.fragment setting aggregates).operands op
      let rightOperands := (← right.fragment setting aggregates).operands op
      let operands := leftOperands ++ rightOperands
      let joined := (" " ++ op.symbol ++ " ").intercalate operands
      return { text := parenthesized joined, group := some (op, operands) }
  | .binary (.comparison op) left right =>
      if (op = .equal ∨ op = .notEqual) ∧ right.isNullLiteral then
        if left.isNullLiteral then
          .ok { text := setting.dialect.truthText (op == .equal) }
        else do
          let text := (← left.fragment setting aggregates).text
          return { text := nullTest (op == .equal) (testOperand left text) }
      else if (op = .equal ∨ op = .notEqual) ∧ left.isNullLiteral then do
        let text := (← right.fragment setting aggregates).text
        return { text := nullTest (op == .equal) (testOperand right text) }
      else do
        let leftText := (← left.fragment setting aggregates).text
        let rightText := (← right.fragment setting aggregates).text
        return { text :=
          operandText (.comparison op) false left leftText ++ " " ++ op.symbol ++ " " ++
            operandText (.comparison op) true right rightText }
  | .binary (.arithmetic op) left right => do
      let leftText := (← left.fragment setting aggregates).text
      let rightText := (← right.fragment setting aggregates).text
      let dividend :=
        if castsDivision setting op left right then castText setting.dialect leftText .float
        else operandText (.arithmetic op) false left leftText
      return { text :=
        dividend ++ " " ++ op.symbol ++ " " ++
          operandText (.arithmetic op) true right rightText }
  | .member arg values negated => do
      let text := testOperand arg (← arg.fragment setting aggregates).text
      let texts ← memberValues setting.dialect values
      return { text := memberText setting.dialect text texts (values.any Literal.isNull) negated }
  | .call name args => do
      let entry ← lookupFunction setting.dialect aggregates name
      let argTexts ← texts setting aggregates args
      return { text := ← fillTemplate setting.dialect name entry.template argTexts }
  | .case branches none => do
      let texts ← branchTexts setting aggregates branches
      return { text := " ".intercalate ("CASE" :: texts ++ ["END"]) }
  | .case branches (some otherwise) => do
      let texts ← branchTexts setting aggregates branches
      let otherwiseText := (← otherwise.fragment setting aggregates).text
      return { text := " ".intercalate ("CASE" :: texts ++ ["ELSE " ++ otherwiseText, "END"]) }
  | .cast arg type => do
      return { text := castText setting.dialect (← arg.fragment setting aggregates).text type }
  | .aggregate name none distinct =>
      if aggregates then do
        return { text := ← aggregateText setting.dialect name none distinct }
      else
        .error (.unsupported name setting.dialect.name .aggregateOutside)
  | .aggregate name (some arg) distinct =>
      if aggregates then do
        let text := (← arg.fragment setting false).text
        return { text := ← aggregateText setting.dialect name (some text) distinct }
      else
        .error (.unsupported name setting.dialect.name .aggregateOutside)

def texts (setting : Setting) (aggregates : Bool) : List Expr → Except Error (List String)
  | [] => .ok []
  | expr :: rest => do
      let text := (← expr.fragment setting aggregates).text
      return text :: (← texts setting aggregates rest)

def branchTexts (setting : Setting) (aggregates : Bool) :
    List (Expr × Expr) → Except Error (List String)
  | [] => .ok []
  | (condition, result) :: rest => do
      let conditionText := (← condition.fragment setting aggregates).text
      let resultText := (← result.fragment setting aggregates).text
      return ("WHEN " ++ conditionText ++ " THEN " ++ resultText) ::
        (← branchTexts setting aggregates rest)

end

/-- The SQL text of an expression; aggregate calls are refused unless allowed. -/
def sql (setting : Setting) (aggregates : Bool) (expr : Expr) : Except Error String :=
  return (← expr.fragment setting aggregates).text

end Expr

end SqlPlan
