import SqlPlan.Expr
import SqlPlan.Record
import SqlPlan.Text.Case

/-!
# Dialects

What differs between the SQL of one database and another: the words that must
be quoted, the functions and their templates, the names of types and of the
truth values, and a few rules that hold or do not.
-/

namespace SqlPlan

/-- The type that a function returns; `same` is that of its first argument. -/
inductive ReturnType where
  | type (type : DataType)
  | unknown
  | same
deriving DecidableEq

/-- How a function is written.  Fields that were not given stay absent. -/
structure FunctionEntry where
  template : String
  returns : Option ReturnType := none
  aggregate : Option Bool := none
deriving DecidableEq

def FunctionEntry.isAggregate (entry : FunctionEntry) : Bool :=
  entry.aggregate == some true

structure TypeNames where
  integer : String := "INTEGER"
  float : String := "DOUBLE PRECISION"
  string : String := "VARCHAR"
  boolean : String := "BOOLEAN"
  date : String := "DATE"
  timestamp : String := "TIMESTAMP"
deriving DecidableEq

def TypeNames.get (names : TypeNames) : DataType → String
  | .integer => names.integer
  | .float => names.float
  | .string => names.string
  | .boolean => names.boolean
  | .date => names.date
  | .timestamp => names.timestamp

structure Dialect where
  name : String
  /-- In upper case, none twice. -/
  reservedWords : List String
  /-- By names in lower case. -/
  functions : Record FunctionEntry
  /-- Whether `/` drops the fraction of a quotient of integers. -/
  truncatesDivision : Bool
  supportsFullJoin : Bool
  quoteAll : Bool
  quote : Char
  typeNames : TypeNames
  trueText : String
  falseText : String

namespace Dialect

def truthText (dialect : Dialect) (truth : Bool) : String :=
  if truth then dialect.trueText else dialect.falseText

/-- The entry of a function, whose name is looked up in lower case. -/
def function? (dialect : Dialect) (name : String) : Option FunctionEntry :=
  dialect.functions.get? (Text.lower name)

end Dialect

end SqlPlan
