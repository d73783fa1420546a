import SqlPlan.Dialect
import SqlPlan.Plan

/-!
# Spelling

The words by which types, operators and kinds of steps are known in data.
Each kind has a list of its members, and a word is read by finding the member
that it spells.
-/

namespace SqlPlan

def DataType.all : List DataType := [.integer, .float, .string, .boolean, .date, .timestamp]

def DataType.word : DataType → String
  | .integer => "integer"
  | .float => "float"
  | .string => "string"
  | .boolean => "boolean"
  | .date => "date"
  | .timestamp => "timestamp"

def DataType.ofWord? (word : String) : Option DataType := all.find? (·.word == word)

/-- An unknown type has a word too. -/
def DataType.wordOf (type : Option DataType) : String := (type.map DataType.word).getD "unknown"

def ReturnType.word : ReturnType → String
  | .type returned => returned.word
  | .unknown => "unknown"
  | .same => "same"

def ReturnType.ofWord? (word : String) : Option ReturnType :=
  (.unknown :: .same :: DataType.all.map .type : List ReturnType).find? (·.word == word)

def NumericMark.all : List NumericMark := [.integer, .float]

def NumericMark.word : NumericMark → String
  | .integer => "integer"
  | .float => "float"

def NumericMark.ofWord? (word : String) : Option NumericMark := all.find? (·.word == word)

def UnaryOp.all : List UnaryOp := [.not, .negate, .isNull, .isNotNull]

def UnaryOp.word : UnaryOp → String
  | .not => "not"
  | .negate => "negate"
  | .isNull => "is_null"
  | .isNotNull => "is_not_null"

def UnaryOp.ofWord? (word : String) : Option UnaryOp := all.find? (·.word == word)

def BinaryOp.all : List BinaryOp :=
  [.arithmetic .add, .arithmetic .sub, .arithmetic .mul, .arithmetic .div, .arithmetic .mod,
    .comparison .equal, .comparison .notEqual, .comparison .less, .comparison .lessEqual,
    .comparison .greater, .comparison .greaterEqual, .comparison .like,
    .logical .and, .logical .or]

def BinaryOp.word : BinaryOp → String
  | .arithmetic .add => "+"
  | .arithmetic .sub => "-"
  | .arithmetic .mul => "*"
  | .arithmetic .div => "/"
  | .arithmetic .mod => "%"
  | .comparison .equal => "="
  | .comparison .notEqual => "!="
  | .comparison .less => "<"
  | .comparison .lessEqual => "<="
  | .comparison .greater => ">"
  | .comparison .greaterEqual => ">="
  | .comparison .like => "like"
  | .logical .and => "and"
  | .logical .or => "or"

def BinaryOp.ofWord? (word : String) : Option BinaryOp := all.find? (·.word == word)

def JoinKind.all : List JoinKind := [.inner, .left, .right, .full]

def JoinKind.word : JoinKind → String
  | .inner => "inner"
  | .left => "left"
  | .right => "right"
  | .full => "full"

def JoinKind.ofWord? (word : String) : Option JoinKind := all.find? (·.word == word)

def Direction.word : Direction → String
  | .ascending => "asc"
  | .descending => "desc"

def Direction.ofWord? (word : String) : Option Direction :=
  [.ascending, .descending].find? (·.word == word)

/-- The kind of the last step of a plan. -/
def Plan.kindWord : Plan → String
  | .base _ => "table"
  | .projected _ _ _ => "project"
  | .filtered _ _ => "filter"
  | .sorted _ _ => "sort"
  | .grouped _ _ _ => "aggregate"
  | .joined _ _ _ _ => "join"
  | .deduplicated _ => "distinct"
  | .limited _ _ => "limit"
  | .aliased _ _ => "alias"

end SqlPlan
