import SqlPlan.Dialect
import SqlPlan.Error
import SqlPlan.Text.Blank
import SqlPlan.Text.Units

/-!
# Defining dialects

A dialect is defined by a configuration, which is checked in order: the name,
the quote character, and then the templates of the functions.
-/

namespace SqlPlan.Dialect

structure Config where
  name : String
  reservedWords : List String
  functions : Record FunctionEntry
  truncatesDivision : Bool
  supportsFullJoin : Bool
  quoteAll : Bool := false
  quote : String := "\""
  typeNames : TypeNames := {}
  trueText : String := "TRUE"
  falseText : String := "FALSE"

namespace Config

/-- Names start with a lower-case letter and have at most sixty-four letters,
digits, underscores and hyphens. -/
def isName (name : String) : Bool :=
  match name.toList with
  | [] => false
  | first :: rest =>
      first.isLower && rest.length ≤ 63 &&
        rest.all fun char => char.isLower || char.isDigit || char == '_' || char == '-'

/-- Words in upper case, each once. -/
def normalWords (words : List String) : List String :=
  (words.map Text.upper).eraseDups

/-- Function names in lower case; of two that become one the later stays. -/
def normalFunctions (functions : Record FunctionEntry) : Record FunctionEntry :=
  .ofList (functions.entries.map fun (name, entry) => (Text.lower name, entry))

/-- The dialect that a configuration describes, given its quote character. -/
def resolve (config : Config) (quote : Char) : Dialect where
  name := config.name
  reservedWords := normalWords config.reservedWords
  functions := normalFunctions config.functions
  truncatesDivision := config.truncatesDivision
  supportsFullJoin := config.supportsFullJoin
  quoteAll := config.quoteAll
  quote := quote
  typeNames := config.typeNames
  trueText := config.trueText
  falseText := config.falseText

def define (config : Config) : Except Error Dialect :=
  if !isName config.name then
    .error (.dialect (.badName config.name))
  else
    match Text.singleUnit? config.quote with
    | none => .error (.dialect (.badQuote config.name))
    | some quote =>
        match config.functions.entries.find? fun (_, entry) => Text.isBlank entry.template with
        | some (name, _) => .error (.dialect (.emptyTemplate name))
        | none => .ok (config.resolve quote)

end Config

end SqlPlan.Dialect
