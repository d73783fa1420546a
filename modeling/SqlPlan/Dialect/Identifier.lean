import SqlPlan.Dialect
import SqlPlan.Text.Quoted

/-!
# Identifiers

A name is written bare when it is a plain lower-case identifier that the
dialect does not reserve, so that dialects which fold case keep it intact,
and in quotes otherwise.
-/

namespace SqlPlan

namespace Text

def isPlainStart (char : Char) : Bool :=
  char.isLower || char == '_'

def isPlainPart (char : Char) : Bool :=
  char.isLower || char.isDigit || char == '_'

def isPlainIdentifier (name : String) : Bool :=
  match name.toList with
  | [] => false
  | first :: rest => isPlainStart first && rest.all isPlainPart

end Text

namespace Dialect

def isReserved (dialect : Dialect) (name : String) : Bool :=
  dialect.reservedWords.contains (Text.upper name)

def needsQuotes (dialect : Dialect) (name : String) : Bool :=
  dialect.quoteAll || !Text.isPlainIdentifier name || dialect.isReserved name

def identifier (dialect : Dialect) (name : String) : String :=
  if dialect.needsQuotes name then Text.quoted dialect.quote name else name

/-- A name behind its qualifier. -/
def qualified (dialect : Dialect) (qualifier : Option String) (name : String) : String :=
  match qualifier with
  | none => dialect.identifier name
  | some qualifier => dialect.identifier qualifier ++ "." ++ dialect.identifier name

end Dialect

end SqlPlan
