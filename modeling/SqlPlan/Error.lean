import SqlPlan.Data
import SqlPlan.Number.Rounding

/-!
# Errors

Every way in which building, planning, writing or running a query fails is a
cause here; the wording of all of them is one function.
-/

namespace SqlPlan

/-- A step or option that means nothing. -/
inductive Misuse where
  | emptyTableName
  | declaredTwice (column : String)
  | emptyProjection
  | renamedTwice (column : String)
  | emptySort
  | emptyAggregate
  | definedTwice (name : String)
  | emptyJoinKeys
  | badLimit (count : Number)
  | emptyAlias
  | derivedAfterNesting
  | badTimeout (milliseconds : Number)
  | stated (message : String)
deriving DecidableEq

inductive UnresolvedCause where
  | notVisible
  | notGrouped (output : String)
  | stated (message : String)
deriving DecidableEq

inductive UnsupportedCause where
  | unmapped
  | numericLiteral
  | aggregateOutside
  | missingArgument (slot given : Nat)
  | aggregateArgument
  | notAggregate
  | aggregateDistinct
  | stated (message : String)
deriving DecidableEq

inductive AmbiguousCause where
  | several
  | behindStar
  | repeatedOutput
  | sameJoinName
  | bothSidesOpen (left right : String)
  | sharedBehindStar (openSide closedSide : String)
  | stated (message : String)
deriving DecidableEq

/-- A dialect that cannot be defined, found or loaded. -/
inductive DialectFault where
  | badName (name : String)
  | badQuote (name : String)
  | emptyTemplate (function : String)
  | alreadyRegistered (name : String)
  | notRegistered (name : String) (registered : List String)
  | functionsNotObject
  | functionSection (key : String)
  | missingTemplate (function : String)
  | badReturnType (function returned : String)
  | wordsNotObject
  | wordSection (key : String)
  | stated (message : String)
deriving DecidableEq

mutual

inductive Error where
  | misuse (cause : Misuse)
  | unresolved (column : String) (available : List String) (cause : UnresolvedCause)
  | unsupported (expression dialect : String) (cause : UnsupportedCause)
  | ambiguous (column : String) (tables : List String) (cause : AmbiguousCause)
  | incapable (capability dialect : String) (stated : Option String)
  | dialect (fault : DialectFault)
  | execution (sql : String) (fault : ExecutionFault)
  /-- A message was to show a value that cannot be shown. -/
  | undisplayable
  | emptyCase
  | missingColumn (name : String) (columns : List String)

/-- Why a statement that was sent gave no rows. -/
inductive ExecutionFault where
  | timedOut (milliseconds : Number)
  | failed (failure : Failure)
  | stated (message : String) (cause : Failure)

/-- What an executor may fail with: an error of this library, an error of its
own, any value, or nothing at all. -/
inductive Failure where
  | nothing
  | fault (message : String)
  | error (error : Error)
  | value (value : Data)

end

def Misuse.message : Misuse → String
  | .emptyTableName => "table() expects a non-empty table name"
  | .declaredTwice column => s!"Column \"{column}\" is declared twice"
  | .emptyProjection => "project() needs at least one output column"
  | .renamedTwice column => s!"rename() maps \"{column}\" more than once"
  | .emptySort => "sort() needs at least one key"
  | .emptyAggregate => "aggregate() needs at least one group key or aggregate"
  | .definedTwice name => s!"aggregate() defines \"{name}\" more than once"
  | .emptyJoinKeys => "join() needs at least one key column"
  | .badLimit count => "limit() expects a non-negative integer, got " ++ count.text
  | .emptyAlias => "as() expects a non-empty alias"
  | .derivedAfterNesting => "Expression still references a derived column after nesting"
  | .badTimeout milliseconds => "timeoutMs must be a positive number, got " ++ milliseconds.text
  | .stated message => message

def UnresolvedCause.message (column : String) (available : List String) : UnresolvedCause → String
  | .notVisible =>
      let listed := if available.isEmpty then "(none)" else ", ".intercalate available
      s!"Column \"{column}\" is not visible here; available columns: {listed}"
  | .notGrouped output =>
      s!"Column \"{column}\" in \"{output}\" must be a group key or inside an aggregate"
  | .stated message => message

/-- The number of arguments that a template with this slot asks for, as a binary64 sum. -/
def argumentsNeeded (slot : Nat) : Number :=
  match (Number.ofNat slot).toNat? with
  | some index => Number.ofNat (index + 1)
  | none => Number.ofNat slot

def UnsupportedCause.message (expression dialect : String) : UnsupportedCause → String
  | .unmapped => s!"\"{expression}\" has no translation for dialect \"{dialect}\""
  | .numericLiteral => s!"Numeric literal {expression} has no SQL form"
  | .aggregateOutside => s!"Aggregate \"{expression}\" is only allowed inside aggregate()"
  | .missingArgument slot given =>
      let needed := (argumentsNeeded slot).text
      s!"Function \"{expression}\" needs at least {needed} argument(s), got {given}"
  | .aggregateArgument => s!"Aggregate \"{expression}\" needs an argument"
  | .notAggregate => s!"\"{expression}\" is not an aggregate function in dialect \"{dialect}\""
  | .aggregateDistinct => s!"Aggregate \"{expression}\" does not support DISTINCT"
  | .stated message => message

def AmbiguousCause.message (column : String) (tables : List String) : AmbiguousCause → String
  | .several =>
      let listed := ", ".intercalate tables
      s!"Column \"{column}\" is ambiguous between {listed}; qualify it with a table name"
  | .behindStar => s!"Cannot replace column \"{column}\": the columns behind * are not declared"
  | .repeatedOutput =>
      s!"Column \"{column}\" would appear twice in the output; rename or drop one of them first"
  | .sameJoinName => s!"Both join inputs are named \"{column}\"; rename one with as()"
  | .bothSidesOpen left right =>
      s!"Cannot tell which columns \"{left}\" and \"{right}\" share: " ++
        "declare the columns of at least one side"
  | .sharedBehindStar openSide closedSide =>
      s!"Column \"{column}\" exists in both \"{openSide}\" and \"{closedSide}\", " ++
        s!"but the columns of \"{openSide}\" are not declared; " ++
        "declare them or rename the column on one side"
  | .stated message => message

def DialectFault.message : DialectFault → String
  | .badName name =>
      s!"defineDialect: name \"{name}\" must match " ++ "/^[a-z][a-z0-9_-]\x7b0,63\x7d$/"
  | .badQuote name => s!"defineDialect: \"{name}\" identifierQuote must be a single character"
  | .emptyTemplate function => s!"defineDialect: function \"{function}\" has an empty template"
  | .alreadyRegistered name => s!"Dialect \"{name}\" is already registered"
  | .notRegistered name registered =>
      let listed := ", ".intercalate registered
      s!"Unknown dialect \"{name}\"; registered: {listed}"
  | .functionsNotObject => "functions.json: expected an object of function maps"
  | .functionSection key => s!"functions.json: \"{key}\" must be an object"
  | .missingTemplate function =>
      s!"functions.json: function \"{function}\" needs a string \"template\""
  | .badReturnType function returned =>
      s!"functions.json: function \"{function}\" has unknown return type {returned}"
  | .wordsNotObject => "reserved-words.json: expected an object of word lists"
  | .wordSection key => s!"reserved-words.json: \"{key}\" must be an array of strings"
  | .stated message => message

/-- The name that an error goes by in messages. -/
def Error.kindName : Error → String
  | .misuse _ => "LazyQueryError"
  | .unresolved _ _ _ => "UnresolvedColumnError"
  | .unsupported _ _ _ => "UnsupportedExpressionError"
  | .ambiguous _ _ _ => "AmbiguousColumnError"
  | .incapable _ _ _ => "DialectCapabilityError"
  | .dialect _ => "DialectError"
  | .execution _ _ => "ExecutionError"
  | .undisplayable => "TypeError"
  | .emptyCase => "Error"
  | .missingColumn _ _ => "RangeError"

/-- A kind with its message, or the kind alone when there is no message. -/
def headed (kind message : String) : String :=
  if message.isEmpty then kind else s!"{kind}: {message}"

mutual

def Error.message : Error → String
  | .misuse cause => cause.message
  | .unresolved column available cause => cause.message column available
  | .unsupported expression dialect cause => cause.message expression dialect
  | .ambiguous column tables cause => cause.message column tables
  | .incapable capability dialect none =>
      s!"Dialect \"{dialect}\" does not support {capability}"
  | .incapable _ _ (some stated) => stated
  | .dialect fault => fault.message
  | .execution _ fault => fault.message
  | .undisplayable => "Cannot convert object to primitive value"
  | .emptyCase => "caseWhen requires at least one branch"
  | .missingColumn name columns =>
      let listed := ", ".intercalate columns
      s!"Result has no column \"{name}\"; columns: {listed}"

def ExecutionFault.message : ExecutionFault → String
  | .timedOut milliseconds => "Query timed out after " ++ milliseconds.text ++ "ms"
  | .failed failure => "Failed to execute query: " ++ failure.display
  | .stated message _ => message

def Failure.display : Failure → String
  | .nothing => "undefined"
  | .fault message => headed "Error" message
  | .error error => headed error.kindName error.message
  | .value value => value.display

end

def Error.display (error : Error) : String := headed error.kindName error.message

/-- Whether a failure can be shown; errors always can. -/
def Failure.hasDisplay : Failure → Bool
  | .value held => held.hasDisplay
  | _ => true

/-- Whether an error is one that queries raise, rather than one of the caller's. -/
def Error.isQueryError : Error → Bool
  | .undisplayable | .emptyCase | .missingColumn _ _ => false
  | _ => true

/-- What an execution error came from; other errors came from nothing. -/
def Error.cause : Error → Failure
  | .execution _ (.failed failure) => failure
  | .execution _ (.stated _ failure) => failure
  | _ => .nothing

/-- The execution error that a failure causes; its message has to show the failure. -/
def Failure.executionError (sql : String) (failure : Failure) : Error :=
  if failure.hasDisplay then .execution sql (.failed failure) else .undisplayable

end SqlPlan
