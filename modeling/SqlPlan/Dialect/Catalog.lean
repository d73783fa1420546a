import SqlPlan.Dialect.Catalog.Functions
import SqlPlan.Dialect.Catalog.Words
import SqlPlan.Error
import SqlPlan.Spelling

/-!
# The catalogue

Functions and reserved words come in sections: one that all dialects share
and one for each dialect.  A dialect takes the shared section and then its
own, whose entries replace or remove the shared ones.  Sections are the known
ones or are read from data.  They are the fields of an object, so a dialect
that goes by the name of a method has no section that can be read.
-/

namespace SqlPlan.Catalog

/-- The sections that make up a dialect, in the order in which they apply. -/
def sectionKeys (dialect : String) : List String := ["common", dialect]

def applySection (functions : Record FunctionEntry) (entries : FunctionSection) :
    Record FunctionEntry :=
  entries.foldl
    (fun functions (name, entry) =>
      match entry with
      | some entry => if name = Data.parentName then functions else functions.insert name entry
      | none => functions.erase name)
    functions

/-- The functions of a known dialect. -/
def functions (dialect : String) : Record FunctionEntry :=
  (sectionKeys dialect).foldl
    (fun functions key => applySection functions ((functionSections.lookup key).getD []))
    Record.empty

/-- The words of a known dialect. -/
def words (dialect : String) : List String :=
  (sectionKeys dialect).flatMap fun key => (wordSections.lookup key).getD []

/-! ## Reading -/

/-- The return type of an entry, if the entry gives one. -/
def readReturns (function : String) : Option Data → Except Error (Option ReturnType)
  | none => .ok none
  | some returned =>
      let known := match returned with
        | .text name => ReturnType.ofWord? name
        | _ => none
      match known with
      | some type => .ok (some type)
      | none =>
          if returned.hasDisplay then
            .error (.dialect (.badReturnType function returned.display))
          else
            .error .undisplayable

def readEntry (function : String) (data : Data) : Except Error FunctionEntry := do
  let template ← match data.field? "template" with
    | some (.text template) => .ok template
    | _ => .error (.dialect (.missingTemplate function))
  let returns ← readReturns function (data.field? "returns")
  let aggregate := match data.field? "aggregate" with
    | some (.boolean true) => some true
    | _ => none
  return { template, returns, aggregate }

def readFunctionSection (key : String) : Option Data.Held → Except Error FunctionSection
  | none => .ok []
  | some (.value (.object fields)) =>
      fields.mapM fun (name, field) =>
        match field with
        | .null => .ok (name, none)
        | field => return (name, some (← readEntry name field))
  | some _ => .error (.dialect (.functionSection key))

/-- The functions of a dialect whose sections are found by their keys. -/
def collectFunctions (sectionAt : String → Except Error FunctionSection) (dialect : String) :
    Except Error (Record FunctionEntry) :=
  (sectionKeys dialect).foldlM
    (fun functions key => return applySection functions (← sectionAt key))
    Record.empty

/-- The functions of a dialect of any name, as far as the known sections tell. -/
def lookupFunctions (dialect : String) : Except Error (Record FunctionEntry) :=
  collectFunctions
    (fun key =>
      match functionSections.lookup key with
      | some entries => .ok entries
      | none => readFunctionSection key (Data.unlisted key))
    dialect

def readFunctions (data : Data) (dialect : String) : Except Error (Record FunctionEntry) :=
  if data.isObject then
    collectFunctions (fun key => readFunctionSection key (data.lookup key)) dialect
  else
    .error (.dialect .functionsNotObject)

def readWord? : Data → Option String
  | .text word => some word
  | _ => none

def readWordSection (key : String) : Option Data.Held → Except Error (List String)
  | none => .ok []
  | some (.value (.list items)) =>
      match items.mapM readWord? with
      | some words => .ok words
      | none => .error (.dialect (.wordSection key))
  | some _ => .error (.dialect (.wordSection key))

/-- The words of a dialect whose sections are found by their keys. -/
def collectWords (sectionAt : String → Except Error (List String)) (dialect : String) :
    Except Error (List String) :=
  return (← (sectionKeys dialect).mapM sectionAt).flatten

/-- The words of a dialect of any name, as far as the known sections tell. -/
def lookupWords (dialect : String) : Except Error (List String) :=
  collectWords
    (fun key =>
      match wordSections.lookup key with
      | some words => .ok words
      | none => readWordSection key (Data.unlisted key))
    dialect

def readWords (data : Data) (dialect : String) : Except Error (List String) :=
  if data.isObject then
    collectWords (fun key => readWordSection key (data.lookup key)) dialect
  else
    .error (.dialect .wordsNotObject)

end SqlPlan.Catalog
