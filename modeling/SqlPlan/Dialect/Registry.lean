import SqlPlan.Dialect.Catalog
import SqlPlan.Dialect.Config

/-!
# Known dialects

The four dialects that are always known, and registries of dialects by name.
A registered name is never given to another dialect.
-/

namespace SqlPlan

namespace Dialect

def postgres : Dialect :=
  Config.resolve
    { name := "postgres"
      reservedWords := Catalog.words "postgres"
      functions := Catalog.functions "postgres"
      truncatesDivision := true
      supportsFullJoin := true }
    '"'

def sqlite : Dialect :=
  Config.resolve
    { name := "sqlite"
      reservedWords := Catalog.words "sqlite"
      functions := Catalog.functions "sqlite"
      truncatesDivision := true
      supportsFullJoin := false
      typeNames :=
        { float := "REAL", string := "TEXT", boolean := "INTEGER", date := "TEXT",
          timestamp := "TEXT" }
      trueText := "1"
      falseText := "0" }
    '"'

def mysql : Dialect :=
  Config.resolve
    { name := "mysql"
      reservedWords := Catalog.words "mysql"
      functions := Catalog.functions "mysql"
      truncatesDivision := false
      supportsFullJoin := false
      quote := "`"
      typeNames :=
        { integer := "SIGNED", float := "DOUBLE", string := "CHAR", boolean := "SIGNED",
          timestamp := "DATETIME" } }
    '\x60'

def ansi : Dialect :=
  Config.resolve
    { name := "ansi"
      reservedWords := Catalog.words "ansi"
      functions := Catalog.functions "ansi"
      truncatesDivision := true
      supportsFullJoin := true
      quoteAll := true }
    '"'

/-- The dialect asked for: none in particular, one by name, or one at hand. -/
inductive Choice where
  | default
  | named (name : String)
  | given (dialect : Dialect)

end Dialect

/-- Dialects in the order of their registration. -/
structure Registry where
  dialects : List Dialect

namespace Registry

def builtin : Registry := ⟨[.postgres, .sqlite, .mysql, .ansi]⟩

def defaultName : String := "postgres"

def names (registry : Registry) : List String := registry.dialects.map (·.name)

def get (registry : Registry) (name : String) : Except Error Dialect :=
  match registry.dialects.find? fun dialect => dialect.name == name with
  | some dialect => .ok dialect
  | none => .error (.dialect (.notRegistered name registry.names))

/-- Defines a dialect under a name that is still free. -/
def register (registry : Registry) (config : Dialect.Config) : Except Error (Dialect × Registry) :=
  if registry.names.contains config.name then
    .error (.dialect (.alreadyRegistered config.name))
  else do
    let dialect ← config.define
    return (dialect, ⟨registry.dialects ++ [dialect]⟩)

def resolve (registry : Registry) : Dialect.Choice → Except Error Dialect
  | .default => registry.get defaultName
  | .named name => registry.get name
  | .given dialect => .ok dialect

end Registry

end SqlPlan
