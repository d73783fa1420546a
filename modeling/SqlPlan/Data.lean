import SqlPlan.Number.Text

/-!
# Data

The values that rows carry and that catalogues are read from, and the text
that a value shows in a message.
-/

namespace SqlPlan

inductive Data where
  | null
  | boolean (value : Bool)
  | number (value : Number)
  | text (value : String)
  | list (items : List Data)
  | object (fields : List (String × Data))
deriving Inhabited

namespace Data

/-- What an object holds under a name: a value, or one of the methods that it has
without being given them. -/
inductive Held where
  | value (data : Data)
  | method (name : String)

/-- The methods that every object has. -/
def methodNames : List String :=
  ["constructor", "hasOwnProperty", "isPrototypeOf", "propertyIsEnumerable", "toLocaleString",
    "toString", "valueOf", "__defineGetter__", "__defineSetter__", "__lookupGetter__",
    "__lookupSetter__"]

/-- The name under which every object has an object without fields, and under
which nothing can be put into it. -/
def parentName : String := "__proto__"

/-- What an object answers to a name that is none of its fields, if anything. -/
def unlisted (name : String) : Option Held :=
  if methodNames.contains name then some (.method name)
  else if name = parentName then some (.value (.object []))
  else none

/-- The field of an object; other values have none. -/
def field? : Data → String → Option Data
  | .object fields, name => fields.lookup name
  | _, _ => none

/-- The field of an object, or what every object answers. -/
def lookup (data : Data) (name : String) : Option Held :=
  match data.field? name with
  | some value => some (.value value)
  | none => unlisted name

def isObject : Data → Bool
  | .object _ => true
  | _ => false

mutual

/-- Lists show their items between commas, and objects show no fields. -/
def display : Data → String
  | .null => "null"
  | .boolean true => "true"
  | .boolean false => "false"
  | .number value => value.text
  | .text value => value
  | .list items => ",".intercalate (displayItems items)
  | .object _ => "[object Object]"

/-- An item that is null shows nothing. -/
def displayItems : List Data → List String
  | [] => []
  | .null :: rest => "" :: displayItems rest
  | item :: rest => item.display :: displayItems rest

end

/-- The name under which an object answers the method that shows it. -/
def displayName : String := "toString"

mutual

/-- Whether a value can be shown.  An object that has a field in place of the
method that shows it cannot, and neither can a list with such an item. -/
def hasDisplay : Data → Bool
  | .list items => itemsHaveDisplay items
  | .object fields => (fields.lookup displayName).isNone
  | _ => true

def itemsHaveDisplay : List Data → Bool
  | [] => true
  | item :: rest => item.hasDisplay && itemsHaveDisplay rest

end

/-- The method that makes objects shows the name of their kind. -/
def methodTitle (name : String) : String :=
  if name = "constructor" then "Object" else name

/-- Methods show a heading without a body. -/
def Held.display : Held → String
  | .value data => data.display
  | .method name => "function " ++ methodTitle name ++ "() \x7b [native code] \x7d"

end Data

end SqlPlan
