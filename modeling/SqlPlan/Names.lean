/-!
# Lists of names

The first name of a list that has already occurred before it.
-/

namespace SqlPlan.Names

def repeatAfter? (seen : List String) : List String → Option String
  | [] => none
  | name :: rest => if seen.contains name then some name else repeatAfter? (name :: seen) rest

/-- The first name that repeats an earlier one. -/
def firstRepeat? (names : List String) : Option String := repeatAfter? [] names

end SqlPlan.Names
