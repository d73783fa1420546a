import SqlPlan.Proofs.Reading.Token

/-!
# Reading tokens by precedence

A reader of operators with a stack: what stands to the left waits until an
operator comes that binds less tightly.  What a bracket encloses is read when the
bracket closes.
-/

namespace SqlPlan

/-- How tightly operators bind. -/
structure Grammar where
  /-- Whether LIKE binds more tightly than the comparisons. -/
  tightLike : Bool

namespace Grammar

def strength (grammar : Grammar) : BinaryOp → Nat
  | .logical .or => 1
  | .logical .and => 2
  | .comparison .like => if grammar.tightLike then 6 else 5
  | .comparison _ => 5
  | .arithmetic .add | .arithmetic .sub => 7
  | .arithmetic .mul | .arithmetic .div | .arithmetic .mod => 8

def notStrength : Nat := 3

def testStrength : Nat := 4

def listStrength : Nat := 6

def negateStrength : Nat := 9

/-- Above all operators. -/
def closedStrength : Nat := 10

def chains : BinaryOp → Bool
  | .comparison _ => false
  | _ => true

/-- How tightly an operand has to be bound to stand on the left. -/
def limit (grammar : Grammar) (op : BinaryOp) : Nat :=
  if chains op then grammar.strength op else grammar.strength op + 1

theorem strength_le_limit (grammar : Grammar) (op : BinaryOp) :
    grammar.strength op ≤ grammar.limit op := by
  unfold limit
  split <;> omega

theorem strength_pos (grammar : Grammar) (op : BinaryOp) : 0 < grammar.strength op := by
  cases op with
  | logical op => cases op <;> simp [strength]
  | arithmetic op => cases op <;> simp [strength]
  | comparison op =>
      cases op with
      | like => rw [strength]; split <;> omega
      | _ => simp [strength]

theorem testStrength_le_comparison (grammar : Grammar) (op : ComparisonOp) :
    testStrength ≤ grammar.strength (.comparison op) := by
  cases op with
  | like => rw [strength, testStrength]; split <;> omega
  | _ => exact (by decide : 4 ≤ 5)

/-- AND and OR bind less tightly than all else. -/
theorem strength_logical_lt (grammar : Grammar) (op : LogicalOp) :
    grammar.strength (.logical op) < notStrength := by
  cases op <;> simp [strength, notStrength]

end Grammar

/-! ## The reader -/

/-- What waits for the operand that is being read. -/
inductive Frame where
  | binary (op : BinaryOp) (left : Tree)
  | negate
  | not

namespace Frame

variable (grammar : Grammar)

/-- How tightly a frame binds the operand after it. -/
def strength : Frame → Nat
  | .binary op _ => grammar.strength op
  | .negate => Grammar.negateStrength
  | .not => Grammar.notStrength

def apply (tree : Tree) : Frame → Tree
  | .binary op left => .binary op left tree
  | .negate => .negate tree
  | .not => .not tree

/-- Gives the operand to all frames that bind it at least as tightly as `limit`. -/
def reduce (limit : Nat) : List Frame → Tree → List Frame × Tree
  | [], tree => ([], tree)
  | frame :: stack, tree =>
      if limit ≤ frame.strength grammar then reduce limit stack (frame.apply tree)
      else (frame :: stack, tree)

/-- How tightly the innermost frame binds. -/
def top : List Frame → Nat
  | [] => 0
  | frame :: _ => frame.strength grammar

variable {grammar}

theorem reduce_of_top_lt {limit : Nat} {stack : List Frame} (weak : top grammar stack < limit)
    (tree : Tree) : reduce grammar limit stack tree = (stack, tree) := by
  cases stack with
  | nil => rfl
  | cons frame stack => exact if_neg (by simpa [top] using weak)

theorem reduce_cons {limit : Nat} {frame : Frame} {stack : List Frame} {tree : Tree}
    (strong : limit ≤ frame.strength grammar) :
    reduce grammar limit (frame :: stack) tree = reduce grammar limit stack (frame.apply tree) :=
  if_pos strong

end Frame

/-- What the reader expects, with the frames that wait. -/
inductive Reader where
  | operand (stack : List Frame)
  | operator (stack : List Frame) (tree : Tree)
  | castContent (stack : List Frame)
  | type (arg : Tree) (words : List String)
  | test (stack : List Frame) (arg : Tree) (negated : Bool)
  | excluded (stack : List Frame) (arg : Tree)
  | listContent (stack : List Frame) (arg : Tree) (negated : Bool)
  | within (stack : List Frame) (call : String)
  | ordering (stack : List Frame) (call : String)

namespace Reader

variable (grammar : Grammar)

/-- After an operand an operator or a test may follow, and after a call the order
in which it takes rows. -/
def continue? (stack : List Frame) (tree : Tree) : Token → Option Reader
  | .operator op =>
      let (stack, left) := Frame.reduce grammar (grammar.limit op) stack tree
      -- What is left waiting may bind as tightly only where operators chain.
      if grammar.strength op ≤ Frame.top grammar stack then none
      else some (.operand (.binary op left :: stack))
  | .is =>
      let (stack, arg) := Frame.reduce grammar Grammar.testStrength stack tree
      some (.test stack arg false)
  | .among =>
      let (stack, arg) := Frame.reduce grammar Grammar.listStrength stack tree
      some (.listContent stack arg false)
  | .not =>
      let (stack, arg) := Frame.reduce grammar Grammar.listStrength stack tree
      some (.excluded stack arg)
  | .as => some (.type (Frame.reduce grammar 1 stack tree).2 [])
  | .leaf "WITHIN" =>
      match tree with
      | .leaf call => some (.within stack call)
      | _ => none
  | _ => none

def step : Reader → Token → Option Reader
  | .operand stack, .leaf text => some (.operator stack (.leaf text))
  | .operand stack, .operator (.arithmetic .sub) => some (.operand (.negate :: stack))
  | .operand stack, .not => some (.operand (.not :: stack))
  | .operand stack, .group content => some (.operator stack content.tree)
  | .operand stack, .cast => some (.castContent stack)
  | .castContent stack, .group content =>
      content.typed?.map fun typed => .operator stack (.cast typed.1 typed.2)
  | .operator stack tree, token => continue? grammar stack tree token
  | .type arg words, .leaf word => some (.type arg (words ++ [word]))
  | .test stack arg false, .not => some (.test stack arg true)
  | .test stack arg negated, .leaf "NULL" => some (.operator stack (.nullTest arg negated))
  | .excluded stack arg, .among => some (.listContent stack arg true)
  | .listContent stack arg negated, .group content =>
      content.values?.map fun values => .operator stack (.member arg values negated)
  | .within stack call, .leaf "GROUP" => some (.ordering stack call)
  | .ordering stack call, .group content =>
      some (.operator stack (.leaf (call ++ " WITHIN GROUP " ++ String.ofList content.enclosed)))
  | _, _ => none

def run (reader : Reader) (tokens : List Token) : Option Reader :=
  tokens.foldlM (step grammar) reader

/-- At the end everything that waits is given its operand. -/
def tree? : Reader → Option Tree
  | .operator stack tree => some (Frame.reduce grammar 1 stack tree).2
  | _ => none

def typed? : Reader → Option (Tree × String)
  | .type arg words => some (arg, " ".intercalate words)
  | _ => none

end Reader

namespace Token

variable (grammar : Grammar)

def tree? (tokens : List Token) : Option Tree :=
  (Reader.run grammar (.operand []) tokens).bind (Reader.tree? grammar)

def values? (tokens : List Token) : Option (List Tree) := (split tokens).mapM (tree? grammar)

def typed? (tokens : List Token) : Option (Tree × String) :=
  (Reader.run grammar (.operand []) tokens).bind Reader.typed?

end Token

/-- What a bracket encloses, given its parts. -/
def Content.ofParts (grammar : Grammar) (parts : List Part) : Content where
  text := parts.flatMap Part.chars
  values? := (Token.scanner.scan parts).bind (Token.values? grammar)
  typed? := (Token.scanner.scan parts).bind (Token.typed? grammar)

/-- Closes brackets.  The parts of brackets that are open are kept in `outer`. -/
def Part.nest? (grammar : Grammar) (parts : List Part) :
    List (List Part) → List Lexeme → Option (List Part)
  | [], [] => some parts
  | _ :: _, [] => none
  | outer, item :: rest =>
      if item = .symbol ['('] then nest? grammar [] (parts :: outer) rest
      else if item = .symbol [')'] then
        match outer with
        | [] => none
        | before :: outer =>
            nest? grammar (before ++ [.group (Content.ofParts grammar parts)]) outer rest
      else nest? grammar (parts ++ [.lexeme item]) outer rest

/-- The tokens of a text in which names are enclosed by `quote`. -/
def Text.tokens? (grammar : Grammar) (quote : Char) (chars : List Char) : Option (List Token) := do
  let lexemes ← (Lexeme.scanner quote).scan chars
  let parts ← Part.nest? grammar [] [] lexemes
  Token.scanner.scan parts

/-- The tree of a text in which names are enclosed by `quote`. -/
def Tree.read? (grammar : Grammar) (quote : Char) (text : String) : Option Tree := do
  let tokens ← Text.tokens? grammar quote text.toList
  Token.tree? grammar tokens

example : Tree.read? ⟨true⟩ '"' "a.b <= -(lower('(') + 1.5e+3) AND NOT x IN (2)" =
    some (.binary (.logical .and)
      (.binary (.comparison .lessEqual) (.leaf "a.b")
        (.negate (.binary (.arithmetic .add) (.leaf "lower('(')") (.leaf "1.5e+3"))))
      (.not (.member (.leaf "x") [.leaf "2"] false))) := rfl

end SqlPlan
