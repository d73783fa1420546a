import Mathlib.Data.List.Basic
import SqlPlan.Proofs.Reading.Tree
import SqlPlan.Text.Case

/-!
# Tokens of SQL text

Text is cut twice, each time into the longest pieces: characters into lexemes
(words, numbers, quoted texts and names, symbols, blanks), and lexemes and
brackets into tokens.  A token is an operator, a keyword, a bracket with what it
encloses, or a leaf: a constant, a name with or without its qualifier, a call
with everything between its parentheses, or a case distinction up to its end.
-/

namespace SqlPlan

/-- How items are gathered into pieces.  A piece is closed where the next item
does not extend it; one that is incomplete cannot be closed. -/
structure Scanner (σ α β : Type) where
  start : α → σ
  extend? : σ → α → Option σ
  close? : σ → Option (List β)

namespace Scanner

variable {σ α β : Type} (scanner : Scanner σ α β)

/-- Goes on with a piece. -/
def resume : σ → List α → Option (List β)
  | piece, [] => scanner.close? piece
  | piece, item :: rest =>
      match scanner.extend? piece item with
      | some extended => resume extended rest
      | none =>
          (scanner.close? piece).bind fun closed =>
            (resume (scanner.start item) rest).map (closed ++ ·)

def scan : List α → Option (List β)
  | [] => some []
  | item :: rest => scanner.resume (scanner.start item) rest

/-- An item that ends every complete piece before it. -/
def Breaks (item : α) : Prop :=
  ∀ piece, (scanner.close? piece).isSome = true → scanner.extend? piece item = none

/-- An item that is a piece by itself, whatever follows. -/
def Stands (item : α) (meaning : List β) : Prop :=
  scanner.close? (scanner.start item) = some meaning ∧
    ∀ next, scanner.extend? (scanner.start item) next = none

variable {scanner}

theorem resume_append {item : α} (breaks : scanner.Breaks item) {piece : σ} {items rest : List α}
    {scanned : List β} (complete : scanner.resume piece items = some scanned) :
    scanner.resume piece (items ++ item :: rest) =
      (scanner.scan (item :: rest)).map (scanned ++ ·) := by
  induction items generalizing piece scanned with
  | nil =>
      change scanner.close? piece = some scanned at complete
      have ends := breaks piece (by simp [complete])
      simp only [List.nil_append, resume, ends, complete, scan]
      rfl
  | cons first items induction =>
      rw [resume] at complete
      rw [List.cons_append, resume]
      cases extended : scanner.extend? piece first with
      | some next =>
          simp only [extended] at complete ⊢
          exact induction complete
      | none =>
          simp only [extended] at complete ⊢
          obtain ⟨closed, closes, complete⟩ := Option.bind_eq_some_iff.mp complete
          obtain ⟨later, laterScan, rfl⟩ := Option.map_eq_some_iff.mp complete
          rw [closes, induction laterScan]
          simp [Function.comp_def]

theorem scan_append {item : α} (breaks : scanner.Breaks item) {items rest : List α}
    {scanned : List β} (complete : scanner.scan items = some scanned) :
    scanner.scan (items ++ item :: rest) =
      (scanner.scan (item :: rest)).map (scanned ++ ·) := by
  cases items with
  | nil =>
      cases complete
      simp
  | cons first items => exact resume_append breaks complete

theorem scan_cons {item : α} {meaning : List β} (stands : scanner.Stands item meaning)
    (rest : List α) :
    scanner.scan (item :: rest) = (scanner.scan rest).map (meaning ++ ·) := by
  cases rest with
  | nil => simp [scan, resume, stands.1]
  | cons next rest =>
      simp only [scan, resume, stands.1, stands.2 next]
      rfl

/-- An item that stands by itself and ends what is before it divides the items. -/
theorem scan_divided {item : α} {meaning : List β} (breaks : scanner.Breaks item)
    (stands : scanner.Stands item meaning) {before after : List α} {first second : List β}
    (beforeScan : scanner.scan before = some first)
    (afterScan : scanner.scan after = some second) :
    scanner.scan (before ++ item :: after) = some (first ++ (meaning ++ second)) := by
  rw [scan_append breaks beforeScan, scan_cons stands, afterScan]
  rfl

end Scanner

/-! ## Lexemes -/

inductive Lexeme where
  | blank (char : Char)
  | word (chars : List Char)
  | number (chars : List Char)
  | text (chars : List Char)
  | name (chars : List Char)
  | symbol (chars : List Char)
deriving DecidableEq

def Lexeme.chars : Lexeme → List Char
  | .blank char => [char]
  | .word chars | .number chars | .text chars | .name chars | .symbol chars => chars

namespace Lexeme

/-- The part of a number that is being read. -/
inductive Phase where
  | digits
  | mark
  | sign
deriving DecidableEq

/-- A number goes on with digits, points and exponents, however many it has. -/
def Phase.next? (phase : Phase) (char : Char) : Option Phase :=
  match phase with
  | .digits =>
      if char.isDigit ∨ char = '.' then some .digits
      else if char = 'e' ∨ char = 'E' then some .mark
      else none
  | .mark =>
      if char.isDigit then some .digits
      else if char = '+' ∨ char = '-' then some .sign
      else none
  | .sign => if char.isDigit then some .digits else none

/-- A lexeme that is being read, with its characters so far.  A comment never
comes to an end. -/
inductive Piece where
  | blank (char : Char)
  | word (chars : List Char)
  | number (phase : Phase) (chars : List Char)
  | quoted (isName closed : Bool) (chars : List Char)
  | symbol (chars : List Char)
  | comment

def isWordStart (char : Char) : Bool := char.isAlpha || char == '_'

def isWordPart (char : Char) : Bool := char.isAlphanum || char == '_'

/-- The character that encloses texts or names. -/
def mark (quote : Char) (isName : Bool) : Char := if isName then quote else '\''

def start (quote char : Char) : Piece :=
  if char.isWhitespace then .blank char
  else if isWordStart char then .word [char]
  else if char.isDigit then .number .digits [char]
  else if char = '\'' then .quoted false false [char]
  else if char = quote then .quoted true false [char]
  else .symbol [char]

/-- Symbols of two characters, and the starts of comments. -/
def extendSymbol? (chars : List Char) (char : Char) : Option Piece :=
  if (chars, char) ∈ [(['<'], '='), (['<'], '>'), (['>'], '=')] then
    some (.symbol (chars ++ [char]))
  else if (chars, char) ∈ [(['-'], '-'), (['/'], '*')] then some .comment
  else none

def extend? (quote : Char) (piece : Piece) (char : Char) : Option Piece :=
  match piece with
  | .blank _ => none
  | .word chars => if isWordPart char then some (.word (chars ++ [char])) else none
  | .number phase chars => (phase.next? char).map fun next => .number next (chars ++ [char])
  | .quoted isName false chars =>
      some (.quoted isName (char == mark quote isName) (chars ++ [char]))
  | .quoted isName true chars =>
      -- A quote that is written twice does not end what it encloses.
      if char = mark quote isName then some (.quoted isName false (chars ++ [char])) else none
  | .symbol chars => extendSymbol? chars char
  | .comment => some .comment

def close? : Piece → Option (List Lexeme)
  | .blank char => some [.blank char]
  | .word chars => some [.word chars]
  | .number .digits chars => some [.number chars]
  | .number _ _ => none
  | .quoted _ false _ => none
  | .quoted false true chars => some [.text chars]
  | .quoted true true chars => some [.name chars]
  | .symbol chars => some [.symbol chars]
  | .comment => none

def scanner (quote : Char) : Scanner Piece Char Lexeme where
  start := start quote
  extend? := extend? quote
  close? := close?

end Lexeme

/-! ## Tokens -/

/-- What stands between brackets, as text and as far as it can be read: a list
of expressions, or an expression and the type that it is cast to. -/
structure Content where
  text : List Char
  values? : Option (List Tree)
  typed? : Option (Tree × String)

namespace Content

def enclosed (content : Content) : List Char := '(' :: (content.text ++ [')'])

/-- What a bracket says as an operand.  One that cannot be read is taken as a whole. -/
def tree (content : Content) : Tree :=
  match content.values? with
  | some [tree] => tree
  | _ => .leaf (String.ofList content.enclosed)

end Content

/-- A lexeme, or a bracket with what it encloses. -/
inductive Part where
  | lexeme (item : Lexeme)
  | group (content : Content)

def Part.chars : Part → List Char
  | .lexeme item => item.chars
  | .group content => content.enclosed

inductive Token where
  | leaf (text : String)
  | operator (op : BinaryOp)
  | not
  | is
  | among
  | cast
  | as
  | comma
  | group (content : Content)

namespace Token

def keywords : List (String × Token) :=
  [("AND", .operator (.logical .and)), ("OR", .operator (.logical .or)),
    ("LIKE", .operator (.comparison .like)), ("NOT", .not), ("IS", .is), ("IN", .among),
    ("CAST", .cast), ("AS", .as)]

def symbols : List (List Char × Token) :=
  [(['+'], .operator (.arithmetic .add)), (['-'], .operator (.arithmetic .sub)),
    (['*'], .operator (.arithmetic .mul)), (['/'], .operator (.arithmetic .div)),
    (['%'], .operator (.arithmetic .mod)), (['='], .operator (.comparison .equal)),
    (['<', '>'], .operator (.comparison .notEqual)), (['<'], .operator (.comparison .less)),
    (['<', '='], .operator (.comparison .lessEqual)), (['>'], .operator (.comparison .greater)),
    (['>', '='], .operator (.comparison .greaterEqual)), ([','], .comma)]

/-- A token that is being read, with its characters so far. -/
inductive Piece where
  | whole (tokens : List Token)
  | word (chars : List Char)
  | name (chars : List Char)
  | dotted (chars : List Char)
  | cased (depth : Nat) (chars : List Char)
  | unknown

/-- The word that a part spells, in upper case. -/
def wordOf? : Part → Option String
  | .lexeme (.word chars) => some (Text.upper (String.ofList chars))
  | _ => none

def start : Part → Piece
  | .lexeme (.blank _) => .whole []
  | .lexeme (.word chars) =>
      if Text.upper (String.ofList chars) = "CASE" then .cased 1 chars
      else match keywords.lookup (Text.upper (String.ofList chars)) with
        | some token => .whole [token]
        | none => .word chars
  | .lexeme (.number chars) | .lexeme (.text chars) => .whole [.leaf (String.ofList chars)]
  | .lexeme (.name chars) => .name chars
  | .lexeme (.symbol chars) =>
      match symbols.lookup chars with
      | some token => .whole [token]
      | none => .unknown
  | .group content => .whole [.group content]

def extend? : Piece → Part → Option Piece
  | .word chars, .lexeme (.symbol ['.']) => some (.dotted (chars ++ ['.']))
  | .word chars, .group content =>
      some (.whole [.leaf (String.ofList (chars ++ content.enclosed))])
  | .name chars, .lexeme (.symbol ['.']) => some (.dotted (chars ++ ['.']))
  | .dotted chars, .lexeme (.word more) | .dotted chars, .lexeme (.name more) =>
      some (.whole [.leaf (String.ofList (chars ++ more))])
  | .cased depth chars, part =>
      if wordOf? part = some "CASE" then some (.cased (depth + 1) (chars ++ part.chars))
      else if wordOf? part = some "END" then
        if depth = 1 then some (.whole [.leaf (String.ofList (chars ++ part.chars))])
        else some (.cased (depth - 1) (chars ++ part.chars))
      else some (.cased depth (chars ++ part.chars))
  | _, _ => none

def close? : Piece → Option (List Token)
  | .whole tokens => some tokens
  | .word chars | .name chars => some [.leaf (String.ofList chars)]
  | .dotted _ | .cased _ _ | .unknown => none

def scanner : Scanner Piece Part Token where
  start := start
  extend? := extend?
  close? := close?

/-- The tokens between commas. -/
def split : List Token → List (List Token)
  | [] => [[]]
  | .comma :: rest => [] :: split rest
  | token :: rest => (split rest).modifyHead (token :: ·)

end Token

end SqlPlan
