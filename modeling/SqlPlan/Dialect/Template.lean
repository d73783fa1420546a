/-!
# Function templates

A template is text with slots: a number in braces stands for one argument,
counted from zero, and a star in braces for all of them between commas.
Braces around anything else are text.
-/

namespace SqlPlan.Template

inductive Piece where
  | text (char : Char)
  | slot (index : Nat)
  | all
deriving DecidableEq

/-- How far the reading of a slot has come. -/
inductive Reading where
  | text
  | digits (seen : List Char)
  | star

/-- What was read of a slot that turned out to be text. -/
def Reading.asText : Reading → List Piece
  | .text => []
  | .digits seen => .text '{' :: seen.map .text
  | .star => [.text '{', .text '*']

def slotIndex (digits : List Char) : Nat :=
  digits.foldl (fun total char => total * 10 + (char.toNat - '0'.toNat)) 0

def piecesFrom : Reading → List Char → List Piece
  | reading, [] => reading.asText
  | .digits seen, char :: rest =>
      if char.isDigit then piecesFrom (.digits (seen ++ [char])) rest
      else if char = '}' ∧ seen ≠ [] then .slot (slotIndex seen) :: piecesFrom .text rest
      else if char = '*' ∧ seen = [] then piecesFrom .star rest
      else if char = '{' then Reading.asText (.digits seen) ++ piecesFrom (.digits []) rest
      else Reading.asText (.digits seen) ++ .text char :: piecesFrom .text rest
  | .star, char :: rest =>
      if char = '}' then .all :: piecesFrom .text rest
      else if char = '{' then Reading.asText .star ++ piecesFrom (.digits []) rest
      else Reading.asText .star ++ .text char :: piecesFrom .text rest
  | .text, char :: rest =>
      if char = '{' then piecesFrom (.digits []) rest
      else .text char :: piecesFrom .text rest

def pieces (template : String) : List Piece := piecesFrom .text template.toList

/-- The text with its slots filled, or the first slot that no argument fills. -/
def fillPieces (args : List String) : List Piece → Except Nat (List Char)
  | [] => .ok []
  | piece :: rest => do
      let filled ← match piece with
        | .text char => .ok [char]
        | .all => .ok (", ".intercalate args).toList
        | .slot index =>
            match args[index]? with
            | some arg => .ok arg.toList
            | none => .error index
      let filledRest ← fillPieces args rest
      return filled ++ filledRest

def fill (template : String) (args : List String) : Except Nat String :=
  (fillPieces args (pieces template)).map String.ofList

end SqlPlan.Template
