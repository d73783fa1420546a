import SqlPlan.Text.CaseTable

/-!
# Upper and lower case

Case mapping of whole texts by the Unicode rules that depend on no language.
A character may become several, and a capital sigma becomes a final sigma
where a word ends: after a cased character and before none, characters that
case ignores passed over on both sides.
-/

namespace SqlPlan.Text

def CaseRun.moved? (run : CaseRun) (code : Nat) : Option Nat :=
  if run.first ≤ code ∧ code ≤ run.last ∧ (code - run.first) % run.stride = 0 then
    some ((code : Int) + run.offset).toNat
  else
    none

def otherCase (expansions : List (Nat × List Nat)) (runs : List CaseRun) (char : Char) :
    List Char :=
  match expansions.lookup char.toNat with
  | some codes => codes.map Char.ofNat
  | none =>
      match runs.findSome? (·.moved? char.toNat) with
      | some code => [Char.ofNat code]
      | none => [char]

def upperChar (char : Char) : List Char :=
  if char.toNat < 128 then [char.toUpper] else otherCase upperExpansions upperRuns char

def lowerChar (char : Char) : List Char :=
  if char.toNat < 128 then [char.toLower] else otherCase lowerExpansions lowerRuns char

def inRanges (ranges : List (Nat × Nat)) (char : Char) : Bool :=
  ranges.any fun (first, last) => first ≤ char.toNat && char.toNat ≤ last

/-- Whether the first character that case does not ignore has a case. -/
def startsCased (chars : List Char) : Bool :=
  match chars.dropWhile (inRanges caseIgnorableRanges) with
  | [] => false
  | char :: _ => inRanges casedRanges char

/-- The lower case of `chars`, which stand after `before`, the nearest first. -/
def lowerChars (before : List Char) : List Char → List Char
  | [] => []
  | char :: rest =>
      let lowered :=
        if char = 'Σ' then
          [if startsCased before && !startsCased rest then 'ς' else 'σ']
        else
          lowerChar char
      lowered ++ lowerChars (char :: before) rest

def upper (text : String) : String :=
  String.ofList (text.toList.flatMap upperChar)

def lower (text : String) : String :=
  String.ofList (lowerChars [] text.toList)

end SqlPlan.Text
