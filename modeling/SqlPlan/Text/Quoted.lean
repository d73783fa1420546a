/-!
# Quoted text

Text enclosed in a quote character.  Every quote inside is written twice, so
that the first quote which stands alone is the closing one.
-/

namespace SqlPlan.Text

/-- Writes every quote twice. -/
def doubled (quote : Char) : List Char → List Char
  | [] => []
  | char :: rest =>
      if char = quote then quote :: quote :: doubled quote rest else char :: doubled quote rest

def quotedChars (quote : Char) (chars : List Char) : List Char :=
  quote :: (doubled quote chars ++ [quote])

def quoted (quote : Char) (text : String) : String :=
  String.ofList (quotedChars quote text.toList)

end SqlPlan.Text
