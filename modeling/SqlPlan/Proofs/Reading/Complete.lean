import SqlPlan.Proofs.Reading.Operand

/-!
# Text that is complete

Text may stand inside a call or a case distinction when its quotes, its brackets
and its own case distinctions are all closed.  Such text composes, and a call or
a case distinction that is made of it is one token.
-/

namespace SqlPlan

namespace Token

/-- The words around a case distinction. -/
def caseWord : Part := .lexeme (.word "CASE".toList)

def endWord : Part := .lexeme (.word "END".toList)

theorem resume_caseWord (depth : Nat) (chars : List Char) (rest : List Part) :
    scanner.resume (.cased depth chars) (caseWord :: rest) =
      scanner.resume (.cased (depth + 1) (chars ++ "CASE".toList)) rest := rfl

theorem resume_endWord (depth : Nat) (chars : List Char) (rest : List Part) :
    scanner.resume (.cased (depth + 2) chars) (endWord :: rest) =
      scanner.resume (.cased (depth + 1) (chars ++ "END".toList)) rest := rfl

/-- Parts in which every case distinction that begins also ends. -/
def Balanced (parts : List Part) : Prop :=
  ∀ depth chars rest,
    scanner.resume (.cased (depth + 1) chars) (parts ++ rest) =
      scanner.resume (.cased (depth + 1) (chars ++ parts.flatMap Part.chars)) rest

namespace Balanced

variable {first second inner : List Part}

theorem nil : Balanced [] := by
  intro depth chars rest
  simp

theorem append (firstBalanced : Balanced first) (secondBalanced : Balanced second) :
    Balanced (first ++ second) := by
  intro depth chars rest
  rw [List.append_assoc, firstBalanced, secondBalanced, List.flatMap_append, List.append_assoc]

theorem part {part : Part} (noCase : wordOf? part ≠ some "CASE")
    (noEnd : wordOf? part ≠ some "END") : Balanced [part] := by
  intro depth chars rest
  simp [Scanner.resume, scanner, extend?, noCase, noEnd]

/-- A case distinction inside another. -/
theorem cased (balanced : Balanced inner) : Balanced (caseWord :: (inner ++ [endWord])) := by
  intro depth chars rest
  have inside := balanced (depth + 1) (chars ++ "CASE".toList) (endWord :: rest)
  have spelled : (caseWord :: (inner ++ [endWord])).flatMap Part.chars =
      "CASE".toList ++ (inner.flatMap Part.chars ++ "END".toList) := by
    rw [List.flatMap_cons, List.flatMap_append]
    rfl
  simp only [List.cons_append, List.append_assoc, List.nil_append]
  rw [resume_caseWord, inside, resume_endWord, spelled]
  simp only [List.append_assoc]

end Balanced

/-- A case distinction is one token. -/
theorem scan_cased {inner : List Part} (balanced : Balanced inner) :
    scanner.scan (caseWord :: (inner ++ [endWord])) =
      some [.leaf (String.ofList ((caseWord :: (inner ++ [endWord])).flatMap Part.chars))] := by
  have inside := balanced 0 "CASE".toList [endWord]
  have begins : scanner.start caseWord = .cased 1 "CASE".toList := rfl
  rw [Scanner.scan, begins, inside, List.flatMap_cons, List.flatMap_append]
  simp only [← List.append_assoc]
  rfl

end Token

/-- Text whose quotes, brackets and case distinctions are all closed. -/
def Complete (grammar : Grammar) (quote : Char) (chars : List Char) : Prop :=
  ∃ parts, Divides grammar quote chars parts ∧ Token.Balanced parts

/-- A lexeme that opens or closes nothing. -/
def Lexeme.isInert : Lexeme → Bool
  | .symbol chars => chars != ['('] && chars != [')']
  | .word chars => !(["CASE", "END"].contains (Text.upper (String.ofList chars)))
  | _ => true

namespace Complete

variable {grammar : Grammar} {quote : Char} {chars first second : List Char}

theorem nests_of_isInert (grammar : Grammar) {lexemes : List Lexeme}
    (inert : ∀ item ∈ lexemes, item.isInert = true) :
    Nests grammar lexemes (lexemes.map .lexeme) ∧ Token.Balanced (lexemes.map .lexeme) := by
  induction lexemes with
  | nil => exact ⟨.nil grammar, .nil⟩
  | cons item lexemes induction =>
      rw [List.forall_mem_cons] at inert
      have later := induction inert.2
      have noOpening : item ≠ .symbol ['('] := by rintro rfl; cases inert.1
      have noClosing : item ≠ .symbol [')'] := by rintro rfl; cases inert.1
      have noWord : Token.wordOf? (.lexeme item) ≠ some "CASE" ∧
          Token.wordOf? (.lexeme item) ≠ some "END" := by
        cases item with
        | word chars => simpa [Lexeme.isInert, Token.wordOf?] using inert.1
        | _ => exact ⟨by simp [Token.wordOf?], by simp [Token.wordOf?]⟩
      exact ⟨(Nests.lexeme grammar noOpening noClosing).append later.1,
        (Token.Balanced.part noWord.1 noWord.2).append later.2⟩

/-- Text without brackets and case distinctions. -/
theorem of_scan (grammar : Grammar) {lexemes : List Lexeme}
    (lexed : (Lexeme.scanner quote).scan chars = some lexemes)
    (inert : ∀ item ∈ lexemes, item.isInert = true) : Complete grammar quote chars := by
  obtain ⟨nests, balanced⟩ := nests_of_isInert grammar inert
  refine ⟨_, ⟨⟨lexemes, lexed, nests⟩, ?_⟩, balanced⟩
  rw [List.flatMap_map]
  exact Lexeme.chars_scan lexed

/-- Fixed text that opens and closes nothing. -/
def isInert (quote : Char) (chars : List Char) : Bool :=
  ((Lexeme.scanner quote).scan chars).any (·.all Lexeme.isInert)

theorem of_isInert (grammar : Grammar) (inert : isInert quote chars = true) :
    Complete grammar quote chars := by
  rw [isInert] at inert
  cases lexed : (Lexeme.scanner quote).scan chars with
  | none => rw [lexed] at inert; cases inert
  | some lexemes =>
      rw [lexed] at inert
      exact .of_scan grammar lexed (List.all_eq_true.mp inert)

/-- Fixed text in all dialects. -/
theorem fixed (isQuote : IsNameQuote quote) (grammar : Grammar) (text : String)
    (inert : isInert '"' text.toList = true ∧ isInert '\x60' text.toList = true) :
    Complete grammar quote text.toList := by
  rcases isQuote with rfl | rfl
  · exact .of_isInert grammar inert.1
  · exact .of_isInert grammar inert.2

theorem divided (isQuote : IsNameQuote quote) {char : Char} (divider : char = ' ' ∨ char = ',')
    (firstComplete : Complete grammar quote first)
    (secondComplete : Complete grammar quote second) :
    Complete grammar quote (first ++ char :: second) := by
  obtain ⟨firstParts, firstDivides, firstBalanced⟩ := firstComplete
  obtain ⟨secondParts, secondDivides, secondBalanced⟩ := secondComplete
  have between : Token.Balanced [.lexeme (.ofDivider char)] := by
    rcases divider with rfl | rfl <;> exact .part (by decide) (by decide)
  exact ⟨_, firstDivides.divided isQuote divider secondDivides,
    firstBalanced.append (between.append secondBalanced)⟩

theorem spaced (isQuote : IsNameQuote quote) (firstComplete : Complete grammar quote first)
    (secondComplete : Complete grammar quote second) :
    Complete grammar quote (first ++ ' ' :: second) :=
  divided isQuote (.inl rfl) firstComplete secondComplete

theorem group (isQuote : IsNameQuote quote) (firstComplete : Complete grammar quote first)
    (secondComplete : Complete grammar quote second) :
    Complete grammar quote (first ++ '(' :: (second ++ [')'])) := by
  obtain ⟨firstParts, firstDivides, firstBalanced⟩ := firstComplete
  obtain ⟨secondParts, secondDivides, _⟩ := secondComplete
  exact ⟨_, firstDivides.group isQuote secondDivides,
    firstBalanced.append (.part (by simp [Token.wordOf?]) (by simp [Token.wordOf?]))⟩

theorem minus (isQuote : IsNameQuote quote) {char : Char} (different : char ≠ '-')
    (complete : Complete grammar quote (char :: chars)) :
    Complete grammar quote ('-' :: char :: chars) := by
  obtain ⟨parts, divides, balanced⟩ := complete
  have sign : Token.Balanced [.lexeme (.symbol ['-'])] := .part (by decide) (by decide)
  exact ⟨_, divides.minus isQuote different, sign.append balanced⟩

theorem nil (grammar : Grammar) (quote : Char) : Complete grammar quote [] :=
  ⟨[], .nil grammar quote, .nil⟩

theorem word {text : String} (free : Dialect.isFreeWord text = true) (grammar : Grammar)
    (quote : Char) : Complete grammar quote text.toList := by
  obtain ⟨isWord, free⟩ := Dialect.isFreeWord_iff.mp free
  simp only [Token.reserved, List.mem_cons, not_or] at free
  have noCase : Token.wordOf? (.lexeme (.word text.toList)) ≠ some "CASE" := by
    simpa [Token.wordOf?] using free.1
  have noEnd : Token.wordOf? (.lexeme (.word text.toList)) ≠ some "END" := by
    simpa [Token.wordOf?] using free.2.1
  exact ⟨_, .word grammar quote isWord, .part noCase noEnd⟩

/-- Values between commas. -/
theorem values (isQuote : IsNameQuote quote) {texts : List String}
    (complete : ∀ text ∈ texts, Complete grammar quote text.toList) :
    Complete grammar quote (", ".intercalate texts).toList := by
  induction texts with
  | nil => exact .nil grammar quote
  | cons text texts induction =>
      rw [List.forall_mem_cons] at complete
      cases texts with
      | nil => simpa using complete.1
      | cons next texts =>
          rw [String.intercalate_cons_cons]
          have later := divided isQuote (.inl rfl) (.nil grammar quote) (induction complete.2)
          simpa using complete.1.divided isQuote (.inr rfl) later

theorem parenthesized (isQuote : IsNameQuote quote) {text : String}
    (complete : Complete grammar quote text.toList) :
    Complete grammar quote (Expr.parenthesized text).toList := by
  simpa [Expr.parenthesized] using (Complete.nil grammar quote).group isQuote complete

theorem cast (isQuote : IsNameQuote quote) {text type : String}
    (complete : Complete grammar quote text.toList)
    (typeComplete : Complete grammar quote type.toList) :
    Complete grammar quote ("CAST(" ++ text ++ " AS " ++ type ++ ")").toList := by
  have inner := complete.spaced isQuote
    ((fixed isQuote grammar "AS" (by decide)).spaced isQuote typeComplete)
  simpa using (fixed isQuote grammar "CAST" (by decide)).group isQuote inner

/-- Texts around a binary operator. -/
theorem infixed (isQuote : IsNameQuote quote) (op : BinaryOp) {left right : String}
    (leftComplete : Complete grammar quote left.toList)
    (rightComplete : Complete grammar quote right.toList) :
    Complete grammar quote (left ++ " " ++ op.symbol ++ " " ++ right).toList := by
  have symbol : Complete grammar quote op.symbol.toList := by
    rcases op with (_ | _) | (_ | _) | (_ | _) <;> exact fixed isQuote grammar _ (by decide)
  simpa using leftComplete.spaced isQuote (symbol.spaced isQuote rightComplete)

theorem nullTest (isQuote : IsNameQuote quote) {text : String}
    (complete : Complete grammar quote text.toList) (isNull : Bool) :
    Complete grammar quote (Expr.nullTest isNull text).toList := by
  have test : Complete grammar quote (if isNull then "IS NULL" else "IS NOT NULL").toList := by
    cases isNull <;> exact fixed isQuote grammar _ (by decide)
  have all := complete.spaced isQuote test
  cases isNull <;> simpa [Expr.nullTest] using all

end Complete

/-! ## Names -/

theorem IsName.isInert {quote : Char} {chars : List Char} {item : Lexeme}
    (isName : IsName quote chars item) : item.isInert = true := by
  rcases isName.kind with ⟨rfl, free⟩ | rfl
  · simp only [Token.reserved, List.mem_cons, not_or] at free
    simp [Lexeme.isInert, free.1, free.2.1]
  · rfl

theorem Dialect.Regular.complete_qualified {dialect : Dialect} (regular : dialect.Regular)
    (grammar : Grammar) (qualifier : Option String) (name : String) :
    Complete grammar dialect.quote (dialect.qualified qualifier name).toList := by
  obtain ⟨item, isName⟩ := regular.isName_identifier name
  cases qualifier with
  | none =>
      refine .of_scan grammar isName.scan_eq ?_
      simpa using isName.isInert
  | some qualifier =>
      obtain ⟨qualifierItem, isQualifier⟩ := regular.isName_identifier qualifier
      have lexed := isName.scan_qualified regular.isQuote isQualifier
      have chars : (dialect.qualified (some qualifier) name).toList =
          (dialect.identifier qualifier).toList ++ '.' :: (dialect.identifier name).toList := by
        simp [Dialect.qualified]
      rw [chars]
      have point : (Lexeme.symbol ['.']).isInert = true := rfl
      refine .of_scan grammar lexed ?_
      simp [isQualifier.isInert, isName.isInert, point]

/-! ## Operands -/

/-- Complete text that is an operand by itself. -/
structure Atomic (grammar : Grammar) (quote : Char) (chars : List Char) : Prop where
  complete : Complete grammar quote chars
  operand : ∃ tokens tree, Scans grammar quote chars tokens ∧ Spans grammar tokens tree .leaf

namespace Atomic

variable {grammar : Grammar} {quote : Char} {chars : List Char}

theorem leaf {text : String} (complete : Complete grammar quote chars)
    (scans : Scans grammar quote chars [.leaf text]) : Atomic grammar quote chars :=
  ⟨complete, _, _, scans, .leaf grammar text .leaf⟩

theorem word {text : String} (free : Dialect.isFreeWord text = true) (grammar : Grammar)
    (quote : Char) : Atomic grammar quote text.toList :=
  .leaf (.word free grammar quote) (Dialect.scans_freeWord free grammar quote)

theorem bracket (isQuote : IsNameQuote quote) (complete : Complete grammar quote chars) :
    Atomic grammar quote ('(' :: (chars ++ [')'])) := by
  refine ⟨(Complete.nil grammar quote).group isQuote complete, ?_⟩
  obtain ⟨parts, divides, _⟩ := complete
  exact ⟨_, _, ⟨_, (Divides.nil grammar quote).group isQuote divides, rfl⟩, .bracket grammar _ _⟩

/-- A call is one token. -/
theorem scans_call (isQuote : IsNameQuote quote) {word : String}
    (free : Dialect.isFreeWord word = true) (complete : Complete grammar quote chars) :
    Scans grammar quote (word.toList ++ '(' :: (chars ++ [')']))
      [.leaf (String.ofList (word.toList ++ '(' :: (chars ++ [')'])))] := by
  obtain ⟨isWord, free⟩ := Dialect.isFreeWord_iff.mp free
  obtain ⟨parts, divides, _⟩ := complete
  refine ⟨_, (Divides.word grammar quote isWord).group isQuote divides, ?_⟩
  have start : Token.start (.lexeme (.word word.toList)) = .word word.toList :=
    Token.start_word (by simpa using free)
  simp [Scanner.scan, Scanner.resume, Token.scanner, start, Token.extend?, Token.close?,
    Content.enclosed, Content.ofParts, divides.spelled]

theorem call (isQuote : IsNameQuote quote) {word : String}
    (free : Dialect.isFreeWord word = true) (complete : Complete grammar quote chars) :
    Atomic grammar quote (word.toList ++ '(' :: (chars ++ [')'])) :=
  .leaf ((Complete.word free grammar quote).group isQuote complete)
    (scans_call isQuote free complete)

/-- A call with the order in which it takes rows. -/
theorem ordered (isQuote : IsNameQuote quote) {word : String}
    (free : Dialect.isFreeWord word = true) (complete : Complete grammar quote chars)
    {ordering : List Char} (orderingComplete : Complete grammar quote ordering) :
    Atomic grammar quote (word.toList ++ '(' :: (chars ++ [')']) ++ ' ' :: ("WITHIN".toList ++
      ' ' :: ("GROUP".toList ++ ' ' :: '(' :: (ordering ++ [')'])))) := by
  have called := call isQuote free complete
  have within : Dialect.isFreeWord "WITHIN" = true := by decide
  have grouped : Dialect.isFreeWord "GROUP" = true := by decide
  have bracketed := (Complete.nil grammar quote).group isQuote orderingComplete
  refine ⟨called.complete.spaced isQuote ((Complete.word within grammar quote).spaced isQuote
    ((Complete.word grouped grammar quote).spaced isQuote bracketed)), ?_⟩
  obtain ⟨parts, divides, _⟩ := orderingComplete
  have bracketScans : Scans grammar quote ('(' :: (ordering ++ [')']))
      [.group (Content.ofParts grammar parts)] :=
    ⟨_, (Divides.nil grammar quote).group isQuote divides, rfl⟩
  exact ⟨_, _, (scans_call isQuote free complete).spaced isQuote
    ((Dialect.scans_freeWord within grammar quote).spaced isQuote
      ((Dialect.scans_freeWord grouped grammar quote).spaced isQuote bracketScans)),
    .ordered grammar _ _ _⟩

theorem cast (isQuote : IsNameQuote quote) {text type : String}
    (atomic : Atomic grammar quote text.toList) (free : Dialect.isFreeWord type = true) :
    Atomic grammar quote ("CAST(" ++ text ++ " AS " ++ type ++ ")").toList := by
  obtain ⟨complete, tokens, tree, scans, spans⟩ := atomic
  refine ⟨complete.cast isQuote (.word free grammar quote), ?_⟩
  have typeScans : Scans grammar quote type.toList ([type].map .leaf) :=
    Dialect.scans_freeWord free grammar quote
  exact ⟨_, _, Operand.scans_cast isQuote scans typeScans,
    .cast (spans.typed?_eq (by decide) (by decide) [type]) _⟩

end Atomic

/-! ## Case distinctions -/

/-- Text that begins a case distinction and does not end it. -/
def OpensCase (grammar : Grammar) (quote : Char) (chars : List Char) : Prop :=
  ∃ parts, Divides grammar quote chars (Token.caseWord :: parts) ∧ Token.Balanced parts

namespace OpensCase

variable {grammar : Grammar} {quote : Char} {chars : List Char}

theorem start (grammar : Grammar) (quote : Char) : OpensCase grammar quote "CASE".toList :=
  ⟨[], .word grammar quote (by decide), .nil⟩

theorem spaced (isQuote : IsNameQuote quote) (opens : OpensCase grammar quote chars)
    {more : List Char} (complete : Complete grammar quote more) :
    OpensCase grammar quote (chars ++ ' ' :: more) := by
  obtain ⟨parts, divides, balanced⟩ := opens
  obtain ⟨moreParts, moreDivides, moreBalanced⟩ := complete
  have blank : Token.Balanced [.lexeme (.ofDivider ' ')] := .part (by decide) (by decide)
  exact ⟨_, divides.divided isQuote (.inl rfl) moreDivides,
    balanced.append (blank.append moreBalanced)⟩

theorem blanks (isQuote : IsNameQuote quote) (opens : OpensCase grammar quote chars)
    {texts : List String} (complete : ∀ text ∈ texts, Complete grammar quote text.toList) :
    OpensCase grammar quote (chars ++ texts.flatMap fun text => ' ' :: text.toList) := by
  induction texts generalizing chars with
  | nil => simpa using opens
  | cons text texts induction =>
      rw [List.forall_mem_cons] at complete
      simpa using induction (opens.spaced isQuote complete.1) complete.2

/-- A case distinction that comes to its end is one token. -/
theorem atomic (isQuote : IsNameQuote quote) (opens : OpensCase grammar quote chars) :
    Atomic grammar quote (chars ++ ' ' :: "END".toList) := by
  obtain ⟨parts, begun, balanced⟩ := opens
  have blank : Token.Balanced [.lexeme (.ofDivider ' ')] := .part (by decide) (by decide)
  have endDivides : Divides grammar quote "END".toList [Token.endWord] :=
    .word grammar quote (by decide)
  have divides := begun.divided isQuote (.inl rfl) endDivides
  have reordered : Token.caseWord :: parts ++ .lexeme (.ofDivider ' ') :: [Token.endWord] =
      Token.caseWord :: (parts ++ [.lexeme (.ofDivider ' ')] ++ [Token.endWord]) := by simp
  rw [reordered] at divides
  exact .leaf ⟨_, divides, (balanced.append blank).cased⟩
    ⟨_, divides, Token.scan_cased (balanced.append blank)⟩

end OpensCase

theorem toList_intercalate_blank (first : String) (texts : List String) :
    (" ".intercalate (first :: texts)).toList =
      first.toList ++ texts.flatMap fun text => ' ' :: text.toList := by
  induction texts generalizing first with
  | nil => simp
  | cons text texts induction =>
      rw [String.intercalate_cons_cons, String.toList_append, induction]
      simp

/-- Complete texts between CASE and END. -/
theorem Atomic.cased {grammar : Grammar} {quote : Char} (isQuote : IsNameQuote quote)
    {texts : List String} (complete : ∀ text ∈ texts, Complete grammar quote text.toList) :
    Atomic grammar quote (" ".intercalate ("CASE" :: texts ++ ["END"])).toList := by
  have opens := (OpensCase.start grammar quote).blanks isQuote complete
  rw [List.cons_append, toList_intercalate_blank, List.flatMap_append, ← List.append_assoc]
  exact opens.atomic isQuote

end SqlPlan
