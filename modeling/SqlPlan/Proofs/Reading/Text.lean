import SqlPlan.Dialect.Identifier
import SqlPlan.Proofs.Reading.Span

/-!
# Tokens of composed text

What the tokens of a text are, from those of the texts it is composed of.
Blanks, commas and parentheses end whatever stands before them, so text that is
composed with them has the tokens of its parts, one after another.
-/

namespace SqlPlan

/-- A character that encloses names in some known dialect. -/
def IsNameQuote (quote : Char) : Prop := quote = '"' ∨ quote = '\x60'

/-! ## Lexemes -/

namespace Lexeme

variable {quote : Char}

/-- The characters that end what stands before them and stand alone. -/
def dividers : List Char := [' ', ',', '(', ')']

/-- What a divider is by itself. -/
def ofDivider (char : Char) : Lexeme := if char = ' ' then .blank char else .symbol [char]

theorem breaks_of_divider (isQuote : IsNameQuote quote) {char : Char}
    (divider : char ∈ dividers) : (scanner quote).Breaks char := by
  intro piece closes
  simp only [dividers, List.mem_cons, List.not_mem_nil, or_false] at divider
  cases piece with
  | blank => rfl
  | word chars =>
      have noWord : isWordPart char = false := by
        rcases divider with rfl | rfl | rfl | rfl <;> decide
      simp [scanner, extend?, noWord]
  | number phase chars =>
      rcases divider with rfl | rfl | rfl | rfl <;> cases phase <;> rfl
  | quoted isName closed chars =>
      have different : char ≠ mark quote isName := by
        rintro rfl
        rcases isQuote with rfl | rfl <;> cases isName <;> simp [mark] at divider
      cases closed with
      | false => cases closes
      | true => simp [scanner, extend?, different]
  | symbol chars =>
      rcases divider with rfl | rfl | rfl | rfl <;> simp [scanner, extend?, extendSymbol?]
  | comment => cases closes

theorem stands_of_divider (isQuote : IsNameQuote quote) {char : Char}
    (divider : char ∈ dividers) : (scanner quote).Stands char [ofDivider char] := by
  simp only [dividers, List.mem_cons, List.not_mem_nil, or_false] at divider
  rcases isQuote with rfl | rfl <;> rcases divider with rfl | rfl | rfl | rfl <;>
    exact ⟨rfl, fun next => by simp [scanner, start, extend?, extendSymbol?, isWordStart]⟩

theorem scan_divided (isQuote : IsNameQuote quote) {char : Char} (divider : char ∈ dividers)
    {before after : List Char} {first second : List Lexeme}
    (beforeLexed : (scanner quote).scan before = some first)
    (afterLexed : (scanner quote).scan after = some second) :
    (scanner quote).scan (before ++ char :: after) = some (first ++ ofDivider char :: second) :=
  Scanner.scan_divided (breaks_of_divider isQuote divider) (stands_of_divider isQuote divider)
    beforeLexed afterLexed

end Lexeme

/-! ## Brackets -/

/-- Lexemes whose brackets are all closed, with the parts that they are. -/
def Nests (grammar : Grammar) (lexemes : List Lexeme) (parts : List Part) : Prop :=
  ∀ before outer rest,
    Part.nest? grammar before outer (lexemes ++ rest) =
      Part.nest? grammar (before ++ parts) outer rest

namespace Part

variable (grammar : Grammar) (parts before : List Part) (outer : List (List Part))

theorem nest?_opening (rest : List Lexeme) :
    nest? grammar parts outer (.symbol ['('] :: rest) = nest? grammar [] (parts :: outer) rest := by
  cases outer <;> rfl

theorem nest?_closing (rest : List Lexeme) :
    nest? grammar parts (before :: outer) (.symbol [')'] :: rest) =
      nest? grammar (before ++ [.group (Content.ofParts grammar parts)]) outer rest :=
  rfl

theorem nest?_lexeme {item : Lexeme} (noOpening : item ≠ .symbol ['('])
    (noClosing : item ≠ .symbol [')']) (rest : List Lexeme) :
    nest? grammar parts outer (item :: rest) =
      nest? grammar (parts ++ [.lexeme item]) outer rest := by
  cases outer <;> simp [nest?, noOpening, noClosing]

end Part

namespace Nests

variable {grammar : Grammar} {lexemes first second : List Lexeme}
  {parts firstParts secondParts : List Part}

theorem nil (grammar : Grammar) : Nests grammar [] [] := by
  intro before outer rest
  rw [List.nil_append, List.append_nil]

theorem append (firstNests : Nests grammar first firstParts)
    (secondNests : Nests grammar second secondParts) :
    Nests grammar (first ++ second) (firstParts ++ secondParts) := by
  intro before outer rest
  rw [List.append_assoc, firstNests, secondNests, List.append_assoc]

theorem lexeme (grammar : Grammar) {item : Lexeme} (noOpening : item ≠ .symbol ['('])
    (noClosing : item ≠ .symbol [')']) : Nests grammar [item] [.lexeme item] := by
  intro before outer rest
  exact Part.nest?_lexeme grammar before outer noOpening noClosing rest

/-- What a bracket encloses is read when it closes. -/
theorem group (nests : Nests grammar lexemes parts) :
    Nests grammar (.symbol ['('] :: (lexemes ++ [.symbol [')']]))
      [.group (Content.ofParts grammar parts)] := by
  intro before outer rest
  have closes := nests [] (before :: outer) (.symbol [')'] :: rest)
  simp only [List.cons_append, List.append_assoc, List.nil_append] at closes ⊢
  rw [Part.nest?_opening, closes, Part.nest?_closing]

theorem nest?_eq (nests : Nests grammar lexemes parts) :
    Part.nest? grammar [] [] lexemes = some parts := by
  have all := nests [] [] []
  rwa [List.append_nil] at all

end Nests

/-! ## Parts -/

/-- Text that is cut into lexemes whose brackets are all closed. -/
structure Divides (grammar : Grammar) (quote : Char) (chars : List Char) (parts : List Part) :
    Prop where
  lexed : ∃ lexemes, (Lexeme.scanner quote).scan chars = some lexemes ∧ Nests grammar lexemes parts
  spelled : parts.flatMap Part.chars = chars

namespace Divides

variable {grammar : Grammar} {quote : Char} {chars first second : List Char}
  {parts firstParts secondParts : List Part}

theorem nil (grammar : Grammar) (quote : Char) : Divides grammar quote [] [] :=
  ⟨⟨[], rfl, .nil grammar⟩, rfl⟩

/-- A blank or a comma stands between the parts. -/
theorem divided (isQuote : IsNameQuote quote) {char : Char} (divider : char = ' ' ∨ char = ',')
    (firstDivides : Divides grammar quote first firstParts)
    (secondDivides : Divides grammar quote second secondParts) :
    Divides grammar quote (first ++ char :: second)
      (firstParts ++ .lexeme (.ofDivider char) :: secondParts) := by
  obtain ⟨⟨firstLexemes, firstLexed, firstNests⟩, firstSpelled⟩ := firstDivides
  obtain ⟨⟨secondLexemes, secondLexed, secondNests⟩, secondSpelled⟩ := secondDivides
  have isDivider : char ∈ Lexeme.dividers := by rcases divider with rfl | rfl <;> decide
  have nests : Nests grammar [.ofDivider char] [.lexeme (.ofDivider char)] := by
    rcases divider with rfl | rfl <;> exact .lexeme grammar (by decide) (by decide)
  have chars : (Lexeme.ofDivider char).chars = [char] := by rcases divider with rfl | rfl <;> rfl
  constructor
  · exact ⟨_, Lexeme.scan_divided isQuote isDivider firstLexed secondLexed,
      firstNests.append (nests.append secondNests)⟩
  · simp [firstSpelled, secondSpelled, Part.chars, chars]

/-- A bracket closes what stands before it. -/
theorem group (isQuote : IsNameQuote quote) (firstDivides : Divides grammar quote first firstParts)
    (secondDivides : Divides grammar quote second secondParts) :
    Divides grammar quote (first ++ '(' :: (second ++ [')']))
      (firstParts ++ [.group (Content.ofParts grammar secondParts)]) := by
  obtain ⟨⟨firstLexemes, firstLexed, firstNests⟩, firstSpelled⟩ := firstDivides
  obtain ⟨⟨secondLexemes, secondLexed, secondNests⟩, secondSpelled⟩ := secondDivides
  have inner : (Lexeme.scanner quote).scan (second ++ [')']) =
      some (secondLexemes ++ [.symbol [')']]) :=
    Lexeme.scan_divided isQuote (by decide) secondLexed rfl
  constructor
  · exact ⟨firstLexemes ++ .symbol ['('] :: (secondLexemes ++ [.symbol [')']]),
      Lexeme.scan_divided isQuote (by decide) firstLexed inner,
      firstNests.append secondNests.group⟩
  · simp [firstSpelled, secondSpelled, Part.chars, Content.enclosed, Content.ofParts]

/-- A minus sign stands alone unless another one follows. -/
theorem minus {char : Char} (isQuote : IsNameQuote quote) (different : char ≠ '-')
    (divides : Divides grammar quote (char :: chars) parts) :
    Divides grammar quote ('-' :: char :: chars) (.lexeme (.symbol ['-']) :: parts) := by
  obtain ⟨⟨lexemes, lexed, nests⟩, spelled⟩ := divides
  have begins : Lexeme.start quote '-' = .symbol ['-'] := by rcases isQuote with rfl | rfl <;> rfl
  have alone : Lexeme.extendSymbol? ['-'] char = none := by simp [Lexeme.extendSymbol?, different]
  constructor
  · refine ⟨.symbol ['-'] :: lexemes, ?_,
      (Nests.lexeme grammar (by decide) (by decide)).append nests⟩
    simp only [Scanner.scan, Scanner.resume, Lexeme.scanner, begins, Lexeme.extend?, alone,
      Lexeme.close?, Option.bind_some] at lexed ⊢
    rw [lexed]
    rfl
  · simpa [Part.chars, Lexeme.chars] using spelled

end Divides

/-! ## Tokens -/

/-- What a bracket encloses, given its text and its tokens. -/
def Content.ofTokens (grammar : Grammar) (chars : List Char) (tokens : List Token) : Content where
  text := chars
  values? := Token.values? grammar tokens
  typed? := Token.typed? grammar tokens

theorem Content.ofParts_eq {grammar : Grammar} {parts : List Part} {tokens : List Token}
    (scanned : Token.scanner.scan parts = some tokens) :
    Content.ofParts grammar parts = Content.ofTokens grammar (parts.flatMap Part.chars) tokens := by
  simp [Content.ofParts, Content.ofTokens, scanned]

namespace Token

theorem breaks_of_lexeme {item : Lexeme} (noPoint : item ≠ .symbol ['.']) :
    scanner.Breaks (.lexeme item) := by
  intro piece closes
  cases piece with
  | whole => rfl
  | word chars =>
      simp only [scanner, extend?]
      split <;> simp_all
  | name chars =>
      simp only [scanner, extend?]
      split <;> simp_all
  | dotted => cases closes
  | cased => cases closes
  | unknown => cases closes

theorem stands_of_whole {part : Part} {tokens : List Token} (whole : start part = .whole tokens) :
    scanner.Stands part tokens := by
  simp only [Scanner.Stands, scanner, whole]
  exact ⟨rfl, fun _ => rfl⟩

end Token

/-- Text that has these tokens wherever it stands between blanks, commas and brackets. -/
def Scans (grammar : Grammar) (quote : Char) (chars : List Char) (tokens : List Token) : Prop :=
  ∃ parts, Divides grammar quote chars parts ∧ Token.scanner.scan parts = some tokens

namespace Scans

variable {grammar : Grammar} {quote : Char} {chars first second : List Char}
  {tokens firstTokens secondTokens : List Token}

theorem tokens?_eq (scans : Scans grammar quote chars tokens) :
    Text.tokens? grammar quote chars = some tokens := by
  obtain ⟨parts, ⟨⟨lexemes, lexed, nests⟩, _⟩, scanned⟩ := scans
  simp [Text.tokens?, lexed, nests.nest?_eq, scanned]

theorem divided (isQuote : IsNameQuote quote) {char : Char} (divider : char = ' ' ∨ char = ',')
    {meaning : List Token} (whole : Token.start (.lexeme (.ofDivider char)) = .whole meaning)
    (firstScans : Scans grammar quote first firstTokens)
    (secondScans : Scans grammar quote second secondTokens) :
    Scans grammar quote (first ++ char :: second) (firstTokens ++ (meaning ++ secondTokens)) := by
  obtain ⟨firstParts, firstDivides, firstScanned⟩ := firstScans
  obtain ⟨secondParts, secondDivides, secondScanned⟩ := secondScans
  have noPoint : Lexeme.ofDivider char ≠ .symbol ['.'] := by
    rcases divider with rfl | rfl <;> decide
  exact ⟨_, firstDivides.divided isQuote divider secondDivides,
    Scanner.scan_divided (Token.breaks_of_lexeme noPoint) (Token.stands_of_whole whole)
      firstScanned secondScanned⟩

theorem nil (grammar : Grammar) (quote : Char) : Scans grammar quote [] [] :=
  ⟨[], .nil grammar quote, rfl⟩

theorem spaced (isQuote : IsNameQuote quote) (firstScans : Scans grammar quote first firstTokens)
    (secondScans : Scans grammar quote second secondTokens) :
    Scans grammar quote (first ++ ' ' :: second) (firstTokens ++ secondTokens) :=
  divided isQuote (.inl rfl) rfl firstScans secondScans

theorem comma (isQuote : IsNameQuote quote) (firstScans : Scans grammar quote first firstTokens)
    (secondScans : Scans grammar quote second secondTokens) :
    Scans grammar quote (first ++ ',' :: second) (firstTokens ++ .comma :: secondTokens) :=
  divided isQuote (.inr rfl) rfl firstScans secondScans

theorem group (isQuote : IsNameQuote quote) (scans : Scans grammar quote chars tokens) :
    Scans grammar quote ('(' :: (chars ++ [')']))
      [.group (Content.ofTokens grammar chars tokens)] := by
  obtain ⟨parts, divides, scanned⟩ := scans
  refine ⟨_, (Divides.nil grammar quote).group isQuote divides, ?_⟩
  rw [Content.ofParts_eq scanned, divides.spelled]
  rfl

/-- A bracket after a keyword. -/
theorem keyword_group (isQuote : IsNameQuote quote) {word : List Char} {token : Token}
    (divides : Divides grammar quote word [.lexeme (.word word)])
    (keyword : Token.start (.lexeme (.word word)) = .whole [token])
    (scans : Scans grammar quote chars tokens) :
    Scans grammar quote (word ++ '(' :: (chars ++ [')']))
      [token, .group (Content.ofTokens grammar chars tokens)] := by
  obtain ⟨parts, innerDivides, scanned⟩ := scans
  refine ⟨_, divides.group isQuote innerDivides, ?_⟩
  rw [Content.ofParts_eq scanned, innerDivides.spelled, List.singleton_append,
    Scanner.scan_cons (Token.stands_of_whole keyword)]
  rfl

theorem minus (isQuote : IsNameQuote quote) {char : Char} (different : char ≠ '-')
    (scans : Scans grammar quote (char :: chars) tokens) :
    Scans grammar quote ('-' :: char :: chars) (.operator (.arithmetic .sub) :: tokens) := by
  obtain ⟨parts, divides, scanned⟩ := scans
  refine ⟨_, divides.minus isQuote different, ?_⟩
  rw [Scanner.scan_cons (Token.stands_of_whole rfl), scanned]
  rfl

end Scans

/-! ## Words and names -/

namespace Lexeme

variable {quote : Char}

/-- Text after whose characters this piece is being read. -/
def Opens (quote : Char) (chars : List Char) (piece : Piece) : Prop :=
  ∀ rest, (scanner quote).scan (chars ++ rest) = (scanner quote).resume piece rest

def isWord : List Char → Bool
  | [] => false
  | first :: rest => isWordStart first && rest.all isWordPart

theorem start_of_isWordStart {char : Char} (begins : isWordStart char = true) :
    start quote char = .word [char] := by
  have visible : char.isWhitespace = false := by
    rw [Bool.eq_false_iff]
    intro blank
    simp only [Char.isWhitespace, Bool.or_eq_true, decide_eq_true_eq] at blank
    rcases blank with ((rfl | rfl) | rfl) | rfl <;> cases begins
  simp [start, visible, begins]

theorem opens_word {chars : List Char} (word : isWord chars = true) :
    Opens quote chars (.word chars) := by
  have extend : ∀ (parts : List Char), (∀ char ∈ parts, isWordPart char = true) →
      ∀ before rest, (scanner quote).resume (.word before) (parts ++ rest) =
        (scanner quote).resume (.word (before ++ parts)) rest := by
    intro parts
    induction parts with
    | nil => simp
    | cons char parts induction =>
        intro isPart before rest
        rw [List.forall_mem_cons] at isPart
        have more := induction isPart.2 (before ++ [char]) rest
        rw [List.append_assoc] at more
        rw [← List.singleton_append, ← more]
        simp [Scanner.resume, scanner, extend?, isPart.1]
  cases chars with
  | nil => cases word
  | cons first parts =>
      simp only [isWord, Bool.and_eq_true, List.all_eq_true] at word
      intro rest
      have begins : (scanner quote).start first = .word [first] := start_of_isWordStart word.1
      rw [List.cons_append, Scanner.scan, begins, extend parts word.2]
      rfl

/-- Quoted text is read up to its closing quote. -/
theorem opens_quoted_of_start {isName : Bool}
    (begins : start quote (mark quote isName) = .quoted isName false [mark quote isName])
    (text : String) :
    Opens quote (Text.quoted (mark quote isName) text).toList
      (.quoted isName true (Text.quoted (mark quote isName) text).toList) := by
  have inside : ∀ (chars before rest : List Char),
      (scanner quote).resume (.quoted isName false before)
          (Text.doubled (mark quote isName) chars ++ mark quote isName :: rest) =
        (scanner quote).resume
          (.quoted isName true
            (before ++ (Text.doubled (mark quote isName) chars ++ [mark quote isName]))) rest := by
    intro chars
    induction chars with
    | nil => simp [Text.doubled, Scanner.resume, scanner, extend?]
    | cons char chars induction =>
        intro before rest
        by_cases isMark : char = mark quote isName
        · have more := induction (before ++ [char, char]) rest
          simp only [Text.doubled, isMark, if_true] at more ⊢
          simpa [Scanner.resume, scanner, extend?] using more
        · have more := induction (before ++ [char]) rest
          have differs : (char == mark quote isName) = false := by simpa using isMark
          simp only [Text.doubled, isMark, if_false]
          simpa [Scanner.resume, scanner, extend?, differs] using more
  intro rest
  have all := inside text.toList [mark quote isName] rest
  simpa [Text.quoted, Text.quotedChars, Scanner.scan, scanner, begins] using all

theorem opens_quoted (isQuote : IsNameQuote quote) (isName : Bool) (text : String) :
    Opens quote (Text.quoted (mark quote isName) text).toList
      (.quoted isName true (Text.quoted (mark quote isName) text).toList) := by
  apply opens_quoted_of_start
  rcases isQuote with rfl | rfl <;> cases isName <;> rfl

end Lexeme

namespace Divides

variable {grammar : Grammar} {quote : Char} {chars : List Char}

theorem ofOpens {piece : Lexeme.Piece} {item : Lexeme} (opens : Lexeme.Opens quote chars piece)
    (closes : Lexeme.close? piece = some [item]) (noOpening : item ≠ .symbol ['('])
    (noClosing : item ≠ .symbol [')']) (spelled : item.chars = chars) :
    Divides grammar quote chars [.lexeme item] := by
  constructor
  · refine ⟨[item], ?_, .lexeme grammar noOpening noClosing⟩
    have scanned := opens []
    rw [List.append_nil] at scanned
    rw [scanned]
    exact closes
  · simpa [Part.chars] using spelled

theorem word (grammar : Grammar) (quote : Char) (isWord : Lexeme.isWord chars = true) :
    Divides grammar quote chars [.lexeme (.word chars)] :=
  ofOpens (Lexeme.opens_word isWord) rfl (by simp) (by simp) rfl

end Divides

/-- The words that are not taken as names. -/
def Token.reserved : List String := "CASE" :: "END" :: keywords.map Prod.fst

theorem Token.start_word {chars : List Char}
    (free : Text.upper (String.ofList chars) ∉ reserved) :
    start (.lexeme (.word chars)) = .word chars := by
  simp only [reserved, List.mem_cons, not_or] at free
  have unknown : keywords.lookup (Text.upper (String.ofList chars)) = none := by
    rw [List.lookup_eq_none_iff]
    intro entry member
    simpa using fun equal => free.2.2 (List.mem_map.mpr ⟨entry, member, equal.symm⟩)
  simp [start, free.1, unknown]

theorem Scans.word (grammar : Grammar) (quote : Char) {text : String}
    (isWord : Lexeme.isWord text.toList = true) (free : Text.upper text ∉ Token.reserved) :
    Scans grammar quote text.toList [.leaf text] := by
  refine ⟨_, .word grammar quote isWord, ?_⟩
  have start : Token.start (.lexeme (.word text.toList)) = .word text.toList :=
    Token.start_word (by simpa using free)
  simp [Scanner.scan, Scanner.resume, Token.scanner, start, Token.close?]

/-! ## Text by itself

Text that has tokens by itself has them wherever it may stand: nothing is lost
when it is cut, and its brackets are closed.
-/

namespace Lexeme

variable {quote : Char}

def Piece.chars : Piece → List Char
  | .blank char => [char]
  | .word chars | .number _ chars | .quoted _ _ chars | .symbol chars => chars
  | .comment => []

theorem chars_start (quote char : Char) : (start quote char).chars = [char] := by
  unfold start
  repeat' split
  all_goals rfl

theorem chars_extend? {piece extended : Piece} {char : Char}
    (goesOn : extend? quote piece char = some extended) :
    extended = .comment ∨ extended.chars = piece.chars ++ [char] := by
  cases piece with
  | blank => cases goesOn
  | comment => exact .inl (Option.some.inj goesOn).symm
  | word chars =>
      obtain ⟨_, ⟨⟩⟩ := Option.ite_none_right_eq_some.mp goesOn
      exact .inr rfl
  | number phase chars =>
      obtain ⟨next, _, rfl⟩ := Option.map_eq_some_iff.mp goesOn
      exact .inr rfl
  | quoted isName closed chars =>
      cases closed with
      | false => exact .inr (by simp [← Option.some.inj goesOn, Piece.chars])
      | true =>
          obtain ⟨_, ⟨⟩⟩ := Option.ite_none_right_eq_some.mp goesOn
          exact .inr rfl
  | symbol chars =>
      simp only [extend?, extendSymbol?] at goesOn
      split at goesOn
      · exact .inr (by simp [← Option.some.inj goesOn, Piece.chars])
      · obtain ⟨_, ⟨⟩⟩ := Option.ite_none_right_eq_some.mp goesOn
        exact .inl rfl

theorem chars_close? {piece : Piece} {lexemes : List Lexeme}
    (closes : close? piece = some lexemes) : lexemes.flatMap Lexeme.chars = piece.chars := by
  cases piece with
  | number phase chars => cases phase <;> cases closes; simp [Lexeme.chars, Piece.chars]
  | quoted isName closed chars =>
      cases closed <;> cases isName <;> cases closes <;> simp [Lexeme.chars, Piece.chars]
  | comment => cases closes
  | _ => cases closes; simp [Lexeme.chars, Piece.chars]

theorem resume_comment (rest : List Char) : (scanner quote).resume .comment rest = none := by
  induction rest with
  | nil => rfl
  | cons char rest induction => exact induction

/-- Lexemes spell the text that they are cut from. -/
theorem chars_resume {piece : Piece} {chars : List Char} {lexemes : List Lexeme}
    (lexed : (scanner quote).resume piece chars = some lexemes) :
    lexemes.flatMap Lexeme.chars = piece.chars ++ chars := by
  induction chars generalizing piece lexemes with
  | nil => simpa using chars_close? lexed
  | cons char chars induction =>
      rw [Scanner.resume] at lexed
      cases goesOn : (scanner quote).extend? piece char with
      | some extended =>
          simp only [goesOn] at lexed
          rcases chars_extend? goesOn with rfl | spelled
          · rw [resume_comment] at lexed
            cases lexed
          · rw [induction lexed, spelled]
            simp
      | none =>
          simp only [goesOn] at lexed
          obtain ⟨closed, closes, lexed⟩ := Option.bind_eq_some_iff.mp lexed
          obtain ⟨later, laterLexed, rfl⟩ := Option.map_eq_some_iff.mp lexed
          have laterChars := induction laterLexed
          change later.flatMap Lexeme.chars = (start quote char).chars ++ chars at laterChars
          rw [chars_start] at laterChars
          rw [List.flatMap_append, chars_close? closes, laterChars]
          rfl

theorem chars_scan {chars : List Char} {lexemes : List Lexeme}
    (lexed : (scanner quote).scan chars = some lexemes) :
    lexemes.flatMap Lexeme.chars = chars := by
  cases chars with
  | nil => cases lexed; rfl
  | cons char chars =>
      have spelled := chars_resume lexed
      rwa [show (scanner quote).start char = start quote char from rfl, chars_start] at spelled

end Lexeme

/-- Either the brackets of the lexemes are closed, or the lexemes begin with
some whose brackets are closed and then close one that was open before. -/
theorem Part.nest?_eq_some {grammar : Grammar} {lexemes : List Lexeme} {parts result : List Part}
    {outer : List (List Part)} (nested : Part.nest? grammar parts outer lexemes = some result) :
    (outer = [] ∧ ∃ added, Nests grammar lexemes added ∧ result = parts ++ added ∧
        added.flatMap Part.chars = lexemes.flatMap Lexeme.chars) ∨
      ∃ before rest first last added, outer = before :: rest ∧
        lexemes = first ++ .symbol [')'] :: last ∧ Nests grammar first added ∧
        added.flatMap Part.chars = first.flatMap Lexeme.chars ∧
        Part.nest? grammar (before ++ [.group (Content.ofParts grammar (parts ++ added))]) rest
          last =
          some result := by
  -- What follows a bracket is shorter than what the bracket began with.
  generalize bound : lexemes.length = size
  induction size using Nat.strongRecOn generalizing lexemes parts result outer with
  | ind size induction =>
  cases lexemes with
  | nil =>
      cases outer with
      | nil => exact .inl ⟨rfl, [], .nil grammar, by simpa [Part.nest?] using nested.symm, rfl⟩
      | cons before rest => cases nested
  | cons item tail =>
      rw [List.length_cons] at bound
      by_cases opening : item = .symbol ['(']
      · subst opening
        rw [Part.nest?_opening] at nested
        rcases induction tail.length (by omega) nested rfl with
          ⟨impossible, _⟩ | ⟨before, rest, first, last, added, equal, rfl, nests, spelled, nested⟩
        · cases impossible
        · cases equal
          rw [List.length_append, List.length_cons] at bound
          rcases induction last.length (by omega) nested rfl with
            ⟨rfl, added', nests', rfl, spelled'⟩ |
              ⟨before', rest', first', last', added', rfl, rfl, nests', spelled', nested⟩
          · refine .inl ⟨rfl, _, ?_, List.append_assoc _ _ _, ?_⟩
            · simpa using nests.group.append nests'
            · simp [spelled, spelled', Part.chars, Content.enclosed, Content.ofParts, Lexeme.chars]
          · refine .inr ⟨before', rest', .symbol ['('] :: (first ++ [.symbol [')']]) ++ first',
              last', _, rfl, by simp, nests.group.append nests', ?_, ?_⟩
            · simp [spelled, spelled', Part.chars, Content.enclosed, Content.ofParts, Lexeme.chars]
            · simpa using nested
      · by_cases closing : item = .symbol [')']
        · subst closing
          cases outer with
          | nil => cases nested
          | cons before rest =>
              rw [Part.nest?_closing] at nested
              exact .inr ⟨before, rest, [], tail, [], rfl, rfl, .nil grammar, rfl,
                by simpa using nested⟩
        · rw [Part.nest?_lexeme grammar parts outer opening closing] at nested
          have alone := Nests.lexeme grammar opening closing
          rcases induction tail.length (by omega) nested rfl with
            ⟨rfl, added, nests, rfl, spelled⟩ |
              ⟨before, rest, first, last, added, rfl, rfl, nests, spelled, nested⟩
          · exact .inl ⟨rfl, _, alone.append nests, List.append_assoc _ _ _,
              by simp [Part.chars, spelled]⟩
          · exact .inr ⟨before, rest, _, last, _, rfl, rfl, alone.append nests,
              by simp [Part.chars, spelled], by simpa using nested⟩

theorem Scans.of_tokens? {grammar : Grammar} {quote : Char} {chars : List Char}
    {tokens : List Token} (scanned : Text.tokens? grammar quote chars = some tokens) :
    Scans grammar quote chars tokens := by
  obtain ⟨lexemes, lexed, scanned⟩ := Option.bind_eq_some_iff.mp scanned
  obtain ⟨parts, nested, scanned⟩ := Option.bind_eq_some_iff.mp scanned
  rcases Part.nest?_eq_some nested with
    ⟨_, added, nests, equal, spelled⟩ | ⟨_, _, _, _, _, impossible, _⟩
  · rw [equal] at scanned
    exact ⟨added, ⟨⟨lexemes, lexed, nests⟩, spelled.trans (Lexeme.chars_scan lexed)⟩, scanned⟩
  · cases impossible

end SqlPlan
