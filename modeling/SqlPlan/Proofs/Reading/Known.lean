import SqlPlan.Dialect.Registry
import SqlPlan.Proofs.Reading.Text

/-!
# Names in the known dialects

The known dialects reserve all words that the reader does not take as names, so
that a name is one token whether it is quoted or not, and so is a name behind
its qualifier.
-/

namespace SqlPlan

namespace Dialect

/-- A word that the reader does not take as anything else. -/
def isFreeWord (text : String) : Bool :=
  Lexeme.isWord text.toList && !Token.reserved.contains (Text.upper text)

theorem isFreeWord_iff {text : String} :
    isFreeWord text = true ↔
      Lexeme.isWord text.toList = true ∧ Text.upper text ∉ Token.reserved := by
  simp [isFreeWord]

theorem scans_freeWord {text : String} (free : isFreeWord text = true) (grammar : Grammar)
    (quote : Char) : Scans grammar quote text.toList [.leaf text] :=
  .word grammar quote (isFreeWord_iff.mp free).1 (isFreeWord_iff.mp free).2

/-- What the known dialects have in common. -/
structure Regular (dialect : Dialect) : Prop where
  isQuote : IsNameQuote dialect.quote
  reserves : ∀ word ∈ Token.reserved, word ∈ dialect.reservedWords
  types : ∀ type, dialect.typeNames.get type = "DOUBLE PRECISION" ∨
    isFreeWord (dialect.typeNames.get type) = true
  truths : ∀ truth, dialect.truthText truth = "1" ∨ dialect.truthText truth = "0" ∨
    isFreeWord (dialect.truthText truth) = true

namespace Regular

variable {dialect : Dialect} (regular : dialect.Regular)
include regular

/-- The name of a type is one word or two. -/
theorem scans_type (grammar : Grammar) (type : DataType) : ∃ words : List String,
    Scans grammar dialect.quote (dialect.typeNames.get type).toList (words.map .leaf) ∧
      " ".intercalate words = dialect.typeNames.get type := by
  rcases regular.types type with double | free
  · rw [double]
    exact ⟨["DOUBLE", "PRECISION"], .of_tokens? rfl, rfl⟩
  · exact ⟨[dialect.typeNames.get type], scans_freeWord free grammar _, rfl⟩

theorem scans_truth (grammar : Grammar) (truth : Bool) :
    Scans grammar dialect.quote (dialect.truthText truth).toList
      [.leaf (dialect.truthText truth)] := by
  rcases regular.truths truth with one | zero | free
  · rw [one]
    exact .of_tokens? (by rcases regular.isQuote with quote | quote <;> rw [quote] <;> rfl)
  · rw [zero]
    exact .of_tokens? (by rcases regular.isQuote with quote | quote <;> rw [quote] <;> rfl)
  · exact scans_freeWord free grammar _

end Regular

theorem mem_normalWords (name : String) :
    ∀ word ∈ Token.reserved, word ∈ Config.normalWords (Catalog.words name) := by
  have common : ∀ word ∈ Token.reserved, word ∈ Catalog.commonWords ∧ Text.upper word = word := by
    decide
  intro word member
  have listed : word ∈ Catalog.words name :=
    List.mem_flatMap.mpr ⟨"common", List.mem_cons_self, (common word member).1⟩
  rw [Config.normalWords, List.mem_eraseDups]
  exact List.mem_map.mpr ⟨word, listed, (common word member).2⟩

theorem regular_resolve {config : Config} {name : String} {quote : Char}
    (isQuote : IsNameQuote quote) (words : config.reservedWords = Catalog.words name)
    (types : ∀ type, config.typeNames.get type = "DOUBLE PRECISION" ∨
      isFreeWord (config.typeNames.get type) = true)
    (truths : ∀ text ∈ [config.trueText, config.falseText],
      text = "1" ∨ text = "0" ∨ isFreeWord text = true) :
    (config.resolve quote).Regular := by
  refine ⟨isQuote, ?_, types, ?_⟩
  · simp only [Config.resolve, words]
    exact mem_normalWords name
  · intro truth
    refine truths _ ?_
    cases truth <;> simp [truthText, Config.resolve]

theorem regular_of_known {dialect : Dialect} (known : dialect ∈ Registry.builtin.dialects) :
    dialect.Regular := by
  simp only [Registry.builtin, List.mem_cons, List.not_mem_nil, or_false] at known
  rcases known with rfl | rfl | rfl | rfl
  · exact regular_resolve (.inl rfl) rfl (by rintro (_ | _) <;> decide) (by decide)
  · exact regular_resolve (.inl rfl) rfl (by rintro (_ | _) <;> decide) (by decide)
  · exact regular_resolve (.inr rfl) rfl (by rintro (_ | _) <;> decide) (by decide)
  · exact regular_resolve (.inl rfl) rfl (by rintro (_ | _) <;> decide) (by decide)

end Dialect

/-! ## Names -/

/-- Text that is one lexeme, which a point does not extend and which is a name. -/
structure IsName (quote : Char) (chars : List Char) (item : Lexeme) : Prop where
  lexed : ∃ piece, Lexeme.Opens quote chars piece ∧ Lexeme.close? piece = some [item] ∧
    Lexeme.extend? quote piece '.' = none
  kind : (item = .word chars ∧ Text.upper (String.ofList chars) ∉ Token.reserved) ∨
    item = .name chars
  unsigned : ∃ char rest, chars = char :: rest ∧ char ≠ '-'

namespace IsName

variable {quote : Char} {chars : List Char} {item : Lexeme}

theorem chars_eq (isName : IsName quote chars item) : item.chars = chars := by
  rcases isName.kind with ⟨rfl, _⟩ | rfl <;> rfl

theorem ne_symbol (isName : IsName quote chars item) (symbol : List Char) :
    item ≠ .symbol symbol := by
  rcases isName.kind with ⟨rfl, _⟩ | rfl <;> simp

theorem scan_eq (isName : IsName quote chars item) :
    (Lexeme.scanner quote).scan chars = some [item] := by
  obtain ⟨piece, opens, closes, _⟩ := isName.lexed
  have scanned := opens []
  rw [List.append_nil] at scanned
  exact scanned.trans closes

theorem start_eq (isName : IsName quote chars item) :
    Token.start (.lexeme item) = .word chars ∨ Token.start (.lexeme item) = .name chars := by
  rcases isName.kind with ⟨rfl, free⟩ | rfl
  · exact .inl (Token.start_word free)
  · exact .inr rfl

theorem scans (isName : IsName quote chars item) (grammar : Grammar) :
    Scans grammar quote chars [.leaf (String.ofList chars)] := by
  refine ⟨[.lexeme item], ⟨⟨[item], isName.scan_eq,
    .lexeme grammar (isName.ne_symbol _) (isName.ne_symbol _)⟩, ?_⟩, ?_⟩
  · simp [Part.chars, isName.chars_eq]
  · rcases isName.start_eq with start | start <;>
      simp [Scanner.scan, Scanner.resume, Token.scanner, start, Token.close?]

section Qualified

variable {qualifier : List Char} {qualifierItem : Lexeme}

theorem scan_qualified (isQuote : IsNameQuote quote) (isName : IsName quote chars item)
    (isQualifier : IsName quote qualifier qualifierItem) :
    (Lexeme.scanner quote).scan (qualifier ++ '.' :: chars) =
      some [qualifierItem, .symbol ['.'], item] := by
  have point : (Lexeme.scanner quote).Stands '.' [.symbol ['.']] := by
    rcases isQuote with rfl | rfl <;>
      exact ⟨rfl, fun next => by
        simp [Lexeme.scanner, Lexeme.start, Lexeme.extend?, Lexeme.extendSymbol?,
          Lexeme.isWordStart]⟩
  obtain ⟨piece, opens, closes, ends⟩ := isQualifier.lexed
  have later : (Lexeme.scanner quote).scan ('.' :: chars) = some [.symbol ['.'], item] := by
    rw [Scanner.scan_cons point, isName.scan_eq]
    rfl
  have ends' : (Lexeme.scanner quote).extend? piece '.' = none := ends
  have closes' : (Lexeme.scanner quote).close? piece = some [qualifierItem] := closes
  rw [Scanner.scan] at later
  rw [opens ('.' :: chars), Scanner.resume]
  simp only [ends', closes', later]
  rfl

/-- A name behind its qualifier is one token. -/
theorem scans_qualified (isQuote : IsNameQuote quote) (isName : IsName quote chars item)
    (isQualifier : IsName quote qualifier qualifierItem) (grammar : Grammar) :
    Scans grammar quote (qualifier ++ '.' :: chars)
      [.leaf (String.ofList (qualifier ++ '.' :: chars))] := by
  have pointNests : Nests grammar [.symbol ['.']] [.lexeme (.symbol ['.'])] :=
    .lexeme grammar (by decide) (by decide)
  refine ⟨[.lexeme qualifierItem, .lexeme (.symbol ['.']), .lexeme item],
    ⟨⟨_, isName.scan_qualified isQuote isQualifier, ?_⟩, ?_⟩, ?_⟩
  · exact (Nests.lexeme grammar (isQualifier.ne_symbol _) (isQualifier.ne_symbol _)).append
      (pointNests.append (.lexeme grammar (isName.ne_symbol _) (isName.ne_symbol _)))
  · have pointChars : (Lexeme.symbol ['.']).chars = ['.'] := rfl
    simp [Part.chars, isName.chars_eq, isQualifier.chars_eq, pointChars]
  · rcases isQualifier.start_eq with start | start <;> rcases isName.kind with ⟨rfl, _⟩ | rfl <;>
      simp [Scanner.scan, Scanner.resume, Token.scanner, start, Token.extend?, Token.close?]

end Qualified

end IsName

namespace Dialect

theorem isWord_of_isPlainIdentifier {name : String} (plain : Text.isPlainIdentifier name = true) :
    Lexeme.isWord name.toList = true := by
  unfold Text.isPlainIdentifier at plain
  cases chars : name.toList with
  | nil => simp [chars] at plain
  | cons first rest =>
      simp only [chars, Bool.and_eq_true, List.all_eq_true] at plain
      simp only [Lexeme.isWord, Bool.and_eq_true, List.all_eq_true]
      have alphabetic (char : Char) : char.isAlpha = (char.isUpper || char.isLower) := rfl
      have alphanumeric (char : Char) : char.isAlphanum = (char.isAlpha || char.isDigit) := rfl
      refine ⟨?_, fun char member => ?_⟩
      · have begins := plain.1
        simp only [Text.isPlainStart, Bool.or_eq_true] at begins
        rcases begins with lower | line
        · simp [Lexeme.isWordStart, alphabetic, lower]
        · simp [Lexeme.isWordStart, line]
      · have isPart := plain.2 char member
        simp only [Text.isPlainPart, Bool.or_eq_true] at isPart
        rcases isPart with (lower | digit) | line
        · simp [Lexeme.isWordPart, alphanumeric, alphabetic, lower]
        · simp [Lexeme.isWordPart, alphanumeric, digit]
        · simp [Lexeme.isWordPart, line]

namespace Regular

variable {dialect : Dialect}

theorem isName_identifier (regular : dialect.Regular) (name : String) :
    ∃ item, IsName dialect.quote (dialect.identifier name).toList item := by
  unfold identifier
  split
  case isTrue =>
    have opens := Lexeme.opens_quoted regular.isQuote true name
    have different : '.' ≠ dialect.quote ∧ dialect.quote ≠ '-' := by
      rcases regular.isQuote with quote | quote <;> rw [quote] <;> decide
    refine ⟨.name (Text.quoted dialect.quote name).toList, ⟨_, opens, rfl, ?_⟩, .inr rfl, ?_⟩
    · simp [Lexeme.extend?, Lexeme.mark, different.1]
    · exact ⟨dialect.quote, Text.doubled dialect.quote name.toList ++ [dialect.quote],
        by simp [Text.quoted, Text.quotedChars], different.2⟩
  case isFalse bare =>
    simp only [needsQuotes, Bool.or_eq_true, not_or, Bool.not_eq_true', Bool.not_eq_false,
      isReserved, List.contains_eq_mem, decide_eq_true_eq] at bare
    obtain ⟨⟨_, plain⟩, free⟩ := bare
    have isWord := isWord_of_isPlainIdentifier plain
    refine ⟨.word name.toList, ⟨_, Lexeme.opens_word isWord, rfl, rfl⟩, .inl ⟨rfl, ?_⟩, ?_⟩
    · rw [String.ofList_toList]
      exact fun reserved => free (regular.reserves _ reserved)
    · cases chars : name.toList with
      | nil => simp [chars, Lexeme.isWord] at isWord
      | cons first rest =>
          refine ⟨first, rest, rfl, ?_⟩
          rintro rfl
          simp [chars, Lexeme.isWord, Lexeme.isWordStart] at isWord

theorem scans_qualified (regular : dialect.Regular) (grammar : Grammar)
    (qualifier : Option String) (name : String) :
    Scans grammar dialect.quote (dialect.qualified qualifier name).toList
      [.leaf (dialect.qualified qualifier name)] := by
  obtain ⟨item, isName⟩ := regular.isName_identifier name
  cases qualifier with
  | none => simpa [qualified] using isName.scans grammar
  | some qualifier =>
      obtain ⟨qualifierItem, isQualifier⟩ := regular.isName_identifier qualifier
      have scans := isName.scans_qualified regular.isQuote isQualifier grammar
      have chars :
          (dialect.identifier qualifier).toList ++ '.' :: (dialect.identifier name).toList =
            (dialect.qualified (some qualifier) name).toList := by
        simp [qualified]
      rwa [chars, String.ofList_toList] at scans

/-- No name begins with a minus sign. -/
theorem unsigned_qualified (regular : dialect.Regular) (qualifier : Option String)
    (name : String) :
    ∃ char rest, (dialect.qualified qualifier name).toList = char :: rest ∧ char ≠ '-' := by
  cases qualifier with
  | none =>
      obtain ⟨_, isName⟩ := regular.isName_identifier name
      exact isName.unsigned
  | some qualifier =>
      obtain ⟨_, isName⟩ := regular.isName_identifier qualifier
      obtain ⟨char, rest, chars, different⟩ := isName.unsigned
      exact ⟨char, rest ++ '.' :: (dialect.identifier name).toList,
        by simp [qualified, chars], different⟩

end Regular

end Dialect

end SqlPlan
