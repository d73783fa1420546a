import SqlPlan.Proofs.Indenting.Text
import SqlPlan.Proofs.Reading.Leaf

/-!
# Lexemes of statements

In a dialect whose expressions can be lexed, so can every clause and every
statement: clauses are put together with blanks, commas, line breaks and
parentheses, which end whatever stands before them.
-/

namespace SqlPlan

/-! ## Text that can be lexed -/

def IsLexed (quote : Char) (chars : List Char) : Prop :=
  ∃ items, Lexeme.visible? quote chars = some items

namespace IsLexed

variable {quote : Char} {chars first second : List Char}

theorem nil (quote : Char) : IsLexed quote [] := ⟨[], rfl⟩

theorem word (isWord : Lexeme.isWord chars = true) : IsLexed quote chars :=
  ⟨_, Lexeme.visible?_word isWord⟩

variable (free : Lexeme.IsFreeQuote quote)

include free

theorem spaced (firstLexed : IsLexed quote first) (secondLexed : IsLexed quote second) :
    IsLexed quote (first ++ ' ' :: second) := by
  obtain ⟨_, firstVisible⟩ := firstLexed
  obtain ⟨_, secondVisible⟩ := secondLexed
  exact ⟨_, Lexeme.visible?_blank free (.inl rfl) firstVisible secondVisible⟩

theorem symbol {char : Char} (isSymbol : char ∈ ['(', ')', ',']) (firstLexed : IsLexed quote first)
    (secondLexed : IsLexed quote second) : IsLexed quote (first ++ char :: second) := by
  obtain ⟨_, firstVisible⟩ := firstLexed
  obtain ⟨_, secondVisible⟩ := secondLexed
  exact ⟨_, Lexeme.visible?_symbol free isSymbol firstVisible secondVisible⟩

theorem parenthesized {text : String} (lexed : IsLexed quote text.toList) :
    IsLexed quote (Expr.parenthesized text).toList := by
  have closed := lexed.symbol free (by simp : ')' ∈ _) (nil quote)
  simpa [Expr.parenthesized] using (nil quote).symbol free (by simp : '(' ∈ _) closed

/-- A word before text. -/
theorem worded (word : String) (isWord : Lexeme.isWord word.toList = true) {text : String}
    (lexed : IsLexed quote text.toList) : IsLexed quote (word ++ " " ++ text).toList := by
  simpa using (IsLexed.word isWord).spaced free lexed

omit free in
theorem intercalate {separator : String}
    (separates : ∀ {first second : List Char}, IsLexed quote first → IsLexed quote second →
      IsLexed quote (first ++ (separator.toList ++ second)))
    {parts : List String} (lexed : ∀ part ∈ parts, IsLexed quote part.toList) :
    IsLexed quote (separator.intercalate parts).toList := by
  induction parts with
  | nil => exact nil quote
  | cons part parts induction =>
      rw [List.forall_mem_cons] at lexed
      cases parts with
      | nil => simpa using lexed.1
      | cons next parts => simpa using separates lexed.1 (induction lexed.2)

theorem commas {parts : List String} (lexed : ∀ part ∈ parts, IsLexed quote part.toList) :
    IsLexed quote (", ".intercalate parts).toList := by
  refine intercalate (fun firstLexed secondLexed => ?_) lexed
  exact firstLexed.symbol free (by simp : ',' ∈ _) ((nil quote).spaced free secondLexed)

theorem conjoined {parts : List String} (lexed : ∀ part ∈ parts, IsLexed quote part.toList) :
    IsLexed quote (" AND ".intercalate parts).toList := by
  refine intercalate (fun firstLexed secondLexed => ?_) lexed
  have isWord : IsLexed quote "AND".toList := word rfl
  exact firstLexed.spaced free (isWord.spaced free secondLexed)

end IsLexed

/-- The lexemes of lines are those of the one line after those of the other. -/
theorem Lexeme.visible?_lines {quote : Char} (free : IsFreeQuote quote) {lines : List String}
    {items : List (List Lexeme)}
    (visible : List.Forall₂ (fun line found => visible? quote line.toList = some found)
      lines items) :
    visible? quote ("\n".intercalate lines).toList = some items.flatten := by
  induction visible with
  | nil => rfl
  | @cons line found lines items lineVisible linesVisible induction =>
      cases linesVisible with
      | nil => simpa using lineVisible
      | cons nextVisible restVisible =>
          simpa using visible?_blank free (.inr rfl) lineVisible induction

/-! ## Dialects -/

theorem Number.isFinite_or_infinite_of_ofNat (value : Nat) :
    (ofNat value).isFinite = true ∨ ofNat value = .infinite false := by
  have ofCode (code : Nat) :
      (ofCode false code).isFinite = true ∨ ofCode false code = .infinite false := by
    unfold Number.ofCode
    split
    · exact .inl rfl
    · exact .inr rfl
  unfold ofNat ofRatio
  split
  · exact ofCode 0
  · exact ofCode _

namespace Dialect

/-- Every expression that the dialect writes can be lexed. -/
structure IsLexical (dialect : Dialect) : Prop where
  free : Lexeme.IsFreeQuote dialect.quote
  expressions : ∀ {setting : Expr.Setting} {aggregates : Bool} {expr : Expr} {text : String},
    setting.dialect = dialect → expr.sql setting aggregates = .ok text →
      IsLexed dialect.quote text.toList

theorem isLexical_of_known {dialect : Dialect} (known : dialect ∈ Registry.builtin.dialects) :
    dialect.IsLexical := by
  have readable := readable_of_known known
  refine ⟨Lexeme.isFreeQuote_of_isNameQuote readable.isQuote, ?_⟩
  rintro setting aggregates expr text rfl written
  obtain ⟨fragment, fragmentWritten, isText⟩ := bind_eq_ok.mp written
  cases isText
  obtain ⟨_, ⟨⟨lexemes, lexed, _⟩, _⟩, _⟩ :=
    (Expr.whole_fragment readable ⟨true⟩ fragmentWritten).complete
  exact ⟨_, Lexeme.visible?_eq_some.mpr ⟨lexemes, lexed, rfl⟩⟩

/-- A name is one lexeme, and a point ends it. -/
theorem exists_opens_identifier {dialect : Dialect} (free : Lexeme.IsFreeQuote dialect.quote)
    (name : String) :
    ∃ piece item, Lexeme.Opens dialect.quote (dialect.identifier name).toList piece ∧
      Lexeme.close? piece = some [item] ∧ item.isBlank = false ∧
      Lexeme.extend? dialect.quote piece '.' = none := by
  unfold identifier
  split
  · have noPoint : '.' ≠ dialect.quote := by
      intro isPoint
      have noSymbol := free.noSymbol
      simp [← isPoint] at noSymbol
    have noWord := free.noWord
    simp only [Lexeme.isWordPart, Char.isAlphanum, Bool.or_eq_false_iff] at noWord
    by_cases isText : dialect.quote = '\''
    · have begins : Lexeme.start dialect.quote (Lexeme.mark dialect.quote false) =
          .quoted false false [Lexeme.mark dialect.quote false] := rfl
      have opens := Lexeme.opens_quoted_of_start begins name
      rw [show Lexeme.mark dialect.quote false = dialect.quote from isText.symm] at opens
      exact ⟨_, _, opens, rfl, rfl, rfl⟩
    · have begins : Lexeme.start dialect.quote (Lexeme.mark dialect.quote true) =
          .quoted true false [Lexeme.mark dialect.quote true] := by
        simp [Lexeme.start, Lexeme.mark, Lexeme.isWordStart, free.noBlank, noWord, isText]
      refine ⟨_, _, Lexeme.opens_quoted_of_start begins name, rfl, rfl, ?_⟩
      simp [Lexeme.extend?, Lexeme.mark, noPoint]
  · rename_i bare
    simp only [needsQuotes, Bool.or_eq_true, not_or, Bool.not_eq_true', Bool.not_eq_false]
      at bare
    have isWord := isWord_of_isPlainIdentifier bare.1.2
    exact ⟨_, _, Lexeme.opens_word isWord, rfl, rfl, rfl⟩

theorem exists_visible?_identifier {dialect : Dialect} (free : Lexeme.IsFreeQuote dialect.quote)
    (name : String) :
    ∃ item, Lexeme.visible? dialect.quote (dialect.identifier name).toList = some [item] := by
  obtain ⟨_, item, opens, closes, visible, _⟩ := exists_opens_identifier free name
  exact ⟨item, Lexeme.visible?_of_opens opens closes visible⟩

/-! ## Clauses -/

namespace IsLexical

variable {dialect : Dialect} (lexical : dialect.IsLexical)

include lexical

theorem qualified (qualifier : Option String) (name : String) :
    IsLexed dialect.quote (dialect.qualified qualifier name).toList := by
  have written : (Expr.column { table := qualifier, name }).sql { dialect } false =
      .ok (dialect.qualified qualifier name) := rfl
  exact lexical.expressions rfl written

theorem identifier (name : String) : IsLexed dialect.quote (dialect.identifier name).toList :=
  lexical.qualified none name

theorem renamed {text : String} (lexed : IsLexed dialect.quote text.toList) (name : String) :
    IsLexed dialect.quote (text ++ " AS " ++ dialect.identifier name).toList := by
  have named := (lexical.identifier name).worded lexical.free "AS" rfl
  simpa using lexed.spaced lexical.free named

theorem count (value : Nat) : IsLexed dialect.quote (Number.ofNat value).text.toList := by
  rcases Number.isFinite_or_infinite_of_ofNat value with finite | infinite
  · have written : (Expr.literal { value := .number (Number.ofNat value) }).sql { dialect } false =
        .ok (Number.ofNat value).text := by
      rw [Expr.sql, Expr.fragment, Expr.literalText]
      simp only [finite, if_true]
      rfl
    exact lexical.expressions rfl written
  · rw [infinite]
    exact .word rfl

theorem start_eq_symbol {char : Char} (isSymbol : char = '.' ∨ char = '*') :
    (Lexeme.scanner dialect.quote).start char = .symbol [char] := by
  have noSymbol := lexical.free.noSymbol
  have different : char ≠ dialect.quote := by
    rintro rfl
    rcases isSymbol with isSymbol | isSymbol <;> simp [isSymbol] at noSymbol
  rcases isSymbol with rfl | rfl <;>
    simp [Lexeme.scanner, Lexeme.start, Lexeme.isWordStart, different]

theorem star : IsLexed dialect.quote "*".toList := by
  refine ⟨[.symbol ['*']], Lexeme.visible?_eq_some.mpr ⟨[.symbol ['*']], ?_, rfl⟩⟩
  have scanned : (Lexeme.scanner dialect.quote).scan "*".toList =
      (Lexeme.scanner dialect.quote).close? ((Lexeme.scanner dialect.quote).start '*') := rfl
  rw [scanned, lexical.start_eq_symbol (.inr rfl)]
  rfl

theorem starOf (table : String) :
    IsLexed dialect.quote (dialect.identifier table ++ ".*").toList := by
  obtain ⟨piece, item, opens, closes, _, ends⟩ := exists_opens_identifier lexical.free table
  have point : (Lexeme.scanner dialect.quote).resume
      ((Lexeme.scanner dialect.quote).start '.') ['*'] =
        some [.symbol ['.'], .symbol ['*']] := by
    rw [lexical.start_eq_symbol (.inl rfl), Scanner.resume,
      show (Lexeme.scanner dialect.quote).extend? (.symbol ['.']) '*' = none from rfl,
      Scanner.resume, lexical.start_eq_symbol (.inr rfl)]
    rfl
  have scanned := opens ['.', '*']
  rw [Scanner.resume, show (Lexeme.scanner dialect.quote).extend? piece '.' = none from ends,
    show (Lexeme.scanner dialect.quote).close? piece = some [item] from closes, point] at scanned
  refine ⟨_, Lexeme.visible?_eq_some.mpr ⟨[item, .symbol ['.'], .symbol ['*']], ?_, rfl⟩⟩
  simpa using scanned

theorem itemText {clauses : Clauses} {item : SelectItem} {text : String}
    (written : clauses.itemText dialect item = .ok text) : IsLexed dialect.quote text.toList := by
  cases item with
  | star table =>
      cases table with
      | none =>
          cases written
          exact lexical.star
      | some table =>
          cases written
          exact lexical.starOf table
  | output output =>
      obtain ⟨inner, innerWritten, written⟩ := bind_eq_ok.mp written
      have lexed := lexical.expressions rfl innerWritten
      split at written
      · cases written
        exact lexed
      · cases written
        exact lexical.renamed lexed output.name

theorem selectText {clauses : Clauses} {text : String}
    (written : clauses.selectText dialect = .ok text) : IsLexed dialect.quote text.toList := by
  obtain ⟨items, itemsWritten, written⟩ := bind_eq_ok.mp written
  cases written
  have itemsLexed : ∀ item ∈ items, IsLexed dialect.quote item.toList := by
    unfold Clauses.itemTexts at itemsWritten
    split at itemsWritten
    · cases itemsWritten
      exact List.forall_mem_singleton.mpr lexical.star
    · intro item member
      obtain ⟨_, _, itemWritten⟩ := exists_mem_of_forall₂ (mapM_eq_ok.mp itemsWritten) member
      exact lexical.itemText itemWritten
  have list := IsLexed.commas lexical.free itemsLexed
  split
  · simpa using (list.worded lexical.free "DISTINCT" rfl).worded lexical.free "SELECT" rfl
  · simpa using list.worded lexical.free "SELECT" rfl

theorem keyText {clauses : Clauses} {qualifier : Option String} {key : SortKey} {text : String}
    (written : clauses.keyText dialect qualifier key = .ok text) :
    IsLexed dialect.quote text.toList := by
  have directed : ∃ inner : String, IsLexed dialect.quote inner.toList ∧
      (text = inner ∨ text = inner ++ " DESC") := by
    rw [Clauses.keyText] at written
    split at written
    · rename_i output _
      obtain ⟨inner, innerWritten, written⟩ := bind_eq_ok.mp written
      cases innerWritten
      cases written
      exact ⟨_, lexical.identifier output.name, by cases key.direction <;> simp⟩
    · obtain ⟨inner, innerWritten, written⟩ := bind_eq_ok.mp written
      cases written
      exact ⟨_, lexical.expressions rfl innerWritten, by cases key.direction <;> simp⟩
  obtain ⟨inner, lexed, rfl | rfl⟩ := directed
  · exact lexed
  · have isWord : IsLexed dialect.quote "DESC".toList := .word rfl
    simpa using lexed.spaced lexical.free isWord

theorem groupedText {text : String} (lexed : IsLexed dialect.quote text.toList) (expr : Expr) :
    IsLexed dialect.quote (expr.groupedText text).toList := by
  unfold Expr.groupedText
  split
  · exact lexed
  · exact lexed.parenthesized lexical.free

theorem conditionText {clauses : Clauses} {condition : Expr} {text : String}
    (written : clauses.conditionText dialect condition = .ok text) :
    IsLexed dialect.quote text.toList := by
  obtain ⟨inner, innerWritten, written⟩ := bind_eq_ok.mp written
  cases written
  have lexed := lexical.expressions rfl innerWritten
  split
  · exact lexed
  · exact lexical.groupedText lexed condition

omit lexical in
theorem clauseLines {keyword separator : String} {parts : List String}
    (joined : IsLexed dialect.quote (keyword ++ " " ++ separator.intercalate parts).toList) :
    ∀ line ∈ Clauses.clauseLines keyword separator parts, IsLexed dialect.quote line.toList := by
  unfold Clauses.clauseLines
  split
  · exact fun _ none => nomatch none
  · exact List.forall_mem_singleton.mpr joined

theorem tailLines {clauses : Clauses} {qualifier : Option String} {lines : List String}
    (written : clauses.tailLines dialect qualifier = .ok lines) :
    ∀ line ∈ lines, IsLexed dialect.quote line.toList := by
  have free := lexical.free
  obtain ⟨conditions, conditionsWritten, written⟩ := bind_eq_ok.mp written
  obtain ⟨groups, groupsWritten, written⟩ := bind_eq_ok.mp written
  obtain ⟨keys, keysWritten, written⟩ := bind_eq_ok.mp written
  cases written
  have conditionsLexed : ∀ text ∈ conditions, IsLexed dialect.quote text.toList := by
    intro text member
    obtain ⟨_, _, textWritten⟩ := exists_mem_of_forall₂ (mapM_eq_ok.mp conditionsWritten) member
    exact lexical.conditionText textWritten
  have groupsLexed : ∀ text ∈ groups, IsLexed dialect.quote text.toList := by
    intro text member
    obtain ⟨_, _, textWritten⟩ := exists_mem_of_forall₂ (mapM_eq_ok.mp groupsWritten) member
    exact lexical.expressions rfl textWritten
  have keysLexed : ∀ text ∈ keys, IsLexed dialect.quote text.toList := by
    intro text member
    obtain ⟨_, _, textWritten⟩ := exists_mem_of_forall₂ (mapM_eq_ok.mp keysWritten) member
    exact lexical.keyText textWritten
  have byKeys (word : String) (isWord : Lexeme.isWord word.toList = true) {parts : List String}
      (lexed : ∀ part ∈ parts, IsLexed dialect.quote part.toList) :
      IsLexed dialect.quote ((word ++ " BY") ++ " " ++ ", ".intercalate parts).toList := by
    simpa using ((IsLexed.commas free lexed).worded free "BY" rfl).worded free word isWord
  simp only [List.forall_mem_append]
  refine ⟨⟨⟨?_, ?_⟩, ?_⟩, ?_⟩
  · exact clauseLines ((IsLexed.conjoined free conditionsLexed).worded free "WHERE" rfl)
  · exact clauseLines (byKeys "GROUP" rfl groupsLexed)
  · exact clauseLines (byKeys "ORDER" rfl keysLexed)
  · intro line member
    obtain ⟨count, _, rfl⟩ := List.mem_map.mp member
    simpa using (lexical.count count).worded free "LIMIT" rfl

theorem keyword (kind : JoinKind) : IsLexed dialect.quote kind.keyword.toList := by
  have join : IsLexed dialect.quote "JOIN".toList := .word rfl
  cases kind with
  | inner => simpa [JoinKind.keyword] using join.worded lexical.free "INNER" rfl
  | left => simpa [JoinKind.keyword] using join.worded lexical.free "LEFT" rfl
  | right => simpa [JoinKind.keyword] using join.worded lexical.free "RIGHT" rfl
  | full => simpa [JoinKind.keyword] using join.worded lexical.free "FULL" rfl

theorem tableText (shownAs : Option String) (table : TableRef) :
    IsLexed dialect.quote (table.text dialect shownAs).toList := by
  have lexed := lexical.qualified table.schema table.name
  cases shownAs with
  | none => exact lexed
  | some shownAs =>
      simp only [TableRef.text]
      split
      · exact lexed
      · exact lexical.renamed lexed shownAs

end IsLexical

end Dialect

end SqlPlan
