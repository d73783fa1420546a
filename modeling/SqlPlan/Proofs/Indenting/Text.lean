import Mathlib.Logic.Function.Iterate
import SqlPlan.Proofs.Reading.Text
import SqlPlan.Statement.Text

/-!
# Lexemes of indented text

Indenting puts two blanks behind every line break.  Between lexemes this changes
nothing but blanks; a line break inside a quoted text or name takes the blanks
into the quotes.  So text keeps its lexemes, at whatever depth, exactly when no
quoted lexeme has a line break in it.
-/

namespace SqlPlan

/-! ## Lexemes without blanks -/

namespace Lexeme

/-- A quote of names that begins nothing else in a statement. -/
structure IsFreeQuote (quote : Char) : Prop where
  noBlank : quote.isWhitespace = false
  noWord : isWordPart quote = false
  noSymbol : quote ∉ ['(', ')', ',', '.', '*']

theorem isFreeQuote_of_isNameQuote {quote : Char} (isQuote : IsNameQuote quote) :
    IsFreeQuote quote := by
  rcases isQuote with rfl | rfl <;> constructor <;> decide

def isBlank : Lexeme → Bool
  | .blank _ => true
  | _ => false

/-- The lexemes of a text, without the blanks between them. -/
def visible? (quote : Char) (chars : List Char) : Option (List Lexeme) :=
  ((scanner quote).scan chars).map (List.filter fun item => !item.isBlank)

variable {quote : Char}

theorem visible?_eq_some {chars : List Char} {items : List Lexeme} :
    visible? quote chars = some items ↔
      ∃ lexemes, (scanner quote).scan chars = some lexemes ∧
        lexemes.filter (fun item => !item.isBlank) = items :=
  Option.map_eq_some_iff

section FreeQuote

variable (free : IsFreeQuote quote)

include free

theorem ne_mark {char : Char} (divider : char ∈ '\n' :: dividers) (isName : Bool) :
    char ≠ mark quote isName := by
  rintro rfl
  simp only [dividers, List.mem_cons, List.not_mem_nil, or_false] at divider
  cases isName with
  | false => simp [mark] at divider
  | true =>
      have noBlank := free.noBlank
      have noSymbol := free.noSymbol
      simp only [mark, if_true] at divider
      rcases divider with rfl | rfl | rfl | rfl | rfl
      · cases noBlank
      · cases noBlank
      all_goals simp at noSymbol

/-- A line break, a blank or a symbol that divides text ends what is before it. -/
theorem breaks_of_free {char : Char} (divider : char ∈ '\n' :: dividers) :
    (scanner quote).Breaks char := by
  intro piece closes
  have different := ne_mark free divider
  simp only [dividers, List.mem_cons, List.not_mem_nil, or_false] at divider
  cases piece with
  | blank => rfl
  | word chars =>
      have noWord : isWordPart char = false := by
        rcases divider with rfl | rfl | rfl | rfl | rfl <;> decide
      simp [scanner, extend?, noWord]
  | number phase chars =>
      rcases divider with rfl | rfl | rfl | rfl | rfl <;> cases phase <;> rfl
  | quoted isName closed chars =>
      cases closed with
      | false => cases closes
      | true => simp [scanner, extend?, different isName]
  | symbol chars =>
      rcases divider with rfl | rfl | rfl | rfl | rfl <;> simp [scanner, extend?, extendSymbol?]
  | comment => cases closes

omit free in
theorem stands_of_isWhitespace {char : Char} (blank : char.isWhitespace = true) :
    (scanner quote).Stands char [.blank char] := by
  have begins : (scanner quote).start char = .blank char := if_pos blank
  rw [Scanner.Stands, begins]
  exact ⟨rfl, fun _ => rfl⟩

theorem stands_of_symbol {char : Char} (symbol : char ∈ ['(', ')', ',']) :
    (scanner quote).Stands char [.symbol [char]] := by
  have different : char ≠ quote := by
    rintro rfl
    have noSymbol := free.noSymbol
    simp only [List.mem_cons, List.not_mem_nil, or_false] at symbol
    rcases symbol with rfl | rfl | rfl <;> simp at noSymbol
  simp only [List.mem_cons, List.not_mem_nil, or_false] at symbol
  rcases symbol with rfl | rfl | rfl <;>
    exact ⟨by simp [scanner, start, different, isWordStart, close?],
      fun next => by simp [scanner, start, different, isWordStart, extend?, extendSymbol?]⟩

variable {before after : List Char} {first second : List Lexeme}

theorem visible?_blank {char : Char} (blank : char = ' ' ∨ char = '\n')
    (firstVisible : visible? quote before = some first)
    (secondVisible : visible? quote after = some second) :
    visible? quote (before ++ char :: after) = some (first ++ second) := by
  obtain ⟨firstLexemes, firstLexed, rfl⟩ := visible?_eq_some.mp firstVisible
  obtain ⟨secondLexemes, secondLexed, rfl⟩ := visible?_eq_some.mp secondVisible
  have divider : char ∈ '\n' :: dividers := by
    rcases blank with rfl | rfl <;> simp [dividers]
  have stands : (scanner quote).Stands char [.blank char] :=
    stands_of_isWhitespace (by rcases blank with rfl | rfl <;> rfl)
  refine visible?_eq_some.mpr ⟨_,
    Scanner.scan_divided (breaks_of_free free divider) stands firstLexed secondLexed, ?_⟩
  simp [isBlank]

theorem visible?_symbol {char : Char} (symbol : char ∈ ['(', ')', ','])
    (firstVisible : visible? quote before = some first)
    (secondVisible : visible? quote after = some second) :
    visible? quote (before ++ char :: after) = some (first ++ .symbol [char] :: second) := by
  obtain ⟨firstLexemes, firstLexed, rfl⟩ := visible?_eq_some.mp firstVisible
  obtain ⟨secondLexemes, secondLexed, rfl⟩ := visible?_eq_some.mp secondVisible
  have divider : char ∈ '\n' :: dividers := by
    simp only [List.mem_cons, List.not_mem_nil, or_false] at symbol
    rcases symbol with rfl | rfl | rfl <;> simp [dividers]
  refine visible?_eq_some.mpr ⟨_, Scanner.scan_divided (breaks_of_free free divider)
    (stands_of_symbol free symbol) firstLexed secondLexed, ?_⟩
  simp [isBlank]

end FreeQuote

theorem visible?_of_opens {chars : List Char} {piece : Piece} {item : Lexeme}
    (opens : Opens quote chars piece) (closes : close? piece = some [item])
    (visible : item.isBlank = false) : visible? quote chars = some [item] := by
  have scanned := opens []
  rw [List.append_nil] at scanned
  exact visible?_eq_some.mpr ⟨[item], scanned.trans closes, by simp [visible]⟩

theorem visible?_word {chars : List Char} (word : isWord chars = true) :
    visible? quote chars = some [.word chars] :=
  visible?_of_opens (opens_word word) rfl rfl

/-! ## Indenting -/

/-- Every line of a quoted lexeme but the first moved two places to the right. -/
def indented : Lexeme → Lexeme
  | .text chars => .text (Text.indentedRest chars)
  | .name chars => .name (Text.indentedRest chars)
  | item => item

/-- The line breaks inside a quoted lexeme. -/
def lineBreaks : Lexeme → Nat
  | .text chars => chars.count '\n'
  | .name chars => chars.count '\n'
  | _ => 0

/-- A lexeme of indented text; a line break brings two blanks with it. -/
def relaid : Lexeme → List Lexeme
  | .blank char =>
      if char = '\n' then [.blank '\n', .blank ' ', .blank ' '] else [.blank char]
  | item => [item.indented]

def Piece.indented : Piece → Piece
  | .quoted isName closed chars => .quoted isName closed (Text.indentedRest chars)
  | piece => piece

end Lexeme

theorem Text.indentedRest_append (first second : List Char) :
    indentedRest (first ++ second) = indentedRest first ++ indentedRest second := by
  induction first with
  | nil => rfl
  | cons char first induction =>
      rw [List.cons_append, indentedRest, indentedRest, induction]
      split <;> rfl

theorem Text.length_indentedRest (chars : List Char) :
    (indentedRest chars).length = chars.length + 2 * chars.count '\n' := by
  induction chars with
  | nil => rfl
  | cons char chars induction =>
      rw [indentedRest]
      by_cases isBreak : char = '\n'
      · simp only [isBreak, if_true, List.length_cons, List.count_cons_self, induction]
        omega
      · simp only [isBreak, if_false, List.length_cons, ne_eq, not_false_eq_true,
          List.count_cons_of_ne, induction]
        omega

theorem Text.count_indentedRest (chars : List Char) :
    (indentedRest chars).count '\n' = chars.count '\n' := by
  induction chars with
  | nil => rfl
  | cons char chars induction =>
      rw [indentedRest]
      by_cases isBreak : char = '\n' <;> simp [isBreak, induction]

theorem Text.indentedRest_of_count {chars : List Char} (noBreak : chars.count '\n' = 0) :
    indentedRest chars = chars := by
  induction chars with
  | nil => rfl
  | cons char chars induction =>
      rw [List.count_eq_zero, List.mem_cons, not_or] at noBreak
      rw [indentedRest, if_neg (Ne.symm noBreak.1), induction (List.count_eq_zero.mpr noBreak.2)]

namespace Lexeme

variable {quote : Char}

theorem extend?_indented {char : Char} (noBreak : char ≠ '\n') (piece : Piece) :
    extend? quote piece.indented char = (extend? quote piece char).map Piece.indented := by
  cases piece with
  | blank => rfl
  | word chars =>
      simp only [Piece.indented, extend?]
      split <;> rfl
  | number phase chars =>
      simp only [Piece.indented, extend?, Option.map_map]
      rfl
  | quoted isName closed chars =>
      have more : Text.indentedRest (chars ++ [char]) = Text.indentedRest chars ++ [char] := by
        rw [Text.indentedRest_append, Text.indentedRest, if_neg noBreak]
        rfl
      cases closed with
      | false => simp only [Piece.indented, extend?, Option.map_some, more]
      | true =>
          simp only [Piece.indented, extend?]
          split
          · rw [Option.map_some, Piece.indented, more]
          · rfl
  | symbol chars =>
      simp only [Piece.indented, extend?, extendSymbol?]
      split
      · rfl
      · split <;> rfl
  | comment => rfl

theorem close?_indented {piece : Piece} (noBreak : piece ≠ .blank '\n') :
    close? piece.indented = (close? piece).map (List.flatMap relaid) := by
  cases piece with
  | blank char =>
      have different : char ≠ '\n' := fun equal => noBreak (congrArg Piece.blank equal)
      simp [Piece.indented, close?, relaid, different]
  | number phase chars => cases phase <;> rfl
  | quoted isName closed chars => cases isName <;> cases closed <;> rfl
  | _ => rfl

theorem start_indented {char : Char} (noBreak : char ≠ '\n') :
    (start quote char).indented = start quote char := by
  have alone : Text.indentedRest [char] = [char] := by
    rw [Text.indentedRest, if_neg noBreak]
    rfl
  unfold start
  repeat' split
  all_goals first | rfl | rw [Piece.indented, alone]

theorem ne_blank_of_extend? {piece extended : Piece} {char : Char} (noBreak : char ≠ '\n')
    (goesOn : extend? quote piece char = some extended) : extended ≠ .blank '\n' := by
  rintro rfl
  rcases chars_extend? goesOn with isComment | spelled
  · cases isComment
  · have last := congrArg List.getLast? spelled
    simp only [Piece.chars, List.getLast?_append, List.getLast?_singleton, Option.some_or,
      Option.some.injEq] at last
    exact noBreak last.symm

/-- Indented text has the lexemes of the text, relaid, whatever is being read before it. -/
structure Relays (quote : Char) (chars : List Char) : Prop where
  scan : (scanner quote).scan (Text.indentedRest chars) =
    ((scanner quote).scan chars).map (List.flatMap relaid)
  resume : ∀ piece, piece ≠ .blank '\n' →
    (scanner quote).resume piece.indented (Text.indentedRest chars) =
      ((scanner quote).resume piece chars).map (List.flatMap relaid)

namespace Relays

variable {chars : List Char} {char : Char}

theorem nil (quote : Char) : Relays quote [] :=
  ⟨rfl, fun _ noBreak => close?_indented noBreak⟩

theorem scan_break (relays : Relays quote chars) :
    (scanner quote).scan (Text.indentedRest ('\n' :: chars)) =
      ((scanner quote).scan ('\n' :: chars)).map (List.flatMap relaid) := by
  have stands {char : Char} (blank : char.isWhitespace = true) :=
    Scanner.scan_cons (stands_of_isWhitespace blank : (scanner quote).Stands char [.blank char])
  rw [Text.indentedRest, if_pos rfl, stands rfl, stands rfl, stands rfl, stands rfl, relays.scan]
  simp only [Option.map_map]
  rfl

theorem scan_cons (relays : Relays quote chars) (noBreak : char ≠ '\n') :
    (scanner quote).scan (Text.indentedRest (char :: chars)) =
      ((scanner quote).scan (char :: chars)).map (List.flatMap relaid) := by
  have begins : start quote char ≠ .blank '\n' := by
    intro blank
    have spelled := chars_start quote char
    rw [blank] at spelled
    exact noBreak (List.cons.inj spelled).1.symm
  have rest := relays.resume (start quote char) begins
  rw [start_indented noBreak] at rest
  rw [Text.indentedRest, if_neg noBreak]
  exact rest

/-- Where a piece ends, the next one is read as if nothing stood before it. -/
theorem resume_of_ends {piece : Piece} (noBreak : piece ≠ .blank '\n')
    (scanned : (scanner quote).scan (Text.indentedRest (char :: chars)) =
      ((scanner quote).scan (char :: chars)).map (List.flatMap relaid))
    (ends : extend? quote piece char = none)
    (endsIndented : extend? quote piece.indented char = none) :
    (scanner quote).resume piece.indented (Text.indentedRest (char :: chars)) =
      ((scanner quote).resume piece (char :: chars)).map (List.flatMap relaid) := by
  have closed {piece : Piece} (ends : extend? quote piece char = none) (rest : List Char) :
      (scanner quote).resume piece (char :: rest) =
        (close? piece).bind fun closed =>
          ((scanner quote).scan (char :: rest)).map (closed ++ ·) := by
    have ends : (scanner quote).extend? piece char = none := ends
    rw [Scanner.resume, ends]
    rfl
  obtain ⟨tail, headed⟩ : ∃ tail, Text.indentedRest (char :: chars) = char :: tail := by
    rw [Text.indentedRest]
    split
    · rename_i isBreak
      exact ⟨_, by rw [isBreak]⟩
    · exact ⟨_, rfl⟩
  rw [closed ends, headed, closed endsIndented, ← headed, scanned, close?_indented noBreak]
  cases close? piece with
  | none => rfl
  | some lexemes =>
      simp only [Option.map_some, Option.bind_some, Option.map_map, Function.comp_def,
        List.flatMap_append]

theorem cons (relays : Relays quote chars) (noBreak : char ≠ '\n') :
    Relays quote (char :: chars) := by
  refine ⟨relays.scan_cons noBreak, fun piece noBlank => ?_⟩
  have alike : extend? quote piece.indented char = _ := extend?_indented noBreak piece
  cases goesOn : extend? quote piece char with
  | none =>
      rw [goesOn] at alike
      exact resume_of_ends noBlank (relays.scan_cons noBreak) goesOn alike
  | some extended =>
      rw [goesOn, Option.map_some] at alike
      have goesOn : (scanner quote).extend? piece char = some extended := goesOn
      have alike : (scanner quote).extend? piece.indented char = some extended.indented := alike
      rw [Text.indentedRest, if_neg noBreak, Scanner.resume, Scanner.resume, goesOn, alike]
      exact relays.resume extended (ne_blank_of_extend? noBreak goesOn)

/-- Only what is in quotes goes on behind a line break. -/
theorem lineBreak (free : IsFreeQuote quote) (relays : Relays quote chars) :
    Relays quote ('\n' :: chars) := by
  refine ⟨relays.scan_break, fun piece noBlank => ?_⟩
  have ends := @resume_of_ends quote chars '\n' piece noBlank relays.scan_break
  cases piece with
  | blank => exact ends rfl rfl
  | word chars => exact ends rfl rfl
  | number phase chars => cases phase <;> exact ends rfl rfl
  | symbol chars =>
      have noSymbol : extend? quote (.symbol chars) '\n' = none := by
        simp [extend?, extendSymbol?]
      exact ends noSymbol noSymbol
  | quoted isName closed inside =>
      have differs (char : Char) (divider : char ∈ '\n' :: dividers) :
          (char == mark quote isName) = false := by
        simpa using ne_mark free divider isName
      have atBreak := differs '\n' (by simp)
      have atBlank := differs ' ' (by simp [dividers])
      cases closed with
      | true =>
          have closes (inside : List Char) :
              extend? quote (.quoted isName true inside) '\n' = none := by
            simpa [extend?] using atBreak
          exact ends (closes inside) (closes _)
      | false =>
          have rest := relays.resume (.quoted isName false (inside ++ ['\n'])) (by simp)
          rw [Piece.indented, Text.indentedRest_append] at rest
          rw [Text.indentedRest, if_pos rfl]
          simpa [Piece.indented, Scanner.resume, scanner, extend?, atBreak, atBlank,
            Text.indentedRest] using rest
  | comment =>
      rw [show Piece.comment.indented = .comment from rfl, resume_comment, resume_comment]
      rfl

end Relays

/-- The lexemes of indented text, blanks included. -/
theorem relays_of_isFreeQuote (free : IsFreeQuote quote) (chars : List Char) :
    Relays quote chars := by
  induction chars with
  | nil => exact .nil quote
  | cons char chars induction =>
      by_cases isBreak : char = '\n'
      · rw [isBreak]
        exact induction.lineBreak free
      · exact induction.cons isBreak

theorem filter_flatMap_relaid (lexemes : List Lexeme) :
    (lexemes.flatMap relaid).filter (fun item => !item.isBlank) =
      (lexemes.filter fun item => !item.isBlank).map indented := by
  induction lexemes with
  | nil => rfl
  | cons item lexemes induction =>
      rw [List.flatMap_cons, List.filter_append, induction]
      cases item with
      | blank char =>
          by_cases isBreak : char = '\n' <;> simp [relaid, isBreak, isBlank]
      | _ => rfl

theorem visible?_indented (free : IsFreeQuote quote) (text : String) :
    visible? quote (Text.indented text).toList =
      (visible? quote text.toList).map (List.map indented) := by
  have stands := Scanner.scan_cons
    (stands_of_isWhitespace rfl : (scanner quote).Stands ' ' [.blank ' '])
  rw [Text.indented, String.toList_ofList, visible?, stands, stands,
    (relays_of_isFreeQuote free text.toList).scan, visible?]
  simp only [Option.map_map]
  congr 1
  funext lexemes
  exact filter_flatMap_relaid lexemes

/-! ## Indenting several times -/

/-- Text below so many levels of nesting. -/
theorem visible?_iterate_indented (free : IsFreeQuote quote) (depth : Nat) (text : String) :
    visible? quote (Text.indented^[depth] text).toList =
      (visible? quote text.toList).map (List.map indented^[depth]) := by
  induction depth generalizing text with
  | zero => simp
  | succ depth induction =>
      rw [Function.iterate_succ_apply, induction, visible?_indented free, Option.map_map,
        Function.iterate_succ, List.map_comp_map]

theorem lineBreaks_indented (item : Lexeme) : item.indented.lineBreaks = item.lineBreaks := by
  cases item with
  | text chars => exact Text.count_indentedRest chars
  | name chars => exact Text.count_indentedRest chars
  | _ => rfl

theorem length_chars_indented (item : Lexeme) :
    item.indented.chars.length = item.chars.length + 2 * item.lineBreaks := by
  cases item with
  | text chars => exact Text.length_indentedRest chars
  | name chars => exact Text.length_indentedRest chars
  | _ => rfl

theorem indented_of_lineBreaks {item : Lexeme} (noBreak : item.lineBreaks = 0) :
    item.indented = item := by
  cases item with
  | text chars => exact congrArg Lexeme.text (Text.indentedRest_of_count noBreak)
  | name chars => exact congrArg Lexeme.name (Text.indentedRest_of_count noBreak)
  | _ => rfl

/-- A quoted lexeme with a line break grows with every level. -/
theorem iterate_indented_eq_self_iff (depth : Nat) (item : Lexeme) :
    indented^[depth] item = item ↔ depth = 0 ∨ item.lineBreaks = 0 := by
  constructor
  · intro fixed
    have grows (depth : Nat) (item : Lexeme) : (indented^[depth] item).chars.length =
        item.chars.length + depth * (2 * item.lineBreaks) := by
      induction depth generalizing item with
      | zero => simp
      | succ depth induction =>
          rw [Function.iterate_succ_apply, induction, lineBreaks_indented, length_chars_indented,
            Nat.add_one_mul depth]
          omega
    have same := grows depth item
    rw [fixed] at same
    have none : depth * (2 * item.lineBreaks) = 0 := by omega
    rcases Nat.mul_eq_zero.mp none with zero | zero
    · exact .inl zero
    · exact .inr (by omega)
  · rintro (rfl | noBreak)
    · rfl
    · exact Function.iterate_fixed (indented_of_lineBreaks noBreak) depth

end Lexeme

end SqlPlan
