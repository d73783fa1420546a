import SqlPlan.Proofs.Quoting.Outline
import SqlPlan.Proofs.Reading.Template

/-!
# Texts inside text

Text is written in several runs that differ in the contents of text constants.
It is uniform when its lexemes are the same in all runs except at certain places,
and the lexemes at these places are quoted texts that stand for the given
contents.  Text that is put together from uniform text between blanks, commas and
brackets is uniform.
-/

namespace SqlPlan

/-! ## What a quoted text stands for -/

namespace Text

/-- The characters up to the closing quote, which has to be the last character;
a quote that is written twice stands for one. -/
def undoubled? (quote : Char) : List Char → Option (List Char)
  | [] => none
  | [last] => if last = quote then some [] else none
  | first :: second :: rest =>
      if first = quote then
        if second = quote then (undoubled? quote rest).map (quote :: ·) else none
      else
        (undoubled? quote (second :: rest)).map (first :: ·)

theorem undoubled?_of_ne {quote first : Char} (different : first ≠ quote) {rest : List Char}
    (more : rest ≠ []) :
    undoubled? quote (first :: rest) = (undoubled? quote rest).map (first :: ·) := by
  cases rest with
  | nil => exact absurd rfl more
  | cons second rest => rw [undoubled?, if_neg different]

theorem undoubled?_doubled (quote : Char) (chars : List Char) :
    undoubled? quote (doubled quote chars ++ [quote]) = some chars := by
  induction chars with
  | nil => simp [doubled, undoubled?]
  | cons char chars induction =>
      rw [doubled]
      split
      · rename_i isQuote
        rw [List.cons_append, List.cons_append, undoubled?, if_pos rfl, if_pos rfl, induction,
          isQuote]
        rfl
      · rename_i different
        have more : doubled quote chars ++ [quote] ≠ [] := by simp
        rw [List.cons_append, undoubled?_of_ne different more, induction]
        rfl

end Text

/-- The contents of a quoted text. -/
def Lexeme.content? : Lexeme → Option String
  | .text (_ :: chars) => (Text.undoubled? '\'' chars).map String.ofList
  | _ => none

theorem Lexeme.content?_quoted (text : String) :
    (Lexeme.text (Text.quoted '\'' text).toList).content? = some text := by
  have chars : (Text.quoted '\'' text).toList =
      '\'' :: (Text.doubled '\'' text.toList ++ ['\'']) := by
    simp [Text.quoted, Text.quotedChars]
  rw [chars, content?, Text.undoubled?_doubled]
  simp

/-! ## Stencils -/

/-- The lexemes of a text, except those that stand for given contents. -/
abbrev Stencil := List (Option Lexeme)

/-- Lexemes that are a stencil with quoted texts of these contents in its open places. -/
inductive Stencil.Shows : Stencil → List String → List Lexeme → Prop where
  | nil : Shows [] [] []
  | fixed (item : Lexeme) {stencil : Stencil} {contents : List String} {lexemes : List Lexeme} :
      Shows stencil contents lexemes → Shows (some item :: stencil) contents (item :: lexemes)
  | text {item : Lexeme} {content : String} {stencil : Stencil} {contents : List String}
      {lexemes : List Lexeme} : item.content? = some content →
      Shows stencil contents lexemes →
      Shows (none :: stencil) (content :: contents) (item :: lexemes)

namespace Stencil.Shows

theorem append {first second : Stencil} {firstContents secondContents : List String}
    {firstLexemes secondLexemes : List Lexeme}
    (firstShows : Shows first firstContents firstLexemes)
    (secondShows : Shows second secondContents secondLexemes) :
    Shows (first ++ second) (firstContents ++ secondContents) (firstLexemes ++ secondLexemes) := by
  induction firstShows with
  | nil => exact secondShows
  | fixed item _ induction => exact .fixed item induction
  | text stands _ induction => exact .text stands induction

theorem ofLexemes (lexemes : List Lexeme) : Shows (lexemes.map some) [] lexemes := by
  induction lexemes with
  | nil => exact .nil
  | cons item lexemes induction => exact .fixed item induction

end Stencil.Shows

/-- One stencil serves the text of every run. -/
def Uniform {ι : Type} (quote : Char) (contents : ι → List String) (chars : ι → List Char) : Prop :=
  ∃ stencil : Stencil, ∀ run, ∃ lexemes,
    (Lexeme.scanner quote).scan (chars run) = some lexemes ∧
      stencil.Shows (contents run) lexemes

namespace Uniform

variable {ι : Type} {quote : Char} {contents first second : ι → List String}
  {chars firstChars secondChars : ι → List Char}

theorem congr (uniform : Uniform quote first firstChars)
    (sameContents : ∀ run, first run = second run)
    (sameChars : ∀ run, firstChars run = secondChars run) : Uniform quote second secondChars := by
  rwa [← funext sameContents, ← funext sameChars]

/-- Text that is the same in every run. -/
theorem fixed {text : List Char} {lexemes : List Lexeme}
    (lexed : (Lexeme.scanner quote).scan text = some lexemes) :
    Uniform quote (fun _ : ι => []) fun _ => text :=
  ⟨lexemes.map some, fun _ => ⟨lexemes, lexed, .ofLexemes lexemes⟩⟩

variable (isQuote : IsNameQuote quote)

include isQuote

theorem literal (content : ι → String) :
    Uniform quote (fun run => [content run])
      fun run => (Text.quoted '\'' (content run)).toList := by
  refine ⟨[none], fun run => ⟨[.text (Text.quoted '\'' (content run)).toList], ?_, ?_⟩⟩
  · have scanned := Lexeme.opens_quoted isQuote false (content run) []
    rw [List.append_nil] at scanned
    exact scanned
  · exact .text (Lexeme.content?_quoted (content run)) .nil

theorem divided {char : Char} (divider : char ∈ Lexeme.dividers)
    (firstUniform : Uniform quote first firstChars)
    (secondUniform : Uniform quote second secondChars) :
    Uniform quote (fun run => first run ++ second run)
      fun run => firstChars run ++ char :: secondChars run := by
  obtain ⟨firstStencil, firstShows⟩ := firstUniform
  obtain ⟨secondStencil, secondShows⟩ := secondUniform
  refine ⟨firstStencil ++ some (.ofDivider char) :: secondStencil, fun run => ?_⟩
  obtain ⟨firstLexemes, firstLexed, firstShows⟩ := firstShows run
  obtain ⟨secondLexemes, secondLexed, secondShows⟩ := secondShows run
  exact ⟨_, Lexeme.scan_divided isQuote divider firstLexed secondLexed,
    firstShows.append (.fixed _ secondShows)⟩

theorem spaced (firstUniform : Uniform quote first firstChars)
    (secondUniform : Uniform quote second secondChars) :
    Uniform quote (fun run => first run ++ second run)
      fun run => firstChars run ++ ' ' :: secondChars run :=
  divided isQuote (by decide) firstUniform secondUniform

theorem group (firstUniform : Uniform quote first firstChars)
    (secondUniform : Uniform quote second secondChars) :
    Uniform quote (fun run => first run ++ second run)
      fun run => firstChars run ++ '(' :: (secondChars run ++ [')']) := by
  have nothing : Uniform quote (fun _ : ι => []) fun _ => [] := .fixed rfl
  have closed := divided isQuote (by decide : ')' ∈ Lexeme.dividers) secondUniform nothing
  exact (divided isQuote (by decide : '(' ∈ Lexeme.dividers) firstUniform closed).congr
    (fun run => by rw [List.append_nil]) fun _ => rfl

/-- Fixed text in all dialects. -/
theorem constant (text : String)
    (lexed : ((Lexeme.scanner '"').scan text.toList).isSome = true ∧
      ((Lexeme.scanner '\x60').scan text.toList).isSome = true) :
    Uniform quote (fun _ : ι => []) fun _ => text.toList := by
  have lexed : ∃ lexemes, (Lexeme.scanner quote).scan text.toList = some lexemes := by
    rcases isQuote with rfl | rfl
    · exact Option.isSome_iff_exists.mp lexed.1
    · exact Option.isSome_iff_exists.mp lexed.2
  obtain ⟨lexemes, lexed⟩ := lexed
  exact .fixed lexed

end Uniform

/-! ## Several texts -/

/-- A text in every run, with the contents of the text constants in it. -/
structure Written (ι : Type) where
  text : ι → String
  contents : ι → List String

def Written.IsUniform {ι : Type} (quote : Char) (written : Written ι) : Prop :=
  Uniform quote written.contents fun run => (written.text run).toList

namespace Uniform

variable {ι : Type} {quote : Char} {parts : List (Written ι)}

/-- Texts between separators that keep apart what stands around them. -/
theorem intercalate {separator : String}
    (separates : ∀ {first second : ι → List String} {firstChars secondChars : ι → List Char},
      Uniform quote first firstChars → Uniform quote second secondChars →
      Uniform quote (fun run => first run ++ second run)
        fun run => firstChars run ++ (separator.toList ++ secondChars run))
    (uniform : ∀ part ∈ parts, part.IsUniform quote) :
    Uniform quote (fun run => parts.flatMap fun part => part.contents run)
      fun run => (separator.intercalate (parts.map fun part => part.text run)).toList := by
  induction parts with
  | nil => exact .fixed rfl
  | cons part parts induction =>
      rw [List.forall_mem_cons] at uniform
      cases parts with
      | nil => exact uniform.1.congr (fun run => by simp) fun run => by simp
      | cons next parts =>
          refine (separates uniform.1 (induction uniform.2)).congr (fun run => rfl) fun run => ?_
          simp only [List.map_cons, String.intercalate_cons_cons, String.toList_append,
            List.append_assoc]

theorem commas (isQuote : IsNameQuote quote) (uniform : ∀ part ∈ parts, part.IsUniform quote) :
    Uniform quote (fun run => parts.flatMap fun part => part.contents run)
      fun run => (", ".intercalate (parts.map fun part => part.text run)).toList := by
  refine intercalate (fun firstUniform secondUniform => ?_) uniform
  have nothing : Uniform quote (fun _ : ι => []) fun _ => [] := .fixed rfl
  exact divided isQuote (by decide) firstUniform (nothing.spaced isQuote secondUniform)

end Uniform

/-! ## Templates -/

namespace Template

variable {quote : Char} {args : List String} {chars : List Char}

theorem fillPieces_append_of_ok {first second : List Piece} {before after : List Char}
    (firstFilled : fillPieces args first = .ok before)
    (secondFilled : fillPieces args second = .ok after) :
    fillPieces args (first ++ second) = .ok (before ++ after) := by
  rw [fillPieces_append, firstFilled, secondFilled]
  rfl

theorem fillPieces_char_of_ok (char : Char) {rest : List Piece}
    (filled : fillPieces args rest = .ok chars) :
    fillPieces args (.text char :: rest) = .ok (char :: chars) := by
  rw [fillPieces_cons, filled]
  rfl

theorem spread_append {α : Type} (args : List (List α)) (first second : List Piece) :
    spread args (first ++ second) = spread args first ++ spread args second := List.flatMap_append

theorem spread_char {α : Type} (args : List (List α)) (char : Char) (rest : List Piece) :
    spread args (.text char :: rest) = spread args rest := List.flatMap_cons

theorem spread_text {α : Type} (args : List (List α)) (chars : List Char) :
    spread args (chars.map .text) = [] := by
  simp [spread, List.flatMap_map]

namespace Layout

/-- Whether the text between the slots is cut where the slots begin and end. -/
def isLexed (quote : Char) : Layout → Bool
  | .text chars => ((Lexeme.scanner quote).scan chars).isSome
  | .slot _ | .all => true
  | .divided first divider second =>
      Lexeme.dividers.contains divider && first.isLexed quote && second.isLexed quote
  | .group before inner => before.isLexed quote && inner.isLexed quote

variable {ι : Type} {parts : List (Written ι)}

/-- A template that is filled is filled in every run, with as many arguments. -/
theorem uniform_fill (isQuote : IsNameQuote quote)
    (uniform : ∀ part ∈ parts, part.IsUniform quote) (length : args.length = parts.length)
    {layout : Layout} (lexed : layout.isLexed quote = true)
    (filled : fillPieces args layout.pieces = .ok chars) :
    ∃ texts : ι → List Char,
      (∀ run, fillPieces (parts.map fun part => part.text run) layout.pieces = .ok (texts run)) ∧
        Uniform quote (fun run => spread (parts.map fun part => part.contents run) layout.pieces)
          texts := by
  induction layout generalizing chars with
  | text text =>
      obtain ⟨lexemes, lexed⟩ := Option.isSome_iff_exists.mp lexed
      refine ⟨fun _ => text, fun run => fillPieces_text _ text, ?_⟩
      exact (Uniform.fixed lexed).congr (fun run => (spread_text _ text).symm) fun _ => rfl
  | slot index =>
      have inside : index < parts.length := by
        cases found : args[index]? with
        | none =>
            simp only [pieces, fillPieces_cons, Piece.fill, found] at filled
            cases filled
        | some arg =>
            rw [← length]
            exact (List.getElem?_eq_some_iff.mp found).1
      have uniform := uniform _ (List.getElem_mem inside)
      refine ⟨fun run => (parts[index].text run).toList, fun run => ?_,
        uniform.congr (fun run => ?_) fun _ => rfl⟩
      · simp only [pieces, fillPieces_cons, Piece.fill, List.getElem?_map,
          List.getElem?_eq_getElem inside]
        exact congrArg Except.ok (List.append_nil _)
      · simp [pieces, spread, List.getElem?_eq_getElem inside]
  | all =>
      refine ⟨fun run => (", ".intercalate (parts.map fun part => part.text run)).toList,
        fun run => ?_, (Uniform.commas isQuote uniform).congr (fun run => ?_) fun _ => rfl⟩
      · rw [pieces, fillPieces_cons]
        exact congrArg Except.ok (List.append_nil _)
      · simp [pieces, spread, List.flatMap_def]
  | divided first divider second firstInduction secondInduction =>
      simp only [isLexed, Bool.and_eq_true, List.contains_eq_mem, decide_eq_true_eq] at lexed
      obtain ⟨before, after, beforeFilled, afterFilled, _⟩ := fill_divided filled
      obtain ⟨firstTexts, firstFilled, firstUniform⟩ := firstInduction lexed.1.2 beforeFilled
      obtain ⟨secondTexts, secondFilled, secondUniform⟩ := secondInduction lexed.2 afterFilled
      refine ⟨fun run => firstTexts run ++ divider :: secondTexts run, fun run => ?_,
        (firstUniform.divided isQuote lexed.1.1 secondUniform).congr (fun run => ?_) fun _ => rfl⟩
      · exact fillPieces_append_of_ok (firstFilled run)
          (fillPieces_char_of_ok divider (secondFilled run))
      · rw [pieces, spread_append, spread_char]
  | group before inner beforeInduction innerInduction =>
      simp only [isLexed, Bool.and_eq_true] at lexed
      obtain ⟨first, second, firstFilled, secondFilled, _⟩ := fill_group filled
      obtain ⟨firstTexts, firstFilled, firstUniform⟩ := beforeInduction lexed.1 firstFilled
      obtain ⟨secondTexts, secondFilled, secondUniform⟩ := innerInduction lexed.2 secondFilled
      refine ⟨fun run => firstTexts run ++ '(' :: (secondTexts run ++ [')']), fun run => ?_,
        (firstUniform.group isQuote secondUniform).congr (fun run => ?_) fun _ => rfl⟩
      · exact fillPieces_append_of_ok (firstFilled run) (fillPieces_char_of_ok '('
          (fillPieces_append_of_ok (secondFilled run) (fillPieces_char_of_ok ')' rfl)))
      · rw [pieces, spread_append, spread_char, spread_append, spread_char]
        exact congrArg (spread _ before.pieces ++ ·) (List.append_nil _).symm

theorem isLexed_divided {first second : Layout} {divider : Char}
    (isDivider : divider = ' ' ∨ divider = ',') (firstLexed : first.isLexed quote = true)
    (secondLexed : second.isLexed quote = true) :
    (divided first divider second).isLexed quote = true := by
  have listed : Lexeme.dividers.contains divider = true := by
    rcases isDivider with rfl | rfl <;> decide
  rw [isLexed, listed, firstLexed, secondLexed]
  rfl

theorem isLexed_group {before inner : Layout} (beforeLexed : before.isLexed quote = true)
    (innerLexed : inner.isLexed quote = true) : (group before inner).isLexed quote = true := by
  rw [isLexed, beforeLexed, innerLexed]
  rfl

theorem isLexed_of_isInert (inert : Complete.isInert quote chars = true) :
    (text chars).isLexed quote = true := by
  rw [Complete.isInert] at inert
  rw [isLexed]
  cases lexed : (Lexeme.scanner quote).scan chars with
  | none =>
      rw [lexed] at inert
      cases inert
  | some lexemes => rfl

theorem isLexed_of_isWord (word : Lexeme.isWord chars = true) :
    (text chars).isLexed quote = true := by
  have scanned : (Lexeme.scanner quote).scan (chars ++ []) =
      (Lexeme.scanner quote).resume (.word chars) [] := Lexeme.opens_word word []
  rw [List.append_nil] at scanned
  rw [isLexed, scanned]
  rfl

theorem isLexed_of_isSound {layout : Layout} (sound : layout.isSound quote = true) :
    layout.isLexed quote = true := by
  induction layout with
  | text chars => exact isLexed_of_isInert sound
  | slot index => rfl
  | all => rfl
  | divided first divider second firstInduction secondInduction =>
      simp only [isSound, Bool.and_eq_true, Bool.or_eq_true, beq_iff_eq] at sound
      exact isLexed_divided sound.1.1 (firstInduction sound.1.2) (secondInduction sound.2)
  | group before inner beforeInduction innerInduction =>
      simp only [isSound, Bool.and_eq_true] at sound
      exact isLexed_group (beforeInduction sound.1) (innerInduction sound.2)

theorem isLexed_of_opensCase {layout : Layout} (opens : layout.opensCase quote = true) :
    layout.isLexed quote = true := by
  induction layout with
  | text chars =>
      rw [beq_iff_eq.mp opens]
      exact isLexed_of_isWord rfl
  | divided first divider second induction _ =>
      simp only [opensCase, Bool.and_eq_true, beq_iff_eq] at opens
      exact isLexed_divided (.inl opens.1.1) (induction opens.1.2) (isLexed_of_isSound opens.2)
  | _ => cases opens

end Layout

theorem Shape.isLexed_layout {shape : Shape} (sound : shape.isSound quote = true) :
    shape.layout.isLexed quote = true := by
  have free {name : String} (isFree : Dialect.isFreeWord name = true) :
      (Layout.text name.toList).isLexed quote = true :=
    Layout.isLexed_of_isWord (Dialect.isFreeWord_iff.mp isFree).1
  have word (name : String) (isWord : Lexeme.isWord name.toList = true) :
      (Layout.text name.toList).isLexed quote = true := Layout.isLexed_of_isWord isWord
  have spaced {first second : Layout} (firstLexed : first.isLexed quote = true)
      (secondLexed : second.isLexed quote = true) :
      (Layout.divided first ' ' second).isLexed quote = true :=
    Layout.isLexed_divided (.inl rfl) firstLexed secondLexed
  induction shape with
  | word name => exact free sound
  | call name args =>
      simp only [isSound, Bool.and_eq_true] at sound
      exact Layout.isLexed_group (free sound.1) (Layout.isLexed_of_isSound sound.2)
  | bracket inner => exact Layout.isLexed_group rfl (Layout.isLexed_of_isSound sound)
  | cased begun => exact spaced (Layout.isLexed_of_opensCase sound) (word "END" rfl)
  | cast arg type induction =>
      simp only [isSound, Bool.and_eq_true] at sound
      exact Layout.isLexed_group (word "CAST" rfl)
        (spaced (spaced (induction sound.1) (word "AS" rfl)) (free sound.2))
  | ordered name args ordering =>
      simp only [isSound, Bool.and_eq_true] at sound
      have called := Layout.isLexed_group (free sound.1.1) (Layout.isLexed_of_isSound sound.1.2)
      exact Layout.isLexed_group
        (spaced (spaced (spaced called (word "WITHIN" rfl)) (word "GROUP" rfl)) rfl)
        (Layout.isLexed_of_isSound sound.2)

/-- A template of a known dialect that is filled is filled in every run. -/
theorem uniform_fill {ι : Type} {parts : List (Written ι)} (isQuote : IsNameQuote quote)
    (uniform : ∀ part ∈ parts, part.IsUniform quote) (length : args.length = parts.length)
    {template text : String} (atomic : isAtomic quote template = true)
    (filled : fill template args = .ok text) :
    ∃ texts : ι → String,
      (∀ run, fill template (parts.map fun part => part.text run) = .ok (texts run)) ∧
        Written.IsUniform quote
          { text := texts
            contents := fun run =>
              spread (parts.map fun part => part.contents run) (pieces template) } := by
  unfold isAtomic at atomic
  obtain ⟨shape, _, checked⟩ := (Option.any_eq_true _ _).mp atomic
  simp only [Bool.and_eq_true, beq_iff_eq] at checked
  rw [fill, ← checked.1] at filled
  cases charsFilled : fillPieces args shape.layout.pieces with
  | error index =>
      rw [charsFilled] at filled
      cases filled
  | ok chars =>
      obtain ⟨texts, textsFilled, textsUniform⟩ := Layout.uniform_fill isQuote uniform length
        (Shape.isLexed_layout checked.2) charsFilled
      rw [← checked.1]
      refine ⟨fun run => String.ofList (texts run), fun run => ?_,
        textsUniform.congr (fun _ => rfl) fun run => (String.toList_ofList).symm⟩
      rw [fill, ← checked.1, textsFilled run]
      rfl

end Template

end SqlPlan
