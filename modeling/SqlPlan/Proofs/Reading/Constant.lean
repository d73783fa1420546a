import SqlPlan.Proofs.Numbers.Literal
import SqlPlan.Proofs.Reading.Complete

/-!
# Constants as text

Texts, truth values and null are one token each, and so is a number, behind a
minus sign where it is negative.
-/

namespace SqlPlan

namespace Lexeme

variable {quote : Char} {chars digits : List Char} {phase : Phase}

theorem start_of_isDigit {char : Char} (isDigit : char.isDigit = true) :
    start quote char = .number .digits [char] := by
  have visible : char.isWhitespace = false := by
    rw [Bool.eq_false_iff]
    intro blank
    simp only [Char.isWhitespace, Bool.or_eq_true, decide_eq_true_eq] at blank
    rcases blank with ((rfl | rfl) | rfl) | rfl <;> cases isDigit
  have noWord : isWordStart char = false := by
    rw [Bool.eq_false_iff]
    intro letter
    simp only [isWordStart, Bool.or_eq_true, beq_iff_eq] at letter
    rcases letter with letter | rfl
    · have digit : (decide (char.val ≥ 48) && decide (char.val ≤ 57)) = true := isDigit
      have alphabetic : (decide (char.val ≥ 65 ∧ char.val ≤ 90) ||
          (decide (char.val ≥ 97) && decide (char.val ≤ 122))) = true := letter
      simp only [Bool.and_eq_true, Bool.or_eq_true, decide_eq_true_eq, ge_iff_le,
        UInt32.le_iff_toNat_le, UInt32.reduceToNat] at digit alphabetic
      omega
    · cases isDigit
  simp [start, visible, noWord, isDigit]

/-- Text that is a number so far. -/
structure OpensNumber (quote : Char) (phase : Phase) (chars : List Char) : Prop where
  opens : Opens quote chars (.number phase chars)
  unsigned : ∃ char rest, chars = char :: rest ∧ char ≠ '-'

namespace OpensNumber

theorem push (number : OpensNumber quote phase chars) {char : Char} {next : Phase}
    (goesOn : phase.next? char = some next) : OpensNumber quote next (chars ++ [char]) := by
  constructor
  · intro rest
    rw [List.append_assoc, List.singleton_append, number.opens (char :: rest), Scanner.resume]
    simp [scanner, extend?, goesOn]
  · obtain ⟨first, rest, rfl, different⟩ := number.unsigned
    exact ⟨first, rest ++ [char], rfl, different⟩

theorem append (number : OpensNumber quote .digits chars)
    (isDigit : ∀ char ∈ digits, char.isDigit = true) :
    OpensNumber quote .digits (chars ++ digits) := by
  induction digits generalizing chars with
  | nil => simpa using number
  | cons char digits induction =>
      rw [List.forall_mem_cons] at isDigit
      have goesOn : Phase.digits.next? char = some .digits := by simp [Phase.next?, isDigit.1]
      simpa using induction (number.push goesOn) isDigit.2

theorem ofDigits (quote : Char) (nonempty : digits ≠ [])
    (isDigit : ∀ char ∈ digits, char.isDigit = true) : OpensNumber quote .digits digits := by
  cases digits with
  | nil => exact absurd rfl nonempty
  | cons char digits =>
      rw [List.forall_mem_cons] at isDigit
      have begins : OpensNumber quote .digits [char] := by
        constructor
        · intro rest
          rw [List.singleton_append, Scanner.scan]
          exact congrArg (fun piece => (scanner quote).resume piece rest)
            (start_of_isDigit isDigit.1)
        · refine ⟨char, [], rfl, ?_⟩
          rintro rfl
          cases isDigit.1
      exact begins.append isDigit.2

theorem fraction (number : OpensNumber quote .digits chars)
    (isDigit : ∀ char ∈ digits, char.isDigit = true) :
    OpensNumber quote .digits (chars ++ '.' :: digits) := by
  have pointed : OpensNumber quote .digits (chars ++ ['.']) := number.push rfl
  simpa using pointed.append isDigit

theorem exponent (number : OpensNumber quote .digits chars) (power : Power) :
    OpensNumber quote .digits (chars ++ 'e' :: power.chars) := by
  have marked : OpensNumber quote .mark (chars ++ ['e']) := number.push rfl
  obtain ⟨sign, ⟨digits, nonempty, isDigit⟩, isSign⟩ := power
  cases digits with
  | nil => exact absurd rfl nonempty
  | cons char digits =>
      rw [List.forall_mem_cons] at isDigit
      have begun : OpensNumber quote .digits (chars ++ ['e'] ++ sign ++ [char]) := by
        simp only [List.mem_cons, List.not_mem_nil, or_false] at isSign
        rcases isSign with rfl | rfl | rfl
        · rw [List.append_nil]
          exact marked.push (by simp [Phase.next?, isDigit.1])
        · have signed : OpensNumber quote .sign (chars ++ ['e'] ++ ['+']) := marked.push rfl
          exact signed.push (by simp [Phase.next?, isDigit.1])
        · have signed : OpensNumber quote .sign (chars ++ ['e'] ++ ['-']) := marked.push rfl
          exact signed.push (by simp [Phase.next?, isDigit.1])
      simpa [Power.chars] using begun.append isDigit.2

theorem ofLiteral (quote : Char) (literal : NumericLiteral) :
    OpensNumber quote .digits literal.unsigned := by
  have whole : OpensNumber quote .digits literal.whole.chars :=
    .ofDigits quote literal.whole.nonempty literal.whole.isDigit
  have pointed : OpensNumber quote .digits (literal.whole.chars ++ literal.fractionChars) := by
    unfold NumericLiteral.fractionChars
    cases literal.fraction with
    | none => simpa using whole
    | some digits => exact whole.fraction digits.isDigit
  unfold NumericLiteral.unsigned NumericLiteral.exponentChars
  cases literal.exponent with
  | none => simpa using pointed
  | some power => exact pointed.exponent power

theorem divides (number : OpensNumber quote .digits chars) (grammar : Grammar) :
    Divides grammar quote chars [.lexeme (.number chars)] :=
  .ofOpens number.opens rfl (by simp) (by simp) rfl

end OpensNumber

end Lexeme

/-- A finite number is written as one, behind a minus sign where it is negative. -/
theorem Number.exists_chars {number : Number} (finite : number.isFinite = true) (quote : Char) :
    ∃ (negative : Bool) (chars : List Char), Lexeme.OpensNumber quote .digits chars ∧
      number.chars = (if negative then ['-'] else []) ++ chars := by
  cases number with
  | nan => cases finite
  | infinite negative => cases finite
  | finite negative exponent fraction =>
      rw [Number.chars]
      split
      · exact ⟨false, ['0'],
          .ofDigits quote (List.cons_ne_nil _ _) (List.forall_mem_singleton.mpr rfl), rfl⟩
      · obtain ⟨literal, spelled, -⟩ := (Number.shortest exponent fraction).exists_literal
        exact ⟨negative, _, .ofLiteral quote literal, by rw [spelled]⟩

namespace Atomic

variable {quote : Char} {chars : List Char}

theorem number (number : Lexeme.OpensNumber quote .digits chars) (grammar : Grammar) :
    Atomic grammar quote chars :=
  .leaf ⟨_, number.divides grammar, .part (by simp [Token.wordOf?]) (by simp [Token.wordOf?])⟩
    ⟨_, number.divides grammar, rfl⟩

theorem negative (isQuote : IsNameQuote quote) (number : Lexeme.OpensNumber quote .digits chars)
    (grammar : Grammar) : Atomic grammar quote ('-' :: chars) := by
  have scans : Scans grammar quote chars [.leaf (String.ofList chars)] :=
    ⟨_, number.divides grammar, rfl⟩
  have complete := (Atomic.number number grammar).complete
  obtain ⟨char, rest, rfl, different⟩ := number.unsigned
  exact ⟨complete.minus isQuote different, _, _, scans.minus isQuote different,
    (Spans.leaf grammar _ .closed).negate (by decide) _⟩

theorem signed (isQuote : IsNameQuote quote) (number : Lexeme.OpensNumber quote .digits chars)
    (grammar : Grammar) (negative : Bool) :
    Atomic grammar quote ((if negative then ['-'] else []) ++ chars) := by
  cases negative with
  | false => exact .number number grammar
  | true => exact .negative isQuote number grammar

theorem quoted (isQuote : IsNameQuote quote) (grammar : Grammar) (text : String) :
    Atomic grammar quote (Text.quoted '\'' text).toList := by
  have opens : Lexeme.Opens quote (Text.quoted '\'' text).toList
      (.quoted false true (Text.quoted '\'' text).toList) := Lexeme.opens_quoted isQuote false text
  have divides : Divides grammar quote (Text.quoted '\'' text).toList
      [.lexeme (.text (Text.quoted '\'' text).toList)] :=
    .ofOpens opens rfl (by simp) (by simp) rfl
  exact .leaf ⟨_, divides, .part (by simp [Token.wordOf?]) (by simp [Token.wordOf?])⟩
    ⟨_, divides, rfl⟩

/-- Every constant but a truth value, whose text the dialect chooses. -/
theorem literal {dialect : Dialect} (isQuote : IsNameQuote dialect.quote) {constant : Literal}
    {text : String} (noTruth : ∀ truth, constant.value ≠ .boolean truth)
    (written : Expr.literalText dialect constant = .ok text) (grammar : Grammar) :
    Atomic grammar dialect.quote text.toList := by
  unfold Expr.literalText at written
  cases value : constant.value with
  | null =>
      rw [value] at written
      cases written
      exact .word (by decide) grammar _
  | boolean truth => exact absurd value (noTruth truth)
  | text content =>
      rw [value] at written
      cases written
      exact .quoted isQuote grammar content
  | number number =>
      simp only [value] at written
      split at written
      · rename_i finite
        obtain ⟨negative, chars, isNumber, spelled⟩ := number.exists_chars finite dialect.quote
        cases written
        split
        · have fraction : Lexeme.OpensNumber dialect.quote .digits (chars ++ '.' :: ['0']) :=
            isNumber.fraction (List.forall_mem_singleton.mpr rfl)
          have atomic := Atomic.signed isQuote fraction grammar negative
          simpa [Number.text, spelled] using atomic
        · have atomic := Atomic.signed isQuote isNumber grammar negative
          simpa [Number.text, spelled] using atomic
      · cases written

end Atomic

namespace Dialect.Regular

variable {dialect : Dialect} (regular : dialect.Regular)
include regular

theorem atomic_truth (grammar : Grammar) (truth : Bool) :
    Atomic grammar dialect.quote (dialect.truthText truth).toList := by
  have digit {char : Char} (isDigit : char.isDigit = true) : Atomic grammar dialect.quote [char] :=
    .number (.ofDigits _ (List.cons_ne_nil _ _) (by simpa using isDigit)) grammar
  rcases regular.truths truth with one | zero | free
  · rw [one]
    exact digit rfl
  · rw [zero]
    exact digit rfl
  · exact .word free grammar _

/-- Every constant is an operand by itself. -/
theorem atomic_literal {constant : Literal} {text : String}
    (written : Expr.literalText dialect constant = .ok text) (grammar : Grammar) :
    Atomic grammar dialect.quote text.toList := by
  by_cases isTruth : ∃ truth, constant.value = .boolean truth
  · obtain ⟨truth, value⟩ := isTruth
    rw [Expr.literalText, value] at written
    cases written
    exact regular.atomic_truth grammar truth
  · exact .literal regular.isQuote (fun truth value => isTruth ⟨truth, value⟩) written grammar

end Dialect.Regular

end SqlPlan
