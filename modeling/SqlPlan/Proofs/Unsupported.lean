import SqlPlan.Dialect.Registry
import SqlPlan.Proofs.Expr.Calls
import SqlPlan.Proofs.Expr.Natives
import SqlPlan.Proofs.Reading.Template

/-!
# Expressions that cannot be written

Which parts of an expression a dialect cannot write, said for each part by itself:
its own form, the entry of its function, and whether aggregates are allowed where
it stands.  Writing an expression fails if and only if some part of it is of this
kind, and the error is about such a part.  In particular none of the shorter forms
(null tests, constant membership, flattened groups, cast quotients, templates that
leave out an argument) passes over a part.  Which aggregates are native is a matter
of the names that these are found under, and they are found under more than are
listed.
-/

namespace SqlPlan

/-! ## Slots of a template -/

namespace Template

/-- A text in which a number stands between braces. -/
inductive Mentions (index : Nat) : List Char → Prop where
  | here {digits after : List Char} :
      digits ≠ [] → (∀ digit ∈ digits, digit.isDigit = true) → slotIndex digits = index →
        Mentions index ('{' :: (digits ++ '}' :: after))
  | later {char : Char} {rest : List Char} : Mentions index rest → Mentions index (char :: rest)

variable {index : Nat}

theorem mentions_cons_of_ne {char : Char} {rest : List Char} (other : char ≠ '{') :
    Mentions index (char :: rest) ↔ Mentions index rest := by
  constructor
  · intro mentions
    cases mentions with
    | here => exact absurd rfl other
    | later mentions => exact mentions
  · exact .later

theorem mentions_digits_append {digits rest : List Char}
    (isDigits : ∀ digit ∈ digits, digit.isDigit = true) :
    Mentions index (digits ++ rest) ↔ Mentions index rest := by
  induction digits with
  | nil => rfl
  | cons digit digits induction =>
      obtain ⟨isDigit, isDigits⟩ := List.forall_mem_cons.mp isDigits
      have other : digit ≠ '{' := by
        rintro rfl
        cases isDigit
      rw [List.cons_append, mentions_cons_of_ne other, induction isDigits]

/-- After a brace and digits it is the next character that tells whether they are a slot. -/
theorem mentions_braced {digits rest : List Char} {char : Char}
    (isDigits : ∀ digit ∈ digits, digit.isDigit = true) (ends : char.isDigit = false) :
    Mentions index ('{' :: (digits ++ char :: rest)) ↔
      (char = '}' ∧ digits ≠ [] ∧ slotIndex digits = index) ∨ Mentions index (char :: rest) := by
  have split (others after : List Char) (last : Char) (lastEnds : last.isDigit = false)
      (areDigits : ∀ digit ∈ others, digit.isDigit = true) :
      (others ++ last :: after).takeWhile Char.isDigit = others := by
    rw [List.takeWhile_append_of_pos areDigits, List.takeWhile_cons_of_neg (by simp [lastEnds]),
      List.append_nil]
  constructor
  · intro mentions
    cases same : '{' :: (digits ++ char :: rest) with
    | nil => cases same
    | cons first remaining =>
        rw [same] at mentions
        cases mentions with
        | @here others after nonempty areDigits value =>
            have tails := (List.cons.inj same).2
            have equal : digits = others := by
              rw [← split digits rest char ends isDigits, tails,
                split others after '}' rfl areDigits]
            subst equal
            have ending := List.append_cancel_left tails
            exact .inl ⟨(List.cons.inj ending).1, nonempty, value⟩
        | later mentions =>
            rw [← (List.cons.inj same).2, mentions_digits_append isDigits] at mentions
            exact .inr mentions
  · rintro (⟨rfl, nonempty, value⟩ | mentions)
    · exact .here nonempty isDigits value
    · exact .later ((mentions_digits_append isDigits).mpr mentions)

theorem mentions_starred {rest : List Char} :
    Mentions index ('{' :: '*' :: rest) ↔ Mentions index rest := by
  have braced : Mentions index ('{' :: ([] ++ '*' :: rest)) ↔ _ := mentions_braced (by simp) rfl
  refine braced.trans ?_
  rw [or_iff_right fun slot => slot.2.1 rfl, mentions_cons_of_ne (by decide)]

/-- The characters of a slot that were read already. -/
def Reading.begun : Reading → List Char
  | .text => []
  | .digits seen => '{' :: seen
  | .star => ['{', '*']

def Reading.HasDigits : Reading → Prop
  | .digits seen => ∀ digit ∈ seen, digit.isDigit = true
  | _ => True

theorem slot_not_mem_asText (reading : Reading) : Piece.slot index ∉ reading.asText := by
  cases reading <;> simp [Reading.asText]

theorem not_mentions_begun (reading : Reading) (hasDigits : reading.HasDigits) :
    ¬ Mentions index reading.begun := by
  have none : ¬ Mentions index [] := by
    intro mentions
    cases mentions
  cases reading with
  | text => exact none
  | star => exact mt mentions_starred.mp none
  | digits seen =>
      intro mentions
      generalize whole : Reading.begun (.digits seen) = chars at mentions
      cases mentions with
      | @here digits after _ _ _ =>
          have isDigit := hasDigits '}' ((List.cons.inj whole).2 ▸ by simp)
          cases isDigit
      | later mentions =>
          rw [← (List.cons.inj whole).2, ← List.append_nil seen,
            mentions_digits_append hasDigits] at mentions
          exact none mentions

/-- The slots that are found are those that the text mentions. -/
theorem slot_mem_piecesFrom (reading : Reading) (hasDigits : reading.HasDigits)
    (chars : List Char) :
    Piece.slot index ∈ piecesFrom reading chars ↔ Mentions index (reading.begun ++ chars) := by
  induction chars generalizing reading with
  | nil =>
      rw [piecesFrom, List.append_nil]
      exact iff_of_false (slot_not_mem_asText reading) (not_mentions_begun reading hasDigits)
  | cons char rest induction =>
      have onText : Piece.slot index ∈ piecesFrom .text rest ↔ Mentions index rest :=
        induction .text trivial
      have onBrace : Piece.slot index ∈ piecesFrom (.digits []) rest ↔
          Mentions index ('{' :: rest) := induction (.digits []) (by simp [Reading.HasDigits])
      -- A slot that turned out to be text leaves the rest to be read from this character on.
      have onOther (other : char ≠ '{') (reading : Reading) :
          Piece.slot index ∈ reading.asText ++ .text char :: piecesFrom .text rest ↔
            Mentions index (char :: rest) := by
        rw [mentions_cons_of_ne other]
        simpa [slot_not_mem_asText] using onText
      cases reading with
      | text =>
          rw [piecesFrom]
          split
          case isTrue isBrace =>
            rw [onBrace, isBrace]
            rfl
          case isFalse other => exact onOther other .text
      | star =>
          have skipped : Mentions index (Reading.begun .star ++ char :: rest) ↔
              Mentions index (char :: rest) := mentions_starred
          rw [piecesFrom, skipped]
          split
          case isTrue isClosed =>
            rw [isClosed, mentions_cons_of_ne (by decide)]
            simpa using onText
          case isFalse =>
            split
            case isTrue isBrace => simpa [slot_not_mem_asText, isBrace] using onBrace
            case isFalse other => exact onOther other .star
      | digits seen =>
          rw [piecesFrom]
          split
          case isTrue isDigit =>
            have more : ∀ digit ∈ seen ++ [char], digit.isDigit = true :=
              List.forall_mem_append.mpr ⟨hasDigits, by simpa using isDigit⟩
            rw [induction (.digits (seen ++ [char])) more]
            simp [Reading.begun]
          case isFalse ends =>
            rw [Reading.begun, List.cons_append,
              mentions_braced hasDigits (Bool.eq_false_iff.mpr ends)]
            split
            case isTrue closes =>
              rw [closes.1, mentions_cons_of_ne (by decide), List.mem_cons, onText]
              simp [closes.2, eq_comm]
            case isFalse unclosed =>
              rw [or_iff_right fun slot => unclosed ⟨slot.1, slot.2.1⟩]
              split
              case isTrue starred =>
                rw [induction .star trivial, starred.1, mentions_cons_of_ne (by decide)]
                exact mentions_starred
              case isFalse =>
                split
                case isTrue isBrace => simpa [slot_not_mem_asText, isBrace] using onBrace
                case isFalse other => exact onOther other (.digits seen)

theorem slot_of_fillPieces_eq_error {args : List String} {list : List Piece}
    (failed : fillPieces args list = .error index) :
    .slot index ∈ list ∧ args.length ≤ index := by
  induction list with
  | nil => cases failed
  | cons piece rest induction =>
      rw [fillPieces_cons] at failed
      rcases bind_eq_error.mp failed with here | ⟨_, _, later⟩
      · cases piece with
        | text char => cases here
        | all => cases here
        | slot other =>
            rw [Piece.fill] at here
            cases given : args[other]? with
            | some arg => rw [given] at here; cases here
            | none =>
                rw [given] at here
                cases here
                exact ⟨List.mem_cons_self, List.getElem?_eq_none_iff.mp given⟩
      · obtain ⟨member, missing⟩ := induction (map_eq_error.mp later)
        exact ⟨List.mem_cons_of_mem _ member, missing⟩

theorem lt_of_fillPieces_eq_ok {args : List String} {list : List Piece} {chars : List Char}
    (filled : fillPieces args list = .ok chars) (member : .slot index ∈ list) :
    index < args.length := by
  induction list generalizing chars with
  | nil => cases member
  | cons piece rest induction =>
      rw [fillPieces_cons] at filled
      obtain ⟨_, here, filled⟩ := bind_eq_ok.mp filled
      obtain ⟨_, later, _⟩ := map_eq_ok.mp filled
      rcases List.mem_cons.mp member with rfl | member
      · rw [Piece.fill] at here
        cases given : args[index]? with
        | none => rw [given] at here; cases here
        | some arg => exact (List.getElem?_eq_some_iff.mp given).1
      · exact induction later member

/-- A template that is not filled mentions the slot, and too few arguments are given. -/
theorem mentions_of_fill_eq_error {template : String} {args : List String}
    (failed : fill template args = .error index) :
    Mentions index template.toList ∧ args.length ≤ index := by
  obtain ⟨member, missing⟩ := slot_of_fillPieces_eq_error (map_eq_error.mp failed)
  exact ⟨(slot_mem_piecesFrom .text trivial _).mp member, missing⟩

theorem lt_of_fill_eq_ok {template text : String} {args : List String}
    (filled : fill template args = .ok text) (mentions : Mentions index template.toList) :
    index < args.length := by
  obtain ⟨_, filled, _⟩ := map_eq_ok.mp filled
  exact lt_of_fillPieces_eq_ok filled ((slot_mem_piecesFrom .text trivial _).mpr mentions)

end Template

/-! ## Parts that cannot be written -/

namespace Expr

/-- A part that cannot be written where it stands, with what the error names and why, if
these are the lower-case names of the native aggregates. -/
inductive Unsupported (dialect : Dialect) (natives : List String) :
    Bool → Expr → String → UnsupportedCause → Prop where
  | number {aggregates : Bool} {number : Number} {mark : Option NumericMark} :
      number.isFinite = false →
        Unsupported dialect natives aggregates (.literal { value := .number number, mark })
          number.text .numericLiteral
  | memberNumber {aggregates : Bool} {arg : Expr} {values : List Literal} {negated : Bool}
      {number : Number} {mark : Option NumericMark} :
      { value := .number number, mark } ∈ values → number.isFinite = false →
        Unsupported dialect natives aggregates (.member arg values negated) number.text
          .numericLiteral
  | unmappedCall {aggregates : Bool} {name : String} {args : List Expr} :
      dialect.functions.get? (Text.lower name) = none →
        Unsupported dialect natives aggregates (.call name args) name .unmapped
  | aggregateCall {name : String} {args : List Expr} {entry : FunctionEntry} :
      dialect.functions.get? (Text.lower name) = some entry → entry.isAggregate = true →
        Unsupported dialect natives false (.call name args) name .aggregateOutside
  | callSlot {aggregates : Bool} {name : String} {args : List Expr} {entry : FunctionEntry}
      {slot : Nat} :
      dialect.functions.get? (Text.lower name) = some entry →
        Template.Mentions slot entry.template.toList → args.length ≤ slot →
        Unsupported dialect natives aggregates (.call name args) name
          (.missingArgument slot args.length)
  | aggregate {name : String} {arg : Option Expr} {distinct : Bool} :
      Unsupported dialect natives false (.aggregate name arg distinct) name .aggregateOutside
  | nativeArgument {aggregates : Bool} {name : String} {distinct : Bool} :
      Text.lower name ∈ natives → Text.lower name ≠ "count" →
        Unsupported dialect natives aggregates (.aggregate name none distinct) name
          .aggregateArgument
  | unmappedAggregate {aggregates : Bool} {name : String} {arg : Option Expr} {distinct : Bool} :
      Text.lower name ∉ natives → dialect.functions.get? (Text.lower name) = none →
        Unsupported dialect natives aggregates (.aggregate name arg distinct) name .unmapped
  | notAggregate {aggregates : Bool} {name : String} {arg : Option Expr} {distinct : Bool}
      {entry : FunctionEntry} :
      Text.lower name ∉ natives →
        dialect.functions.get? (Text.lower name) = some entry → entry.isAggregate = false →
        Unsupported dialect natives aggregates (.aggregate name arg distinct) name .notAggregate
  | distinctAggregate {aggregates : Bool} {name : String} {arg : Option Expr} :
      Text.lower name ∉ natives →
        Unsupported dialect natives aggregates (.aggregate name arg true) name .aggregateDistinct
  | aggregateSlot {aggregates : Bool} {name : String} {arg : Option Expr} {distinct : Bool}
      {entry : FunctionEntry} {slot : Nat} :
      Text.lower name ∉ natives →
        dialect.functions.get? (Text.lower name) = some entry →
        Template.Mentions slot entry.template.toList → arg.toList.length ≤ slot →
        Unsupported dialect natives aggregates (.aggregate name arg distinct) name
          (.missingArgument slot arg.toList.length)

variable {setting : Setting} {dialect : Dialect} {aggregates : Bool} {error : Error}

/-! ### Failing where a part cannot be written -/

/-- The error is about this part by itself. -/
def Blamed (dialect : Dialect) (aggregates : Bool) (expr : Expr) (error : Error) : Prop :=
  ∃ subject cause, expr.Unsupported dialect NativeAggregate.foundNames aggregates subject cause ∧
    error = .unsupported subject dialect.name cause

theorem literalText_eq_error {constant : Literal}
    (failed : literalText dialect constant = .error error) :
    ∃ number mark, constant = { value := .number number, mark } ∧ number.isFinite = false ∧
      error = .unsupported number.text dialect.name .numericLiteral := by
  obtain ⟨value, mark⟩ := constant
  cases value with
  | null => cases failed
  | boolean truth => cases failed
  | text text => cases failed
  | number number =>
      simp only [literalText] at failed
      split at failed
      · cases failed
      · rename_i infinite
        cases failed
        exact ⟨number, mark, rfl, Bool.eq_false_iff.mpr infinite, rfl⟩

theorem memberValues_eq_error {values : List Literal}
    (failed : memberValues dialect values = .error error) :
    ∃ number mark, { value := .number number, mark } ∈ values ∧ number.isFinite = false ∧
      error = .unsupported number.text dialect.name .numericLiteral := by
  obtain ⟨value, member, failed⟩ := exists_mem_of_mapM_eq_error failed
  obtain ⟨number, mark, rfl, infinite, rfl⟩ := literalText_eq_error failed
  exact ⟨number, mark, List.mem_of_mem_filter member, infinite, rfl⟩

theorem fillTemplate_eq_error {name template : String} {args : List String}
    (failed : fillTemplate dialect name template args = .error error) :
    ∃ slot, Template.Mentions slot template.toList ∧ args.length ≤ slot ∧
      error = .unsupported name dialect.name (.missingArgument slot args.length) := by
  rw [fillTemplate] at failed
  split at failed
  · cases failed
  · rename_i slot missing
    cases failed
    obtain ⟨mentions, short⟩ := Template.mentions_of_fill_eq_error missing
    exact ⟨slot, mentions, short, rfl⟩

theorem lookupFunction_eq_error {name : String}
    (failed : lookupFunction dialect aggregates name = .error error) :
    (dialect.functions.get? (Text.lower name) = none ∧
        error = .unsupported name dialect.name .unmapped) ∨
      ∃ entry, dialect.functions.get? (Text.lower name) = some entry ∧
        entry.isAggregate = true ∧ aggregates = false ∧
        error = .unsupported name dialect.name .aggregateOutside := by
  rw [lookupFunction] at failed
  split at failed
  · rename_i unmapped
    cases failed
    exact .inl ⟨unmapped, rfl⟩
  · rename_i entry mapped
    split at failed
    · rename_i outside
      cases failed
      simp only [Bool.and_eq_true, Bool.not_eq_true'] at outside
      exact .inr ⟨entry, mapped, outside.1, outside.2, rfl⟩
    · cases failed

theorem blamed_of_aggregateText {name : String} {arg : Option Expr} {text : Option String}
    {distinct : Bool} (given : text.toList.length = arg.toList.length)
    (failed : aggregateText dialect name text distinct = .error error) :
    (Expr.aggregate name arg distinct).Blamed dialect aggregates error := by
  unfold aggregateText at failed
  split at failed
  · cases failed
  · rename_i native notCount named
    cases failed
    cases arg with
    | some arg => cases given
    | none =>
        refine ⟨name, _, .nativeArgument (NativeAggregate.mem_foundNames_iff.mpr ⟨native, named⟩)
          ?_, rfl⟩
        intro counts
        rw [NativeAggregate.ofName?_eq_count_iff.mpr counts] at named
        exact notCount (Option.some.inj named).symm
  · cases failed
  · rename_i named
    have foreign := NativeAggregate.ofName?_eq_none_iff.mp named
    rcases bind_eq_error.mp failed with missing | ⟨entry, found, failed⟩
    · rcases lookupFunction_eq_error missing with ⟨unmapped, rfl⟩ | ⟨_, _, _, inside, _⟩
      · exact ⟨name, _, .unmappedAggregate foreign unmapped, rfl⟩
      · cases inside
    · obtain ⟨mapped, _⟩ := lookupFunction_eq_ok found
      split at failed
      · rename_i scalar
        cases failed
        exact ⟨name, _, .notAggregate foreign mapped (by simpa using scalar), rfl⟩
      · split at failed
        · rename_i isDistinct
          cases failed
          cases isDistinct
          exact ⟨name, _, .distinctAggregate foreign, rfl⟩
        · obtain ⟨slot, mentions, short, rfl⟩ := fillTemplate_eq_error failed
          rw [given] at short ⊢
          exact ⟨name, _, .aggregateSlot foreign mapped mentions short, rfl⟩

theorem length_texts {args : List Expr} {written : List String}
    (success : texts setting aggregates args = .ok written) : written.length = args.length := by
  induction args generalizing written with
  | nil =>
      cases success
      rfl
  | cons arg args induction =>
      rw [texts] at success
      obtain ⟨_, _, success⟩ := bind_eq_ok.mp success
      obtain ⟨rest, restWritten, success⟩ := bind_eq_ok.mp success
      cases success
      exact congrArg (· + 1) (induction restWritten)

theorem exists_of_texts_eq_error {args : List Expr}
    (failed : texts setting aggregates args = .error error) :
    ∃ arg ∈ args, arg.fragment setting aggregates = .error error := by
  induction args with
  | nil => cases failed
  | cons arg args induction =>
      rw [texts] at failed
      rcases bind_eq_error.mp failed with here | ⟨_, _, failed⟩
      · exact ⟨arg, List.mem_cons_self, here⟩
      · obtain ⟨other, member, failing⟩ := induction (eq_error_of_bind failed fun _ => ⟨_, rfl⟩)
        exact ⟨other, List.mem_cons_of_mem _ member, failing⟩

theorem exists_of_branchTexts_eq_error {branches : List (Expr × Expr)}
    (failed : branchTexts setting aggregates branches = .error error) :
    ∃ branch ∈ branches, branch.1.fragment setting aggregates = .error error ∨
      branch.2.fragment setting aggregates = .error error := by
  induction branches with
  | nil => cases failed
  | cons branch branches induction =>
      obtain ⟨condition, result⟩ := branch
      rw [branchTexts] at failed
      rcases bind_eq_error.mp failed with here | ⟨_, _, failed⟩
      · exact ⟨_, List.mem_cons_self, .inl here⟩
      rcases bind_eq_error.mp failed with here | ⟨_, _, failed⟩
      · exact ⟨_, List.mem_cons_self, .inr here⟩
      obtain ⟨other, member, failing⟩ := induction (eq_error_of_bind failed fun _ => ⟨_, rfl⟩)
      exact ⟨other, List.mem_cons_of_mem _ member, failing⟩

/-- An operator fails with an operand; the operand that a null test leaves out is null. -/
theorem fragment_binary_eq_error {op : BinaryOp} {left right : Expr}
    (failed : (Expr.binary op left right).fragment setting aggregates = .error error) :
    left.fragment setting aggregates = .error error ∨
      right.fragment setting aggregates = .error error := by
  cases op with
  | logical op =>
      rw [Expr.fragment] at failed
      rcases bind_eq_error.mp failed with failed | ⟨_, _, failed⟩
      · exact .inl failed
      · exact .inr (eq_error_of_bind failed fun _ => ⟨_, rfl⟩)
  | arithmetic op =>
      rw [Expr.fragment] at failed
      rcases bind_eq_error.mp failed with failed | ⟨_, _, failed⟩
      · exact .inl failed
      · exact .inr (eq_error_of_bind failed fun _ => ⟨_, rfl⟩)
  | comparison op =>
      rw [Expr.fragment] at failed
      split at failed
      · split at failed
        · cases failed
        · exact .inl (eq_error_of_bind failed fun _ => ⟨_, rfl⟩)
      · split at failed
        · exact .inr (eq_error_of_bind failed fun _ => ⟨_, rfl⟩)
        · rcases bind_eq_error.mp failed with failed | ⟨_, _, failed⟩
          · exact .inl failed
          · exact .inr (eq_error_of_bind failed fun _ => ⟨_, rfl⟩)

theorem fragment_case_eq_error {branches : List (Expr × Expr)} {otherwise : Option Expr}
    (failed : (Expr.case branches otherwise).fragment setting aggregates = .error error) :
    ∃ child ∈ (Expr.case branches otherwise).children,
      child.fragment setting aggregates = .error error := by
  have inBranches (failed : branchTexts setting aggregates branches = .error error) :
      ∃ child ∈ (Expr.case branches otherwise).children,
        child.fragment setting aggregates = .error error := by
    obtain ⟨branch, member, failed | failed⟩ := exists_of_branchTexts_eq_error failed
    · exact ⟨branch.1, mem_children_case.mpr (.inl ⟨branch, member, .inl rfl⟩), failed⟩
    · exact ⟨branch.2, mem_children_case.mpr (.inl ⟨branch, member, .inr rfl⟩), failed⟩
  cases otherwise with
  | none =>
      rw [Expr.fragment] at failed
      exact inBranches (eq_error_of_bind failed fun _ => ⟨_, rfl⟩)
  | some other =>
      rw [Expr.fragment] at failed
      rcases bind_eq_error.mp failed with failed | ⟨_, _, failed⟩
      · exact inBranches failed
      · exact ⟨other, mem_children_case.mpr (.inr rfl),
          eq_error_of_bind failed fun _ => ⟨_, rfl⟩⟩

theorem fragment_call_eq_error {name : String} {args : List Expr}
    (failed : (Expr.call name args).fragment setting aggregates = .error error) :
    (Expr.call name args).Blamed setting.dialect aggregates error ∨
      ∃ arg ∈ args, arg.fragment setting aggregates = .error error := by
  rw [Expr.fragment] at failed
  rcases bind_eq_error.mp failed with failed | ⟨entry, found, failed⟩
  · rcases lookupFunction_eq_error failed with
      ⟨unmapped, rfl⟩ | ⟨_, mapped, isAggregate, rfl, rfl⟩
    · exact .inl ⟨name, _, .unmappedCall unmapped, rfl⟩
    · exact .inl ⟨name, _, .aggregateCall mapped isAggregate, rfl⟩
  rcases bind_eq_error.mp failed with failed | ⟨argTexts, argsWritten, failed⟩
  · exact .inr (exists_of_texts_eq_error failed)
  · have failed := eq_error_of_bind failed fun _ => ⟨_, rfl⟩
    obtain ⟨slot, mentions, short, rfl⟩ := fillTemplate_eq_error failed
    rw [length_texts argsWritten] at short ⊢
    exact .inl ⟨name, _, .callSlot (lookupFunction_eq_ok found).1 mentions short, rfl⟩

theorem fragment_aggregate_eq_error {name : String} {arg : Option Expr} {distinct : Bool}
    (failed : (Expr.aggregate name arg distinct).fragment setting aggregates = .error error) :
    (Expr.aggregate name arg distinct).Blamed setting.dialect aggregates error ∨
      ∃ inner ∈ arg, inner.fragment setting false = .error error := by
  cases aggregates with
  | false =>
      refine .inl ⟨name, _, .aggregate, ?_⟩
      cases arg <;>
      · rw [Expr.fragment] at failed
        cases failed
        rfl
  | true =>
      cases arg with
      | none =>
          rw [Expr.fragment] at failed
          exact .inl (blamed_of_aggregateText rfl (eq_error_of_bind failed fun _ => ⟨_, rfl⟩))
      | some arg =>
          rw [Expr.fragment] at failed
          rcases bind_eq_error.mp failed with failed | ⟨_, _, failed⟩
          · exact .inr ⟨arg, rfl, failed⟩
          · exact .inl (blamed_of_aggregateText rfl (eq_error_of_bind failed fun _ => ⟨_, rfl⟩))

/-- Writing fails at this part itself or at one that stands directly in it. -/
theorem fragment_eq_error {expr : Expr}
    (failed : expr.fragment setting aggregates = .error error) :
    expr.Blamed setting.dialect aggregates error ∨ ∃ child ∈ expr.children,
      child.fragment setting (aggregates && !expr.isAggregate) = .error error := by
  cases expr with
  | column ref => cases failed
  | literal constant =>
      rw [Expr.fragment] at failed
      obtain ⟨number, mark, rfl, infinite, rfl⟩ :=
        literalText_eq_error (eq_error_of_bind failed fun _ => ⟨_, rfl⟩)
      exact .inl ⟨_, _, .number infinite, rfl⟩
  | unary op arg =>
      rw [Expr.fragment] at failed
      have failed := eq_error_of_bind failed fun _ => ⟨_, rfl⟩
      exact .inr ⟨arg, by simp [children], by simpa [isAggregate] using failed⟩
  | binary op left right =>
      simpa [children, isAggregate] using .inr (fragment_binary_eq_error failed)
  | member arg values negated =>
      rw [Expr.fragment] at failed
      rcases bind_eq_error.mp failed with failed | ⟨_, _, failed⟩
      · exact .inr ⟨arg, by simp [children], by simpa [isAggregate] using failed⟩
      · obtain ⟨number, mark, member, infinite, rfl⟩ :=
          memberValues_eq_error (eq_error_of_bind failed fun _ => ⟨_, rfl⟩)
        exact .inl ⟨_, _, .memberNumber member infinite, rfl⟩
  | call name args => simpa [children, isAggregate] using fragment_call_eq_error failed
  | case branches otherwise => simpa [isAggregate] using .inr (fragment_case_eq_error failed)
  | cast arg type =>
      rw [Expr.fragment] at failed
      have failed := eq_error_of_bind failed fun _ => ⟨_, rfl⟩
      exact .inr ⟨arg, by simp [children], by simpa [isAggregate] using failed⟩
  | aggregate name arg distinct =>
      simpa [children, isAggregate] using fragment_aggregate_eq_error failed

theorem literalText_eq_ok {number : Number} {mark : Option NumericMark} {text : String}
    (written : literalText dialect { value := .number number, mark } = .ok text) :
    number.isFinite = true := by
  simp only [literalText] at written
  split at written
  · assumption
  · cases written

theorem lt_of_fillTemplate_eq_ok {name template text : String} {args : List String} {slot : Nat}
    (filled : fillTemplate dialect name template args = .ok text)
    (mentions : Template.Mentions slot template.toList) : slot < args.length := by
  rw [fillTemplate] at filled
  split at filled
  · rename_i whole
    exact Template.lt_of_fill_eq_ok whole mentions
  · cases filled

/-- What is written is supported where it stands. -/
theorem Unsupported.not_written {expr : Expr} {subject : String} {cause : UnsupportedCause}
    (unsupported : expr.Unsupported setting.dialect NativeAggregate.foundNames aggregates subject
      cause)
    (fragment : Fragment) : expr.fragment setting aggregates ≠ .ok fragment := by
  intro written
  cases unsupported with
  | number infinite =>
      obtain ⟨_, written, _⟩ := fragment_literal written
      rw [literalText_eq_ok written] at infinite
      cases infinite
  | memberNumber member infinite =>
      obtain ⟨_, texts, _, written, _⟩ := fragment_member written
      obtain ⟨_, _, written⟩ := exists_mem_of_forall₂_left (mapM_eq_ok.mp written)
        (List.mem_filter.mpr ⟨member, rfl⟩)
      rw [literalText_eq_ok written] at infinite
      cases infinite
  | unmappedCall unmapped =>
      obtain ⟨entry, _, _, found, _⟩ := fragment_call written
      rw [(lookupFunction_eq_ok found).1] at unmapped
      cases unmapped
  | aggregateCall mapped isAggregate =>
      obtain ⟨entry, _, _, found, _⟩ := fragment_call written
      obtain ⟨found, inside⟩ := lookupFunction_eq_ok found
      cases mapped.symm.trans found
      cases inside isAggregate
  | callSlot mapped mentions short =>
      rw [Expr.fragment] at written
      obtain ⟨entry, found, written⟩ := bind_eq_ok.mp written
      obtain ⟨texts, argsWritten, written⟩ := bind_eq_ok.mp written
      obtain ⟨text, filled, _⟩ := bind_eq_ok.mp written
      cases mapped.symm.trans (lookupFunction_eq_ok found).1
      have enough := lt_of_fillTemplate_eq_ok filled mentions
      rw [length_texts argsWritten] at enough
      exact absurd enough (Nat.not_lt.mpr short)
  | @aggregate name arg distinct =>
      cases arg <;>
      · rw [Expr.fragment] at written
        cases written
  | nativeArgument isNative notCount =>
      obtain ⟨argText, text, fromArg, written, _⟩ := fragment_aggregate written
      cases argText with
      | some argText =>
          obtain ⟨_, given, _⟩ := fromArg argText rfl
          cases given
      | none =>
          obtain ⟨native, named⟩ := NativeAggregate.mem_foundNames_iff.mp isNative
          cases native with
          | count => exact notCount (NativeAggregate.ofName?_eq_count_iff.mp named)
          | _ =>
              simp only [aggregateText, named] at written
              cases written
  | unmappedAggregate foreign unmapped =>
      obtain ⟨_, _, _, written, _⟩ := fragment_aggregate written
      obtain ⟨entry, mapped, _⟩ := aggregateText_foreign
        (NativeAggregate.ofName?_eq_none_iff.mpr foreign) written
      rw [mapped] at unmapped
      cases unmapped
  | notAggregate foreign mapped scalar =>
      obtain ⟨_, _, _, written, _⟩ := fragment_aggregate written
      obtain ⟨entry, found, isAggregate, _⟩ := aggregateText_foreign
        (NativeAggregate.ofName?_eq_none_iff.mpr foreign) written
      cases mapped.symm.trans found
      rw [isAggregate] at scalar
      cases scalar
  | distinctAggregate foreign =>
      obtain ⟨_, _, _, written, _⟩ := fragment_aggregate written
      obtain ⟨_, _, _, every, _⟩ := aggregateText_foreign
        (NativeAggregate.ofName?_eq_none_iff.mpr foreign) written
      cases every
  | @aggregateSlot _ name arg distinct entry slot foreign mapped mentions short =>
      obtain ⟨argText, _, fromArg, written, _⟩ := fragment_aggregate written
      obtain ⟨entry, found, _, _, filled⟩ := aggregateText_foreign
        (NativeAggregate.ofName?_eq_none_iff.mpr foreign) written
      cases mapped.symm.trans found
      have enough := lt_of_fillTemplate_eq_ok filled mentions
      have given : argText.toList.length ≤ arg.toList.length := by
        cases argText with
        | none => exact Nat.zero_le _
        | some argText =>
            obtain ⟨_, given, _⟩ := fromArg argText rfl
            cases given
            exact Nat.le_refl 1
      omega

/-! ### Parts where they stand -/

theorem fragment_of_isNullLiteral {expr : Expr} (null : expr.isNullLiteral = true) :
    expr.fragment setting aggregates = .ok { text := "NULL" } := by
  cases expr with
  | literal constant =>
      obtain ⟨value, mark⟩ := constant
      cases of_decide_eq_true null
      rfl
  | _ => cases null

/-- A part of an expression, and whether aggregates are allowed where it stands: not
in the argument of an aggregate call, and elsewhere as around it. -/
inductive Reached (allowed : Bool) (part : Expr) : Bool → Expr → Prop where
  | self : Reached allowed part allowed part
  | deeper {child outer : Expr} {aggregates : Bool} :
      child ∈ outer.children → Reached allowed part (aggregates && !outer.isAggregate) child →
        Reached allowed part aggregates outer

theorem exists_reached_of_fragment_eq_error {expr : Expr}
    (failed : expr.fragment setting aggregates = .error error) :
    ∃ allowed part, Reached allowed part aggregates expr ∧
      part.Blamed setting.dialect allowed error := by
  induction expr using inductionOnChildren generalizing aggregates with
  | step expr induction =>
      rcases fragment_eq_error failed with here | ⟨child, member, failed⟩
      · exact ⟨aggregates, expr, .self, here⟩
      · obtain ⟨allowed, part, reached, blamed⟩ := induction child member failed
        exact ⟨allowed, part, .deeper member reached, blamed⟩

theorem Reached.not_unsupported {allowed : Bool} {part expr : Expr} {fragment : Fragment}
    {subject : String} {cause : UnsupportedCause} (reached : Reached allowed part aggregates expr)
    (written : expr.fragment setting aggregates = .ok fragment) :
    ¬ part.Unsupported setting.dialect NativeAggregate.foundNames allowed subject cause := by
  induction reached generalizing fragment with
  | self => exact fun unsupported => unsupported.not_written _ written
  | deeper member reached induction =>
      rcases fragment_children written _ member with null | ⟨childFragment, childWritten⟩
      · -- The null of a null test is written nowhere, and is supported anywhere.
        exact induction (fragment_of_isNullLiteral null)
      · exact induction childWritten

/-! ### The names of native aggregates -/

/-- A part is unsupported by other names if these are native of the same of its calls. -/
theorem Unsupported.of_agree {natives others : List String} {part : Expr} {subject : String}
    {cause : UnsupportedCause}
    (agree : ∀ name arg distinct, part = .aggregate name arg distinct →
      (Text.lower name ∈ natives ↔ Text.lower name ∈ others))
    (unsupported : part.Unsupported dialect natives aggregates subject cause) :
    part.Unsupported dialect others aggregates subject cause := by
  cases unsupported with
  | number infinite => exact .number infinite
  | memberNumber member infinite => exact .memberNumber member infinite
  | unmappedCall unmapped => exact .unmappedCall unmapped
  | aggregateCall mapped isAggregate => exact .aggregateCall mapped isAggregate
  | callSlot mapped mentions short => exact .callSlot mapped mentions short
  | aggregate => exact .aggregate
  | nativeArgument isNative notCount =>
      exact .nativeArgument ((agree _ _ _ rfl).mp isNative) notCount
  | unmappedAggregate foreign unmapped =>
      exact .unmappedAggregate (mt (agree _ _ _ rfl).mpr foreign) unmapped
  | notAggregate foreign mapped scalar =>
      exact .notAggregate (mt (agree _ _ _ rfl).mpr foreign) mapped scalar
  | distinctAggregate foreign =>
      exact .distinctAggregate (mt (agree _ _ _ rfl).mpr foreign)
  | aggregateSlot foreign mapped mentions short =>
      exact .aggregateSlot (mt (agree _ _ _ rfl).mpr foreign) mapped mentions short

theorem unsupported_iff_of_own {part : Expr} (own : part.isInherited = false) {subject : String}
    {cause : UnsupportedCause} :
    part.Unsupported dialect NativeAggregate.foundNames aggregates subject cause ↔
      part.Unsupported dialect NativeAggregate.listedNames aggregates subject cause := by
  constructor
  · apply Unsupported.of_agree
    rintro name arg distinct rfl
    exact mem_foundNames_iff_of_own own
  · apply Unsupported.of_agree
    rintro name arg distinct rfl
    exact (mem_foundNames_iff_of_own own).symm

/-- An expression is not written if and only if some part of it is unsupported where it
stands, and then the error is about such a part.  Native are the aggregates under all names
that they are found under; it is enough to go by the listed names where no part is an
aggregate that is inherited. -/
theorem sql_fails_iff_unsupported (setting : Setting) (aggregates : Bool) (expr : Expr) :
    ((∃ error, expr.sql setting aggregates = .error error) ↔
      ∃ allowed part subject cause, Reached allowed part aggregates expr ∧
        part.Unsupported setting.dialect NativeAggregate.foundNames allowed subject cause) ∧
    (∀ error, expr.sql setting aggregates = .error error →
      ∃ allowed part subject cause, Reached allowed part aggregates expr ∧
        part.Unsupported setting.dialect NativeAggregate.foundNames allowed subject cause ∧
        error = .unsupported subject setting.dialect.name cause) ∧
    ((∀ allowed part, Reached allowed part aggregates expr → part.isInherited = false) →
      ((∃ error, expr.sql setting aggregates = .error error) ↔
        ∃ allowed part subject cause, Reached allowed part aggregates expr ∧
          part.Unsupported setting.dialect NativeAggregate.listedNames allowed subject cause)) := by
  have named (error : Error) (failed : expr.sql setting aggregates = .error error) :
      ∃ allowed part subject cause, Reached allowed part aggregates expr ∧
        part.Unsupported setting.dialect NativeAggregate.foundNames allowed subject cause ∧
        error = .unsupported subject setting.dialect.name cause := by
    have failed := eq_error_of_bind failed fun _ => ⟨_, rfl⟩
    obtain ⟨allowed, part, reached, subject, cause, unsupported, same⟩ :=
      exists_reached_of_fragment_eq_error failed
    exact ⟨allowed, part, subject, cause, reached, unsupported, same⟩
  have fails : (∃ error, expr.sql setting aggregates = .error error) ↔
      ∃ allowed part subject cause, Reached allowed part aggregates expr ∧
        part.Unsupported setting.dialect NativeAggregate.foundNames allowed subject cause := by
    constructor
    · rintro ⟨error, failed⟩
      obtain ⟨allowed, part, subject, cause, reached, unsupported, _⟩ := named error failed
      exact ⟨allowed, part, subject, cause, reached, unsupported⟩
    · rintro ⟨allowed, part, subject, cause, reached, unsupported⟩
      cases written : expr.sql setting aggregates with
      | error error => exact ⟨error, rfl⟩
      | ok text =>
          obtain ⟨fragment, written, _⟩ := bind_eq_ok.mp written
          exact absurd unsupported (reached.not_unsupported written)
  refine ⟨fails, named, fun own => fails.trans ?_⟩
  constructor
  · rintro ⟨allowed, part, subject, cause, reached, unsupported⟩
    exact ⟨allowed, part, subject, cause, reached,
      (unsupported_iff_of_own (own allowed part reached)).mp unsupported⟩
  · rintro ⟨allowed, part, subject, cause, reached, unsupported⟩
    exact ⟨allowed, part, subject, cause, reached,
      (unsupported_iff_of_own (own allowed part reached)).mpr unsupported⟩

/-- An aggregate in the argument of another. -/
def nestedSum : Expr :=
  .aggregate "Sum" (some (.aggregate "count" none false)) false

theorem sql_fails_iff_unsupported_nestedSum :
    (∀ allowed part, Reached allowed part true nestedSum → part.isInherited = false) ∧
      (∃ error, nestedSum.sql { dialect := .postgres } true = .error error) ∧
      ∃ allowed part subject cause, Reached allowed part true nestedSum ∧
        part.Unsupported .postgres NativeAggregate.listedNames allowed subject cause := by
  have own : ∀ allowed part, Reached allowed part true nestedSum → part.isInherited = false := by
    intro allowed part reached
    cases reached with
    | self => decide +kernel
    | deeper member reached =>
        cases List.mem_singleton.mp member
        cases reached with
        | self => decide +kernel
        | deeper member _ => cases member
  have fails : ∃ error, nestedSum.sql { dialect := .postgres } true = .error error := ⟨_, rfl⟩
  exact ⟨own, fails, ((sql_fails_iff_unsupported _ true nestedSum).2.2 own).mp fails⟩

/-- An aggregate that is neither native nor mapped is written, by a name that every object
answers to. -/
theorem sql_inherited_written :
    (Expr.aggregate "constructor" (some (.named "a")) false).Unsupported .postgres
        NativeAggregate.listedNames true "constructor" .unmapped ∧
      (Expr.aggregate "constructor" (some (.named "a")) false).sql { dialect := .postgres } true =
        .ok "function Object() \x7b [native code] \x7d(a)" := by
  constructor
  · exact .unmappedAggregate (by decide +kernel) (by decide +kernel)
  · exact eq_ok_of_toOption (by decide +kernel)

end Expr

end SqlPlan
