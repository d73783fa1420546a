import SqlPlan.Proofs.Reading.Constant
import SqlPlan.Proofs.Reading.Expr
import SqlPlan.Proofs.Reading.Template

/-!
# Leaves of expressions as text

Whatever an expression is made of, its text is complete.  Columns, constants,
calls, case distinctions and aggregates are operands by themselves, so that they
are leaves to the reader.  Aggregates that are inherited are complete, but no
operands.
-/

namespace SqlPlan.Expr

variable {grammar : Grammar} {setting : Setting} {aggregates : Bool}

/-! ## Texts -/

theorem function?_of_lookupFunction {dialect : Dialect} {name : String} {entry : FunctionEntry}
    (found : lookupFunction dialect aggregates name = .ok entry) :
    dialect.function? name = some entry :=
  (lookupFunction_eq_ok found).1

/-- The text of what every object answers, which is no operand. -/
theorem complete_display {quote : Char} (isQuote : IsNameQuote quote) (grammar : Grammar)
    {name : String} {held : Data.Held} (answered : Data.unlisted name = some held) :
    Complete grammar quote held.display.toList := by
  rcases Data.eq_of_unlisted answered with ⟨isMethod, rfl⟩ | ⟨_, rfl⟩
  · have free : ∀ name ∈ Data.methodNames,
        Dialect.isFreeWord (Data.methodTitle name) = true := by decide
    have heading := (Complete.fixed isQuote grammar "function" (by decide)).spaced isQuote
      ((Complete.word (free name isMethod) grammar quote).group isQuote (.nil grammar quote))
    have body := Complete.fixed isQuote grammar "\x7b [native code] \x7d" (by decide)
    simpa [Data.Held.display] using heading.spaced isQuote body
  · exact .fixed isQuote grammar _ (by decide)

theorem isFreeWord_symbol {native : NativeAggregate}
    (listed : ∀ held, native ≠ .inherited held) : Dialect.isFreeWord native.symbol = true := by
  cases native with
  | inherited held => exact absurd rfl (listed held)
  | _ => decide

theorem complete_symbol {quote : Char} (isQuote : IsNameQuote quote) (grammar : Grammar)
    {name : String} {native : NativeAggregate}
    (named : NativeAggregate.ofName? name = some native) :
    Complete grammar quote native.symbol.toList := by
  rcases NativeAggregate.listed_or_inherited named with ⟨_, listed⟩ | ⟨held, answered, rfl⟩
  · exact .word (isFreeWord_symbol listed) grammar quote
  · exact complete_display isQuote grammar answered

section Texts

variable {dialect : Dialect} (readable : dialect.Readable)
include readable

theorem atomic_fillTemplate {name called : String} {entry : FunctionEntry} {args : List String}
    {text : String} (found : dialect.function? called = some entry)
    (complete : ∀ arg ∈ args, Complete grammar dialect.quote arg.toList)
    (filled : fillTemplate dialect name entry.template args = .ok text) :
    Atomic grammar dialect.quote text.toList := by
  unfold fillTemplate at filled
  split at filled
  · rename_i whole fills
    cases filled
    exact Template.atomic_fill readable.isQuote (readable.templates found) fills complete
  · cases filled

/-- A native aggregate is called by its symbol, with anything complete between the brackets. -/
theorem call_of_aggregateText {name : String} {native : NativeAggregate} {arg : Option String}
    {distinct : Bool} {text : String} (named : NativeAggregate.ofName? name = some native)
    (complete : ∀ text ∈ arg, Complete grammar dialect.quote text.toList)
    (written : aggregateText dialect name arg distinct = .ok text) :
    ∃ inner, Complete grammar dialect.quote inner ∧
      text.toList = native.symbol.toList ++ '(' :: (inner ++ [')']) := by
  have isQuote := readable.isQuote
  unfold aggregateText at written
  cases arg with
  | none =>
      cases native with
      | count =>
          simp only [named] at written
          cases written
          exact ⟨_, .fixed isQuote grammar "*" (by decide), rfl⟩
      | _ => simp only [named] at written; cases written
  | some argText =>
      simp only [named] at written
      cases written
      have argComplete := complete argText rfl
      cases distinct with
      | false => exact ⟨_, argComplete, by simp⟩
      | true =>
          have marked := (Complete.fixed isQuote grammar "DISTINCT" (by decide)).spaced isQuote
            argComplete
          exact ⟨_, marked, by simp⟩

theorem atomic_of_foreign {name : String} {arg : Option String} {distinct : Bool}
    {text : String} (foreign : NativeAggregate.ofName? name = none)
    (complete : ∀ text ∈ arg, Complete grammar dialect.quote text.toList)
    (written : aggregateText dialect name arg distinct = .ok text) :
    Atomic grammar dialect.quote text.toList := by
  obtain ⟨entry, found, _, _, filled⟩ := aggregateText_foreign foreign written
  exact atomic_fillTemplate readable found (by simpa using complete) filled

theorem atomic_aggregateText {name : String} {arg : Option String} {distinct : Bool}
    {text : String} (own : Data.unlisted (Text.lower name) = none)
    (complete : ∀ text ∈ arg, Complete grammar dialect.quote text.toList)
    (written : aggregateText dialect name arg distinct = .ok text) :
    Atomic grammar dialect.quote text.toList := by
  cases named : NativeAggregate.ofName? name with
  | none => exact atomic_of_foreign readable named complete written
  | some native =>
      obtain ⟨inner, innerComplete, spelled⟩ :=
        call_of_aggregateText readable named complete written
      rw [spelled]
      rcases NativeAggregate.listed_or_inherited named with ⟨_, listed⟩ | ⟨held, answered, _⟩
      · exact .call readable.isQuote (isFreeWord_symbol listed) innerComplete
      · rw [own] at answered
        cases answered

theorem complete_aggregateText {name : String} {arg : Option String} {distinct : Bool}
    {text : String} (complete : ∀ text ∈ arg, Complete grammar dialect.quote text.toList)
    (written : aggregateText dialect name arg distinct = .ok text) :
    Complete grammar dialect.quote text.toList := by
  cases named : NativeAggregate.ofName? name with
  | none => exact (atomic_of_foreign readable named complete written).complete
  | some native =>
      obtain ⟨inner, innerComplete, spelled⟩ :=
        call_of_aggregateText readable named complete written
      rw [spelled]
      exact (complete_symbol readable.isQuote grammar named).group readable.isQuote innerComplete

theorem complete_type (grammar : Grammar) (type : DataType) :
    Complete grammar dialect.quote (dialect.typeNames.get type).toList := by
  rcases readable.types type with double | free
  · rw [double]
    exact .fixed readable.isQuote grammar _ (by decide)
  · exact .word free grammar _

theorem complete_memberText {arg : String} {values : List String}
    (argComplete : Complete grammar dialect.quote arg.toList)
    (complete : ∀ value ∈ values, Complete grammar dialect.quote value.toList)
    (hasNull negated : Bool) :
    Complete grammar dialect.quote (memberText dialect arg values hasNull negated).toList := by
  have isQuote := readable.isQuote
  have test := argComplete.nullTest isQuote (!negated)
  have among : Complete grammar dialect.quote (if negated then "NOT IN" else "IN").toList := by
    cases negated <;> exact .fixed isQuote grammar _ (by decide)
  have list : Complete grammar dialect.quote
      (arg ++ (if negated then " NOT IN (" else " IN (") ++ ", ".intercalate values ++
        ")").toList := by
    have bracketed := (Complete.nil grammar dialect.quote).group isQuote (.values isQuote complete)
    have all := argComplete.spaced isQuote (among.spaced isQuote bracketed)
    cases negated <;> simpa using all
  unfold memberText
  cases values.isEmpty with
  | true =>
      cases hasNull with
      | true => exact test
      | false => exact (readable.atomic_truth grammar negated).complete
  | false =>
      cases hasNull with
      | false => exact list
      | true =>
          have joined := list.infixed isQuote (.logical (if negated then .and else .or)) test
          refine Complete.parenthesized isQuote ?_
          cases negated <;> simpa [BinaryOp.symbol, LogicalOp.symbol] using joined

end Texts

/-! ## Expressions -/

/-- What holds of the text of any expression. -/
structure Whole (grammar : Grammar) (quote : Char) (expr : Expr) (fragment : Fragment) : Prop where
  complete : Complete grammar quote fragment.text.toList
  operands : ∀ op operands, fragment.group = some (op, operands) →
    ∀ operand ∈ operands, Complete grammar quote operand.toList
  atomic : expr.isAtom = true → expr.isInherited = false →
    Atomic grammar quote fragment.text.toList

namespace Whole

variable {quote : Char} {expr : Expr} {fragment : Fragment}

theorem ofAtom (atom : expr.isAtom = true)
    (written : expr.fragment setting aggregates = .ok fragment)
    (complete : Complete grammar quote fragment.text.toList)
    (atomic : expr.isInherited = false → Atomic grammar quote fragment.text.toList) :
    Whole grammar quote expr fragment := by
  refine ⟨complete, ?_, fun _ => atomic⟩
  intro op operands group
  rw [group_of_isAtom atom written] at group
  cases group

theorem ofAtomic (atom : expr.isAtom = true)
    (written : expr.fragment setting aggregates = .ok fragment)
    (atomic : Atomic grammar quote fragment.text.toList) : Whole grammar quote expr fragment :=
  .ofAtom atom written atomic.complete fun _ => atomic

theorem ofComplete (compound : expr.isAtom = false) {text : String}
    (complete : Complete grammar quote text.toList) : Whole grammar quote expr { text } := by
  refine ⟨complete, ?_, ?_⟩
  · intro op operands group
    cases group
  · intro atom
    rw [compound] at atom
    cases atom

theorem tested (whole : Whole grammar quote expr fragment) (isQuote : IsNameQuote quote) :
    Complete grammar quote (testOperand expr fragment.text).toList := by
  unfold testOperand
  split
  · exact whole.complete.parenthesized isQuote
  · exact whole.complete

theorem enclosed (whole : Whole grammar quote expr fragment) (isQuote : IsNameQuote quote)
    (op : BinaryOp) (onRight : Bool) :
    Complete grammar quote (operandText op onRight expr fragment.text).toList := by
  rw [operandText_eq]
  split
  · exact whole.complete.parenthesized isQuote
  · exact whole.complete

theorem mem_operands (whole : Whole grammar quote expr fragment) (op : LogicalOp) :
    ∀ operand ∈ fragment.operands op, Complete grammar quote operand.toList := by
  unfold Fragment.operands
  split
  · rename_i inner operands group
    split
    · exact whole.operands inner operands group
    · simpa using whole.complete
  · simpa using whole.complete

end Whole

theorem complete_chain {quote : Char} (isQuote : IsNameQuote quote) (op : LogicalOp)
    {operands : List String}
    (complete : ∀ operand ∈ operands, Complete grammar quote operand.toList) :
    Complete grammar quote ((" " ++ op.symbol ++ " ").intercalate operands).toList := by
  induction operands with
  | nil => exact .nil grammar quote
  | cons operand operands induction =>
      rw [List.forall_mem_cons] at complete
      cases operands with
      | nil => simpa using complete.1
      | cons next operands =>
          rw [String.intercalate_cons_cons]
          have all := complete.1.infixed isQuote (.logical op) (induction complete.2)
          simpa [BinaryOp.symbol] using all

namespace Whole

variable {arg left right : Expr} {fragment argFragment leftFragment rightFragment : Fragment}

theorem unary (readable : setting.dialect.Readable) (op : UnaryOp)
    (written : arg.fragment setting aggregates = .ok argFragment)
    (whole : Whole grammar setting.dialect.quote arg argFragment) :
    Whole grammar setting.dialect.quote (.unary op arg)
      { text := unaryText op arg argFragment.text } := by
  have isQuote := readable.isQuote
  refine .ofComplete rfl ?_
  cases op with
  | not =>
      have negation := Complete.fixed isQuote grammar "NOT" (by decide)
      rw [unaryText]
      split
      · simpa using negation.spaced isQuote whole.complete
      · simpa using negation.group isQuote whole.complete
  | negate =>
      have sign := Complete.fixed isQuote grammar "-" (by decide)
      cases arg with
      | column ref =>
          cases written
          obtain ⟨char, rest, chars, different⟩ :=
            readable.unsigned_qualified ref.table ref.name
          have complete := whole.complete
          simp only [chars] at complete
          simpa [unaryText, chars] using complete.minus isQuote different
      | _ => simpa [unaryText] using sign.group isQuote whole.complete
  | isNull => exact (whole.tested isQuote).nullTest isQuote true
  | isNotNull => exact (whole.tested isQuote).nullTest isQuote false

theorem logical {quote : Char} (isQuote : IsNameQuote quote) (op : LogicalOp)
    (leftWhole : Whole grammar quote left leftFragment)
    (rightWhole : Whole grammar quote right rightFragment) :
    Whole grammar quote (.binary (.logical op) left right)
      { text := parenthesized ((" " ++ op.symbol ++ " ").intercalate
          (leftFragment.operands op ++ rightFragment.operands op))
        group := some (op, leftFragment.operands op ++ rightFragment.operands op) } := by
  have operands := List.forall_mem_append.mpr
    ⟨leftWhole.mem_operands op, rightWhole.mem_operands op⟩
  refine ⟨(complete_chain isQuote op operands).parenthesized isQuote, ?_, ?_⟩
  · rintro _ _ ⟨⟩
    exact operands
  · intro atom
    cases atom

theorem arithmetic (readable : setting.dialect.Readable) (op : ArithmeticOp)
    (leftWhole : Whole grammar setting.dialect.quote left leftFragment)
    (rightWhole : Whole grammar setting.dialect.quote right rightFragment) :
    Whole grammar setting.dialect.quote (.binary (.arithmetic op) left right)
      { text :=
          (if castsDivision setting op left right then
            castText setting.dialect leftFragment.text .float
          else operandText (.arithmetic op) false left leftFragment.text) ++ " " ++ op.symbol ++
            " " ++ operandText (.arithmetic op) true right rightFragment.text } := by
  have isQuote := readable.isQuote
  refine .ofComplete rfl (Complete.infixed isQuote (.arithmetic op) ?_
    (rightWhole.enclosed isQuote _ _))
  split
  · exact leftWhole.complete.cast isQuote (complete_type readable grammar .float)
  · exact leftWhole.enclosed isQuote _ _

theorem comparison (readable : setting.dialect.Readable) {op : ComparisonOp}
    (written : (Expr.binary (.comparison op) left right).fragment setting aggregates =
      .ok fragment)
    (leftWhole : ∀ leftFragment, left.fragment setting aggregates = .ok leftFragment →
      Whole grammar setting.dialect.quote left leftFragment)
    (rightWhole : ∀ rightFragment, right.fragment setting aggregates = .ok rightFragment →
      Whole grammar setting.dialect.quote right rightFragment) :
    Whole grammar setting.dialect.quote (.binary (.comparison op) left right) fragment := by
  have isQuote := readable.isQuote
  rcases fragment_comparison written with ⟨_, rfl⟩ | ⟨_, leftFragment, leftWritten, rfl⟩ |
    ⟨_, rightFragment, rightWritten, rfl⟩ |
    ⟨_, leftFragment, rightFragment, leftWritten, rightWritten, rfl⟩
  · exact .ofComplete rfl (readable.atomic_truth grammar _).complete
  · exact .ofComplete rfl (((leftWhole _ leftWritten).tested isQuote).nullTest isQuote _)
  · exact .ofComplete rfl (((rightWhole _ rightWritten).tested isQuote).nullTest isQuote _)
  · exact .ofComplete rfl (((leftWhole _ leftWritten).enclosed isQuote _ _).infixed isQuote
      (.comparison op) ((rightWhole _ rightWritten).enclosed isQuote _ _))

end Whole

theorem complete_whenThen {quote : Char} (isQuote : IsNameQuote quote) {condition result : String}
    (conditionComplete : Complete grammar quote condition.toList)
    (resultComplete : Complete grammar quote result.toList) :
    Complete grammar quote ("WHEN " ++ condition ++ " THEN " ++ result).toList := by
  have first := (Complete.fixed isQuote grammar "WHEN" (by decide)).spaced isQuote conditionComplete
  have second := (Complete.fixed isQuote grammar "THEN" (by decide)).spaced isQuote resultComplete
  simpa using first.spaced isQuote second

theorem whole_fragment (readable : setting.dialect.Readable) (grammar : Grammar) {expr : Expr}
    {fragment : Fragment} (written : expr.fragment setting aggregates = .ok fragment) :
    Whole grammar setting.dialect.quote expr fragment := by
  have isQuote := readable.isQuote
  induction expr generalizing aggregates fragment with
  | column ref =>
      refine .ofAtomic rfl written ?_
      cases written
      exact .leaf (readable.complete_qualified grammar ref.table ref.name)
        (readable.scans_qualified grammar ref.table ref.name)
  | literal constant =>
      refine .ofAtomic rfl written ?_
      obtain ⟨text, textWritten, rfl⟩ := fragment_literal written
      exact readable.atomic_literal textWritten grammar
  | unary op arg induction =>
      obtain ⟨argFragment, argWritten, rfl⟩ := fragment_unary written
      exact .unary readable op argWritten (induction argWritten)
  | binary op left right leftInduction rightInduction =>
      cases op with
      | logical op =>
          obtain ⟨leftFragment, rightFragment, leftWritten, rightWritten, rfl⟩ :=
            fragment_logical written
          exact .logical isQuote op (leftInduction leftWritten) (rightInduction rightWritten)
      | comparison op =>
          exact .comparison readable written (fun _ leftWritten => leftInduction leftWritten)
            (fun _ rightWritten => rightInduction rightWritten)
      | arithmetic op =>
          obtain ⟨leftFragment, rightFragment, leftWritten, rightWritten, rfl⟩ :=
            fragment_arithmetic written
          exact .arithmetic readable op (leftInduction leftWritten) (rightInduction rightWritten)
  | member arg values negated induction =>
      obtain ⟨argFragment, texts, argWritten, valuesWritten, rfl⟩ := fragment_member written
      refine .ofComplete rfl (complete_memberText readable ((induction argWritten).tested isQuote)
        ?_ _ _)
      intro text member
      obtain ⟨value, _, valueWritten⟩ := exists_mem_of_forall₂ (mapM_eq_ok.mp valuesWritten) member
      exact (readable.atomic_literal valueWritten grammar).complete
  | call name args induction =>
      refine .ofAtomic rfl written ?_
      obtain ⟨entry, texts, text, found, parts, filled, rfl⟩ := fragment_call written
      refine atomic_fillTemplate readable (function?_of_lookupFunction found) ?_ filled
      intro argText member
      obtain ⟨arg, argMember, argFragment, argWritten, rfl⟩ := parts argText member
      exact (induction arg argMember argWritten).complete
  | case branches otherwise branchInduction otherwiseInduction =>
      refine .ofAtomic rfl written ?_
      obtain ⟨texts, rfl, parts⟩ := fragment_case written
      refine .cased isQuote fun text member => ?_
      rcases parts text member with
        ⟨branch, branchMember, condition, result, conditionWritten, resultWritten, rfl⟩ |
        ⟨other, otherMember, otherFragment, otherWritten, rfl⟩
      · exact complete_whenThen isQuote
          ((branchInduction branch branchMember).1 conditionWritten).complete
          ((branchInduction branch branchMember).2 resultWritten).complete
      · have last := (Complete.fixed isQuote grammar "ELSE" (by decide)).spaced isQuote
          (otherwiseInduction other otherMember otherWritten).complete
        simpa using last
  | cast arg type induction =>
      obtain ⟨argFragment, argWritten, rfl⟩ := fragment_cast written
      exact .ofComplete rfl ((induction argWritten).complete.cast isQuote
        (complete_type readable grammar type))
  | aggregate name arg distinct induction =>
      obtain ⟨argText, text, parts, textWritten, rfl⟩ := fragment_aggregate written
      have complete : ∀ inner ∈ argText, Complete grammar setting.dialect.quote inner.toList := by
        intro inner member
        obtain ⟨expr, exprMember, argFragment, argWritten, rfl⟩ := parts inner member
        exact (induction expr exprMember argWritten).complete
      refine .ofAtom rfl written (complete_aggregateText readable complete textWritten) ?_
      intro own
      have unanswered := Option.not_isSome_iff_eq_none.mp (ne_true_of_eq_false own)
      exact atomic_aggregateText readable unanswered complete textWritten

end SqlPlan.Expr
