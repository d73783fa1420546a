import SqlPlan.Proofs.Quoting.Runs

/-!
# Texts stay inside their quotes

Expressions that differ in the contents of their text constants only are written
alike: all of them or none can be written, and the texts have the same lexemes
except for the quoted texts, which stand for exactly the contents.
-/

namespace SqlPlan
namespace Expr

/-- The expressions are all written, with one stencil for their texts. -/
abbrev WrittenTogether {ι : Type} (setting : Setting) (aggregates : Bool) (exprs : ι → Expr) :
    Prop :=
  ∃ runs : Fragment.Runs ι, runs.IsUniform setting.dialect.quote ∧
    ∀ run, (exprs run).fragment setting aggregates = .ok (runs.fragment run) ∧
      runs.contents run = (exprs run).shownTexts setting.dialect

/-- However the contents of its text constants are replaced, the expression is
written, with one stencil for the text. -/
def WrittenAlike (setting : Setting) (aggregates : Bool) (expr : Expr) : Prop :=
  ∀ ⦃ι : Type⦄ (exprs : ι → Expr), (∀ run, (exprs run).outline = expr.outline) →
    WrittenTogether setting aggregates exprs

variable {setting : Setting} {aggregates : Bool} {fragment : Fragment}

/-- The null test that a comparison with null is. -/
def nullTestOp (op : ComparisonOp) : UnaryOp := if op = .equal then .isNull else .isNotNull

theorem nullTestOp_ne_negate (op : ComparisonOp) {arg : Expr} (negates : nullTestOp op = .negate) :
    arg.column? = none := by
  unfold nullTestOp at negates
  split at negates <;> cases negates

section NullSides

variable {op : ComparisonOp} {left right : Expr} (tests : op = .equal ∨ op = .notEqual)

include tests

theorem fragment_of_nullRight (isNull : right.isNullLiteral = true)
    (present : ¬left.isNullLiteral = true) :
    (Expr.binary (.comparison op) left right).fragment setting aggregates =
      (Expr.unary (nullTestOp op) left).fragment setting aggregates := by
  rw [Expr.fragment, Expr.fragment, if_pos ⟨tests, isNull⟩, if_neg present]
  rcases tests with rfl | rfl <;> rfl

theorem fragment_of_nullLeft (isNull : left.isNullLiteral = true)
    (present : ¬((op = .equal ∨ op = .notEqual) ∧ right.isNullLiteral = true)) :
    (Expr.binary (.comparison op) left right).fragment setting aggregates =
      (Expr.unary (nullTestOp op) right).fragment setting aggregates := by
  rw [Expr.fragment, Expr.fragment, if_neg present, if_pos ⟨tests, isNull⟩]
  rcases tests with rfl | rfl <;> rfl

end NullSides
section Lists

variable {ι : Type}

theorem exists_written_texts {args : List Expr}
    (alike : ∀ arg ∈ args, ∀ {fragment}, arg.fragment setting aggregates = .ok fragment →
      WrittenAlike setting aggregates arg)
    {texts : List String} (written : Expr.texts setting aggregates args = .ok texts)
    (lists : ι → List Expr) (same : ∀ run, (lists run).map outline = args.map outline) :
    ∃ parts : List (Written ι), texts.length = parts.length ∧
      (∀ part ∈ parts, part.IsUniform setting.dialect.quote) ∧
      ∀ run, Expr.texts setting aggregates (lists run) = .ok (parts.map fun part => part.text run) ∧
        (parts.map fun part => part.contents run) =
          shownTextsList setting.dialect (lists run) := by
  induction args generalizing texts lists with
  | nil =>
      cases written
      refine ⟨[], rfl, by simp, fun run => ?_⟩
      rw [List.map_eq_nil_iff.mp (same run)]
      exact ⟨rfl, rfl⟩
  | cons arg args induction =>
      choose heads tails areCons sameHead sameTail using
        fun run => List.map_eq_cons_iff.mp (same run)
      rw [List.forall_mem_cons] at alike
      rw [Expr.texts] at written
      obtain ⟨fragment, argWritten, written⟩ := bind_eq_ok.mp written
      obtain ⟨rest, restWritten, written⟩ := bind_eq_ok.mp written
      cases written
      obtain ⟨runs, runsUniform, runsWritten⟩ := alike.1 argWritten heads sameHead
      obtain ⟨parts, length, uniform, areWritten⟩ :=
        induction alike.2 restWritten tails sameTail
      refine ⟨runs.toWritten :: parts, by simp [length],
        List.forall_mem_cons.mpr ⟨runsUniform.text, uniform⟩, fun run => ?_⟩
      rw [areCons run, Expr.texts, (runsWritten run).1, (areWritten run).1, List.map_cons,
        List.map_cons, (runsWritten run).2, (areWritten run).2]
      exact ⟨rfl, rfl⟩

/-- The branches of a case distinction. -/
theorem exists_written_branches (readable : setting.dialect.Readable)
    {branches : List (Expr × Expr)}
    (alike : ∀ branch ∈ branches,
      (∀ {fragment}, branch.1.fragment setting aggregates = .ok fragment →
        WrittenAlike setting aggregates branch.1) ∧
      ∀ {fragment}, branch.2.fragment setting aggregates = .ok fragment →
        WrittenAlike setting aggregates branch.2)
    {texts : List String} (written : branchTexts setting aggregates branches = .ok texts)
    (lists : ι → List (Expr × Expr))
    (same : ∀ run, ((lists run).map fun branch => (branch.1.outline, branch.2.outline)) =
      branches.map fun branch => (branch.1.outline, branch.2.outline)) :
    ∃ parts : List (Written ι), (∀ part ∈ parts, part.IsUniform setting.dialect.quote) ∧
      ∀ run,
        branchTexts setting aggregates (lists run) = .ok (parts.map fun part => part.text run) ∧
        (parts.flatMap fun part => part.contents run) =
          shownTextsBranches setting.dialect (lists run) := by
  have isQuote := readable.isQuote
  induction branches generalizing texts lists with
  | nil =>
      refine ⟨[], by simp, fun run => ?_⟩
      rw [List.map_eq_nil_iff.mp (same run)]
      exact ⟨rfl, rfl⟩
  | cons branch branches induction =>
      obtain ⟨condition, result⟩ := branch
      choose heads tails areCons sameHead sameTail using
        fun run => List.map_eq_cons_iff.mp (same run)
      rw [List.forall_mem_cons] at alike
      rw [branchTexts] at written
      obtain ⟨_, conditionWritten, written⟩ := bind_eq_ok.mp written
      obtain ⟨_, resultWritten, written⟩ := bind_eq_ok.mp written
      obtain ⟨rest, restWritten, written⟩ := bind_eq_ok.mp written
      obtain ⟨conditions, conditionsUniform, conditionsWritten⟩ := alike.1.1 conditionWritten
        (fun run => (heads run).1) fun run => congrArg Prod.fst (sameHead run)
      obtain ⟨results, resultsUniform, resultsWritten⟩ := alike.1.2 resultWritten
        (fun run => (heads run).2) fun run => congrArg Prod.snd (sameHead run)
      obtain ⟨parts, uniform, areWritten⟩ := induction alike.2 restWritten tails sameTail
      have branchUniform : Written.IsUniform setting.dialect.quote
          { text := fun run => "WHEN " ++ conditions.text run ++ " THEN " ++ results.text run
            contents := fun run => conditions.contents run ++ results.contents run } :=
        (Uniform.spaced isQuote (conditionsUniform.text.worded isQuote "WHEN" (by decide))
          (resultsUniform.text.worded isQuote "THEN" (by decide))).congr (fun _ => rfl)
            fun run => by simp
      refine ⟨_ :: parts, List.forall_mem_cons.mpr ⟨branchUniform, uniform⟩, fun run => ?_⟩
      have isCons : lists run = ((heads run).1, (heads run).2) :: tails run := areCons run
      constructor
      · rw [isCons, branchTexts, (conditionsWritten run).1, (resultsWritten run).1,
          (areWritten run).1]
        rfl
      · rw [isCons, shownTextsBranches, ← (conditionsWritten run).2, ← (resultsWritten run).2,
          ← (areWritten run).2]
        exact List.flatMap_cons
end Lists

theorem writtenTogether_of_uniform {ι : Type} {exprs : ι → Expr} {part : Written ι}
    (uniform : part.IsUniform setting.dialect.quote)
    (written : ∀ run,
      (exprs run).fragment setting aggregates = .ok { text := part.text run } ∧
        part.contents run = (exprs run).shownTexts setting.dialect) :
    WrittenTogether setting aggregates exprs :=
  ⟨{ toWritten := part }, Fragment.Runs.isUniform_ungrouped uniform, written⟩

namespace WrittenAlike

variable {arg left right : Expr} (readable : setting.dialect.Readable)

include readable

/-- An expression that no other has the outline of. -/
theorem ofUnique {expr : Expr} {text : String}
    (written : expr.fragment setting aggregates = .ok { text })
    (unique : ∀ other : Expr, other.outline = expr.outline → other = expr)
    (plain : expr.shownTexts setting.dialect = []) : WrittenAlike setting aggregates expr := by
  intro ι exprs same
  have complete := (whole_fragment readable ⟨true⟩ written).complete
  refine writtenTogether_of_uniform (.ofComplete complete) fun run => ?_
  rw [unique (exprs run) (same run)]
  exact ⟨written, plain.symm⟩

theorem literal {constant : Literal} {text : String}
    (written : literalText setting.dialect constant = .ok text) :
    WrittenAlike setting aggregates (.literal constant) := by
  intro ι exprs same
  choose constants areLiterals sameConstants using fun run => exists_literal (same run)
  obtain ⟨part, uniform, areWritten⟩ :=
    exists_written_literal readable written constants sameConstants
  refine writtenTogether_of_uniform uniform fun run => ?_
  rw [areLiterals run, Expr.fragment, (areWritten run).1]
  exact ⟨rfl, (areWritten run).2⟩

theorem unary (op : UnaryOp) (bracketed : op = .negate → arg.column? = none)
    (alike : WrittenAlike setting aggregates arg) :
    WrittenAlike setting aggregates (.unary op arg) := by
  intro ι exprs same
  choose args areUnary sameArgs using fun run => exists_unary (same run)
  obtain ⟨runs, uniform, areWritten⟩ := alike args sameArgs
  refine writtenTogether_of_uniform (uniform_unaryText readable.isQuote uniform.text op bracketed)
    fun run => ?_
  rw [areUnary run, Expr.fragment, (areWritten run).1]
  exact ⟨congrArg (fun text : String => Except.ok ({ text } : Fragment))
    (unaryText_of_outline (sameArgs run) op (runs.text run)), (areWritten run).2⟩

theorem cast (type : DataType) (alike : WrittenAlike setting aggregates arg) :
    WrittenAlike setting aggregates (.cast arg type) := by
  intro ι exprs same
  choose args areCasts sameArgs using fun run => exists_cast (same run)
  obtain ⟨runs, uniform, areWritten⟩ := alike args sameArgs
  refine writtenTogether_of_uniform
    (uniform.text.cast readable.isQuote (complete_type readable ⟨true⟩ type)) fun run => ?_
  rw [areCasts run, Expr.fragment, (areWritten run).1]
  exact ⟨rfl, (areWritten run).2⟩

theorem logical (op : LogicalOp) (leftAlike : WrittenAlike setting aggregates left)
    (rightAlike : WrittenAlike setting aggregates right) :
    WrittenAlike setting aggregates (.binary (.logical op) left right) := by
  intro ι exprs same
  choose lefts rights areBinary sameLefts sameRights using fun run => exists_binary (same run)
  obtain ⟨leftRuns, leftUniform, leftWritten⟩ := leftAlike lefts sameLefts
  obtain ⟨rightRuns, rightUniform, rightWritten⟩ := rightAlike rights sameRights
  have operands := List.forall_mem_append.mpr
    ⟨leftUniform.operands op, rightUniform.operands op⟩
  refine ⟨.grouped op (leftRuns.operands op ++ rightRuns.operands op),
    Fragment.Runs.isUniform_grouped readable.isQuote op operands, fun run => ⟨?_, ?_⟩⟩
  · rw [areBinary run, Expr.fragment, (leftWritten run).1, (rightWritten run).1]
    change Except.ok _ = _
    rw [Fragment.Runs.operands_fragment, Fragment.Runs.operands_fragment, ← List.map_append]
    rfl
  · rw [areBinary run, shownTexts, ← (leftWritten run).2, ← (rightWritten run).2,
      ← leftUniform.contents_operands op, ← rightUniform.contents_operands op]
    exact List.flatMap_append

theorem arithmetic (op : ArithmeticOp) (leftAlike : WrittenAlike setting aggregates left)
    (rightAlike : WrittenAlike setting aggregates right) :
    WrittenAlike setting aggregates (.binary (.arithmetic op) left right) := by
  have isQuote := readable.isQuote
  intro ι exprs same
  choose lefts rights areBinary sameLefts sameRights using fun run => exists_binary (same run)
  obtain ⟨leftRuns, leftUniform, leftWritten⟩ := leftAlike lefts sameLefts
  obtain ⟨rightRuns, rightUniform, rightWritten⟩ := rightAlike rights sameRights
  have dividend : Written.IsUniform setting.dialect.quote
      { leftRuns.toWritten with
        text := fun run =>
          if castsDivision setting op left right then
            castText setting.dialect (leftRuns.text run) .float
          else operandText (.arithmetic op) false left (leftRuns.text run) } := by
    split
    · exact leftUniform.text.cast isQuote (complete_type readable ⟨true⟩ .float)
    · exact uniform_operandText isQuote leftUniform.text _ _ left
  have divisor := uniform_operandText isQuote rightUniform.text (.arithmetic op) true right
  refine writtenTogether_of_uniform (dividend.infixed isQuote (.arithmetic op) divisor)
    fun run => ?_
  constructor
  · rw [areBinary run, Expr.fragment, (leftWritten run).1, (rightWritten run).1]
    change Except.ok _ = _
    rw [castsDivision_of_outline setting op (sameLefts run) (sameRights run),
      operandText_of_outline (sameLefts run), operandText_of_outline (sameRights run)]
    rfl
  · rw [areBinary run, shownTexts, ← (leftWritten run).2, ← (rightWritten run).2]

theorem member {values : List Literal} {texts : List String} (negated : Bool)
    (valuesWritten : memberValues setting.dialect values = .ok texts)
    (alike : WrittenAlike setting aggregates arg) :
    WrittenAlike setting aggregates (.member arg values negated) := by
  intro ι exprs same
  choose args lists areMembers sameArgs sameLists using fun run => exists_member (same run)
  obtain ⟨runs, uniform, areWritten⟩ := alike args sameArgs
  obtain ⟨parts, empty, partsUniform, partsWritten⟩ :=
    exists_written_values readable valuesWritten lists sameLists
  have tested := uniform_testOperand readable.isQuote uniform.text arg
  refine writtenTogether_of_uniform
    (uniform_memberText readable tested partsUniform (values.any Literal.isNull) negated)
    fun run => ?_
  constructor
  · rw [areMembers run, Expr.fragment, (areWritten run).1, (partsWritten run).1]
    change Except.ok _ = _
    rw [testOperand_of_outline (sameArgs run), any_isNull_of_outline (sameLists run)]
    rfl
  · rw [areMembers run, shownTexts, Literal.spread, all_isNull_of_outline (sameLists run), ← empty,
      any_isNull_of_outline (sameLists run), ← (areWritten run).2, ← (partsWritten run).2]

theorem call {name : String} {args : List Expr}
    (alike : ∀ arg ∈ args, ∀ {fragment}, arg.fragment setting aggregates = .ok fragment →
      WrittenAlike setting aggregates arg)
    (written : (Expr.call name args).fragment setting aggregates = .ok fragment) :
    WrittenAlike setting aggregates (.call name args) := by
  intro ι exprs same
  rw [outline_call] at same
  choose lists areCalls sameLists using fun run => exists_call (same run)
  rw [Expr.fragment] at written
  obtain ⟨entry, found, written⟩ := bind_eq_ok.mp written
  obtain ⟨texts, textsWritten, written⟩ := bind_eq_ok.mp written
  obtain ⟨text, filled, _⟩ := bind_eq_ok.mp written
  obtain ⟨parts, length, uniform, partsWritten⟩ :=
    exists_written_texts alike textsWritten lists sameLists
  obtain ⟨filledTexts, areFilled, filledUniform⟩ := exists_written_template readable
    (function?_of_lookupFunction found) uniform length filled
  refine writtenTogether_of_uniform filledUniform fun run => ?_
  constructor
  · rw [areCalls run, Expr.fragment, found, (partsWritten run).1]
    exact congrArg (Except.map fun text : String => ({ text } : Fragment)) (areFilled run)
  · rw [areCalls run, shownTexts, ← (partsWritten run).2]

/-- Expressions that are written as a null test. -/
theorem nullTested (op : ComparisonOp) (alike : WrittenAlike setting aggregates arg) {ι : Type}
    {exprs args : ι → Expr} (sameArgs : ∀ run, (args run).outline = arg.outline)
    (tests : ∀ run,
      (exprs run).fragment setting aggregates =
          (Expr.unary (nullTestOp op) (args run)).fragment setting aggregates ∧
        (exprs run).shownTexts setting.dialect = (args run).shownTexts setting.dialect) :
    WrittenTogether setting aggregates exprs := by
  obtain ⟨runs, uniform, areWritten⟩ := unary readable (nullTestOp op) (nullTestOp_ne_negate op)
    alike (fun run => .unary (nullTestOp op) (args run))
    fun run => congrArg (Expr.unary _) (sameArgs run)
  refine ⟨runs, uniform, fun run => ?_⟩
  rw [(tests run).1, (tests run).2]
  exact areWritten run

theorem comparison {op : ComparisonOp}
    (leftAlike : ∀ {fragment}, left.fragment setting aggregates = .ok fragment →
      WrittenAlike setting aggregates left)
    (rightAlike : ∀ {fragment}, right.fragment setting aggregates = .ok fragment →
      WrittenAlike setting aggregates right)
    (written : (Expr.binary (.comparison op) left right).fragment setting aggregates =
      .ok fragment) :
    WrittenAlike setting aggregates (.binary (.comparison op) left right) := by
  have isQuote := readable.isQuote
  intro ι exprs same
  choose lefts rights areBinary sameLefts sameRights using fun run => exists_binary (same run)
  have leftNulls (run : ι) : (lefts run).isNullLiteral = left.isNullLiteral := by
    rw [← isNullLiteral_outline, sameLefts run, isNullLiteral_outline]
  have rightNulls (run : ι) : (rights run).isNullLiteral = right.isNullLiteral := by
    rw [← isNullLiteral_outline, sameRights run, isNullLiteral_outline]
  by_cases nullRight : (op = .equal ∨ op = .notEqual) ∧ right.isNullLiteral
  · by_cases nullLeft : left.isNullLiteral
    · refine writtenTogether_of_uniform
        (.ofComplete (readable.atomic_truth ⟨true⟩ (op == .equal)).complete) fun run => ?_
      rw [areBinary run, Expr.fragment, leftNulls, rightNulls, if_pos nullRight, if_pos nullLeft,
        shownTexts, shownTexts_of_isNullLiteral _ ((leftNulls run).trans nullLeft),
        shownTexts_of_isNullLiteral _ ((rightNulls run).trans nullRight.2)]
      exact ⟨rfl, rfl⟩
    · rw [fragment_of_nullRight nullRight.1 nullRight.2 nullLeft] at written
      obtain ⟨_, leftWritten, _⟩ := fragment_unary written
      refine nullTested readable op (leftAlike leftWritten) sameLefts fun run => ?_
      have isNull := (rightNulls run).trans nullRight.2
      rw [areBinary run, shownTexts, shownTexts_of_isNullLiteral _ isNull, List.append_nil]
      exact ⟨fragment_of_nullRight nullRight.1 isNull (by rwa [leftNulls run]), rfl⟩
  · by_cases nullLeft : (op = .equal ∨ op = .notEqual) ∧ left.isNullLiteral
    · rw [fragment_of_nullLeft nullLeft.1 nullLeft.2 nullRight] at written
      obtain ⟨_, rightWritten, _⟩ := fragment_unary written
      refine nullTested readable op (rightAlike rightWritten) sameRights fun run => ?_
      have isNull := (leftNulls run).trans nullLeft.2
      rw [areBinary run, shownTexts, shownTexts_of_isNullLiteral _ isNull]
      exact ⟨fragment_of_nullLeft nullLeft.1 isNull (by rwa [rightNulls run]), rfl⟩
    · rw [Expr.fragment, if_neg nullRight, if_neg nullLeft] at written
      obtain ⟨_, leftWritten, written⟩ := bind_eq_ok.mp written
      obtain ⟨_, rightWritten, _⟩ := bind_eq_ok.mp written
      obtain ⟨leftRuns, leftUniform, leftsWritten⟩ := leftAlike leftWritten lefts sameLefts
      obtain ⟨rightRuns, rightUniform, rightsWritten⟩ := rightAlike rightWritten rights sameRights
      have onLeft := uniform_operandText isQuote leftUniform.text (.comparison op) false left
      have onRight := uniform_operandText isQuote rightUniform.text (.comparison op) true right
      refine writtenTogether_of_uniform (onLeft.infixed isQuote (.comparison op) onRight)
        fun run => ?_
      constructor
      · rw [areBinary run, Expr.fragment, leftNulls, rightNulls, if_neg nullRight, if_neg nullLeft,
          (leftsWritten run).1, (rightsWritten run).1]
        change Except.ok _ = _
        rw [operandText_of_outline (sameLefts run), operandText_of_outline (sameRights run)]
        rfl
      · rw [areBinary run, shownTexts, ← (leftsWritten run).2, ← (rightsWritten run).2]

theorem case {branches : List (Expr × Expr)} {otherwise : Option Expr}
    (branchesAlike : ∀ branch ∈ branches,
      (∀ {fragment}, branch.1.fragment setting aggregates = .ok fragment →
        WrittenAlike setting aggregates branch.1) ∧
      ∀ {fragment}, branch.2.fragment setting aggregates = .ok fragment →
        WrittenAlike setting aggregates branch.2)
    (otherwiseAlike : ∀ other ∈ otherwise, ∀ {fragment},
      other.fragment setting aggregates = .ok fragment → WrittenAlike setting aggregates other)
    (written : (Expr.case branches otherwise).fragment setting aggregates = .ok fragment) :
    WrittenAlike setting aggregates (.case branches otherwise) := by
  intro ι exprs same
  rw [outline_case] at same
  choose lists others areCases sameLists sameOthers using fun run => exists_case (same run)
  cases otherwise with
  | none =>
      rw [Expr.fragment] at written
      obtain ⟨texts, textsWritten, _⟩ := bind_eq_ok.mp written
      obtain ⟨parts, uniform, partsWritten⟩ :=
        exists_written_branches readable branchesAlike textsWritten lists sameLists
      refine writtenTogether_of_uniform (uniform_caseText readable.isQuote uniform) fun run => ?_
      rw [areCases run, Option.map_eq_none_iff.mp (sameOthers run), Expr.fragment,
        (partsWritten run).1]
      exact ⟨rfl, (partsWritten run).2⟩
  | some other =>
      rw [Expr.fragment] at written
      obtain ⟨texts, textsWritten, written⟩ := bind_eq_ok.mp written
      obtain ⟨_, otherWritten, _⟩ := bind_eq_ok.mp written
      choose ownOthers areOthers sameOwn using
        fun run => Option.map_eq_some_iff.mp (sameOthers run)
      obtain ⟨parts, uniform, partsWritten⟩ :=
        exists_written_branches readable branchesAlike textsWritten lists sameLists
      obtain ⟨runs, runsUniform, runsWritten⟩ :=
        otherwiseAlike other rfl otherWritten ownOthers sameOwn
      have allUniform := List.forall_mem_append.mpr ⟨uniform,
        List.forall_mem_singleton.mpr (runsUniform.text.worded readable.isQuote "ELSE" (by decide))⟩
      refine writtenTogether_of_uniform (uniform_caseText readable.isQuote allUniform) fun run => ?_
      rw [areCases run, areOthers run]
      constructor
      · rw [Expr.fragment, (partsWritten run).1, (runsWritten run).1]
        change Except.ok _ = Except.ok _
        simp [Fragment.Runs.fragment]
      · rw [shownTexts, ← (partsWritten run).2, ← (runsWritten run).2]
        simp

theorem aggregate {name : String} {arg : Option Expr} {distinct : Bool}
    (alike : ∀ expr ∈ arg, ∀ {fragment}, expr.fragment setting false = .ok fragment →
      WrittenAlike setting false expr)
    (written : (Expr.aggregate name arg distinct).fragment setting aggregates = .ok fragment) :
    WrittenAlike setting aggregates (.aggregate name arg distinct) := by
  cases arg with
  | none =>
      obtain ⟨_, text, _, _, rfl⟩ := fragment_aggregate written
      refine ofUnique readable written (fun other same => ?_) rfl
      obtain ⟨own, rfl, sameOwn⟩ := exists_aggregate same
      rw [Option.map_eq_none_iff.mp sameOwn]
  | some arg =>
      intro ι exprs same
      choose owns areAggregates sameOwns using fun run => exists_aggregate (same run)
      choose args areArgs sameArgs using fun run => Option.map_eq_some_iff.mp (sameOwns run)
      rw [Expr.fragment] at written
      by_cases allowed : aggregates = true
      · rw [if_pos allowed] at written
        obtain ⟨_, argWritten, written⟩ := bind_eq_ok.mp written
        obtain ⟨_, textWritten, _⟩ := bind_eq_ok.mp written
        obtain ⟨runs, uniform, areWritten⟩ := alike arg rfl argWritten args sameArgs
        obtain ⟨part, partUniform, partWritten⟩ :=
          exists_written_aggregate readable uniform.text textWritten
        refine writtenTogether_of_uniform partUniform fun run => ?_
        rw [areAggregates run, areArgs run]
        constructor
        · rw [Expr.fragment, if_pos allowed, (areWritten run).1]
          exact congrArg (Except.map fun text : String => ({ text } : Fragment)) (partWritten run).1
        · rw [(partWritten run).2, (areWritten run).2, shownTexts]
          cases NativeAggregate.ofName? name <;> rfl
      · rw [if_neg allowed] at written
        cases written

end WrittenAlike

theorem writtenAlike_of_fragment (readable : setting.dialect.Readable) {expr : Expr}
    (written : expr.fragment setting aggregates = .ok fragment) :
    WrittenAlike setting aggregates expr := by
  induction expr generalizing aggregates fragment with
  | column ref => exact .ofUnique readable rfl (fun _ same => eq_column_of_outline same) rfl
  | literal constant =>
      obtain ⟨text, textWritten, _⟩ := fragment_literal written
      exact .literal readable textWritten
  | unary op arg induction =>
      obtain ⟨_, argWritten, rfl⟩ := fragment_unary written
      by_cases signed : op = .negate ∧ arg.column? ≠ none
      · obtain ⟨rfl, isColumn⟩ := signed
        cases arg with
        | column ref =>
            refine .ofUnique readable written (fun other same => ?_) rfl
            obtain ⟨own, rfl, sameOwn⟩ := exists_unary same
            rw [eq_column_of_outline sameOwn]
        | _ => exact absurd rfl isColumn
      · refine .unary readable op (fun negates => ?_) (induction argWritten)
        exact not_not.mp fun isColumn => signed ⟨negates, isColumn⟩
  | binary op left right leftInduction rightInduction =>
      cases op with
      | logical op =>
          obtain ⟨_, _, leftWritten, rightWritten, _⟩ := fragment_logical written
          exact .logical readable op (leftInduction leftWritten) (rightInduction rightWritten)
      | comparison op => exact .comparison readable leftInduction rightInduction written
      | arithmetic op =>
          obtain ⟨_, _, leftWritten, rightWritten, _⟩ := fragment_arithmetic written
          exact .arithmetic readable op (leftInduction leftWritten) (rightInduction rightWritten)
  | member arg values negated induction =>
      obtain ⟨_, _, argWritten, valuesWritten, _⟩ := fragment_member written
      exact .member readable negated valuesWritten (induction argWritten)
  | call name args induction =>
      exact .call readable (fun arg member => induction arg member) written
  | case branches otherwise branchInduction otherwiseInduction =>
      exact .case readable
        (fun branch member =>
          ⟨(branchInduction branch member).1, (branchInduction branch member).2⟩)
        (fun other member => otherwiseInduction other member) written
  | cast arg type induction =>
      obtain ⟨_, argWritten, _⟩ := fragment_cast written
      exact .cast readable type (induction argWritten)
  | aggregate name arg distinct induction => 
      exact .aggregate readable (fun inner member => induction inner member) written

/-- Whatever its text constants hold, an expression is written, and with the same
lexemes: only the quoted texts differ, and each stands for exactly the contents of
the constant that it comes from. -/
theorem sql_of_same_outline (known : setting.dialect ∈ Registry.builtin.dialects) {expr : Expr}
    {text : String} (written : expr.sql setting aggregates = .ok text) :
    ∃ stencil : Stencil, ∀ replaced : Expr, replaced.outline = expr.outline →
      ∃ replacedText lexemes, replaced.sql setting aggregates = .ok replacedText ∧
        (Lexeme.scanner setting.dialect.quote).scan replacedText.toList = some lexemes ∧
        stencil.Shows (replaced.shownTexts setting.dialect) lexemes := by
  obtain ⟨fragment, fragmentWritten, _⟩ := bind_eq_ok.mp written
  have alike := writtenAlike_of_fragment (Dialect.readable_of_known known) fragmentWritten
  -- The runs are all the expressions of the outline.
  obtain ⟨runs, uniform, areWritten⟩ :=
    alike (fun run : { other : Expr // other.outline = expr.outline } => run.val)
      fun run => run.property
  obtain ⟨stencil, shows⟩ := uniform.text
  refine ⟨stencil, fun replaced same => ?_⟩
  obtain ⟨lexemes, lexed, shown⟩ := shows ⟨replaced, same⟩
  obtain ⟨replacedWritten, contents⟩ := areWritten ⟨replaced, same⟩
  rw [contents] at shown
  exact ⟨_, lexemes, congrArg (Except.map Fragment.text) replacedWritten, lexed, shown⟩

/-- A text between the parentheses of a call, after a quoted text of its template. -/
def pasted (first second : String) : Expr :=
  .binary (.comparison .equal)
    (.call "paste" [.named "a", .literal { value := .text first }])
    (.literal { value := .text second })

theorem sql_of_same_outline_pasted :
    (pasted "it's \x7b0\x7d" "--\n$&").sql { dialect := .postgres } false =
        .ok "CONCAT_WS(' ', a, 'it''s \x7b0\x7d') = '--\n$&'" ∧
      ∃ stencil : Stencil, ∀ first second, ∃ text lexemes,
        (pasted first second).sql { dialect := .postgres } false = .ok text ∧
        (Lexeme.scanner '"').scan text.toList = some lexemes ∧
        stencil.Shows [first, second] lexemes := by
  have known : Dialect.postgres ∈ Registry.builtin.dialects := by simp [Registry.builtin]
  have written : (pasted "it's \x7b0\x7d" "--\n$&").sql { dialect := .postgres } false =
      .ok "CONCAT_WS(' ', a, 'it''s \x7b0\x7d') = '--\n$&'" :=
    eq_ok_of_toOption (by decide +kernel)
  refine ⟨written, ?_⟩
  obtain ⟨stencil, shows⟩ := sql_of_same_outline known written
  refine ⟨stencil, fun first second => ?_⟩
  have found : Dialect.postgres.function? "paste" =
      some { template := "CONCAT_WS(' ', \x7b*\x7d)", returns := some (.type .string) } := by
    decide +kernel
  have shown : (pasted first second).shownTexts .postgres = [first, second] := by
    simp only [pasted, shownTexts, Dialect.spread, found]
    rfl
  obtain ⟨text, lexemes, replacedWritten, lexed, shows⟩ := shows (pasted first second) rfl
  rw [shown] at shows
  exact ⟨text, lexemes, replacedWritten, lexed, shows⟩

end Expr

end SqlPlan
