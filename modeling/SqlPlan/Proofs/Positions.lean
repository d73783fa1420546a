import SqlPlan.Proofs.OrderNames
import SqlPlan.Proofs.Reading.Leaf
import SqlPlan.Proofs.Writing

/-!
# Keys that are written as integers

SQL takes an integer in GROUP BY or ORDER BY for the position of an output.  Only a
constant is written so, and a constant becomes a key only where a step groups or sorts
by it: nesting replaces columns by columns and outputs by their names.  An ordering by a
constant goes by the name of an output for as long as one is equal to it.
-/

namespace SqlPlan

/-! ## Integers -/

namespace Text

/-- The characters of integers. -/
def isSigned (char : Char) : Bool := char.isDigit || char == '-'

/-- Digits, with or without a sign. -/
def isInteger (text : String) : Bool :=
  let digits := if text.toList.head? = some '-' then text.toList.tail else text.toList
  !digits.isEmpty && digits.all Char.isDigit

theorem isSigned_of_isInteger {text : String} (integer : isInteger text = true) :
    ∀ char ∈ text.toList, isSigned char = true := by
  unfold isInteger at integer
  obtain ⟨_, digits⟩ := Bool.and_eq_true_iff.mp integer
  intro char member
  split at digits
  · rename_i signed
    obtain ⟨rest, chars⟩ := List.head?_eq_some_iff.mp signed
    rw [chars] at digits member
    rcases List.mem_cons.mp member with rfl | later
    · rfl
    · rw [isSigned, List.all_eq_true.mp digits char later, Bool.true_or]
  · rw [isSigned, List.all_eq_true.mp digits char member, Bool.true_or]

theorem not_isInteger {text : String} {char : Char} (other : isSigned char = false)
    (member : char ∈ text.toList) : isInteger text ≠ true := by
  intro integer
  rw [isSigned_of_isInteger integer char member] at other
  cases other

theorem isSigned_of_isPlainStart {char : Char} (start : isPlainStart char = true) :
    isSigned char = false := by
  simp only [isPlainStart, Bool.or_eq_true, beq_iff_eq] at start
  rcases start with lower | rfl
  · have notSign : char ≠ '-' := by
      rintro rfl
      cases lower
    have notDigit : char.isDigit = false := by
      rw [Bool.eq_false_iff]
      intro digit
      have atLeast : 'a'.val ≤ char.val := of_decide_eq_true (Bool.and_eq_true_iff.mp lower).1
      have atMost : char.val ≤ '9'.val := of_decide_eq_true (Bool.and_eq_true_iff.mp digit).2
      exact absurd (UInt32.le_trans atLeast atMost) (by decide)
    simp [isSigned, notSign, notDigit]
  · rfl

end Text

namespace Template

/-- A character that is no part of an integer. -/
def Piece.isWord : Piece → Bool
  | .text char => !Text.isSigned char
  | .slot _ => false
  | .all => false

/-- A template keeps the text around its slots. -/
theorem mem_fill_of_isWord {template text : String} {args : List String}
    (worded : (pieces template).any Piece.isWord = true) (filled : fill template args = .ok text) :
    ∃ char ∈ text.toList, Text.isSigned char = false := by
  obtain ⟨piece, member, isWord⟩ := List.any_eq_true.mp worded
  obtain ⟨before, after, split⟩ := List.append_of_mem member
  unfold fill at filled
  rw [split] at filled
  cases filledPieces : fillPieces args (before ++ piece :: after) with
  | error index => rw [filledPieces] at filled; cases filled
  | ok chars =>
      rw [filledPieces] at filled
      cases filled
      obtain ⟨_, later, _, laterFilled, rfl⟩ := fillPieces_append_eq_ok filledPieces
      cases piece with
      | text char =>
          rw [fillPieces_cons] at laterFilled
          obtain ⟨_, ⟨⟩, laterFilled⟩ := bind_eq_ok.mp laterFilled
          cases rest : fillPieces args after with
          | error index => rw [rest] at laterFilled; cases laterFilled
          | ok filledRest =>
              rw [rest] at laterFilled
              cases laterFilled
              exact ⟨char, by simp, by simpa [Piece.isWord] using isWord⟩
      | slot index => cases isWord
      | all => cases isWord

end Template

/-- A dialect in which neither the quote of names nor the templates of functions leave room for
an integer. -/
structure Dialect.Worded (dialect : Dialect) : Prop where
  quote : Text.isSigned dialect.quote = false
  templates : ∀ {name : String} {entry : FunctionEntry}, dialect.function? name = some entry →
    (Template.pieces entry.template).any Template.Piece.isWord = true

theorem Catalog.isWorded_template : ∀ part ∈ functionSections, ∀ pair ∈ part.2,
    ∀ entry ∈ pair.2, (Template.pieces entry.template).any Template.Piece.isWord = true := by
  apply forall_entries
  decide +kernel

theorem Dialect.worded_of_known {dialect : Dialect}
    (known : dialect ∈ Registry.builtin.dialects) : dialect.Worded := by
  simp only [Registry.builtin, List.mem_cons, List.not_mem_nil, or_false] at known
  rcases known with rfl | rfl | rfl | rfl
  all_goals exact ⟨rfl, holds_of_function?_resolve Catalog.isWorded_template rfl⟩

namespace Dialect.Worded

variable {dialect : Dialect} (worded : dialect.Worded)

include worded

theorem mem_identifier (name : String) :
    ∃ char ∈ (dialect.identifier name).toList, Text.isSigned char = false := by
  unfold identifier
  split
  · exact ⟨dialect.quote, by simp [Text.quoted, Text.quotedChars], worded.quote⟩
  · rename_i bare
    simp only [needsQuotes, Bool.or_eq_true, not_or, Bool.not_eq_true', Bool.not_eq_false] at bare
    have plain := bare.1.2
    unfold Text.isPlainIdentifier at plain
    split at plain
    · cases plain
    · rename_i first rest chars
      rw [chars]
      exact ⟨first, List.mem_cons_self,
        Text.isSigned_of_isPlainStart (Bool.and_eq_true_iff.mp plain).1⟩

theorem mem_qualified (qualifier : Option String) (name : String) :
    ∃ char ∈ (dialect.qualified qualifier name).toList, Text.isSigned char = false := by
  obtain ⟨char, member, other⟩ := worded.mem_identifier name
  cases qualifier with
  | none => exact ⟨char, member, other⟩
  | some qualifier => exact ⟨char, by simp [qualified, member], other⟩

theorem not_isInteger_fillTemplate {called name text : String} {entry : FunctionEntry}
    {args : List String} (found : dialect.function? called = some entry)
    (filled : Expr.fillTemplate dialect name entry.template args = .ok text) :
    Text.isInteger text ≠ true := by
  unfold Expr.fillTemplate at filled
  split at filled
  · rename_i written success
    cases filled
    obtain ⟨char, member, other⟩ := Template.mem_fill_of_isWord (worded.templates found) success
    exact Text.not_isInteger other member
  · cases filled

end Dialect.Worded

/-! ## Constants -/

namespace Expr

/-- The text of a literal, of a comparison of nulls, or of a membership in nothing. -/
def constantText? (dialect : Dialect) : Expr → Option String
  | .literal constant => (literalText dialect constant).toOption
  | .binary (.comparison op) left right =>
      if (op = .equal ∨ op = .notEqual) ∧ left.isNullLiteral ∧ right.isNullLiteral then
        some (dialect.truthText (op == .equal))
      else
        none
  | .member _ values negated =>
      if values.isEmpty then some (dialect.truthText negated) else none
  | _ => none

/-- The integer that an expression is, which reads as a position where columns are listed. -/
def position? (dialect : Dialect) (expr : Expr) : Option String :=
  (expr.constantText? dialect).filter Text.isInteger

variable {setting : Setting} {aggregates : Bool} {fragment : Fragment}

theorem not_isInteger_nullTest (isNull : Bool) (operand : String) :
    Text.isInteger (nullTest isNull operand) ≠ true := by
  have space : Text.isSigned ' ' = false := rfl
  apply Text.not_isInteger space
  cases isNull <;> simp [nullTest]

theorem not_isInteger_unaryText (worded : setting.dialect.Worded) {op : UnaryOp} {arg : Expr}
    {argFragment : Fragment} (written : arg.fragment setting aggregates = .ok argFragment) :
    Text.isInteger (unaryText op arg argFragment.text) ≠ true := by
  cases op with
  | not =>
      have notSigned : Text.isSigned 'N' = false := rfl
      apply Text.not_isInteger notSigned
      simp only [unaryText]
      split <;> simp
  | negate =>
      cases arg with
      | column ref =>
          cases written
          obtain ⟨char, member, other⟩ := worded.mem_qualified ref.table ref.name
          exact Text.not_isInteger other (by simp [unaryText, member])
      | _ =>
          have notSigned : Text.isSigned '(' = false := rfl
          exact Text.not_isInteger notSigned (by simp [unaryText])
  | isNull => exact not_isInteger_nullTest _ _
  | isNotNull => exact not_isInteger_nullTest _ _

theorem not_isInteger_memberText {dialect : Dialect} {arg : String} {values : List Literal}
    {texts : List String} {negated : Bool} (written : memberValues dialect values = .ok texts)
    (listed : values ≠ []) :
    Text.isInteger (memberText dialect arg texts (values.any Literal.isNull) negated) ≠ true := by
  have bracket : Text.isSigned '(' = false := rfl
  unfold memberText
  split
  · -- Only nulls are not listed, so one of the values is null.
    rename_i none
    have null : values.any Literal.isNull = true := by
      by_contra noNull
      obtain ⟨value, member⟩ := List.exists_mem_of_ne_nil values listed
      have kept : value ∈ values.filter fun value => !value.isNull := by
        refine List.mem_filter.mpr ⟨member, ?_⟩
        simp only [List.any_eq_true, not_exists, not_and, Bool.not_eq_true] at noNull
        rw [noNull value member]
        rfl
      obtain ⟨text, textMember, _⟩ := exists_mem_of_forall₂_left (mapM_eq_ok.mp written) kept
      rw [List.isEmpty_iff.mp none] at textMember
      cases textMember
    rw [null, if_pos rfl]
    exact not_isInteger_nullTest _ _
  · dsimp only
    split
    · exact Text.not_isInteger bracket (by simp [parenthesized])
    · apply Text.not_isInteger bracket
      cases negated <;> simp

theorem not_isInteger_aggregateText {dialect : Dialect} (worded : dialect.Worded)
    {name text : String} {arg : Option String} {distinct : Bool}
    (written : aggregateText dialect name arg distinct = .ok text) :
    Text.isInteger text ≠ true := by
  have bracket : Text.isSigned '(' = false := rfl
  unfold aggregateText at written
  split at written
  · cases written
    exact Text.not_isInteger bracket (by decide)
  · cases written
  · cases written
    apply Text.not_isInteger bracket
    cases distinct <;> simp
  · obtain ⟨entry, found, written⟩ := bind_eq_ok.mp written
    split at written
    · cases written
    · split at written
      · cases written
      · exact worded.not_isInteger_fillTemplate (function?_of_lookupFunction found) written

theorem nullSide_eq_both (op : ComparisonOp) (left right : Expr) :
    nullSide op left right = .both ↔
      (op = .equal ∨ op = .notEqual) ∧ left.isNullLiteral = true ∧ right.isNullLiteral = true := by
  unfold nullSide
  by_cases tests : op = .equal ∨ op = .notEqual
  · cases left.isNullLiteral <;> cases right.isNullLiteral <;> simp [tests]
  · simp [tests]

/-- An expression is a constant, or it is not written as an integer. -/
theorem constantText?_or_not_isInteger (worded : setting.dialect.Worded) {expr : Expr}
    (written : expr.fragment setting aggregates = .ok fragment) :
    expr.constantText? setting.dialect = some fragment.text ∨
      (expr.constantText? setting.dialect = none ∧ Text.isInteger fragment.text ≠ true) := by
  have space : Text.isSigned ' ' = false := rfl
  have bracket : Text.isSigned '(' = false := rfl
  have letter : Text.isSigned 'C' = false := rfl
  cases expr with
  | column ref =>
      cases written
      obtain ⟨char, member, other⟩ := worded.mem_qualified ref.table ref.name
      exact .inr ⟨rfl, Text.not_isInteger other member⟩
  | literal constant =>
      obtain ⟨text, textWritten, rfl⟩ := fragment_literal written
      exact .inl (by rw [constantText?, textWritten]; rfl)
  | unary op arg =>
      obtain ⟨argFragment, argWritten, rfl⟩ := fragment_unary written
      exact .inr ⟨rfl, not_isInteger_unaryText worded argWritten⟩
  | binary op left right =>
      cases op with
      | logical op =>
          obtain ⟨_, _, _, _, rfl⟩ := fragment_logical written
          exact .inr ⟨rfl, Text.not_isInteger bracket (by simp [parenthesized])⟩
      | arithmetic op =>
          obtain ⟨_, _, _, _, rfl⟩ := fragment_arithmetic written
          exact .inr ⟨rfl, Text.not_isInteger space (by simp)⟩
      | comparison op =>
          have both := nullSide_eq_both op left right
          rcases fragment_comparison written with
            ⟨side, rfl⟩ | ⟨side, _, _, rfl⟩ | ⟨side, _, _, rfl⟩ | ⟨side, _, _, _, _, rfl⟩
          · exact .inl (if_pos (both.mp side))
          · refine .inr ⟨if_neg fun nulls => ?_, not_isInteger_nullTest _ _⟩
            cases side.symm.trans (both.mpr nulls)
          · refine .inr ⟨if_neg fun nulls => ?_, not_isInteger_nullTest _ _⟩
            cases side.symm.trans (both.mpr nulls)
          · refine .inr ⟨if_neg fun nulls => ?_, Text.not_isInteger space (by simp)⟩
            cases side.symm.trans (both.mpr nulls)
  | member arg values negated =>
      obtain ⟨argFragment, texts, _, valuesWritten, rfl⟩ := fragment_member written
      cases values with
      | nil =>
          cases valuesWritten
          exact .inl rfl
      | cons value values =>
          exact .inr ⟨rfl, not_isInteger_memberText valuesWritten (List.cons_ne_nil _ _)⟩
  | call name args =>
      obtain ⟨entry, texts, text, found, _, filled, rfl⟩ := fragment_call written
      exact .inr ⟨rfl,
        worded.not_isInteger_fillTemplate (function?_of_lookupFunction found) filled⟩
  | case branches otherwise =>
      obtain ⟨texts, rfl, _⟩ := fragment_case written
      refine .inr ⟨rfl, Text.not_isInteger letter ?_⟩
      rw [List.cons_append, toList_intercalate_blank]
      simp
  | cast arg type =>
      obtain ⟨argFragment, _, rfl⟩ := fragment_cast written
      exact .inr ⟨rfl, Text.not_isInteger letter (by simp [castText])⟩
  | aggregate name arg distinct =>
      obtain ⟨argText, text, _, textWritten, rfl⟩ := fragment_aggregate written
      exact .inr ⟨rfl, not_isInteger_aggregateText worded textWritten⟩

/-- What is written as an integer is the constant that it reads as. -/
theorem isInteger_iff_position? (worded : setting.dialect.Worded) {expr : Expr} {text : String}
    (written : expr.sql setting aggregates = .ok text) :
    Text.isInteger text = true ↔ expr.position? setting.dialect = some text := by
  unfold sql at written
  obtain ⟨fragment, fragmentOk, written⟩ := bind_eq_ok.mp written
  cases pure_eq_ok.mp written
  rcases constantText?_or_not_isInteger worded fragmentOk with constant | ⟨none, notInteger⟩
  · simp [position?, constant]
  · simp [position?, none, notInteger]

theorem isNullLiteral_mapColumns {expr : Expr} {replace : ColumnRef → Expr}
    (columns : ∀ ref ∈ expr.columnRefs, ∃ column, replace ref = .column column) :
    (expr.mapColumns .everywhere replace).isNullLiteral = expr.isNullLiteral := by
  cases expr with
  | column ref =>
      obtain ⟨column, isColumn⟩ := columns ref (List.mem_singleton.mpr rfl)
      rw [mapColumns, isColumn]
      rfl
  | case branches otherwise => cases otherwise <;> rfl
  | aggregate name arg distinct => cases arg <;> rfl
  | _ => rfl

/-- Columns in place of others leave a constant as it is. -/
theorem position?_mapColumns {dialect : Dialect} {expr : Expr} {replace : ColumnRef → Expr}
    (columns : ∀ ref ∈ expr.columnRefs, ∃ column, replace ref = .column column) :
    (expr.mapColumns .everywhere replace).position? dialect = expr.position? dialect := by
  refine congrArg (Option.filter Text.isInteger) ?_
  cases expr with
  | column ref =>
      obtain ⟨column, isColumn⟩ := columns ref (List.mem_singleton.mpr rfl)
      rw [mapColumns, isColumn]
      rfl
  | binary op left right =>
      have inLeft : ∀ ref ∈ left.columnRefs, ∃ column, replace ref = .column column :=
        fun ref member => columns ref (List.mem_append_left _ member)
      have inRight : ∀ ref ∈ right.columnRefs, ∃ column, replace ref = .column column :=
        fun ref member => columns ref (List.mem_append_right _ member)
      cases op with
      | comparison op =>
          simp only [mapColumns, constantText?, isNullLiteral_mapColumns inLeft,
            isNullLiteral_mapColumns inRight]
      | logical op => rfl
      | arithmetic op => rfl
  | case branches otherwise => cases otherwise <;> rfl
  | aggregate name arg distinct => cases arg <;> rfl
  | _ => rfl

end Expr

/-! ## Keys -/

theorem Direction.marked_injective (direction : Direction) {first second : String}
    (equal : direction.marked first = direction.marked second) : first = second := by
  cases direction with
  | ascending => exact equal
  | descending =>
      have chars := congrArg String.toList equal
      simp only [marked, String.toList_append, List.append_cancel_right_eq] at chars
      exact String.toList_inj.mp chars

namespace Clauses

variable {clauses : Clauses} {dialect : Dialect}

/-- An ordering key is written as text and the mark of its direction. -/
theorem keyText_eq_ok {qualifier : Option String} {key : SortKey} {text : String}
    (written : clauses.keyText dialect qualifier key = .ok text) :
    ∃ entry, (clauses.writtenKey qualifier key.expr).sql (clauses.setting dialect)
      clauses.isGrouped = .ok entry ∧ text = key.direction.marked entry := by
  rw [keyText_eq] at written
  cases keyWritten : (clauses.writtenKey qualifier key.expr).sql (clauses.setting dialect)
      clauses.isGrouped with
  | error cause => rw [keyWritten] at written; cases written
  | ok entry =>
      rw [keyWritten] at written
      exact ⟨entry, rfl, (Except.ok.inj written).symm⟩

/-- A key of an ordering is written as an integer if it is one, and no output goes by it. -/
theorem isInteger_keyText_iff (worded : dialect.Worded) {qualifier : Option String}
    {key : SortKey} {text : String}
    (written : clauses.keyText dialect qualifier key = .ok (key.direction.marked text)) :
    Text.isInteger text = true ↔
      clauses.aliased? key.expr = none ∧ key.expr.position? dialect = some text := by
  obtain ⟨entry, keyWritten, equal⟩ := keyText_eq_ok written
  cases key.direction.marked_injective equal
  have settingWorded : (clauses.setting dialect).dialect.Worded := worded
  rw [Expr.isInteger_iff_position? settingWorded keyWritten]
  unfold writtenKey
  cases aliased : clauses.aliased? key.expr with
  | some output =>
      refine iff_of_false ?_ fun absent => ?_
      · intro position
        cases position
      · cases absent.1
  | none =>
      rw [Option.map_none, Option.getD_none, Expr.position?_mapColumns fun _ _ => ⟨_, rfl⟩]
      exact (and_iff_right rfl).symm

theorem exists_column_carriedRef? (ref : ColumnRef) :
    ∃ column, (clauses.carriedRef? ref).getD (.column ref) = .column column := by
  unfold carriedRef?
  split
  · exact ⟨_, rfl⟩
  · split
    · exact ⟨_, rfl⟩
    · exact ⟨_, rfl⟩

/-- An integer that a key is outside a statement it was inside too. -/
theorem position?_of_carried? {key expr : Expr} (carried : clauses.carried? key = some expr)
    {text : String} (position : expr.position? dialect = some text) :
    key.position? dialect = some text := by
  unfold carried? at carried
  split at carried
  · cases carried
    exact position
  · split at carried
    · cases carried
      cases position
    · split at carried
      · cases carried
        rwa [Expr.position?_mapColumns fun ref _ => exists_column_carriedRef? ref] at position
      · cases carried

end Clauses

namespace Plan

/-- The last step sorts by a key that stands for an integer. -/
def SortsByPosition (dialect : Dialect) (plan : Plan) (text : String) : Prop :=
  ∃ input keys used before, plan = .sorted input keys ∧ input.draft dialect used = .ok before ∧
    ∃ key ∈ keys, ∃ expr,
      (before.unsealed dialect).statement.inlined key.expr = .ok expr ∧
        expr.position? dialect = some text

/-- The last step groups by an integer. -/
def GroupsByPosition (dialect : Dialect) (plan : Plan) (text : String) : Prop :=
  ∃ input groupKeys aggregates, plan = .grouped input groupKeys aggregates ∧
    ∃ key ∈ groupKeys, key.expr.position? dialect = some text

end Plan

/-- The integers among the keys of a part come from steps that group and sort by them. -/
structure Statement.PositionsFrom (dialect : Dialect) (plan : Plan) (part : Statement) : Prop where
  grouping : ∀ key ∈ part.grouping.getD [], ∀ text, key.position? dialect = some text →
    ∃ stage ∈ plan.stages, stage.GroupsByPosition dialect text
  orderBy : ∀ key ∈ part.orderBy, ∀ text, key.expr.position? dialect = some text →
    ∃ stage ∈ plan.stages, stage.SortsByPosition dialect text

namespace Statement.PositionsFrom

variable {dialect : Dialect} {plan input : Plan} {part next : Statement}

theorem mono (positions : part.PositionsFrom dialect input) (isInput : input ∈ plan.inputs) :
    part.PositionsFrom dialect plan where
  grouping := by
    intro key member text position
    obtain ⟨stage, isStage, groups⟩ := positions.grouping key member text position
    exact ⟨stage, Plan.stages_subset_of_mem_inputs isInput isStage, groups⟩
  orderBy := by
    intro key member text position
    obtain ⟨stage, isStage, sorts⟩ := positions.orderBy key member text position
    exact ⟨stage, Plan.stages_subset_of_mem_inputs isInput isStage, sorts⟩

theorem congr (positions : part.PositionsFrom dialect plan) (grouping : next.grouping = part.grouping)
    (orderBy : next.orderBy ⊆ part.orderBy) : next.PositionsFrom dialect plan where
  grouping := by
    rw [grouping]
    exact positions.grouping
  orderBy := fun key member => positions.orderBy key (orderBy member)

theorem of_keyless (grouping : part.grouping = none) (orderBy : part.orderBy = []) :
    part.PositionsFrom dialect plan where
  grouping := by simp [grouping]
  orderBy := by simp [orderBy]

theorem inner {draft : Draft} (positions : draft.statement.PositionsFrom dialect plan) :
    Statement.PositionsFrom dialect plan
      { toClauses := draft.inner, source := draft.statement.source } := by
  refine positions.congr rfl ?_
  dsimp only [Draft.inner, Clauses.nested]
  split
  · exact List.Subset.refl _
  · exact List.nil_subset _

theorem opens {draft current : Draft} (positions : draft.statement.PositionsFrom dialect plan)
    (opens : draft.Opens dialect current) : current.statement.PositionsFrom dialect plan := by
  cases opens with
  | kept => exact positions
  | nested =>
      rw [Draft.nest_eq]
      refine ⟨by simp, fun carried member text position => ?_⟩
      obtain ⟨key, keyMember, _, written | ⟨output, _, _, isName⟩⟩ :=
        Clauses.mem_carriedKeys member
      · exact positions.orderBy key keyMember text
          (Clauses.position?_of_carried? written position)
      · rw [isName] at position
        cases position

end Statement.PositionsFrom

namespace Plan

section Steps

variable {dialect : Dialect} {used : Nat} {plan input : Plan} {before current result : Draft}

/-- A step that joins a draft has to account for the keys of the outermost part only. -/
theorem positionsFrom_step (isInput : input ∈ plan.inputs) (opens : before.Opens dialect current)
    (parts : ∀ part ∈ before.statement.parts, part.PositionsFrom dialect input)
    {next : Statement} (source : next.source = current.statement.source)
    (head : current.statement.PositionsFrom dialect plan → next.PositionsFrom dialect plan) :
    ∀ part ∈ next.parts, part.PositionsFrom dialect plan := by
  have kept : ∀ part ∈ before.statement.parts, part.PositionsFrom dialect plan :=
    fun part member => (parts part member).mono isInput
  have outer := (kept _ List.mem_cons_self).opens opens
  exact opens.forall_parts kept Statement.PositionsFrom.inner source (head outer)

theorem positionsFrom_sorted {keys orderBy : List SortKey}
    (beforeOk : input.draft dialect used = .ok before)
    (inlined : List.Forall₂ (fun key ordered =>
      (before.unsealed dialect).statement.inlined key.expr = .ok ordered.expr ∧
        ordered.direction = key.direction) keys orderBy) {statement : Statement}
    (positions : statement.PositionsFrom dialect (.sorted input keys)) :
    Statement.PositionsFrom dialect (.sorted input keys) { statement with orderBy } where
  grouping := positions.grouping
  orderBy := by
    intro ordered member text position
    obtain ⟨key, keyMember, inlinedOk, _⟩ := exists_mem_of_forall₂ inlined member
    exact ⟨_, self_mem_stages _, input, keys, used, before, rfl, beforeOk, key, keyMember,
      ordered.expr, inlinedOk, position⟩

theorem positionsFrom_grouped {groupKeys aggregates : List Output} {bound exprs : List Expr}
    {clauses : Clauses}
    (resolved : clauses.resolved? (groupKeys.map (·.expr) ++ bound) = .ok (some exprs))
    {next : Statement} (grouping : next.grouping = some (exprs.take groupKeys.length))
    (orderBy : next.orderBy = []) :
    next.PositionsFrom dialect (.grouped input groupKeys aggregates) where
  grouping := by
    rw [grouping, Option.getD_some, Clauses.resolved?_eq_map resolved, List.map_append,
      List.take_append_of_le_length (by simp), List.take_of_length_le (by simp)]
    simp only [List.map_map, List.forall_mem_map]
    intro key member text position
    have listed : key.expr ∈ groupKeys.map (·.expr) ++ bound :=
      List.mem_append_left _ (List.mem_map_of_mem member)
    have columns : ∀ ref ∈ key.expr.columnRefs, ∃ column, clauses.sourceOf ref = .column column :=
      fun ref refMember => (Clauses.sourceOf_of_resolved? resolved listed refMember).2
    rw [Function.comp_apply, Expr.position?_mapColumns columns] at position
    exact ⟨_, self_mem_stages _, input, groupKeys, aggregates, rfl, key, member, position⟩
  orderBy := by simp [orderBy]

/-- Every integer among the keys of a part comes from a stage that sorts or groups by it. -/
theorem positionsFrom (success : plan.draft dialect used = .ok result) :
    ∀ part ∈ result.statement.parts, part.PositionsFrom dialect plan := by
  induction plan generalizing used result with
  | base table =>
      cases success
      intro part member
      simp only [Statement.parts, Statement.ofTable, Source.statements, Relation.statements,
        List.mem_singleton] at member
      subst member
      exact .of_keyless rfl rfl
  | projected input outputs keep induction =>
      obtain ⟨before, current, _, items, beforeOk, opens, _, _, _, _, rfl⟩ :=
        draft_projected success
      exact positionsFrom_step (List.mem_singleton.mpr rfl) opens (induction beforeOk) rfl
        fun positions => positions.congr rfl (List.Subset.refl _)
  | filtered input predicate induction =>
      obtain ⟨before, current, _, beforeOk, opens, _, _, _, rfl⟩ := draft_filtered success
      exact positionsFrom_step (List.mem_singleton.mpr rfl) opens (induction beforeOk) rfl
        fun positions => positions.congr rfl (List.Subset.refl _)
  | sorted input keys induction =>
      obtain ⟨before, beforeOk, success⟩ := bind_eq_ok.mp success
      obtain ⟨_, orderBy, inlined, rfl⟩ := Draft.sort_eq_ok success
      exact positionsFrom_step (List.mem_singleton.mpr rfl) (before.opens_unsealed dialect)
        (induction beforeOk) rfl (positionsFrom_sorted beforeOk inlined)
  | grouped input groupKeys aggregates induction =>
      obtain ⟨before, current, bound, exprs, beforeOk, opens, _, _, _, _, resolved, rfl⟩ :=
        draft_grouped success
      exact positionsFrom_step (List.mem_singleton.mpr rfl) opens (induction beforeOk) rfl
        fun _ => positionsFrom_grouped resolved rfl rfl
  | joined input other kind on inputInduction otherInduction =>
      obtain ⟨left, right, leftOk, rightOk, _, joined⟩ := draft_joined success
      refine Statement.forall_parts_join joined
        (fun part member => (inputInduction leftOk part member).mono List.mem_cons_self)
        (fun part member => (otherInduction rightOk part member).mono
          (List.mem_cons_of_mem _ List.mem_cons_self)) ?_ ?_
      · intro side positions
        obtain ⟨orderBy, subset, equal⟩ := side.unordered_toClauses
        rw [equal]
        exact positions.congr rfl subset
      · obtain ⟨_, _, _, _, equal⟩ := Statement.join_eq_ok joined
        rw [equal]
        exact .of_keyless rfl rfl
  | deduplicated input induction =>
      obtain ⟨before, current, beforeOk, opens, rfl | rfl⟩ := draft_deduplicated success
      · exact positionsFrom_step (List.mem_singleton.mpr rfl) opens (induction beforeOk) rfl id
      · exact positionsFrom_step (List.mem_singleton.mpr rfl) opens (induction beforeOk) rfl
          fun positions => positions.congr rfl current.statement.distinctOrder_subset
  | limited input count induction =>
      obtain ⟨before, beforeOk, success⟩ := bind_eq_ok.mp success
      cases pure_eq_ok.mp success
      exact positionsFrom_step (List.mem_singleton.mpr rfl) .kept (induction beforeOk) rfl
        fun positions => positions.congr rfl (List.Subset.refl _)
  | aliased input name induction =>
      obtain ⟨before, beforeOk, success⟩ := bind_eq_ok.mp success
      cases pure_eq_ok.mp success
      have parts : ∀ part ∈ before.statement.parts,
          part.PositionsFrom dialect (.aliased input name) :=
        fun part member => (induction beforeOk part member).mono (List.mem_singleton.mpr rfl)
      refine Draft.forall_parts_named name parts ?_
      exact (parts _ List.mem_cons_self).congr rfl (List.Subset.refl _)

end Steps

/-- A key of a statement that is written, at any depth, is written as an integer exactly where
it is one and, in an ordering, where no derived output goes by it.  Each such integer comes from
a step that groups by it, or that sorts by a key which stands for it there. -/
theorem integer_keys_are_constants {dialect : Dialect} (worded : dialect.Worded) {plan : Plan}
    {statement : Statement} {text : String} (planned : plan.statement dialect = .ok statement)
    (written : statement.sql dialect = .ok text) :
    ∀ part ∈ statement.parts, ∃ used partText,
      part.source.text dialect used part.toClauses = .ok partText ∧
      (∀ key ∈ part.grouping.getD [], ∃ entry,
        key.sql (part.setting dialect) false = .ok entry ∧
          (Text.isInteger entry = true ↔ key.position? dialect = some entry) ∧
          (Text.isInteger entry = true →
            ∃ stage ∈ plan.stages, stage.GroupsByPosition dialect entry)) ∧
      ∀ key ∈ part.orderBy, ∃ entry,
        part.keyText dialect (part.source.fromName? used) key =
            .ok (key.direction.marked entry) ∧
          (Text.isInteger entry = true ↔
            part.aliased? key.expr = none ∧ key.expr.position? dialect = some entry) ∧
          (Text.isInteger entry = true →
            ∃ stage ∈ plan.stages, stage.SortsByPosition dialect entry) := by
  obtain ⟨draft, success, isStatement⟩ := bind_eq_ok.mp planned
  cases pure_eq_ok.mp isStatement
  intro part member
  have positions := positionsFrom success part member
  obtain ⟨used, partText, partWritten⟩ := draft.statement.source.written_parts written part member
  obtain ⟨_, _, lines, _, linesWritten, _⟩ := part.writesFrom dialect used partText partWritten
  obtain ⟨_, groupsWritten, keysWritten⟩ := Clauses.tailLines_eq_ok linesWritten
  refine ⟨used, partText, partWritten, ?_, ?_⟩
  · intro key isKey
    obtain ⟨entry, entryWritten⟩ := groupsWritten key isKey
    have settingWorded : (part.setting dialect).dialect.Worded := worded
    have integer : Text.isInteger entry = true ↔ key.position? dialect = some entry :=
      Expr.isInteger_iff_position? settingWorded entryWritten
    exact ⟨entry, entryWritten, integer,
      fun isInteger => positions.grouping key isKey entry (integer.mp isInteger)⟩
  · intro key isKey
    obtain ⟨keyText, keyWritten⟩ := keysWritten key isKey
    obtain ⟨entry, _, rfl⟩ := Clauses.keyText_eq_ok keyWritten
    have integer := Clauses.isInteger_keyText_iff worded keyWritten
    exact ⟨entry, keyWritten, integer,
      fun isInteger => positions.orderBy key isKey entry (integer.mp isInteger).2⟩

/-- Pairs in the order of a column that is always two, which is not selected. -/
def pairsByTwo : Plan :=
  .projected
    (.sorted
      (.projected (.base { name := "t", columns := some [⟨"a", none⟩, ⟨"b", none⟩] })
        [{ name := "c", expr := .literal { value := .number (.ofNat 2) } }] true)
      [{ expr := .named "c" }])
    [{ name := "a", expr := .named "a" }, { name := "b", expr := .named "b" }] false

theorem integer_keys_are_constants_pairsByTwo :
    ∃ statement text key, pairsByTwo.statement .postgres = .ok statement ∧
      statement.sql .postgres = .ok text ∧ key ∈ statement.orderBy ∧
      statement.aliased? key.expr = none ∧ key.expr.position? .postgres = some "2" ∧
      ∃ stage ∈ pairsByTwo.stages, stage.SortsByPosition .postgres "2" := by
  have worded : Dialect.postgres.Worded := Dialect.worded_of_known (by simp [Registry.builtin])
  obtain ⟨statement, text, key, planned, written, isKey, keyWritten⟩ :
      ∃ statement text key, pairsByTwo.statement .postgres = .ok statement ∧
        statement.sql .postgres = .ok text ∧ key ∈ statement.orderBy ∧
        ∀ used, statement.keyText .postgres (statement.source.fromName? used) key =
          .ok (key.direction.marked "2") :=
    ⟨_, _, _, rfl, rfl, List.mem_singleton.mpr rfl, fun _ => rfl⟩
  obtain ⟨used, _, _, _, keys⟩ := integer_keys_are_constants worded planned written statement
    List.mem_cons_self
  obtain ⟨entry, entryWritten, integer, sorts⟩ := keys key isKey
  rw [keyWritten used] at entryWritten
  cases key.direction.marked_injective (Except.ok.inj entryWritten)
  have isInteger : Text.isInteger "2" = true := by decide
  obtain ⟨unnamed, position⟩ := integer.mp isInteger
  exact ⟨statement, text, key, planned, written, isKey, unnamed, position, sorts isInteger⟩

/-- Once the column is not selected, the rows are in the order of the second output. -/
theorem pairsByTwo_ordered_by_position :
    ∃ statement text key, pairsByTwo.statement .postgres = .ok statement ∧
      statement.sql .postgres = .ok text ∧ key ∈ statement.orderBy ∧
      statement.keyText .postgres (statement.source.fromName? 0) key = .ok "2" ∧
      Text.isInteger "2" = true :=
  ⟨_, _, _, rfl, rfl, List.mem_singleton.mpr rfl, rfl, by decide⟩

end Plan

end SqlPlan
