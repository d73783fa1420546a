import SqlPlan.Proofs.Expr.Fragment
import SqlPlan.Proofs.Expr.Natives
import SqlPlan.Proofs.Expr.Traversal
import SqlPlan.Proofs.Reading.Operand

/-!
# What the text of an expression says

The tree that an expression stands for, the edges that its text has, and what
has to hold of the edges of its operands.  Where that holds, the text is one
operand that has the tree of the expression.
-/

namespace SqlPlan

/-- The edges of an operand that may have been parenthesised. -/
def Edges.enclosedIf (enclosed : Bool) (edges : Edges) : Edges :=
  if enclosed then .closed else edges

namespace Expr

/-- The expressions that an expression puts together with operators. -/
def leaves : Expr → List Expr
  | .unary _ arg => leaves arg
  | .binary _ left right => leaves left ++ leaves right
  | .member arg values _ => leaves arg ++ values.map .literal
  | .cast arg _ => leaves arg
  | expr => [expr]

/-! ## Trees -/

def memberTree (dialect : Dialect) (arg : Tree) (values : List Tree) (hasNull negated : Bool) :
    Tree :=
  if values.isEmpty then
    if hasNull then .nullTest arg negated else .leaf (dialect.truthText negated)
  else if hasNull then
    .binary (.logical (if negated then .and else .or)) (.member arg values negated)
      (.nullTest arg negated)
  else
    .member arg values negated

/-- A division of integers in a dialect that would drop the fraction of their quotient. -/
def DividesIntegers (setting : Setting) (op : ArithmeticOp) (left right : Expr) : Prop :=
  op = .div ∧ setting.dialect.truncatesDivision = true ∧
    left.type? setting.dialect setting.columnType = some .integer ∧
    right.type? setting.dialect setting.columnType = some .integer

instance (setting : Setting) (op : ArithmeticOp) (left right : Expr) :
    Decidable (DividesIntegers setting op left right) :=
  inferInstanceAs (Decidable (_ ∧ _ ∧ _ ∧ _))

theorem castsDivision_eq (setting : Setting) (op : ArithmeticOp) (left right : Expr) :
    castsDivision setting op left right = decide (DividesIntegers setting op left right) := by
  rw [Bool.eq_iff_iff, decide_eq_true_iff]
  simp [castsDivision, DividesIntegers, and_assoc]

/-- The operators of an expression over the trees of its leaves.  A quotient of integers
keeps its fraction by a cast of the dividend. -/
def tree (setting : Setting) (leaf : Expr → Tree) : Expr → Tree
  | .unary .not arg => .not (arg.tree setting leaf)
  | .unary .negate arg => .negate (arg.tree setting leaf)
  | .unary .isNull arg => .nullTest (arg.tree setting leaf) false
  | .unary .isNotNull arg => .nullTest (arg.tree setting leaf) true
  | .binary (.comparison op) left right =>
      match nullSide op left right with
      | .both => .leaf (setting.dialect.truthText (op == .equal))
      | .right => .nullTest (left.tree setting leaf) (op != .equal)
      | .left => .nullTest (right.tree setting leaf) (op != .equal)
      | .neither =>
          .binary (.comparison op) (left.tree setting leaf) (right.tree setting leaf)
  | .binary (.arithmetic op) left right =>
      let dividend := left.tree setting leaf
      .binary (.arithmetic op)
        (if DividesIntegers setting op left right then
          .cast dividend (setting.dialect.typeNames.get .float)
        else dividend)
        (right.tree setting leaf)
  | .binary (.logical op) left right =>
      .binary (.logical op) (left.tree setting leaf) (right.tree setting leaf)
  | .member arg values negated =>
      memberTree setting.dialect (arg.tree setting leaf)
        ((values.filter fun value => !value.isNull).map fun value => leaf (.literal value))
        (values.any Literal.isNull) negated
  | .cast arg type => .cast (arg.tree setting leaf) (setting.dialect.typeNames.get type)
  | expr => leaf expr

/-! ## Edges -/

/-- How an operand binds at its ends before a test whose operator binds as
tightly as `strength`. -/
def postfixEdges (strength : Nat) (arg : Edges) : Edges :=
  ⟨min strength arg.front, Grammar.closedStrength⟩

def infixEdges (strength : Nat) (left right : Edges) : Edges :=
  ⟨min strength left.front, min strength right.back⟩

/-- The edges of a membership test, given whether its list is empty once nulls are removed. -/
def memberEdges (isEmpty hasNull : Bool) (arg : Edges) : Edges :=
  if isEmpty then if hasNull then postfixEdges Grammar.testStrength arg else .leaf
  else if hasNull then .closed
  else postfixEdges Grammar.listStrength arg

/-- How tightly the operators at the ends of the text of an expression bind. -/
def edges (grammar : Grammar) (setting : Setting) : Expr → Edges
  | .unary .not _ => ⟨Grammar.closedStrength, Grammar.notStrength⟩
  | .unary .isNull arg | .unary .isNotNull arg =>
      postfixEdges Grammar.testStrength
        ((arg.edges grammar setting).enclosedIf arg.isComparison)
  | .binary (.comparison op) left right =>
      match nullSide op left right with
      | .both => .leaf
      | .right =>
          postfixEdges Grammar.testStrength
            ((left.edges grammar setting).enclosedIf left.isComparison)
      | .left =>
          postfixEdges Grammar.testStrength
            ((right.edges grammar setting).enclosedIf right.isComparison)
      | .neither =>
          infixEdges (grammar.strength (.comparison op))
            ((left.edges grammar setting).enclosedIf (left.isEnclosed (.comparison op) false))
            ((right.edges grammar setting).enclosedIf (right.isEnclosed (.comparison op) true))
  | .binary (.arithmetic op) left right =>
      infixEdges (grammar.strength (.arithmetic op))
        ((left.edges grammar setting).enclosedIf
          (DividesIntegers setting op left right || left.isEnclosed (.arithmetic op) false))
        ((right.edges grammar setting).enclosedIf (right.isEnclosed (.arithmetic op) true))
  | .binary (.logical _) _ _ => .closed
  | .member arg values _ =>
      memberEdges (values.all Literal.isNull) (values.any Literal.isNull)
        ((arg.edges grammar setting).enclosedIf arg.isComparison)
  | .cast _ _ => .closed
  | _ => .leaf

/-- The edges of the operand of a test. -/
def testedEdges (grammar : Grammar) (setting : Setting) (arg : Expr) : Edges :=
  (arg.edges grammar setting).enclosedIf arg.isComparison

/-- The edges of an operand of an operator. -/
def operandEdges (grammar : Grammar) (setting : Setting) (op : BinaryOp) (onRight : Bool)
    (operand : Expr) : Edges :=
  (operand.edges grammar setting).enclosedIf (operand.isEnclosed op onRight)

/-- The edges of the left operand of an arithmetic operator, which may be cast. -/
def dividendEdges (grammar : Grammar) (setting : Setting) (op : ArithmeticOp)
    (left right : Expr) : Edges :=
  (left.edges grammar setting).enclosedIf
    (DividesIntegers setting op left right || left.isEnclosed (.arithmetic op) false)

/-- Whether all operands are bound more tightly at their ends than by the
operator that they are operands of.  An inherited aggregate has no text that could
be an operand. -/
def isGrouped (grammar : Grammar) (setting : Setting) : Expr → Bool
  | .unary .not arg | .unary .negate arg | .cast arg _ => arg.isGrouped grammar setting
  | .unary .isNull arg | .unary .isNotNull arg =>
      arg.isGrouped grammar setting &&
        Grammar.testStrength ≤ (arg.testedEdges grammar setting).back
  | .binary (.comparison op) left right =>
      match nullSide op left right with
      | .both => true
      | .right =>
          left.isGrouped grammar setting &&
            Grammar.testStrength ≤ (left.testedEdges grammar setting).back
      | .left =>
          right.isGrouped grammar setting &&
            Grammar.testStrength ≤ (right.testedEdges grammar setting).back
      | .neither =>
          left.isGrouped grammar setting && right.isGrouped grammar setting &&
            grammar.limit (.comparison op) ≤
              (left.operandEdges grammar setting (.comparison op) false).back &&
            grammar.strength (.comparison op) <
              (right.operandEdges grammar setting (.comparison op) true).front
  | .binary (.arithmetic op) left right =>
      left.isGrouped grammar setting && right.isGrouped grammar setting &&
        grammar.limit (.arithmetic op) ≤ (dividendEdges grammar setting op left right).back &&
        grammar.strength (.arithmetic op) <
          (right.operandEdges grammar setting (.arithmetic op) true).front
  | .binary (.logical _) left right =>
      left.isGrouped grammar setting && right.isGrouped grammar setting
  | .member arg values _ =>
      values.isEmpty ||
        arg.isGrouped grammar setting &&
          (!values.any Literal.isNull ||
            Grammar.testStrength ≤ (arg.testedEdges grammar setting).back) &&
          (values.all Literal.isNull ||
            Grammar.listStrength ≤ (arg.testedEdges grammar setting).back)
  | expr => !expr.isInherited

end Expr

/-! ## Bounds -/

/-- Edges that bind more tightly than AND and OR on both sides. -/
structure Edges.Proper (edges : Edges) : Prop where
  front : Grammar.testStrength ≤ edges.front
  back : Grammar.notStrength ≤ edges.back

namespace Edges.Proper

variable {arg left right : Edges}

theorem closed : Edges.closed.Proper := ⟨by decide, by decide⟩

theorem leaf : Edges.leaf.Proper := ⟨by decide, by decide⟩

theorem enclosedIf (proper : arg.Proper) (enclosed : Bool) : (arg.enclosedIf enclosed).Proper := by
  cases enclosed with
  | false => exact proper
  | true => exact closed

theorem postfixEdges (proper : arg.Proper) {strength : Nat}
    (tight : Grammar.testStrength ≤ strength) : (Expr.postfixEdges strength arg).Proper :=
  ⟨Nat.le_min.mpr ⟨tight, proper.front⟩, (by decide : Grammar.notStrength ≤ Grammar.closedStrength)⟩

theorem infixEdges (leftProper : left.Proper) (rightProper : right.Proper) {strength : Nat}
    (tight : Grammar.testStrength ≤ strength) : (Expr.infixEdges strength left right).Proper :=
  ⟨Nat.le_min.mpr ⟨tight, leftProper.front⟩,
    Nat.le_min.mpr ⟨Nat.le_trans (by decide) tight, rightProper.back⟩⟩

theorem front_pos (proper : arg.Proper) : 0 < arg.front :=
  Nat.lt_of_lt_of_le (by decide) proper.front

theorem back_pos (proper : arg.Proper) : 0 < arg.back :=
  Nat.lt_of_lt_of_le (by decide) proper.back

end Edges.Proper

namespace Expr

variable {grammar : Grammar} {setting : Setting} {aggregates : Bool} {leaf : Expr → Tree}

theorem edges_proper (grammar : Grammar) (setting : Setting) (expr : Expr) :
    (expr.edges grammar setting).Proper := by
  induction expr with
  | unary op arg induction =>
      cases op with
      | not =>
          exact (⟨by decide, by decide⟩ :
            Edges.Proper ⟨Grammar.closedStrength, Grammar.notStrength⟩)
      | negate => exact .leaf
      | isNull => exact (induction.enclosedIf _).postfixEdges (by decide)
      | isNotNull => exact (induction.enclosedIf _).postfixEdges (by decide)
  | binary op left right leftInduction rightInduction =>
      cases op with
      | logical op => exact .closed
      | arithmetic op =>
          have tight : Grammar.testStrength ≤ grammar.strength (.arithmetic op) := by
            cases op <;> simp [Grammar.strength, Grammar.testStrength]
          exact (leftInduction.enclosedIf _).infixEdges (rightInduction.enclosedIf _) tight
      | comparison op =>
          have tight := grammar.testStrength_le_comparison op
          rw [edges]
          cases nullSide op left right with
          | both => exact .leaf
          | right => exact (leftInduction.enclosedIf _).postfixEdges (by decide)
          | left => exact (rightInduction.enclosedIf _).postfixEdges (by decide)
          | neither =>
              exact (leftInduction.enclosedIf _).infixEdges (rightInduction.enclosedIf _) tight
  | member arg values negated induction =>
      rw [edges, memberEdges]
      split
      · split
        · exact (induction.enclosedIf _).postfixEdges (by decide)
        · exact .leaf
      · split
        · exact .closed
        · exact (induction.enclosedIf _).postfixEdges (by decide)
  | cast arg type _ => exact .closed
  | _ => exact .leaf

/-! ## Reading -/

theorem edges_of_isLogical {expr : Expr} (logical : expr.isLogical = true) :
    expr.edges grammar setting = .closed := by
  unfold isLogical at logical
  split at logical
  · rfl
  · cases logical

/-- A leaf whose own text is read as its tree, if it is any operand. -/
def ReadsAs (grammar : Grammar) (setting : Setting) (aggregates : Bool) (leaf : Expr → Tree)
    (expr : Expr) : Prop :=
  ∀ fragment, expr.fragment setting aggregates = .ok fragment → expr.isInherited = false →
    ∃ tokens, Scans grammar setting.dialect.quote fragment.text.toList tokens ∧
      Spans grammar tokens (leaf expr) .leaf

/-- Operands that are a chain of AND or of OR. -/
def Chains (grammar : Grammar) (quote : Char) (op : LogicalOp) (operands : List String)
    (tree : Tree) : Prop :=
  ∃ first rest firstTree trees, operands = first :: rest ∧
    Operand grammar quote first firstTree ⟨Grammar.testStrength, Grammar.notStrength⟩ ∧
    List.Forall₂ (fun text tree =>
      Operand grammar quote text tree ⟨Grammar.testStrength, Grammar.notStrength⟩) rest trees ∧
    (Tree.chain op firstTree trees).Similar tree

/-- The text of an expression is one operand, and its group, if it has one, is a chain. -/
structure Reads (grammar : Grammar) (setting : Setting) (leaf : Expr → Tree) (expr : Expr)
    (fragment : Fragment) : Prop where
  operand : Operand grammar setting.dialect.quote fragment.text (expr.tree setting leaf)
    (expr.edges grammar setting)
  chained : ∀ op operands, fragment.group = some (op, operands) →
    Chains grammar setting.dialect.quote op operands (expr.tree setting leaf)

namespace Reads

variable {expr left right : Expr} {fragment leftFragment rightFragment : Fragment}

theorem tested (regular : setting.dialect.Regular)
    (reads : Reads grammar setting leaf expr fragment) :
    Operand grammar setting.dialect.quote (testOperand expr fragment.text)
      (expr.tree setting leaf) (expr.testedEdges grammar setting) := by
  have proper := edges_proper grammar setting expr
  unfold testOperand testedEdges
  cases expr.isComparison with
  | false => exact reads.operand
  | true =>
      exact reads.operand.parenthesized regular.isQuote proper.front_pos proper.back_pos .closed

theorem enclosed (regular : setting.dialect.Regular)
    (reads : Reads grammar setting leaf expr fragment) (op : BinaryOp) (onRight : Bool) :
    Operand grammar setting.dialect.quote (operandText op onRight expr fragment.text)
      (expr.tree setting leaf) (expr.operandEdges grammar setting op onRight) := by
  have proper := edges_proper grammar setting expr
  rw [operandText_eq, operandEdges]
  cases expr.isEnclosed op onRight with
  | false => exact reads.operand
  | true =>
      exact reads.operand.parenthesized regular.isQuote proper.front_pos proper.back_pos .closed

/-- NOT stands before brackets, those of a group or its own. -/
theorem negation (regular : setting.dialect.Regular)
    (reads : Reads grammar setting leaf expr fragment) :
    Negation grammar setting.dialect.quote (unaryText .not expr fragment.text)
      (expr.tree setting leaf) := by
  have proper := edges_proper grammar setting expr
  rw [unaryText]
  cases logical : expr.isLogical with
  | true =>
      have operand := reads.operand
      rw [edges_of_isLogical logical] at operand
      exact .closed regular.isQuote operand
  | false => exact .group regular.isQuote reads.operand proper.front_pos proper.back_pos

/-- The left operand of an arithmetic operator, cast where the division asks for it. -/
theorem dividend (regular : setting.dialect.Regular)
    (reads : Reads grammar setting leaf left leftFragment) (op : ArithmeticOp) (right : Expr) :
    Operand grammar setting.dialect.quote
      (if castsDivision setting op left right then
        castText setting.dialect leftFragment.text .float
      else operandText (.arithmetic op) false left leftFragment.text)
      (if DividesIntegers setting op left right then
        .cast (left.tree setting leaf) (setting.dialect.typeNames.get .float)
      else left.tree setting leaf)
      (dividendEdges grammar setting op left right) := by
  have proper := edges_proper grammar setting left
  rw [castsDivision_eq, dividendEdges]
  by_cases divides : DividesIntegers setting op left right
  · simp only [divides, decide_true, if_true, Bool.true_or]
    exact reads.operand.cast regular proper.front_pos proper.back_pos .float .closed
  · simp only [divides, decide_false, Bool.false_eq_true, if_false, Bool.false_or]
    exact reads.enclosed regular (.arithmetic op) false

/-- What a fragment brings into a group. -/
theorem chains (reads : Reads grammar setting leaf expr fragment) (op : LogicalOp) :
    Chains grammar setting.dialect.quote op (fragment.operands op) (expr.tree setting leaf) := by
  have proper := edges_proper grammar setting expr
  have alone : Chains grammar setting.dialect.quote op [fragment.text] (expr.tree setting leaf) :=
    ⟨fragment.text, [], expr.tree setting leaf, [], rfl,
      reads.operand.weaken _ proper.front proper.back, .nil, .refl _⟩
  unfold Fragment.operands
  cases group : fragment.group with
  | none => exact alone
  | some chain =>
      obtain ⟨inner, operands⟩ := chain
      by_cases same : inner = op
      · subst same
        simpa using reads.chained inner operands group
      · simpa [same] using alone

end Reads

theorem Chains.append {quote : Char} {op : LogicalOp} {first second : List String}
    {firstTree secondTree : Tree} (firstChains : Chains grammar quote op first firstTree)
    (secondChains : Chains grammar quote op second secondTree) :
    Chains grammar quote op (first ++ second) (.binary (.logical op) firstTree secondTree) := by
  obtain ⟨head, rest, headTree, restTrees, rfl, headOperand, restOperands, similar⟩ := firstChains
  obtain ⟨head', rest', headTree', restTrees', rfl, headOperand', restOperands', similar'⟩ :=
    secondChains
  refine ⟨head, rest ++ head' :: rest', headTree, restTrees ++ headTree' :: restTrees', rfl,
    headOperand, List.rel_append restOperands (.cons headOperand' restOperands'), ?_⟩
  exact (Tree.chain_append op headTree headTree' restTrees restTrees').trans
    (.binary similar similar')

/-- A chain in parentheses is one operand. -/
theorem Chains.operand {quote : Char} {op : LogicalOp} {operands : List String} {tree : Tree}
    (isQuote : IsNameQuote quote) (chains : Chains grammar quote op operands tree)
    (outer : Edges) :
    Operand grammar quote (parenthesized ((" " ++ op.symbol ++ " ").intercalate operands)) tree
      outer := by
  obtain ⟨first, rest, firstTree, trees, rfl, firstOperand, restOperands, similar⟩ := chains
  have weak := grammar.strength_logical_lt op
  have less : Grammar.notStrength < Grammar.testStrength := by decide
  have positive := grammar.strength_pos (.logical op)
  have begun := firstOperand.weaken
    ⟨grammar.strength (.logical op), grammar.strength (.logical op)⟩
    (by simp only; omega) (by simp only; omega)
  exact ((begun.chain isQuote op restOperands).similar similar).parenthesized isQuote positive
    positive outer

/-- The text of each value that is not null is read as its tree. -/
theorem forall₂_memberValues {values : List Literal} {texts : List String}
    (written : memberValues setting.dialect values = .ok texts)
    (leaves : ∀ atom ∈ values.map Expr.literal, ReadsAs grammar setting aggregates leaf atom) :
    List.Forall₂ (fun text value => ∃ tokens,
      Scans grammar setting.dialect.quote text.toList tokens ∧
        Token.tree? grammar tokens = some value) texts
      ((values.filter fun value => !value.isNull).map fun value => leaf (.literal value)) := by
  rw [List.forall₂_map_right_iff]
  have listed : ∀ value ∈ values.filter fun value => !value.isNull,
      ReadsAs grammar setting aggregates leaf (.literal value) := by
    intro value member
    exact leaves _ (List.mem_map_of_mem (List.mem_of_mem_filter member))
  have writes := mapM_eq_ok.mp written
  generalize (values.filter fun value => !value.isNull) = present at writes listed
  clear written
  induction writes with
  | nil => exact .nil
  | @cons value text _ _ head _ induction =>
      rw [List.forall_mem_cons] at listed
      have written : (Expr.literal value).fragment setting aggregates = .ok { text } := by
        rw [Expr.fragment, head]
        rfl
      obtain ⟨tokens, scans, spans⟩ := listed.1 _ written rfl
      exact .cons ⟨tokens, scans, spans.tree?_eq (by decide) (by decide)⟩ (induction listed.2)

/-- A membership test of an operand that is bound tightly enough. -/
theorem operand_memberText {dialect : Dialect} (isQuote : IsNameQuote dialect.quote)
    (truths : ∀ truth, Scans grammar dialect.quote (dialect.truthText truth).toList
      [.leaf (dialect.truthText truth)])
    {text : String} {arg : Tree} {argEdges : Edges}
    (operand : Operand grammar dialect.quote text arg argEdges)
    (proper : argEdges.Proper) {texts : List String} {values : List Tree}
    (read : List.Forall₂ (fun text value => ∃ tokens,
      Scans grammar dialect.quote text.toList tokens ∧
        Token.tree? grammar tokens = some value) texts values)
    {hasNull : Bool} (tested : hasNull = true → Grammar.testStrength ≤ argEdges.back)
    (listed : texts.isEmpty = false → Grammar.listStrength ≤ argEdges.back) (negated : Bool) :
    Operand grammar dialect.quote (memberText dialect text texts hasNull negated)
      (memberTree dialect arg values hasNull negated)
      (memberEdges texts.isEmpty hasNull argEdges) := by
  have sameEmpty : values.isEmpty = texts.isEmpty := by cases read <;> rfl
  unfold memberText memberTree memberEdges
  rw [sameEmpty]
  cases empty : texts.isEmpty with
  | true =>
      cases hasNull with
      | true =>
          simpa [postfixEdges] using operand.nullTest isQuote (tested rfl) (!negated) _
      | false => exact .leaf (truths negated) _
  | false =>
      have nonempty : texts ≠ [] := by
        rintro rfl
        cases empty
      have list := operand.member isQuote (listed empty) nonempty read negated
        Grammar.closedStrength
      cases hasNull with
      | false => exact list
      | true =>
          have test := operand.nullTest isQuote (tested rfl) (!negated)
            Grammar.closedStrength
          let op : LogicalOp := if negated then .and else .or
          have weak := grammar.strength_logical_lt op
          have less : Grammar.notStrength < Grammar.testStrength := by decide
          have front : grammar.strength (.logical op) < min Grammar.testStrength argEdges.front :=
            Nat.lt_min.mpr ⟨Nat.lt_trans weak less,
              Nat.lt_of_lt_of_le (Nat.lt_trans weak less) proper.front⟩
          have back : grammar.limit (.logical op) ≤ Grammar.closedStrength :=
            Nat.le_trans (Nat.le_of_lt weak) (by decide)
          have joined := list.infixed isQuote (.logical op) test back front
          have enclosed := joined.parenthesized isQuote
            (Nat.lt_min.mpr ⟨grammar.strength_pos _, Nat.lt_min.mpr ⟨by decide, proper.front_pos⟩⟩)
            (Nat.lt_min.mpr ⟨grammar.strength_pos _, (by decide : 0 < Grammar.closedStrength)⟩)
            .closed
          have glue : (if negated then " AND " else " OR ") =
              " " ++ (BinaryOp.logical op).symbol ++ " " := by
            cases negated <;> rfl
          simp only [glue, Bool.false_eq_true, if_false, if_true]
          simpa only [String.append_assoc, Bool.not_not] using enclosed

namespace Reads

variable {expr arg left right : Expr} {fragment argFragment leftFragment rightFragment : Fragment}

/-- Text that is no group. -/
theorem single {text : String} (operand : Operand grammar setting.dialect.quote text
      (expr.tree setting leaf) (expr.edges grammar setting)) :
    Reads grammar setting leaf expr { text } := by
  refine ⟨operand, ?_⟩
  intro op operands group
  cases group

theorem atom (isAtom : expr.isAtom = true) (own : expr.isInherited = false)
    (written : expr.fragment setting aggregates = .ok fragment)
    (leaves : ∀ inner ∈ expr.leaves, ReadsAs grammar setting aggregates leaf inner) :
    Reads grammar setting leaf expr fragment := by
  have itself : expr.leaves = [expr] ∧ expr.tree setting leaf = leaf expr ∧
      expr.edges grammar setting = .leaf := by
    cases expr <;> first | exact ⟨rfl, rfl, rfl⟩ | cases isAtom
  rw [itself.1, List.forall_mem_singleton] at leaves
  obtain ⟨tokens, scans, spans⟩ := leaves fragment written own
  constructor
  · rw [itself.2.1, itself.2.2]
    exact ⟨tokens, leaf expr, scans, spans, .refl _⟩
  · intro op operands group
    rw [group_of_isAtom isAtom written] at group
    cases group

theorem unary (regular : setting.dialect.Regular) (op : UnaryOp)
    (written : arg.fragment setting aggregates = .ok argFragment)
    (reads : Reads grammar setting leaf arg argFragment)
    (grouped : (Expr.unary op arg).isGrouped grammar setting = true) :
    Reads grammar setting leaf (.unary op arg) { text := unaryText op arg argFragment.text } := by
  have isQuote := regular.isQuote
  have proper := edges_proper grammar setting arg
  refine .single ?_
  cases op with
  | not => exact (reads.negation regular).operand _
  | negate =>
      cases arg with
      | column ref =>
          cases written
          have front : Grammar.negateStrength < Edges.leaf.front := by decide
          exact reads.operand.negate_unsigned isQuote front
            (regular.unsigned_qualified ref.table ref.name) _
      | _ => exact reads.operand.negate_group isQuote proper.front_pos proper.back_pos _
  | isNull =>
      simp only [isGrouped, Bool.and_eq_true, decide_eq_true_eq] at grouped
      exact (reads.tested regular).nullTest isQuote grouped.2 true _
  | isNotNull =>
      simp only [isGrouped, Bool.and_eq_true, decide_eq_true_eq] at grouped
      exact (reads.tested regular).nullTest isQuote grouped.2 false _

theorem logical (regular : setting.dialect.Regular) (op : LogicalOp)
    (leftReads : Reads grammar setting leaf left leftFragment)
    (rightReads : Reads grammar setting leaf right rightFragment) :
    Reads grammar setting leaf (.binary (.logical op) left right)
      { text := parenthesized ((" " ++ op.symbol ++ " ").intercalate
          (leftFragment.operands op ++ rightFragment.operands op))
        group := some (op, leftFragment.operands op ++ rightFragment.operands op) } := by
  have chains := (leftReads.chains op).append (rightReads.chains op)
  refine ⟨chains.operand regular.isQuote .closed, ?_⟩
  rintro _ _ ⟨⟩
  exact chains

theorem arithmetic (regular : setting.dialect.Regular) (op : ArithmeticOp)
    (leftReads : Reads grammar setting leaf left leftFragment)
    (rightReads : Reads grammar setting leaf right rightFragment)
    (back : grammar.limit (.arithmetic op) ≤ (dividendEdges grammar setting op left right).back)
    (front : grammar.strength (.arithmetic op) <
      (right.operandEdges grammar setting (.arithmetic op) true).front) :
    Reads grammar setting leaf (.binary (.arithmetic op) left right)
      { text :=
          (if castsDivision setting op left right then
            castText setting.dialect leftFragment.text .float
          else operandText (.arithmetic op) false left leftFragment.text) ++ " " ++ op.symbol ++
            " " ++ operandText (.arithmetic op) true right rightFragment.text } :=
  .single ((leftReads.dividend regular op right).infixed regular.isQuote (.arithmetic op)
    (rightReads.enclosed regular (.arithmetic op) true) back front)

/-- A comparison, or the test that it becomes. -/
theorem comparison (regular : setting.dialect.Regular) {op : ComparisonOp}
    (written : (Expr.binary (.comparison op) left right).fragment setting aggregates =
      .ok fragment)
    (leftReads : ∀ leftFragment, left.fragment setting aggregates = .ok leftFragment →
      left.isGrouped grammar setting = true → Reads grammar setting leaf left leftFragment)
    (rightReads : ∀ rightFragment, right.fragment setting aggregates = .ok rightFragment →
      right.isGrouped grammar setting = true → Reads grammar setting leaf right rightFragment)
    (grouped : (Expr.binary (.comparison op) left right).isGrouped grammar setting = true) :
    Reads grammar setting leaf (.binary (.comparison op) left right) fragment := by
  have isQuote := regular.isQuote
  rw [isGrouped] at grouped
  rcases fragment_comparison written with ⟨side, rfl⟩ | ⟨side, leftFragment, leftWritten, rfl⟩ |
    ⟨side, rightFragment, rightWritten, rfl⟩ |
    ⟨side, leftFragment, rightFragment, leftWritten, rightWritten, rfl⟩ <;>
    refine .single ?_ <;> rw [tree, edges] <;>
    simp only [side, Bool.and_eq_true, decide_eq_true_eq] at grouped ⊢
  · exact .leaf (regular.scans_truth grammar _) _
  · have reads := leftReads _ leftWritten grouped.1
    exact (reads.tested regular).nullTest isQuote grouped.2 _ _
  · have reads := rightReads _ rightWritten grouped.1
    exact (reads.tested regular).nullTest isQuote grouped.2 _ _
  · obtain ⟨⟨⟨leftGrouped, rightGrouped⟩, back⟩, front⟩ := grouped
    have leftOperand :=
      (leftReads _ leftWritten leftGrouped).enclosed regular (.comparison op) false
    have rightOperand :=
      (rightReads _ rightWritten rightGrouped).enclosed regular (.comparison op) true
    exact leftOperand.infixed isQuote (.comparison op) rightOperand back front

theorem member (regular : setting.dialect.Regular) {values : List Literal} {negated : Bool}
    {texts : List String} (written : memberValues setting.dialect values = .ok texts)
    (leaves : ∀ atom ∈ values.map Expr.literal, ReadsAs grammar setting aggregates leaf atom)
    (reads : arg.isGrouped grammar setting = true → Reads grammar setting leaf arg argFragment)
    (grouped : (Expr.member arg values negated).isGrouped grammar setting = true) :
    Reads grammar setting leaf (.member arg values negated)
      { text := memberText setting.dialect (testOperand arg argFragment.text) texts
          (values.any Literal.isNull) negated } := by
  have valuesRead := forall₂_memberValues written leaves
  have sameEmpty : texts.isEmpty = values.all Literal.isNull := by
    have sameLength := valuesRead.length_eq
    rw [List.length_map] at sameLength
    rw [Bool.eq_iff_iff, List.isEmpty_iff_length_eq_zero, sameLength, List.length_eq_zero_iff,
      List.filter_eq_nil_iff, List.all_eq_true]
    simp
  refine .single ?_
  cases values with
  | nil =>
      cases valuesRead
      exact .leaf (regular.scans_truth grammar negated) _
  | cons value values =>
      simp only [isGrouped, List.isEmpty_cons, Bool.false_or, Bool.and_eq_true] at grouped
      obtain ⟨⟨argGrouped, tested⟩, listed⟩ := grouped
      have proper := edges_proper grammar setting arg
      rw [tree, edges, ← sameEmpty]
      refine operand_memberText regular.isQuote (regular.scans_truth grammar)
        ((reads argGrouped).tested regular) (proper.enclosedIf _) valuesRead ?_ ?_ negated
      · intro hasNull
        simpa [hasNull] using tested
      · intro nonempty
        rw [sameEmpty] at nonempty
        simpa [nonempty] using listed

end Reads

/-- Where every operand is bound tightly enough, the text of an expression is one
operand that has its tree. -/
theorem reads_fragment (regular : setting.dialect.Regular) {expr : Expr} {fragment : Fragment}
    (written : expr.fragment setting aggregates = .ok fragment)
    (leaves : ∀ atom ∈ expr.leaves, ReadsAs grammar setting aggregates leaf atom)
    (grouped : expr.isGrouped grammar setting = true) :
    Reads grammar setting leaf expr fragment := by
  induction expr generalizing fragment with
  | column ref => exact .atom rfl rfl written leaves
  | literal constant => exact .atom rfl rfl written leaves
  | call name args _ => exact .atom rfl rfl written leaves
  | case branches otherwise _ _ => exact .atom rfl rfl written leaves
  | aggregate name arg distinct _ =>
      simp only [isGrouped, Bool.not_eq_true'] at grouped
      exact .atom rfl grouped written leaves
  | unary op arg induction =>
      obtain ⟨argFragment, argWritten, rfl⟩ := fragment_unary written
      have argGrouped : arg.isGrouped grammar setting = true := by
        cases op <;> simp only [isGrouped, Bool.and_eq_true] at grouped <;> simp only [grouped]
      exact .unary regular op argWritten (induction argWritten leaves argGrouped) grouped
  | binary op left right leftInduction rightInduction =>
      simp only [Expr.leaves, List.forall_mem_append] at leaves
      cases op with
      | logical op =>
          simp only [isGrouped, Bool.and_eq_true] at grouped
          obtain ⟨leftFragment, rightFragment, leftWritten, rightWritten, rfl⟩ :=
            fragment_logical written
          exact .logical regular op (leftInduction leftWritten leaves.1 grouped.1)
            (rightInduction rightWritten leaves.2 grouped.2)
      | comparison op =>
          exact .comparison regular written
            (fun _ leftWritten leftGrouped => leftInduction leftWritten leaves.1 leftGrouped)
            (fun _ rightWritten rightGrouped => rightInduction rightWritten leaves.2 rightGrouped)
            grouped
      | arithmetic op =>
          simp only [isGrouped, Bool.and_eq_true, decide_eq_true_eq] at grouped
          obtain ⟨⟨⟨leftGrouped, rightGrouped⟩, back⟩, front⟩ := grouped
          obtain ⟨leftFragment, rightFragment, leftWritten, rightWritten, rfl⟩ :=
            fragment_arithmetic written
          exact .arithmetic regular op (leftInduction leftWritten leaves.1 leftGrouped)
            (rightInduction rightWritten leaves.2 rightGrouped) back front
  | member arg values negated induction =>
      simp only [Expr.leaves, List.forall_mem_append] at leaves
      obtain ⟨argFragment, texts, argWritten, valuesWritten, rfl⟩ := fragment_member written
      exact .member regular valuesWritten leaves.2
        (fun argGrouped => induction argWritten leaves.1 argGrouped) grouped
  | cast arg type induction =>
      obtain ⟨argFragment, argWritten, rfl⟩ := fragment_cast written
      have proper := edges_proper grammar setting arg
      have reads := induction argWritten leaves grouped
      exact .single (reads.operand.cast regular proper.front_pos proper.back_pos type .closed)

end Expr

end SqlPlan
