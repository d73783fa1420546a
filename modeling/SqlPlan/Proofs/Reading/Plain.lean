import SqlPlan.Proofs.Reading.Expr

/-!
# Operands that are no predicates

Parentheses are put around operands that are binary operators, by their
strength.  That is enough wherever no operand is a predicate: a negation, a null
test or a membership test.
-/

namespace SqlPlan.Expr

variable {grammar : Grammar} {setting : Setting}

/-- The predicates that are written without parentheses. -/
def isPredicate : Expr → Bool
  | .unary .not _ | .unary .isNull _ | .unary .isNotNull _ | .member _ _ _ => true
  | _ => false

/-- Whether no operand of a binary operator or of a test is a predicate, and none is an
inherited aggregate. -/
def isPlain : Expr → Bool
  | .unary .not arg | .unary .negate arg | .cast arg _ => arg.isPlain
  | .unary .isNull arg | .unary .isNotNull arg | .member arg _ _ =>
      arg.isPlain && !arg.isPredicate
  | .binary (.logical _) left right => left.isPlain && right.isPlain
  | .binary _ left right =>
      left.isPlain && right.isPlain && !left.isPredicate && !right.isPredicate
  | expr => !expr.isInherited

/-! ## Strength -/

/-- How tightly the outermost operator binds.  A comparison may become a test. -/
def level (grammar : Grammar) : Expr → Nat
  | .binary (.comparison _) _ _ => Grammar.testStrength
  | .binary (.arithmetic op) _ _ => grammar.strength (.arithmetic op)
  | _ => Grammar.negateStrength

theorem strength_arithmetic (grammar : Grammar) (op : ArithmeticOp) :
    grammar.strength (.arithmetic op) = op.strength + 3 ∧ 4 ≤ op.strength ∧ op.strength ≤ 5 := by
  cases op <;> exact ⟨rfl, by decide, by decide⟩

theorem strength_comparison_le (grammar : Grammar) (op : ComparisonOp) :
    grammar.strength (.comparison op) ≤ 6 := by
  cases op with
  | like => rw [Grammar.strength]; split <;> omega
  | _ => exact (by decide : 5 ≤ 6)

theorem limit_comparison (grammar : Grammar) (op : ComparisonOp) :
    grammar.limit (.comparison op) = grammar.strength (.comparison op) + 1 := rfl

theorem limit_arithmetic (grammar : Grammar) (op : ArithmeticOp) :
    grammar.limit (.arithmetic op) = grammar.strength (.arithmetic op) := rfl

theorem isEnclosed_eq_false {op inner : BinaryOp} {onRight : Bool} {left right : Expr}
    (bare : (Expr.binary inner left right).isEnclosed op onRight = false) :
    inner.strength = 6 ∨ op.strength ≤ inner.strength ∧
      (onRight = true → inner.strength ≠ op.strength) ∧
      (op.strength = 3 → inner.strength ≠ 3) := by
  by_cases logical : inner.strength = 6
  · exact .inl logical
  · simpa [isEnclosed, logical, and_assoc] using bare

theorem limit_lt_negateStrength (grammar : Grammar) (op : BinaryOp) :
    grammar.limit op < Grammar.negateStrength := by
  unfold Grammar.negateStrength
  cases op with
  | arithmetic op =>
      have strength := strength_arithmetic grammar op
      rw [limit_arithmetic]
      omega
  | comparison op =>
      have bound := strength_comparison_le grammar op
      rw [limit_comparison]
      omega
  | logical op => exact Nat.lt_trans (grammar.strength_logical_lt op) (by decide)

/-- An operand that is not parenthesised binds more tightly than its operator. -/
theorem limit_le_level (grammar : Grammar) {op : BinaryOp} {onRight : Bool} {operand : Expr}
    (bare : operand.isEnclosed op onRight = false) :
    grammar.limit op ≤ operand.level grammar ∧
      (onRight = true → grammar.strength op < operand.level grammar) := by
  have stronger := grammar.strength_le_limit op
  have tight := limit_lt_negateStrength grammar op
  have outermost : operand.level grammar = Grammar.negateStrength →
      grammar.limit op ≤ operand.level grammar ∧
        (onRight = true → grammar.strength op < operand.level grammar) := by
    intro level
    omega
  cases operand with
  | binary inner left right =>
      have order := isEnclosed_eq_false bare
      cases inner with
      | logical inner => exact outermost rfl
      | comparison inner =>
          -- Every operator would have enclosed a comparison.
          exfalso
          cases op with
          | arithmetic op =>
              have strength := strength_arithmetic grammar op
              simp only [BinaryOp.strength] at order
              omega
          | comparison op => simp [BinaryOp.strength] at order
          | logical op => simp [BinaryOp.strength] at order
      | arithmetic inner =>
          have innerStrength := strength_arithmetic grammar inner
          simp only [level]
          cases op with
          | arithmetic op =>
              have strength := strength_arithmetic grammar op
              rw [limit_arithmetic]
              simp only [BinaryOp.strength] at order
              rcases order with impossible | ⟨atLeast, different, _⟩
              · omega
              · refine ⟨by omega, fun isRight => ?_⟩
                have := different isRight
                omega
          | comparison op =>
              have bound := strength_comparison_le grammar op
              rw [limit_comparison]
              omega
          | logical op =>
              have bound : grammar.limit (.logical op) < 3 := grammar.strength_logical_lt op
              omega
  | _ => exact outermost rfl

theorem listStrength_le_level (grammar : Grammar) {expr : Expr}
    (noComparison : expr.isComparison = false) : Grammar.listStrength ≤ expr.level grammar := by
  have tight : Grammar.listStrength ≤ Grammar.negateStrength := by decide
  cases expr with
  | binary op left right =>
      cases op with
      | comparison op => cases noComparison
      | arithmetic op =>
          have strength := strength_arithmetic grammar op
          rw [level, Grammar.listStrength]
          omega
      | logical op => exact tight
  | _ => exact tight

/-! ## Edges -/

/-- Text that binds at both ends as tightly as its outermost operator. -/
def IsLevel (grammar : Grammar) (setting : Setting) (expr : Expr) : Prop :=
  expr.level grammar ≤ (expr.edges grammar setting).front ∧
    expr.level grammar ≤ (expr.edges grammar setting).back

namespace IsLevel

variable {operand left right : Expr}

theorem operandEdges (isLevel : IsLevel grammar setting operand) (op : BinaryOp) (onRight : Bool) :
    grammar.limit op ≤ (operand.operandEdges grammar setting op onRight).front ∧
      grammar.limit op ≤ (operand.operandEdges grammar setting op onRight).back ∧
      (onRight = true →
        grammar.strength op < (operand.operandEdges grammar setting op onRight).front) := by
  have stronger := grammar.strength_le_limit op
  have tight := limit_lt_negateStrength grammar op
  have less : Grammar.negateStrength < Grammar.closedStrength := by decide
  unfold Expr.operandEdges
  cases enclosed : operand.isEnclosed op onRight with
  | true =>
      change grammar.limit op ≤ Grammar.closedStrength ∧ grammar.limit op ≤ Grammar.closedStrength ∧
        (onRight = true → grammar.strength op < Grammar.closedStrength)
      omega
  | false =>
      obtain ⟨atLeast, above⟩ := limit_le_level grammar enclosed
      exact ⟨Nat.le_trans atLeast isLevel.1, Nat.le_trans atLeast isLevel.2,
        fun isRight => Nat.lt_of_lt_of_le (above isRight) isLevel.1⟩

theorem dividendEdges (isLevel : IsLevel grammar setting left) (op : ArithmeticOp) (right : Expr) :
    grammar.limit (.arithmetic op) ≤ (dividendEdges grammar setting op left right).front ∧
      grammar.limit (.arithmetic op) ≤ (dividendEdges grammar setting op left right).back := by
  have tight := limit_lt_negateStrength grammar (.arithmetic op)
  have less : Grammar.negateStrength < Grammar.closedStrength := by decide
  unfold Expr.dividendEdges
  cases decide (DividesIntegers setting op left right) with
  | true => exact ⟨Nat.le_trans (Nat.le_of_lt tight) (Nat.le_of_lt less),
      Nat.le_trans (Nat.le_of_lt tight) (Nat.le_of_lt less)⟩
  | false =>
      have bound := isLevel.operandEdges (.arithmetic op) false
      exact ⟨bound.1, bound.2.1⟩

end IsLevel

theorem isLevel_of_isPlain {expr : Expr} (plain : expr.isPlain = true)
    (bare : expr.isPredicate = false) (grammar : Grammar) (setting : Setting) :
    IsLevel grammar setting expr := by
  have atomic : Grammar.negateStrength ≤ Edges.leaf.front ∧
      Grammar.negateStrength ≤ Edges.leaf.back := by decide
  have closed : Grammar.negateStrength ≤ Edges.closed.front ∧
      Grammar.negateStrength ≤ Edges.closed.back := by decide
  induction expr with
  | binary op left right leftInduction rightInduction =>
      cases op with
      | logical op => exact closed
      | comparison op =>
          simp only [isPlain, Bool.and_eq_true, Bool.not_eq_true'] at plain
          obtain ⟨⟨⟨leftPlain, rightPlain⟩, leftBare⟩, rightBare⟩ := plain
          have rightLevel := rightInduction rightPlain rightBare
          have rightBound := (rightLevel.operandEdges (.comparison op) true).2.1
          have tight := grammar.testStrength_le_comparison op
          have stronger := grammar.strength_le_limit (.comparison op)
          refine ⟨(edges_proper grammar setting _).front, ?_⟩
          rw [level, edges]
          cases nullSide op left right with
          | neither =>
              exact Nat.le_min.mpr ⟨tight, Nat.le_trans tight (Nat.le_trans stronger rightBound)⟩
          | both => exact (by decide : Grammar.testStrength ≤ Edges.leaf.back)
          | left => exact (by decide : Grammar.testStrength ≤ Grammar.closedStrength)
          | right => exact (by decide : Grammar.testStrength ≤ Grammar.closedStrength)
      | arithmetic op =>
          simp only [isPlain, Bool.and_eq_true, Bool.not_eq_true'] at plain
          obtain ⟨⟨⟨leftPlain, rightPlain⟩, leftBare⟩, rightBare⟩ := plain
          have leftBound := ((leftInduction leftPlain leftBare).dividendEdges op right).1
          have rightBound :=
            ((rightInduction rightPlain rightBare).operandEdges (.arithmetic op) true).2.1
          exact ⟨Nat.le_min.mpr ⟨Nat.le_refl _, leftBound⟩,
            Nat.le_min.mpr ⟨Nat.le_refl _, rightBound⟩⟩
  | unary op arg _ =>
      cases op with
      | negate => exact atomic
      | _ => cases bare
  | member => cases bare
  | cast arg type _ => exact closed
  | _ => exact atomic

/-- The operand of a test is bound tightly enough. -/
theorem le_testedEdges {arg : Expr} (plain : arg.isPlain = true) (bare : arg.isPredicate = false)
    (grammar : Grammar) (setting : Setting) :
    Grammar.testStrength ≤ (arg.testedEdges grammar setting).back ∧
      Grammar.listStrength ≤ (arg.testedEdges grammar setting).back := by
  have less : Grammar.testStrength ≤ Grammar.listStrength := by decide
  have listed : Grammar.listStrength ≤ (arg.testedEdges grammar setting).back := by
    unfold testedEdges
    cases comparison : arg.isComparison with
    | true => exact (by decide : Grammar.listStrength ≤ Edges.closed.back)
    | false =>
        exact Nat.le_trans (listStrength_le_level grammar comparison)
          (isLevel_of_isPlain plain bare grammar setting).2
  exact ⟨Nat.le_trans less listed, listed⟩

/-- Where no operand is a predicate, parentheses stand wherever they have to. -/
theorem isGrouped_of_isPlain {expr : Expr} (plain : expr.isPlain = true) (grammar : Grammar)
    (setting : Setting) : expr.isGrouped grammar setting = true := by
  induction expr with
  | unary op arg induction =>
      cases op with
      | not => exact induction plain
      | negate => exact induction plain
      | isNull =>
          simp only [isPlain, Bool.and_eq_true, Bool.not_eq_true'] at plain
          simp only [isGrouped, Bool.and_eq_true, decide_eq_true_eq]
          exact ⟨induction plain.1, (le_testedEdges plain.1 plain.2 grammar setting).1⟩
      | isNotNull =>
          simp only [isPlain, Bool.and_eq_true, Bool.not_eq_true'] at plain
          simp only [isGrouped, Bool.and_eq_true, decide_eq_true_eq]
          exact ⟨induction plain.1, (le_testedEdges plain.1 plain.2 grammar setting).1⟩
  | binary op left right leftInduction rightInduction =>
      cases op with
      | logical op =>
          simp only [isPlain, Bool.and_eq_true] at plain
          simp only [isGrouped, Bool.and_eq_true]
          exact ⟨leftInduction plain.1, rightInduction plain.2⟩
      | comparison op =>
          simp only [isPlain, Bool.and_eq_true, Bool.not_eq_true'] at plain
          obtain ⟨⟨⟨leftPlain, rightPlain⟩, leftBare⟩, rightBare⟩ := plain
          have leftLevel := isLevel_of_isPlain leftPlain leftBare grammar setting
          have rightLevel := isLevel_of_isPlain rightPlain rightBare grammar setting
          rw [isGrouped]
          cases nullSide op left right with
          | neither =>
              simp only [Bool.and_eq_true, decide_eq_true_eq]
              exact ⟨⟨⟨leftInduction leftPlain, rightInduction rightPlain⟩,
                (leftLevel.operandEdges (.comparison op) false).2.1⟩,
                (rightLevel.operandEdges (.comparison op) true).2.2 rfl⟩
          | both => rfl
          | left =>
              simp only [Bool.and_eq_true, decide_eq_true_eq]
              exact ⟨rightInduction rightPlain,
                (le_testedEdges rightPlain rightBare grammar setting).1⟩
          | right =>
              simp only [Bool.and_eq_true, decide_eq_true_eq]
              exact ⟨leftInduction leftPlain,
                (le_testedEdges leftPlain leftBare grammar setting).1⟩
      | arithmetic op =>
          simp only [isPlain, Bool.and_eq_true, Bool.not_eq_true'] at plain
          obtain ⟨⟨⟨leftPlain, rightPlain⟩, leftBare⟩, rightBare⟩ := plain
          have leftLevel := isLevel_of_isPlain leftPlain leftBare grammar setting
          have rightLevel := isLevel_of_isPlain rightPlain rightBare grammar setting
          simp only [isGrouped, Bool.and_eq_true, decide_eq_true_eq]
          exact ⟨⟨⟨leftInduction leftPlain, rightInduction rightPlain⟩,
            (leftLevel.dividendEdges op right).2⟩,
            (rightLevel.operandEdges (.arithmetic op) true).2.2 rfl⟩
  | member arg values negated induction =>
      simp only [isPlain, Bool.and_eq_true, Bool.not_eq_true'] at plain
      have bound := le_testedEdges plain.1 plain.2 grammar setting
      simp [isGrouped, induction plain.1, bound.1, bound.2]
  | cast arg type induction => exact induction plain
  | aggregate name arg distinct _ => exact plain
  | _ => rfl

end SqlPlan.Expr
