import SqlPlan.Number.Rounding
import SqlPlan.Proofs.Expr.Fragment
import SqlPlan.Proofs.Expr.Parts

/-!
# Equal expressions

Equality of expressions is symmetric and transitive, and an expression equals itself
unless it holds a number that is none.  Two equal literals are one literal, or they
are zeros of different sign, and a zero is written without its sign.  So equal
expressions have one text and one type, and stay equal when their columns are
replaced alike.
-/

namespace SqlPlan

/-! ## Literals -/

/-- Equal values are one value, or zeros that differ in sign. -/
theorem Scalar.same_iff {left right : Scalar} :
    left.same right ↔
      (left = right ∧ left ≠ .number .nan) ∨
        ∃ negative negative' exponent fraction, Number.significand exponent fraction = 0 ∧
          left = .number (.finite negative exponent fraction) ∧
          right = .number (.finite negative' exponent fraction) := by
  constructor
  · intro equal
    cases left with
    | null =>
        cases right with
        | null => exact .inl ⟨rfl, by simp⟩
        | _ => cases equal
    | boolean value =>
        cases right with
        | boolean other => exact .inl ⟨congrArg _ (eq_of_beq equal), by simp⟩
        | _ => cases equal
    | text value =>
        cases right with
        | text other => exact .inl ⟨congrArg _ (eq_of_beq equal), by simp⟩
        | _ => cases equal
    | number value =>
        cases right with
        | number other =>
            cases value with
            | nan => cases equal
            | infinite negative =>
                cases other with
                | infinite negative' =>
                    rw [show negative = negative' from eq_of_beq equal]
                    exact .inl ⟨rfl, by simp⟩
                | _ => cases equal
            | finite negative exponent fraction =>
                cases other with
                | finite negative' exponent' fraction' =>
                    simp only [Scalar.same, Number.same, Bool.and_eq_true, Bool.or_eq_true,
                      beq_iff_eq] at equal
                    obtain ⟨⟨rfl, rfl⟩, rfl | zero⟩ := equal
                    · exact .inl ⟨rfl, by simp⟩
                    · exact .inr ⟨_, _, _, _, zero, rfl, rfl⟩
                | _ => cases equal
        | _ => cases equal
  · rintro (⟨rfl, defined⟩ | ⟨negative, negative', exponent, fraction, zero, rfl, rfl⟩)
    · cases left with
      | number value =>
          cases value with
          | nan => exact absurd rfl defined
          | _ => simp [Scalar.same, Number.same]
      | _ => simp [Scalar.same]
    · simp [Scalar.same, Number.same, zero]

namespace Literal

variable {left right third : Literal}

theorem same_self_iff : left.same left ↔ left.value ≠ .number .nan := by
  rw [Literal.same, Bool.and_eq_true, Scalar.same_iff]
  constructor
  · rintro ⟨⟨_, defined⟩ | ⟨_, _, _, _, _, isZero, _⟩, _⟩
    · exact defined
    · simp [isZero]
  · intro defined
    exact ⟨.inl ⟨rfl, defined⟩, beq_self_eq_true _⟩

theorem same_symm (equal : left.same right) : right.same left := by
  rw [Literal.same, Bool.and_eq_true, Scalar.same_iff, beq_iff_eq] at equal ⊢
  obtain ⟨⟨one, defined⟩ | ⟨_, _, _, _, zero, isLeft, isRight⟩, mark⟩ := equal
  · exact ⟨.inl ⟨one.symm, one ▸ defined⟩, mark.symm⟩
  · exact ⟨.inr ⟨_, _, _, _, zero, isRight, isLeft⟩, mark.symm⟩

theorem same_trans (first : left.same right) (second : right.same third) : left.same third := by
  rw [Literal.same, Bool.and_eq_true, Scalar.same_iff, beq_iff_eq] at first second ⊢
  refine ⟨?_, first.2.trans second.2⟩
  obtain ⟨⟨one, defined⟩ | ⟨_, _, _, _, zero, isLeft, isRight⟩, _⟩ := first
  · rw [one]
    exact second.1
  · obtain ⟨⟨one, _⟩ | ⟨_, _, _, _, _, isSecond, isThird⟩, _⟩ := second
    · exact .inr ⟨_, _, _, _, zero, isLeft, one ▸ isRight⟩
    · cases isRight.symm.trans isSecond
      exact .inr ⟨_, _, _, _, zero, isLeft, isThird⟩

/-- Whatever does not look at the sign of a zero is the same for equal literals. -/
theorem congr_of_same {α : Type} (view : Literal → α)
    (unsigned : ∀ negative negative' exponent fraction mark,
      Number.significand exponent fraction = 0 →
      view { value := .number (.finite negative exponent fraction), mark } =
        view { value := .number (.finite negative' exponent fraction), mark })
    (equal : left.same right) : view left = view right := by
  rw [Literal.same, Bool.and_eq_true, Scalar.same_iff, beq_iff_eq] at equal
  obtain ⟨leftValue, mark⟩ := left
  obtain ⟨rightValue, rightMark⟩ := right
  obtain ⟨⟨rfl, _⟩ | ⟨_, _, _, _, zero, rfl, rfl⟩, rfl⟩ := equal
  · rfl
  · exact unsigned _ _ _ _ _ zero

theorem isNull_of_same (equal : left.same right) : left.isNull = right.isNull :=
  congr_of_same isNull (fun _ _ _ _ _ _ => rfl) equal

theorem type?_of_same (equal : left.same right) : left.type? = right.type? :=
  congr_of_same type? (fun _ _ _ _ _ _ => rfl) equal

theorem literalText_of_same (dialect : Dialect) (equal : left.same right) :
    Expr.literalText dialect left = Expr.literalText dialect right := by
  apply congr_of_same _ _ equal
  intro negative negative' exponent fraction mark zero
  have text : (Number.finite negative exponent fraction).text =
      (Number.finite negative' exponent fraction).text := by
    simp only [Number.text, Number.chars, zero, if_true]
  simp only [Expr.literalText, text]
  rfl

end Literal

namespace Expr

/-! ## An equivalence -/

/-- The literals of an expression that stand in none of its children. -/
def ownLiterals : Expr → List Literal
  | .literal constant => [constant]
  | .member _ values _ => values
  | _ => []

/-- No literal at any depth is not a number. -/
def HasNoNaN (expr : Expr) : Prop :=
  ∀ inner : Expr, inner.Within expr → ∀ constant ∈ inner.ownLiterals,
    constant.value ≠ .number .nan

theorem hasNoNaN_iff {expr : Expr} :
    expr.HasNoNaN ↔ (∀ constant ∈ expr.ownLiterals, constant.value ≠ .number .nan) ∧
      ∀ child ∈ expr.children, child.HasNoNaN := by
  constructor
  · intro defined
    exact ⟨defined expr .self, fun child member inner within =>
      defined inner (.deeper member within)⟩
  · rintro ⟨own, children⟩ inner within
    cases within with
    | self => exact own
    | deeper member within => exact children _ member inner within

theorem same_self_iff_children {expr : Expr} :
    expr.same expr ↔ (∀ constant ∈ expr.ownLiterals, constant.same constant) ∧
      ∀ child ∈ expr.children, child.same child := by
  have options (inner : Option Expr) :
      Option.Rel (fun left right => left.same right) inner inner ↔
        ∀ child ∈ inner, child.same child := by
    cases inner <;> simp
  cases expr with
  | member arg values negated =>
      simp [same, ownLiterals, children, sameLiterals_iff_forall₂, List.forall₂_same, and_comm]
  | call name args => simp [same, ownLiterals, children, sameList_iff_forall₂, List.forall₂_same]
  | case branches otherwise =>
      rw [same_case_iff, sameBranches_iff_forall₂, List.forall₂_same, options]
      simp only [ownLiterals, mem_children_case]
      constructor
      · rintro ⟨inBranches, inOther⟩
        refine ⟨by simp, ?_⟩
        rintro child (⟨branch, member, rfl | rfl⟩ | isOther)
        · exact (inBranches branch member).1
        · exact (inBranches branch member).2
        · exact inOther child isOther
      · rintro ⟨_, equal⟩
        refine ⟨fun branch member => ⟨?_, ?_⟩, fun child isOther => equal child (.inr isOther)⟩
        · exact equal _ (.inl ⟨branch, member, .inl rfl⟩)
        · exact equal _ (.inl ⟨branch, member, .inr rfl⟩)
  | aggregate name arg distinct =>
      rw [same_aggregate_iff, options]
      simp [ownLiterals, children]
  | _ => simp [same, ownLiterals, children]

/-- An expression equals itself exactly where it holds no literal not-a-number. -/
theorem same_self_iff {expr : Expr} : expr.same expr ↔ expr.HasNoNaN := by
  induction expr using inductionOnChildren with
  | step expr induction =>
      rw [same_self_iff_children, hasNoNaN_iff]
      simp only [Literal.same_self_iff]
      exact and_congr_right fun _ => forall₂_congr induction

theorem same_symm {left right : Expr} (equal : left.same right) : right.same left := by
  refine inductionOnSame (motive := fun left right => right.same left) ?column ?literal ?unary
    ?binary ?member ?call ?case ?cast ?aggregate equal
  case column => simp [same]
  case literal =>
    intro constant other equal
    exact Literal.same_symm equal
  case unary =>
    intro op arg other _ reverse
    simp [same, reverse]
  case binary =>
    intro op first second otherFirst otherSecond firstEqual secondEqual
    simp [same, firstEqual.2, secondEqual.2]
  case member =>
    intro arg other values others negated _ reverse valuesEqual
    have reversed : sameLiterals others values :=
      sameLiterals_iff_forall₂.mpr (valuesEqual.imp fun _ _ => Literal.same_symm).flip
    simp [same, reverse, reversed]
  case call =>
    intro name args others pairs
    have reversed : sameList others args :=
      sameList_iff_forall₂.mpr (pairs.imp fun _ _ pair => pair.2).flip
    simp [same, reversed]
  case case =>
    intro branches others otherwise other pairs rest
    refine same_case_iff.mpr ⟨sameBranches_iff_forall₂.mpr ?_, ?_⟩
    · exact (pairs.imp fun _ _ pair => ⟨pair.1.2, pair.2.2⟩).flip
    · cases rest with
      | none => exact .none
      | some pair => exact .some pair.2
  case cast =>
    intro arg other type _ reverse
    simp [same, reverse]
  case aggregate =>
    intro name arg other distinct rest
    refine same_aggregate_iff.mpr ⟨rfl, rfl, ?_⟩
    cases rest with
    | none => exact .none
    | some pair => exact .some pair.2

theorem forall₂_trans {α : Type} {first second third : α → α → Prop} {lefts middles rights : List α}
    (firsts : List.Forall₂ first lefts middles) (seconds : List.Forall₂ second middles rights)
    (step : ∀ left middle right, first left middle → second middle right → third left right) :
    List.Forall₂ third lefts rights := by
  induction firsts generalizing rights with
  | nil =>
      cases seconds
      exact .nil
  | cons head _ induction =>
      cases seconds with
      | cons next rest => exact .cons (step _ _ _ head next) (induction rest)

theorem same_trans {left right third : Expr} (first : left.same right)
    (second : right.same third) : left.same third := by
  have options {left right third : Option Expr}
      (first : Option.Rel (fun left right => left.same right ∧
        ∀ third, right.same third → left.same third) left right)
      (second : Option.Rel (fun left right => left.same right) right third) :
      Option.Rel (fun left right => left.same right) left third := by
    cases first with
    | none => exact second
    | some pair =>
        cases second with
        | some equal => exact .some (pair.2 _ equal)
  refine inductionOnSame (motive := fun left right => ∀ third, right.same third → left.same third)
    ?column ?literal ?unary ?binary ?member ?call ?case ?cast ?aggregate first third second
  case column =>
    intro ref third second
    exact second
  case literal =>
    intro constant other first third second
    cases third <;> simp only [same, Bool.false_eq_true] at second
    exact Literal.same_trans first second
  case unary =>
    intro op arg other _ follow third second
    cases third <;> simp only [same, Bool.false_eq_true, Bool.and_eq_true, beq_iff_eq] at second
    obtain ⟨rfl, argEqual⟩ := second
    simp [same, follow _ argEqual]
  case binary =>
    intro op left right otherLeft otherRight leftFollow rightFollow third second
    cases third <;> simp only [same, Bool.false_eq_true, Bool.and_eq_true, beq_iff_eq] at second
    obtain ⟨⟨rfl, leftEqual⟩, rightEqual⟩ := second
    simp [same, leftFollow.2 _ leftEqual, rightFollow.2 _ rightEqual]
  case member =>
    intro arg other values others negated _ follow valuesEqual third second
    cases third <;> simp only [same, Bool.false_eq_true, Bool.and_eq_true, beq_iff_eq] at second
    obtain ⟨⟨rfl, argEqual⟩, othersEqual⟩ := second
    have values : sameLiterals values _ := sameLiterals_iff_forall₂.mpr
      (forall₂_trans valuesEqual (sameLiterals_iff_forall₂.mp othersEqual)
        fun _ _ _ first second => Literal.same_trans first second)
    simp [same, follow _ argEqual, values]
  case call =>
    intro name args others pairs third second
    cases third <;> simp only [same, Bool.false_eq_true, Bool.and_eq_true, beq_iff_eq] at second
    obtain ⟨rfl, othersEqual⟩ := second
    have all : sameList args _ := sameList_iff_forall₂.mpr
      (forall₂_trans pairs (sameList_iff_forall₂.mp othersEqual) fun _ _ _ pair => pair.2 _)
    simp [same, all]
  case case =>
    intro branches others otherwise other pairs rest third second
    cases third with
    | case lasts last =>
        obtain ⟨branchesEqual, otherEqual⟩ := same_case_iff.mp second
        refine same_case_iff.mpr ⟨sameBranches_iff_forall₂.mpr ?_, options rest otherEqual⟩
        refine forall₂_trans pairs (sameBranches_iff_forall₂.mp branchesEqual) ?_
        intro _ _ _ pair equal
        exact ⟨pair.1.2 _ equal.1, pair.2.2 _ equal.2⟩
    | _ => simp [same] at second
  case cast =>
    intro arg other type _ follow third second
    cases third <;> simp only [same, Bool.false_eq_true, Bool.and_eq_true, beq_iff_eq] at second
    obtain ⟨rfl, argEqual⟩ := second
    simp [same, follow _ argEqual]
  case aggregate =>
    intro name arg other distinct rest third second
    cases third with
    | aggregate name' last distinct' =>
        obtain ⟨rfl, rfl, argEqual⟩ := same_aggregate_iff.mp second
        exact same_aggregate_iff.mpr ⟨rfl, rfl, options rest argEqual⟩
    | _ => simp [same] at second

/-! ## Types and texts -/

section Written

variable {left right : Expr}

theorem type?_of_same (dialect : Dialect) (columnType : ColumnRef → Option DataType)
    (equal : left.same right) :
    left.type? dialect columnType = right.type? dialect columnType := by
  refine inductionOnSame (motive := fun left right =>
      left.type? dialect columnType = right.type? dialect columnType)
    ?column ?literal ?unary ?binary ?member ?call ?case ?cast ?aggregate equal
  case column => exact fun _ => rfl
  case literal =>
    intro constant other equal
    exact Literal.type?_of_same equal
  case unary =>
    intro op arg other _ typed
    cases op with
    | negate => exact typed
    | _ => rfl
  case binary =>
    intro op first second otherFirst otherSecond firstTyped secondTyped
    cases op with
    | arithmetic op => cases op <;> simp only [type?, firstTyped.2, secondTyped.2]
    | _ => rfl
  case member => exact fun _ _ _ _ _ _ _ _ => rfl
  case call =>
    intro name args others pairs
    cases pairs with
    | nil => rfl
    | cons pair _ => rw [type?, type?, pair.2]
  case case =>
    intro branches others otherwise other pairs _
    cases pairs with
    | nil => rw [type?, type?]
    | cons pair _ => rw [type?, type?, pair.2.2]
  case cast => exact fun _ _ _ _ _ => rfl
  case aggregate =>
    intro name arg other distinct rest
    cases rest with
    | none => rfl
    | some pair => rw [type?, type?, pair.2]

theorem isNullLiteral_of_same (equal : left.same right) :
    left.isNullLiteral = right.isNullLiteral := by
  refine inductionOnSame ?column ?literal ?unary ?binary ?member ?call ?case ?cast ?aggregate equal
  case literal =>
    intro constant other equal
    exact Literal.isNull_of_same equal
  all_goals
    intros
    rfl

/-- Whether an operand is put in parentheses is decided by its outermost operator. -/
theorem operandText_of_same (equal : left.same right) (op : BinaryOp) (onRight : Bool)
    (text : String) : operandText op onRight left text = operandText op onRight right text := by
  refine inductionOnSame ?_ ?_ ?_ ?_ ?_ ?_ ?_ ?_ ?_ equal <;> intros <;> rfl

theorem testOperand_of_same (equal : left.same right) (text : String) :
    testOperand left text = testOperand right text := by
  refine inductionOnSame ?column ?literal ?unary ?binary ?member ?call ?case ?cast ?aggregate equal
  case binary =>
    intro op _ _ _ _ _ _
    cases op <;> rfl
  all_goals
    intros
    rfl

theorem unaryText_of_same (equal : left.same right) (op : UnaryOp) (text : String) :
    unaryText op left text = unaryText op right text := by
  refine inductionOnSame ?column ?literal ?unary ?binary ?member ?call ?case ?cast ?aggregate equal
  case binary =>
    intro inner _ _ _ _ _ _
    cases inner <;> rfl
  all_goals
    intros
    rfl

theorem castsDivision_of_same (setting : Setting) (op : ArithmeticOp) {otherLeft otherRight : Expr}
    (leftEqual : left.same otherLeft) (rightEqual : right.same otherRight) :
    castsDivision setting op left right = castsDivision setting op otherLeft otherRight := by
  rw [castsDivision, castsDivision, type?_of_same _ _ leftEqual, type?_of_same _ _ rightEqual]

theorem memberValues_of_same (dialect : Dialect) {values others : List Literal}
    (equal : List.Forall₂ (fun left right => left.same right) values others) :
    memberValues dialect values = memberValues dialect others := by
  have unfolded (values : List Literal) : memberValues dialect values =
      (values.filter fun value => !value.isNull).mapM (literalText dialect) := rfl
  induction equal with
  | nil => rfl
  | cons head _ induction =>
      rw [unfolded, unfolded] at induction ⊢
      rw [List.filter_cons, List.filter_cons, Literal.isNull_of_same head]
      split
      · rw [List.mapM_cons, List.mapM_cons, Literal.literalText_of_same dialect head, induction]
      · exact induction

theorem any_isNull_of_same {values others : List Literal}
    (equal : List.Forall₂ (fun left right => left.same right) values others) :
    values.any Literal.isNull = others.any Literal.isNull := by
  induction equal with
  | nil => rfl
  | cons head _ induction =>
      rw [List.any_cons, List.any_cons, Literal.isNull_of_same head, induction]

/-- Equal expressions are written alike, or fail alike. -/
theorem fragment_of_same (setting : Setting) (aggregates : Bool) (equal : left.same right) :
    left.fragment setting aggregates = right.fragment setting aggregates := by
  refine inductionOnSame (motive := fun left right => ∀ aggregates,
      left.fragment setting aggregates = right.fragment setting aggregates)
    ?column ?literal ?unary ?binary ?member ?call ?case ?cast ?aggregate equal aggregates
  case column => exact fun _ _ => rfl
  case literal =>
    intro constant other equal aggregates
    rw [fragment, fragment, Literal.literalText_of_same _ equal]
  case unary =>
    intro op arg other equal written aggregates
    simp only [fragment, written aggregates, unaryText_of_same equal]
  case binary =>
    intro op first second otherFirst otherSecond firstWritten secondWritten aggregates
    cases op with
    | logical op => simp only [fragment, firstWritten.2 aggregates, secondWritten.2 aggregates]
    | comparison op =>
        simp only [fragment, firstWritten.2 aggregates, secondWritten.2 aggregates,
          isNullLiteral_of_same firstWritten.1, isNullLiteral_of_same secondWritten.1,
          testOperand_of_same firstWritten.1, testOperand_of_same secondWritten.1,
          operandText_of_same firstWritten.1, operandText_of_same secondWritten.1]
    | arithmetic op =>
        simp only [fragment, firstWritten.2 aggregates, secondWritten.2 aggregates,
          castsDivision_of_same setting op firstWritten.1 secondWritten.1,
          operandText_of_same firstWritten.1, operandText_of_same secondWritten.1]
  case member =>
    intro arg other values others negated equal written valuesEqual aggregates
    simp only [fragment, written aggregates, testOperand_of_same equal,
      memberValues_of_same _ valuesEqual, any_isNull_of_same valuesEqual]
  case call =>
    intro name args others pairs aggregates
    have written : texts setting aggregates args = texts setting aggregates others := by
      induction pairs with
      | nil => rfl
      | cons pair _ induction => rw [texts, texts, pair.2 aggregates, induction]
    simp only [fragment, written]
  case case =>
    intro branches others otherwise other pairs rest aggregates
    have written : branchTexts setting aggregates branches =
        branchTexts setting aggregates others := by
      clear rest
      induction pairs with
      | nil => rfl
      | cons pair _ induction =>
          rw [branchTexts, branchTexts, pair.1.2 aggregates, pair.2.2 aggregates, induction]
    cases rest with
    | none => simp only [fragment, written]
    | some pair => simp only [fragment, written, pair.2 aggregates]
  case cast =>
    intro arg other type _ written aggregates
    simp only [fragment, written aggregates]
  case aggregate =>
    intro name arg other distinct rest aggregates
    cases rest with
    | none => rfl
    | some pair => simp only [fragment, pair.2 false]

end Written

/-! ## Replacing columns -/

/-- Equal expressions stay equal when each column is replaced by what equals itself. -/
theorem mapColumns_of_same {reach : Reach} {replace : ColumnRef → Expr} {left right : Expr}
    (equal : left.same right)
    (reflexive : ∀ ref ∈ left.refs reach, (replace ref).same (replace ref)) :
    (left.mapColumns reach replace).same (right.mapColumns reach replace) := by
  refine inductionOnSame (motive := fun left right =>
      (∀ ref ∈ left.refs reach, (replace ref).same (replace ref)) →
        (left.mapColumns reach replace).same (right.mapColumns reach replace))
    ?column ?literal ?unary ?binary ?member ?call ?case ?cast ?aggregate equal reflexive
  case column =>
    intro ref reflexive
    exact reflexive ref (List.mem_singleton.mpr rfl)
  case literal =>
    intro constant other equal _
    exact equal
  case unary =>
    intro op arg other _ mapped reflexive
    simp [mapColumns, same, mapped reflexive]
  case binary =>
    intro op first second otherFirst otherSecond firstMapped secondMapped reflexive
    rw [refs, List.forall_mem_append] at reflexive
    simp [mapColumns, same, firstMapped.2 reflexive.1, secondMapped.2 reflexive.2]
  case member =>
    intro arg other values others negated _ mapped valuesEqual reflexive
    simp [mapColumns, same, mapped reflexive, sameLiterals_iff_forall₂.mpr valuesEqual]
  case call =>
    intro name args others pairs reflexive
    simp only [refs_call, List.mem_flatMap] at reflexive
    have all : sameList (args.map (mapColumns reach replace))
        (others.map (mapColumns reach replace)) := by
      rw [sameList_iff_forall₂, List.forall₂_map_left_iff, List.forall₂_map_right_iff]
      have inArgs : ∀ arg ∈ args, ∀ ref ∈ arg.refs reach, (replace ref).same (replace ref) :=
        fun arg member ref found => reflexive ref ⟨arg, member, found⟩
      refine ((List.forall₂_and_left _ _).mpr ⟨inArgs, pairs⟩).imp ?_
      rintro left right ⟨reflexive, _, mapped⟩
      exact mapped reflexive
    simp [same, all]
  case case =>
    intro branches others otherwise other pairs rest reflexive
    simp only [refs_case, List.mem_append, List.mem_flatMap, Option.mem_toList] at reflexive
    rw [mapColumns_case, mapColumns_case]
    refine same_case_iff.mpr ⟨sameBranches_iff_forall₂.mpr ?_, ?_⟩
    · rw [List.forall₂_map_left_iff, List.forall₂_map_right_iff]
      have inBranches : ∀ branch ∈ branches,
          (∀ ref ∈ branch.1.refs reach, (replace ref).same (replace ref)) ∧
            ∀ ref ∈ branch.2.refs reach, (replace ref).same (replace ref) := by
        intro branch member
        constructor
        · exact fun ref found => reflexive ref (.inl ⟨branch, member, .inl found⟩)
        · exact fun ref found => reflexive ref (.inl ⟨branch, member, .inr found⟩)
      refine ((List.forall₂_and_left _ _).mpr ⟨inBranches, pairs⟩).imp ?_
      rintro left right ⟨reflexive, ⟨_, condition⟩, _, result⟩
      exact ⟨condition reflexive.1, result reflexive.2⟩
    · cases rest with
      | none => exact .none
      | some pair => exact .some (pair.2 fun ref found => reflexive ref (.inr ⟨_, rfl, found⟩))
  case cast =>
    intro arg other type _ mapped reflexive
    simp [mapColumns, same, mapped reflexive]
  case aggregate =>
    intro name arg other distinct rest reflexive
    cases rest with
    | none => simp [mapColumns, same]
    | some pair =>
        cases reach with
        | outsideAggregates => simp [mapColumns, same, pair.1]
        | everywhere => simp [mapColumns, same, pair.2 reflexive]

/-- Equality is symmetric, transitive and reflexive up to not-a-number, and equal expressions have
one text or error, one type, and equal results of replacing their columns. -/
theorem same_interchangeable :
    (∀ left right : Expr, left.same right → right.same left) ∧
      (∀ left right third : Expr, left.same right → right.same third → left.same third) ∧
      (∀ expr : Expr, expr.same expr ↔ expr.HasNoNaN) ∧
      ∀ left right : Expr, left.same right →
        (∀ setting aggregates, left.sql setting aggregates = right.sql setting aggregates) ∧
        (∀ dialect columnType, left.type? dialect columnType = right.type? dialect columnType) ∧
        ∀ reach replace, (∀ ref ∈ left.refs reach, (replace ref).HasNoNaN) →
          (left.mapColumns reach replace).same (right.mapColumns reach replace) := by
  refine ⟨fun _ _ => same_symm, fun _ _ _ => same_trans, fun _ => same_self_iff, ?_⟩
  intro left right equal
  refine ⟨?_, fun dialect columnType => type?_of_same dialect columnType equal, ?_⟩
  · intro setting aggregates
    rw [sql, sql, fragment_of_same setting aggregates equal]
  · intro reach replace defined
    exact mapColumns_of_same equal fun ref member => same_self_iff.mpr (defined ref member)

/-- The quotient of a column and a zero of either sign. -/
def byZero (negative : Bool) : Expr :=
  .binary (.arithmetic .div) (.named "a") (.literal { value := .number (.ofCode negative 0) })

theorem same_interchangeable_byZero :
    (byZero false).same (byZero true) = true ∧
      (∀ setting aggregates,
        (byZero false).sql setting aggregates = (byZero true).sql setting aggregates) ∧
      ((byZero false).mapColumns .everywhere fun _ => .named "b").same
        ((byZero true).mapColumns .everywhere fun _ => .named "b") = true := by
  have equal : (byZero false).same (byZero true) = true := by decide +kernel
  have laws := same_interchangeable.2.2.2 _ _ equal
  refine ⟨equal, laws.1, laws.2.2 _ _ ?_⟩
  intro ref _
  exact same_self_iff.mp (by decide)

end Expr

end SqlPlan
