import SqlPlan.Proofs.Expr.Fragment
import SqlPlan.Proofs.Expr.Traversal

/-!
# What is left of an expression without its texts

Two expressions have one outline where they differ in the contents of text
constants only.  Nothing that decides how an expression is written, parentheses
and casts included, looks behind the outline.
-/

namespace SqlPlan

/-- The constant with its contents erased where it is a text. -/
def Literal.outline (constant : Literal) : Literal :=
  match constant.value with
  | .text _ => { constant with value := .text "" }
  | _ => constant

/-- The contents of a text constant. -/
def Literal.text? (constant : Literal) : Option String :=
  match constant.value with
  | .text text => some text
  | _ => none

theorem Literal.exists_text_of_outline {constant own : Literal} {content : String}
    (same : own.outline = constant.outline) (isText : constant.value = .text content) :
    ∃ ownContent, own.value = .text ownContent := by
  obtain ⟨value, mark⟩ := constant
  obtain ⟨ownValue, ownMark⟩ := own
  cases isText
  cases ownValue with
  | text ownContent => exact ⟨ownContent, rfl⟩
  | _ => cases same

theorem Literal.eq_of_outline {constant own : Literal} (same : own.outline = constant.outline)
    (noText : ∀ content, constant.value ≠ .text content) : own = constant := by
  obtain ⟨value, mark⟩ := constant
  obtain ⟨ownValue, ownMark⟩ := own
  cases value with
  | text content => exact absurd rfl (noText content)
  | _ => cases ownValue <;> first | exact same | cases same

namespace Expr

mutual

/-- The expression with the contents of all text constants erased. -/
def outline : Expr → Expr
  | .column ref => .column ref
  | .literal constant => .literal constant.outline
  | .unary op arg => .unary op arg.outline
  | .binary op left right => .binary op left.outline right.outline
  | .member arg values negated => .member arg.outline (values.map Literal.outline) negated
  | .call name args => .call name (outlineList args)
  | .case branches none => .case (outlineBranches branches) none
  | .case branches (some otherwise) => .case (outlineBranches branches) (some otherwise.outline)
  | .cast arg type => .cast arg.outline type
  | .aggregate name none distinct => .aggregate name none distinct
  | .aggregate name (some arg) distinct => .aggregate name (some arg.outline) distinct

def outlineList : List Expr → List Expr
  | [] => []
  | expr :: rest => expr.outline :: outlineList rest

def outlineBranches : List (Expr × Expr) → List (Expr × Expr)
  | [] => []
  | (condition, result) :: rest => (condition.outline, result.outline) :: outlineBranches rest

end

theorem outlineList_eq_map (args : List Expr) : outlineList args = args.map outline := by
  induction args with
  | nil => rfl
  | cons arg args induction => rw [outlineList, induction, List.map_cons]

theorem outlineBranches_eq_map (branches : List (Expr × Expr)) :
    outlineBranches branches = branches.map fun branch => (branch.1.outline, branch.2.outline) := by
  induction branches with
  | nil => rfl
  | cons branch branches induction => rw [outlineBranches, induction, List.map_cons]

theorem outline_call (name : String) (args : List Expr) :
    (Expr.call name args).outline = .call name (args.map outline) := by
  rw [outline, outlineList_eq_map]

theorem outline_case (branches : List (Expr × Expr)) (otherwise : Option Expr) :
    (Expr.case branches otherwise).outline =
      .case (branches.map fun branch => (branch.1.outline, branch.2.outline))
        (otherwise.map outline) := by
  cases otherwise <;> rw [outline, outlineBranches_eq_map] <;> rfl

theorem outline_aggregate (name : String) (arg : Option Expr) (distinct : Bool) :
    (Expr.aggregate name arg distinct).outline = .aggregate name (arg.map outline) distinct := by
  cases arg <;> rfl

/-! ## The texts that are written -/

end Expr

/-- What the slots of a template bring in, in the order in which they are filled. -/
def Template.spread {α : Type} (args : List (List α)) (pieces : List Piece) : List α :=
  pieces.flatMap fun piece =>
    match piece with
    | .text _ => []
    | .slot index => args[index]?.getD []
    | .all => args.flatten

/-- What a call of the function brings in; nothing where there is no such function. -/
def Dialect.spread {α : Type} (dialect : Dialect) (name : String) (args : List (List α)) :
    List α :=
  (dialect.function? name).elim [] fun entry =>
    Template.spread args (Template.pieces entry.template)

/-- What a membership test brings in: its operand stands before the list of the
values that are not null, and in the null test beside it. -/
def Literal.spread (arg : List String) (values : List Literal) : List String :=
  (if values.all Literal.isNull then []
    else arg ++ values.flatMap fun value => value.text?.toList) ++
    if values.any Literal.isNull then arg else []

namespace Expr

mutual

/-- The contents of the text constants, in the order in which they are written. -/
def shownTexts (dialect : Dialect) : Expr → List String
  | .column _ => []
  | .literal constant => constant.text?.toList
  | .unary _ arg => arg.shownTexts dialect
  | .binary _ left right => left.shownTexts dialect ++ right.shownTexts dialect
  | .member arg values _ => Literal.spread (arg.shownTexts dialect) values
  | .call name args => dialect.spread name (shownTextsList dialect args)
  | .case branches none => shownTextsBranches dialect branches
  | .case branches (some otherwise) =>
      shownTextsBranches dialect branches ++ otherwise.shownTexts dialect
  | .cast arg _ => arg.shownTexts dialect
  | .aggregate _ none _ => []
  | .aggregate name (some arg) _ =>
      match NativeAggregate.ofName? name with
      | some _ => arg.shownTexts dialect
      | none => dialect.spread name [arg.shownTexts dialect]

def shownTextsList (dialect : Dialect) : List Expr → List (List String)
  | [] => []
  | expr :: rest => expr.shownTexts dialect :: shownTextsList dialect rest

def shownTextsBranches (dialect : Dialect) : List (Expr × Expr) → List String
  | [] => []
  | (condition, result) :: rest =>
      condition.shownTexts dialect ++ result.shownTexts dialect ++ shownTextsBranches dialect rest

end

theorem shownTexts_of_isNullLiteral (dialect : Dialect) {expr : Expr}
    (isNull : expr.isNullLiteral = true) : expr.shownTexts dialect = [] := by
  cases expr with
  | literal constant =>
      have isNull : constant.value = .null := eq_of_beq isNull
      rw [shownTexts, Literal.text?, isNull]
      rfl
  | _ => cases isNull

/-! ## Expressions of a given outline -/

section Forms

variable {expr : Expr}

theorem eq_column_of_outline {ref : ColumnRef} (same : expr.outline = .column ref) :
    expr = .column ref := by
  cases expr with
  | column other => exact same
  | case branches otherwise => cases otherwise <;> cases same
  | aggregate name arg distinct => cases arg <;> cases same
  | _ => cases same

theorem exists_literal {constant : Literal}
    (same : expr.outline = .literal constant) :
    ∃ own, expr = .literal own ∧ own.outline = constant := by
  cases expr with
  | literal own =>
      cases same
      exact ⟨own, rfl, rfl⟩
  | case branches otherwise => cases otherwise <;> cases same
  | aggregate name arg distinct => cases arg <;> cases same
  | _ => cases same

theorem exists_unary {op : UnaryOp} {arg : Expr}
    (same : expr.outline = .unary op arg) :
    ∃ own, expr = .unary op own ∧ own.outline = arg := by
  cases expr with
  | unary op own =>
      cases same
      exact ⟨own, rfl, rfl⟩
  | case branches otherwise => cases otherwise <;> cases same
  | aggregate name arg distinct => cases arg <;> cases same
  | _ => cases same

theorem exists_binary {op : BinaryOp} {left right : Expr}
    (same : expr.outline = .binary op left right) :
    ∃ ownLeft ownRight, expr = .binary op ownLeft ownRight ∧ ownLeft.outline = left ∧
      ownRight.outline = right := by
  cases expr with
  | binary op ownLeft ownRight =>
      cases same
      exact ⟨ownLeft, ownRight, rfl, rfl, rfl⟩
  | case branches otherwise => cases otherwise <;> cases same
  | aggregate name arg distinct => cases arg <;> cases same
  | _ => cases same

theorem exists_member {arg : Expr} {values : List Literal} {negated : Bool}
    (same : expr.outline = .member arg values negated) :
    ∃ own ownValues, expr = .member own ownValues negated ∧ own.outline = arg ∧
      ownValues.map Literal.outline = values := by
  cases expr with
  | member own ownValues negated =>
      cases same
      exact ⟨own, ownValues, rfl, rfl, rfl⟩
  | case branches otherwise => cases otherwise <;> cases same
  | aggregate name arg distinct => cases arg <;> cases same
  | _ => cases same

theorem exists_call {name : String} {args : List Expr}
    (same : expr.outline = .call name args) :
    ∃ own, expr = .call name own ∧ own.map outline = args := by
  cases expr with
  | call name own =>
      rw [outline_call] at same
      cases same
      exact ⟨own, rfl, rfl⟩
  | case branches otherwise => cases otherwise <;> cases same
  | aggregate name arg distinct => cases arg <;> cases same
  | _ => cases same

theorem exists_case {branches : List (Expr × Expr)} {otherwise : Option Expr}
    (same : expr.outline = .case branches otherwise) :
    ∃ own ownOtherwise, expr = .case own ownOtherwise ∧
      (own.map fun branch => (branch.1.outline, branch.2.outline)) = branches ∧
      ownOtherwise.map outline = otherwise := by
  cases expr with
  | case own ownOtherwise =>
      rw [outline_case] at same
      cases same
      exact ⟨own, ownOtherwise, rfl, rfl, rfl⟩
  | aggregate name arg distinct => cases arg <;> cases same
  | _ => cases same

theorem exists_cast {arg : Expr} {type : DataType}
    (same : expr.outline = .cast arg type) :
    ∃ own, expr = .cast own type ∧ own.outline = arg := by
  cases expr with
  | cast own type =>
      cases same
      exact ⟨own, rfl, rfl⟩
  | case branches otherwise => cases otherwise <;> cases same
  | aggregate name arg distinct => cases arg <;> cases same
  | _ => cases same

theorem exists_aggregate {name : String} {arg : Option Expr} {distinct : Bool}
    (same : expr.outline = .aggregate name arg distinct) :
    ∃ own, expr = .aggregate name own distinct ∧ own.map outline = arg := by
  cases expr with
  | aggregate name own distinct =>
      rw [outline_aggregate] at same
      cases same
      exact ⟨own, rfl, rfl⟩
  | case branches otherwise => cases otherwise <;> cases same
  | _ => cases same

end Forms

/-! ## What the outline decides -/

theorem isLogical_outline (expr : Expr) : expr.outline.isLogical = expr.isLogical := by
  cases expr with
  | binary op left right => cases op <;> rfl
  | case branches otherwise => cases otherwise <;> rfl
  | aggregate name arg distinct => cases arg <;> rfl
  | _ => rfl

theorem isComparison_outline (expr : Expr) : expr.outline.isComparison = expr.isComparison := by
  cases expr with
  | binary op left right => cases op <;> rfl
  | case branches otherwise => cases otherwise <;> rfl
  | aggregate name arg distinct => cases arg <;> rfl
  | _ => rfl

theorem isEnclosed_outline (op : BinaryOp) (onRight : Bool) (expr : Expr) :
    expr.outline.isEnclosed op onRight = expr.isEnclosed op onRight := by
  cases expr with
  | case branches otherwise => cases otherwise <;> rfl
  | aggregate name arg distinct => cases arg <;> rfl
  | _ => rfl

theorem isNull_outline (constant : Literal) : constant.outline.isNull = constant.isNull := by
  obtain ⟨value, mark⟩ := constant
  cases value <;> rfl

theorem isNullLiteral_outline (expr : Expr) :
    expr.outline.isNullLiteral = expr.isNullLiteral := by
  cases expr with
  | literal constant => exact isNull_outline constant
  | case branches otherwise => cases otherwise <;> rfl
  | aggregate name arg distinct => cases arg <;> rfl
  | _ => rfl

theorem type?_outline (dialect : Dialect) (columnType : ColumnRef → Option DataType)
    (expr : Expr) : expr.outline.type? dialect columnType = expr.type? dialect columnType := by
  induction expr with
  | column ref => rfl
  | literal constant =>
      obtain ⟨value, mark⟩ := constant
      cases value <;> rfl
  | unary op arg induction =>
      cases op with
      | negate => exact induction
      | _ => rfl
  | binary op left right leftInduction rightInduction =>
      cases op with
      | arithmetic op => cases op <;> simp only [outline, type?, leftInduction, rightInduction]
      | _ => rfl
  | member arg values negated _ => rfl
  | call name args induction =>
      rw [outline_call]
      cases args with
      | nil => rfl
      | cons first rest =>
          rw [List.map_cons, type?, type?, induction first List.mem_cons_self]
  | case branches otherwise induction _ =>
      rw [outline_case]
      cases branches with
      | nil => rw [List.map_nil, type?, type?]
      | cons branch rest =>
          rw [List.map_cons, type?, (induction branch List.mem_cons_self).2]
          obtain ⟨condition, result⟩ := branch
          rw [type?]
  | cast arg type _ => rfl
  | aggregate name arg distinct induction =>
      rw [outline_aggregate]
      cases arg with
      | none => rfl
      | some arg => rw [Option.map_some, type?, type?, induction arg rfl]

section SameOutline

variable {expr other left right otherLeft otherRight : Expr}

theorem map_isNull_of_outline {values others : List Literal}
    (same : values.map Literal.outline = others.map Literal.outline) :
    values.map Literal.isNull = others.map Literal.isNull := by
  have erased (values : List Literal) :
      (values.map Literal.outline).map Literal.isNull = values.map Literal.isNull := by
    rw [List.map_map]
    exact List.map_congr_left fun value _ => isNull_outline value
  rw [← erased values, same, erased]

theorem all_isNull_of_outline {values others : List Literal}
    (same : values.map Literal.outline = others.map Literal.outline) :
    values.all Literal.isNull = others.all Literal.isNull := by
  simpa using congrArg (fun nulls => nulls.all id) (map_isNull_of_outline same)

theorem any_isNull_of_outline {values others : List Literal}
    (same : values.map Literal.outline = others.map Literal.outline) :
    values.any Literal.isNull = others.any Literal.isNull := by
  simpa using congrArg (fun nulls => nulls.any id) (map_isNull_of_outline same)

theorem testOperand_of_outline (same : expr.outline = other.outline) (text : String) :
    testOperand expr text = testOperand other text := by
  rw [testOperand, testOperand, ← isComparison_outline expr, same, isComparison_outline]

theorem operandText_of_outline (same : expr.outline = other.outline) (op : BinaryOp)
    (onRight : Bool) (text : String) :
    operandText op onRight expr text = operandText op onRight other text := by
  rw [operandText_eq, operandText_eq, ← isEnclosed_outline op onRight expr, same,
    isEnclosed_outline]

theorem unaryText_of_outline (same : expr.outline = other.outline) (op : UnaryOp)
    (text : String) : unaryText op expr text = unaryText op other text := by
  cases op with
  | not => rw [unaryText, unaryText, ← isLogical_outline expr, same, isLogical_outline]
  | negate =>
      have plain : ∀ expr : Expr, unaryText .negate expr text =
          if expr.outline.column?.isSome then "-" ++ text else "-(" ++ text ++ ")" := by
        intro expr
        cases expr with
        | case branches otherwise => cases otherwise <;> rfl
        | aggregate name arg distinct => cases arg <;> rfl
        | _ => rfl
      rw [plain, plain, same]
  | isNull => exact congrArg (nullTest true) (testOperand_of_outline same text)
  | isNotNull => exact congrArg (nullTest false) (testOperand_of_outline same text)

theorem castsDivision_of_outline (setting : Setting) (op : ArithmeticOp)
    (sameLeft : left.outline = otherLeft.outline)
    (sameRight : right.outline = otherRight.outline) :
    castsDivision setting op left right = castsDivision setting op otherLeft otherRight := by
  rw [castsDivision, castsDivision, ← type?_outline _ _ left, ← type?_outline _ _ right, sameLeft,
    sameRight, type?_outline, type?_outline]

end SameOutline

end Expr

end SqlPlan
