import SqlPlan.Expr.Sql
import SqlPlan.Proofs.Success

/-!
# What the text of an expression is put together from

One statement for each form of an expression: which parts were written, and what
was made of their texts.
-/

namespace SqlPlan.Expr

variable {setting : Setting} {aggregates : Bool} {fragment : Fragment}

-- The equations of `fragment` take long to derive: they are derived here, before every proof
-- below asks for them at once.
attribute [local simp] Expr.fragment

/-- The operands of a comparison that are null, where it becomes a null test. -/
inductive NullSide where
  | neither
  | left
  | right
  | both

def nullSide (op : ComparisonOp) (left right : Expr) : NullSide :=
  if op = .equal ∨ op = .notEqual then
    if right.isNullLiteral then if left.isNullLiteral then .both else .right
    else if left.isNullLiteral then .left else .neither
  else .neither

/-- Whether an operand of an operator is parenthesised. -/
def isEnclosed (op : BinaryOp) (onRight : Bool) : Expr → Bool
  | .binary inner _ _ =>
      inner.strength != 6 &&
        (inner.strength < op.strength || (onRight && inner.strength == op.strength) ||
          (op.strength == 3 && inner.strength == 3))
  | _ => false

theorem operandText_eq (op : BinaryOp) (onRight : Bool) (operand : Expr) (text : String) :
    operandText op onRight operand text =
      if operand.isEnclosed op onRight then parenthesized text else text := by
  cases operand with
  | binary inner left right =>
      by_cases logical : inner.strength = 6 <;> simp [operandText, isEnclosed, logical, or_assoc]
  | _ => rfl

/-! ## Operators -/

theorem fragment_unary {op : UnaryOp} {arg : Expr}
    (written : (Expr.unary op arg).fragment setting aggregates = .ok fragment) :
    ∃ argFragment, arg.fragment setting aggregates = .ok argFragment ∧
      fragment = { text := unaryText op arg argFragment.text } := by
  rw [Expr.fragment] at written
  obtain ⟨argFragment, argWritten, written⟩ := bind_eq_ok.mp written
  cases written
  exact ⟨argFragment, argWritten, rfl⟩

theorem fragment_logical {op : LogicalOp} {left right : Expr}
    (written : (Expr.binary (.logical op) left right).fragment setting aggregates =
      .ok fragment) :
    ∃ leftFragment rightFragment, left.fragment setting aggregates = .ok leftFragment ∧
      right.fragment setting aggregates = .ok rightFragment ∧
      fragment =
        { text := parenthesized ((" " ++ op.symbol ++ " ").intercalate
            (leftFragment.operands op ++ rightFragment.operands op))
          group := some (op, leftFragment.operands op ++ rightFragment.operands op) } := by
  rw [Expr.fragment] at written
  obtain ⟨leftFragment, leftWritten, written⟩ := bind_eq_ok.mp written
  obtain ⟨rightFragment, rightWritten, written⟩ := bind_eq_ok.mp written
  cases written
  exact ⟨leftFragment, rightFragment, leftWritten, rightWritten, rfl⟩

theorem fragment_comparison {op : ComparisonOp} {left right : Expr}
    (written : (Expr.binary (.comparison op) left right).fragment setting aggregates =
      .ok fragment) :
    (nullSide op left right = .both ∧
        fragment = { text := setting.dialect.truthText (op == .equal) }) ∨
      (nullSide op left right = .right ∧ ∃ leftFragment,
        left.fragment setting aggregates = .ok leftFragment ∧
        fragment = { text := nullTest (op == .equal) (testOperand left leftFragment.text) }) ∨
      (nullSide op left right = .left ∧ ∃ rightFragment,
        right.fragment setting aggregates = .ok rightFragment ∧
        fragment = { text := nullTest (op == .equal) (testOperand right rightFragment.text) }) ∨
      (nullSide op left right = .neither ∧ ∃ leftFragment rightFragment,
        left.fragment setting aggregates = .ok leftFragment ∧
        right.fragment setting aggregates = .ok rightFragment ∧
        fragment =
          { text :=
              operandText (.comparison op) false left leftFragment.text ++ " " ++ op.symbol ++
                " " ++ operandText (.comparison op) true right rightFragment.text }) := by
  rw [Expr.fragment] at written
  unfold nullSide
  split at written
  case isTrue nullRight =>
    rw [if_pos nullRight.1, if_pos nullRight.2]
    split at written
    case isTrue nullLeft =>
      cases written
      exact .inl ⟨if_pos nullLeft, rfl⟩
    case isFalse nullLeft =>
      obtain ⟨leftFragment, leftWritten, written⟩ := bind_eq_ok.mp written
      cases written
      exact .inr (.inl ⟨if_neg nullLeft, leftFragment, leftWritten, rfl⟩)
  case isFalse noRight =>
    split at written
    case isTrue nullLeft =>
      have right : right.isNullLiteral ≠ true := fun isNull => noRight ⟨nullLeft.1, isNull⟩
      rw [if_pos nullLeft.1, if_neg right, if_pos nullLeft.2]
      obtain ⟨rightFragment, rightWritten, written⟩ := bind_eq_ok.mp written
      cases written
      exact .inr (.inr (.inl ⟨rfl, rightFragment, rightWritten, rfl⟩))
    case isFalse noLeft =>
      obtain ⟨leftFragment, leftWritten, written⟩ := bind_eq_ok.mp written
      obtain ⟨rightFragment, rightWritten, written⟩ := bind_eq_ok.mp written
      cases written
      refine .inr (.inr (.inr ⟨?_, leftFragment, rightFragment, leftWritten, rightWritten, rfl⟩))
      by_cases tests : op = .equal ∨ op = .notEqual
      · rw [if_pos tests, if_neg fun isNull => noRight ⟨tests, isNull⟩,
          if_neg fun isNull => noLeft ⟨tests, isNull⟩]
      · rw [if_neg tests]

theorem fragment_arithmetic {op : ArithmeticOp} {left right : Expr}
    (written : (Expr.binary (.arithmetic op) left right).fragment setting aggregates =
      .ok fragment) :
    ∃ leftFragment rightFragment, left.fragment setting aggregates = .ok leftFragment ∧
      right.fragment setting aggregates = .ok rightFragment ∧
      fragment =
        { text :=
            (if castsDivision setting op left right then
              castText setting.dialect leftFragment.text .float
            else operandText (.arithmetic op) false left leftFragment.text) ++ " " ++ op.symbol ++
              " " ++ operandText (.arithmetic op) true right rightFragment.text } := by
  rw [Expr.fragment] at written
  obtain ⟨leftFragment, leftWritten, written⟩ := bind_eq_ok.mp written
  obtain ⟨rightFragment, rightWritten, written⟩ := bind_eq_ok.mp written
  cases written
  exact ⟨leftFragment, rightFragment, leftWritten, rightWritten, rfl⟩

theorem fragment_member {arg : Expr} {values : List Literal} {negated : Bool}
    (written : (Expr.member arg values negated).fragment setting aggregates = .ok fragment) :
    ∃ argFragment texts, arg.fragment setting aggregates = .ok argFragment ∧
      memberValues setting.dialect values = .ok texts ∧
      fragment =
        { text := memberText setting.dialect (testOperand arg argFragment.text) texts
            (values.any Literal.isNull) negated } := by
  rw [Expr.fragment] at written
  obtain ⟨argFragment, argWritten, written⟩ := bind_eq_ok.mp written
  obtain ⟨texts, valuesWritten, written⟩ := bind_eq_ok.mp written
  cases written
  exact ⟨argFragment, texts, argWritten, valuesWritten, rfl⟩

theorem fragment_cast {arg : Expr} {type : DataType}
    (written : (Expr.cast arg type).fragment setting aggregates = .ok fragment) :
    ∃ argFragment, arg.fragment setting aggregates = .ok argFragment ∧
      fragment = { text := castText setting.dialect argFragment.text type } := by
  rw [Expr.fragment] at written
  obtain ⟨argFragment, argWritten, written⟩ := bind_eq_ok.mp written
  cases written
  exact ⟨argFragment, argWritten, rfl⟩

/-! ## Leaves -/

/-- An expression that is not put together with operators. -/
def isAtom : Expr → Bool
  | .unary _ _ | .binary _ _ _ | .member _ _ _ | .cast _ _ => false
  | _ => true

theorem fragment_literal {constant : Literal}
    (written : (Expr.literal constant).fragment setting aggregates = .ok fragment) :
    ∃ text, literalText setting.dialect constant = .ok text ∧ fragment = { text } := by
  rw [Expr.fragment] at written
  obtain ⟨text, textWritten, written⟩ := bind_eq_ok.mp written
  cases written
  exact ⟨text, textWritten, rfl⟩

theorem exists_of_mem_texts {args : List Expr} {texts : List String}
    (written : Expr.texts setting aggregates args = .ok texts) {text : String}
    (member : text ∈ texts) :
    ∃ arg ∈ args, ∃ fragment, arg.fragment setting aggregates = .ok fragment ∧
      fragment.text = text := by
  induction args generalizing texts with
  | nil =>
      cases written
      cases member
  | cons arg args induction =>
      rw [Expr.texts] at written
      obtain ⟨fragment, argWritten, written⟩ := bind_eq_ok.mp written
      obtain ⟨rest, restWritten, written⟩ := bind_eq_ok.mp written
      cases written
      rcases List.mem_cons.mp member with rfl | later
      · exact ⟨arg, List.mem_cons_self, fragment, argWritten, rfl⟩
      · obtain ⟨other, otherMember, found⟩ := induction restWritten later
        exact ⟨other, List.mem_cons_of_mem _ otherMember, found⟩

theorem lookupFunction_eq_ok {dialect : Dialect} {name : String} {entry : FunctionEntry}
    (found : lookupFunction dialect aggregates name = .ok entry) :
    dialect.functions.get? (Text.lower name) = some entry ∧
      (entry.isAggregate = true → aggregates = true) := by
  rw [lookupFunction] at found
  split at found
  · cases found
  · rename_i other mapped
    split at found
    · cases found
    · rename_i inside
      cases found
      exact ⟨mapped, by simpa using inside⟩

theorem fragment_call {name : String} {args : List Expr}
    (written : (Expr.call name args).fragment setting aggregates = .ok fragment) :
    ∃ entry texts text, lookupFunction setting.dialect aggregates name = .ok entry ∧
      (∀ argText ∈ texts, ∃ arg ∈ args, ∃ argFragment,
        arg.fragment setting aggregates = .ok argFragment ∧ argFragment.text = argText) ∧
      fillTemplate setting.dialect name entry.template texts = .ok text ∧
      fragment = { text } := by
  rw [Expr.fragment] at written
  obtain ⟨entry, found, written⟩ := bind_eq_ok.mp written
  obtain ⟨texts, textsWritten, written⟩ := bind_eq_ok.mp written
  obtain ⟨text, filled, written⟩ := bind_eq_ok.mp written
  cases written
  exact ⟨entry, texts, text, found, fun _ member => exists_of_mem_texts textsWritten member,
    filled, rfl⟩

theorem exists_of_mem_branchTexts {branches : List (Expr × Expr)} {texts : List String}
    (written : branchTexts setting aggregates branches = .ok texts) {text : String}
    (member : text ∈ texts) :
    ∃ branch ∈ branches, ∃ condition result,
      branch.1.fragment setting aggregates = .ok condition ∧
      branch.2.fragment setting aggregates = .ok result ∧
      text = "WHEN " ++ condition.text ++ " THEN " ++ result.text := by
  induction branches generalizing texts with
  | nil =>
      cases written
      cases member
  | cons branch branches induction =>
      obtain ⟨condition, result⟩ := branch
      rw [branchTexts] at written
      obtain ⟨conditionFragment, conditionWritten, written⟩ := bind_eq_ok.mp written
      obtain ⟨resultFragment, resultWritten, written⟩ := bind_eq_ok.mp written
      obtain ⟨rest, restWritten, written⟩ := bind_eq_ok.mp written
      cases written
      rcases List.mem_cons.mp member with rfl | later
      · exact ⟨_, List.mem_cons_self, conditionFragment, resultFragment, conditionWritten,
          resultWritten, rfl⟩
      · obtain ⟨other, otherMember, found⟩ := induction restWritten later
        exact ⟨other, List.mem_cons_of_mem _ otherMember, found⟩

theorem fragment_case {branches : List (Expr × Expr)} {otherwise : Option Expr}
    (written : (Expr.case branches otherwise).fragment setting aggregates = .ok fragment) :
    ∃ texts, fragment = { text := " ".intercalate ("CASE" :: texts ++ ["END"]) } ∧
      ∀ text ∈ texts,
        (∃ branch ∈ branches, ∃ condition result,
          branch.1.fragment setting aggregates = .ok condition ∧
          branch.2.fragment setting aggregates = .ok result ∧
          text = "WHEN " ++ condition.text ++ " THEN " ++ result.text) ∨
        (∃ other ∈ otherwise, ∃ otherFragment,
          other.fragment setting aggregates = .ok otherFragment ∧
          text = "ELSE " ++ otherFragment.text) := by
  cases otherwise with
  | none =>
      rw [Expr.fragment] at written
      obtain ⟨texts, textsWritten, written⟩ := bind_eq_ok.mp written
      cases written
      exact ⟨texts, rfl, fun _ member => .inl (exists_of_mem_branchTexts textsWritten member)⟩
  | some other =>
      rw [Expr.fragment] at written
      obtain ⟨texts, textsWritten, written⟩ := bind_eq_ok.mp written
      obtain ⟨otherFragment, otherWritten, written⟩ := bind_eq_ok.mp written
      cases written
      refine ⟨texts ++ ["ELSE " ++ otherFragment.text], by simp, fun text member => ?_⟩
      rcases List.mem_append.mp member with branch | last
      · exact .inl (exists_of_mem_branchTexts textsWritten branch)
      · exact .inr ⟨other, rfl, otherFragment, otherWritten, List.mem_singleton.mp last⟩

/-- An aggregate that is not native is one of the functions of the dialect. -/
theorem aggregateText_foreign {dialect : Dialect} {name text : String} {arg : Option String}
    {distinct : Bool} (foreign : NativeAggregate.ofName? name = none)
    (written : aggregateText dialect name arg distinct = .ok text) :
    ∃ entry, dialect.functions.get? (Text.lower name) = some entry ∧ entry.isAggregate = true ∧
      distinct = false ∧ fillTemplate dialect name entry.template arg.toList = .ok text := by
  simp only [aggregateText, foreign] at written
  obtain ⟨entry, found, written⟩ := bind_eq_ok.mp written
  split at written
  · cases written
  · rename_i isAggregate
    split at written
    · cases written
    · rename_i every
      exact ⟨entry, (lookupFunction_eq_ok found).1, by simpa using isAggregate,
        Bool.eq_false_iff.mpr every, written⟩

theorem fragment_aggregate {name : String} {arg : Option Expr} {distinct : Bool}
    (written : (Expr.aggregate name arg distinct).fragment setting aggregates = .ok fragment) :
    ∃ argText text,
      (∀ inner ∈ argText, ∃ expr ∈ arg, ∃ argFragment,
        expr.fragment setting false = .ok argFragment ∧ argFragment.text = inner) ∧
      aggregateText setting.dialect name argText distinct = .ok text ∧ fragment = { text } := by
  cases arg with
  | none =>
      rw [Expr.fragment] at written
      split at written
      · obtain ⟨text, textWritten, written⟩ := bind_eq_ok.mp written
        cases written
        exact ⟨none, text, by simp, textWritten, rfl⟩
      · cases written
  | some arg =>
      rw [Expr.fragment] at written
      split at written
      · obtain ⟨argFragment, argWritten, written⟩ := bind_eq_ok.mp written
        obtain ⟨text, textWritten, written⟩ := bind_eq_ok.mp written
        cases written
        refine ⟨some argFragment.text, text, ?_, textWritten, rfl⟩
        rintro _ ⟨⟩
        exact ⟨arg, rfl, argFragment, argWritten, rfl⟩
      · cases written

/-- Only AND and OR make groups. -/
theorem group_of_isAtom {expr : Expr} (atom : expr.isAtom = true)
    (written : expr.fragment setting aggregates = .ok fragment) : fragment.group = none := by
  cases expr with
  | column ref => cases written; rfl
  | literal constant =>
      obtain ⟨_, _, rfl⟩ := fragment_literal written
      rfl
  | call name args =>
      obtain ⟨_, _, _, _, _, _, rfl⟩ := fragment_call written
      rfl
  | case branches otherwise =>
      obtain ⟨_, rfl, _⟩ := fragment_case written
      rfl
  | aggregate name arg distinct =>
      obtain ⟨_, _, _, _, rfl⟩ := fragment_aggregate written
      rfl
  | unary => cases atom
  | binary => cases atom
  | member => cases atom
  | cast => cases atom

end SqlPlan.Expr
