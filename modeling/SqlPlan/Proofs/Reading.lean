import SqlPlan.Proofs.Reading.Leaf
import SqlPlan.Proofs.Reading.Plain

/-!
# The text of an expression is read as its tree

Main statements: text that puts columns and constants together with operators is
read back as the tree of the expression, and so is the text of any expression in
which no operand of an operator is a predicate that binds less tightly.
-/

namespace SqlPlan.Expr

variable {grammar : Grammar} {setting : Setting} {aggregates : Bool}

/-- The text of an expression by itself. -/
def ownText (setting : Setting) (aggregates : Bool) (expr : Expr) : String :=
  (expr.sql setting aggregates).toOption.getD ""

/-! ## Operators -/

/-- Columns and constants other than null under signs, casts and binary operators. -/
def isOperators : Expr → Bool
  | .column _ => true
  | .literal constant => !constant.isNull
  | .unary .negate arg | .cast arg _ => arg.isOperators
  | .binary _ left right => left.isOperators && right.isOperators
  | _ => false

theorem isPlain_of_isOperators {expr : Expr} (operators : expr.isOperators = true) :
    expr.isPlain = true ∧ expr.isPredicate = false := by
  induction expr with
  | binary op left right leftInduction rightInduction =>
      simp only [isOperators, Bool.and_eq_true] at operators
      have leftPlain := leftInduction operators.1
      have rightPlain := rightInduction operators.2
      refine ⟨?_, rfl⟩
      cases op <;> simp [isPlain, leftPlain, rightPlain]
  | unary op arg induction =>
      cases op with
      | negate => exact ⟨(induction operators).1, rfl⟩
      | _ => cases operators
  | cast arg type induction => exact ⟨(induction operators).1, rfl⟩
  | column ref => exact ⟨rfl, rfl⟩
  | literal constant => exact ⟨rfl, rfl⟩
  | _ => cases operators

theorem ownText_eq {expr : Expr} {fragment : Fragment}
    (written : expr.fragment setting aggregates = .ok fragment) :
    expr.ownText setting aggregates = fragment.text := by
  rw [ownText, sql, written]
  rfl

theorem column_or_literal_of_mem_leaves {expr atom : Expr} (operators : expr.isOperators = true)
    (member : atom ∈ expr.leaves) :
    (∃ ref, atom = .column ref) ∨ ∃ constant, atom = .literal constant := by
  induction expr with
  | binary op left right leftInduction rightInduction =>
      simp only [isOperators, Bool.and_eq_true] at operators
      rcases List.mem_append.mp member with onLeft | onRight
      · exact leftInduction operators.1 onLeft
      · exact rightInduction operators.2 onRight
  | unary op arg induction =>
      cases op with
      | negate => exact induction operators member
      | _ => cases operators
  | column ref => exact .inl ⟨ref, List.mem_singleton.mp member⟩
  | literal constant => exact .inr ⟨constant, List.mem_singleton.mp member⟩
  | cast arg type induction => exact induction operators member
  | _ => cases operators

/-- The text of operators over columns and over constants that are one token each
is read as the tree of the expression. -/
theorem read?_of_isOperators {expr : Expr} {text : String}
    (known : setting.dialect ∈ Registry.builtin.dialects)
    (written : expr.sql setting aggregates = .ok text)
    (operators : expr.isOperators = true)
    (constants : ∀ constant, Expr.literal constant ∈ expr.leaves →
      Text.tokens? ⟨false⟩ setting.dialect.quote
          ((Expr.literal constant).ownText setting aggregates).toList =
        some [.leaf ((Expr.literal constant).ownText setting aggregates)]) :
    ∃ read, Tree.read? ⟨false⟩ setting.dialect.quote text = some read ∧
      read.Similar
        (expr.tree setting fun atom => .leaf (atom.ownText setting aggregates)) := by
  have regular := Dialect.regular_of_known known
  obtain ⟨fragment, fragmentWritten, text⟩ := bind_eq_ok.mp written
  cases text
  have leaves : ∀ atom ∈ expr.leaves, ReadsAs ⟨false⟩ setting aggregates
      (fun atom => .leaf (atom.ownText setting aggregates)) atom := by
    intro atom member fragment atomWritten _
    beta_reduce
    rw [ownText_eq atomWritten]
    refine ⟨_, ?_, .leaf _ _ _⟩
    rcases column_or_literal_of_mem_leaves operators member with ⟨ref, rfl⟩ | ⟨constant, rfl⟩
    · cases atomWritten
      exact regular.scans_qualified _ ref.table ref.name
    · have token := constants constant member
      rw [ownText_eq atomWritten] at token
      exact .of_tokens? token
  have reads := reads_fragment regular fragmentWritten leaves
    (isGrouped_of_isPlain (isPlain_of_isOperators operators).1 ⟨false⟩ setting)
  have proper := edges_proper ⟨false⟩ setting expr
  exact reads.operand.read?_eq proper.front_pos proper.back_pos

/-- Integer columns in a dialect that drops the fraction of their quotients. -/
def integerColumns : Setting where
  dialect := .ansi
  columnType _ := some .integer

/-- A difference on the right, a comparison of a comparison, and a chain that is
grouped to the right. -/
def nestedOperators : Expr :=
  let difference := Expr.binary (.arithmetic .sub) (.named "a")
    (.binary (.arithmetic .sub) (.named "b") (.literal { value := .number (.finite false 1024 0) }))
  let quotient := Expr.binary (.arithmetic .div) difference (.unary .negate (.named "c"))
  .binary (.logical .or)
    (.binary (.comparison .equal) (.binary (.comparison .less) quotient (.named "c"))
      (.literal { value := .boolean true }))
    (.binary (.logical .or)
      (.binary (.comparison .like) (.cast (.named "a") .string)
        (.literal { value := .text "it's" }))
      (.binary (.comparison .notEqual) (.named "a") (.named "c")))

theorem read?_of_isOperators_nestedOperators :
    nestedOperators.sql integerColumns false =
        .ok ("((CAST(\"a\" - (\"b\" - 2) AS DOUBLE PRECISION) / -\"c\" < \"c\") = TRUE OR " ++
          "CAST(\"a\" AS VARCHAR) LIKE 'it''s' OR \"a\" <> \"c\")") ∧
      ∃ read, Tree.read? ⟨false⟩ integerColumns.dialect.quote
          ("((CAST(\"a\" - (\"b\" - 2) AS DOUBLE PRECISION) / -\"c\" < \"c\") = TRUE OR " ++
            "CAST(\"a\" AS VARCHAR) LIKE 'it''s' OR \"a\" <> \"c\")") = some read ∧
        read.Similar (nestedOperators.tree integerColumns
          fun atom => .leaf (atom.ownText integerColumns false)) := by
  have written : nestedOperators.sql integerColumns false =
      .ok ("((CAST(\"a\" - (\"b\" - 2) AS DOUBLE PRECISION) / -\"c\" < \"c\") = TRUE OR " ++
        "CAST(\"a\" AS VARCHAR) LIKE 'it''s' OR \"a\" <> \"c\")") :=
    eq_ok_of_toOption (by decide +kernel)
  have known : integerColumns.dialect ∈ Registry.builtin.dialects := by
    simp [integerColumns, Registry.builtin]
  have operators : nestedOperators.isOperators = true := by decide +kernel
  refine ⟨written, read?_of_isOperators known written operators ?_⟩
  intro constant member
  have texts : constant ∈ [({ value := .number (.finite false 1024 0) } : Literal),
      { value := .boolean true }, { value := .text "it's" }] := by
    simpa [nestedOperators, leaves] using member
  simp only [List.mem_cons, List.not_mem_nil, or_false] at texts
  have two : (Expr.literal { value := .number (.finite false 1024 0) }).ownText integerColumns
      false = "2" := by decide +kernel
  rcases texts with rfl | rfl | rfl
  · rw [two]
    rfl
  · rfl
  · rfl

/-! ## Predicates as operands -/

/-- What the text of an expression says by itself. -/
def ownTree (grammar : Grammar) (setting : Setting) (aggregates : Bool) (expr : Expr) : Tree :=
  (Tree.read? grammar setting.dialect.quote (expr.ownText setting aggregates)).getD
    (.leaf (expr.ownText setting aggregates))

theorem isAtom_of_mem_leaves {expr atom : Expr} (member : atom ∈ expr.leaves) :
    atom.isAtom = true := by
  induction expr with
  | unary op arg induction => exact induction member
  | binary op left right leftInduction rightInduction =>
      rcases List.mem_append.mp member with onLeft | onRight
      · exact leftInduction onLeft
      · exact rightInduction onRight
  | member arg values negated induction =>
      rcases List.mem_append.mp member with inside | among
      · exact induction inside
      · obtain ⟨value, _, rfl⟩ := List.mem_map.mp among
        rfl
  | cast arg type induction => exact induction member
  | _ =>
      rw [List.mem_singleton.mp member]
      rfl

/-- Among operators a leaf says what it says by itself. -/
theorem readsAs_ownTree (readable : setting.dialect.Readable) (grammar : Grammar) {atom : Expr}
    (isAtom : atom.isAtom = true) :
    ReadsAs grammar setting aggregates (ownTree grammar setting aggregates) atom := by
  intro fragment written own
  have atomic := (whole_fragment readable grammar written).atomic isAtom own
  obtain ⟨tokens, tree, scans, spans⟩ := atomic.operand
  have read : Tree.read? grammar setting.dialect.quote fragment.text = some tree := by
    simp [Tree.read?, scans.tokens?_eq, spans.tree?_eq (by decide) (by decide)]
  have own : ownTree grammar setting aggregates atom = tree := by
    rw [ownTree, ownText_eq written, read]
    rfl
  rw [own]
  exact ⟨tokens, scans, spans⟩

/-- Where every operand is bound tightly enough, the text of an expression is read
as its tree over what its leaves say by themselves. -/
theorem read?_of_isGrouped {expr : Expr} {text : String}
    (known : setting.dialect ∈ Registry.builtin.dialects)
    (written : expr.sql setting aggregates = .ok text)
    (grouped : expr.isGrouped ⟨true⟩ setting = true) :
    ∃ read, Tree.read? ⟨true⟩ setting.dialect.quote text = some read ∧
      read.Similar (expr.tree setting (ownTree ⟨true⟩ setting aggregates)) := by
  have readable := Dialect.readable_of_known known
  obtain ⟨fragment, fragmentWritten, text⟩ := bind_eq_ok.mp written
  cases text
  have leaves : ∀ atom ∈ expr.leaves, ReadsAs ⟨true⟩ setting aggregates
      (ownTree ⟨true⟩ setting aggregates) atom :=
    fun atom member => readsAs_ownTree readable ⟨true⟩ (isAtom_of_mem_leaves member)
  have reads := reads_fragment readable.toRegular fragmentWritten leaves grouped
  have proper := edges_proper ⟨true⟩ setting expr
  exact reads.operand.read?_eq proper.front_pos proper.back_pos

/-- Tests on the left and a negation on the right of comparisons. -/
def comparedTests : Expr :=
  .binary (.logical .and)
    (.unary .not
      (.binary (.comparison .equal) (.unary .isNull (.named "a")) (.unary .not (.named "b"))))
    (.binary (.comparison .less)
      (.member (.named "a") [{ value := .number (.finite false 1024 0) }] false)
      (.call "coalesce" [.named "a", .named "b"]))

theorem read?_of_isGrouped_comparedTests :
    comparedTests.sql integerColumns false =
        .ok ("(NOT(\"a\" IS NULL = NOT(\"b\")) AND " ++
          "\"a\" IN (2) < COALESCE(\"a\", \"b\"))") ∧
      ∃ read, Tree.read? ⟨true⟩ integerColumns.dialect.quote
          ("(NOT(\"a\" IS NULL = NOT(\"b\")) AND " ++
            "\"a\" IN (2) < COALESCE(\"a\", \"b\"))") = some read ∧
        read.Similar (comparedTests.tree integerColumns (ownTree ⟨true⟩ integerColumns false)) := by
  have written : comparedTests.sql integerColumns false =
      .ok ("(NOT(\"a\" IS NULL = NOT(\"b\")) AND " ++
        "\"a\" IN (2) < COALESCE(\"a\", \"b\"))") :=
    eq_ok_of_toOption (by decide +kernel)
  have known : integerColumns.dialect ∈ Registry.builtin.dialects := by
    simp [integerColumns, Registry.builtin]
  have grouped : comparedTests.isGrouped ⟨true⟩ integerColumns = true := by decide +kernel
  exact ⟨written, read?_of_isGrouped known written grouped⟩

/-- A negation on the left of a comparison is read as that of the comparison. -/
theorem read?_comparison_not (readable : setting.dialect.Readable) {op : ComparisonOp}
    {left right : Expr} {text : String}
    (written : (Expr.binary (.comparison op) (.unary .not left) right).sql setting aggregates =
      .ok text)
    (notNull : right.isNullLiteral = false) (leftGrouped : left.isGrouped grammar setting = true)
    (rightGrouped : right.isGrouped grammar setting = true)
    (front : grammar.strength (.comparison op) <
      (right.operandEdges grammar setting (.comparison op) true).front) :
    ∃ read, Tree.read? grammar setting.dialect.quote text = some read ∧
      read.Similar (.not (.binary (.comparison op)
        (left.tree setting (ownTree grammar setting aggregates))
        (right.tree setting (ownTree grammar setting aggregates)))) := by
  have regular := readable.toRegular
  have notNullLeft : (Expr.unary .not left).isNullLiteral = false := rfl
  have neither : nullSide op (.unary .not left) right = .neither := by
    simp [nullSide, notNull, notNullLeft]
  have leaves (expr : Expr) : ∀ atom ∈ expr.leaves, ReadsAs grammar setting aggregates
      (ownTree grammar setting aggregates) atom :=
    fun atom member => readsAs_ownTree readable grammar (isAtom_of_mem_leaves member)
  obtain ⟨fragment, fragmentWritten, same⟩ := bind_eq_ok.mp written
  cases same
  have forms := fragment_comparison fragmentWritten
  simp only [neither, reduceCtorEq, false_and, true_and, false_or] at forms
  obtain ⟨notFragment, rightFragment, notWritten, rightWritten, rfl⟩ := forms
  obtain ⟨leftFragment, leftWritten, rfl⟩ := fragment_unary notWritten
  have negation := (reads_fragment regular leftWritten (leaves left) leftGrouped).negation regular
  have rightReads := reads_fragment regular rightWritten (leaves right) rightGrouped
  have tight : Grammar.notStrength < grammar.strength (.comparison op) :=
    Nat.lt_of_lt_of_le (by decide) (grammar.testStrength_le_comparison op)
  have limit := limit_lt_negateStrength grammar (.comparison op)
  have operand := negation.infixed regular.isQuote (.comparison op)
    (rightReads.enclosed regular (.comparison op) true) front tight
    (Nat.le_trans (Nat.le_of_lt limit) (by decide)) Grammar.closedStrength
  have proper := (edges_proper grammar setting right).enclosedIf
    (right.isEnclosed (.comparison op) true)
  exact operand.read?_eq (by decide : 0 < Grammar.closedStrength)
    (Nat.lt_min.mpr ⟨by decide, Nat.lt_min.mpr ⟨grammar.strength_pos _, proper.back_pos⟩⟩)

/-- A comparison with a negation on its left. -/
def negatedLeft : Expr :=
  .binary (.comparison .equal) (.unary .not (.named "a")) (.named "b")

theorem read?_negatedLeft_not_similar :
    negatedLeft.sql integerColumns false = .ok "NOT(\"a\") = \"b\"" ∧
      ¬ ∃ read, Tree.read? ⟨true⟩ integerColumns.dialect.quote "NOT(\"a\") = \"b\"" = some read ∧
        read.Similar (negatedLeft.tree integerColumns (ownTree ⟨true⟩ integerColumns false)) := by
  have written : negatedLeft.sql integerColumns false = .ok "NOT(\"a\") = \"b\"" :=
    eq_ok_of_toOption (by decide +kernel)
  have known : integerColumns.dialect ∈ Registry.builtin.dialects := by
    simp [integerColumns, Registry.builtin]
  have front : Grammar.strength ⟨true⟩ (.comparison .equal) <
      ((Expr.named "b").operandEdges ⟨true⟩ integerColumns (.comparison .equal) true).front := by
    decide
  obtain ⟨negated, reads, similar⟩ := read?_comparison_not
    (Dialect.readable_of_known known) written rfl rfl rfl front
  refine ⟨written, ?_⟩
  rintro ⟨read, same, asTree⟩
  rw [reads] at same
  cases same
  have moved := (similar.symm.trans asTree).isNot_eq
  cases moved

end SqlPlan.Expr
