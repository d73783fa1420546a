import SqlPlan.Proofs.Reading.Leaf
import SqlPlan.Proofs.Reading.Truth

/-!
# Membership and equality

A membership test and the equations with its values are texts in which the
operand has its places.  With one word in these places they are read, and whatever
the word and the constants stand for, the operand is among the values exactly as
far as it equals one of them: a NULL among the values, a NULL operand and an empty
list included.
-/

namespace SqlPlan

/-! ## Texts with places for an operand -/

/-- Text in pieces; where there is none, the operand stands. -/
abbrev Form := List (Option String)

namespace Form

def fill (operand : String) : Form → String
  | [] => ""
  | piece :: rest => piece.getD operand ++ fill operand rest

end Form

namespace Expr

/-- The text of a constant that can be written. -/
def constantText (dialect : Dialect) (value : Literal) : String :=
  (literalText dialect value).toOption.getD ""

theorem constantText_eq {dialect : Dialect} {value : Literal} {text : String}
    (spelled : literalText dialect value = .ok text) : constantText dialect value = text := by
  rw [constantText, spelled]
  rfl

/-- The values of a list that are not null. -/
def present (values : List Literal) : List Literal := values.filter fun value => !value.isNull

theorem present_cons (value : Literal) (values : List Literal) :
    present (value :: values) =
      if value.isNull then present values else value :: present values := by
  cases null : value.isNull <;> simp [present, null]

def nullTestForm (isNull : Bool) : Form :=
  [none, some (if isNull then " IS NULL" else " IS NOT NULL")]

/-- The form of a membership test. -/
def memberForm (dialect : Dialect) (values : List Literal) (negated : Bool) : Form :=
  let texts := (present values).map (constantText dialect)
  let hasNull := values.any Literal.isNull
  if texts.isEmpty then
    if hasNull then nullTestForm (!negated) else [some (dialect.truthText negated)]
  else
    let list : Form := [none, some ((if negated then " NOT IN (" else " IN (") ++
      ", ".intercalate texts ++ ")")]
    if hasNull then
      some "(" :: list ++ some (if negated then " AND " else " OR ") :: nullTestForm (!negated) ++
        [some ")"]
    else
      list

theorem fill_memberForm (dialect : Dialect) (operand : String) (values : List Literal)
    (negated : Bool) :
    (memberForm dialect values negated).fill operand =
      memberText dialect operand ((present values).map (constantText dialect))
        (values.any Literal.isNull) negated := by
  simp only [memberForm, memberText]
  generalize (present values).map (constantText dialect) = texts
  generalize values.any Literal.isNull = hasNull
  cases texts.isEmpty <;> cases hasNull <;>
    simp [Form.fill, nullTestForm, nullTest, parenthesized, String.append_assoc]

/-- The form of an equation with a constant. -/
def equalForm (dialect : Dialect) (value : Literal) : Form :=
  if value.isNull then nullTestForm true
  else [none, some (" " ++ ComparisonOp.equal.symbol ++ " " ++ constantText dialect value)]

theorem operandText_comparison (op : ComparisonOp) (operand : Expr) (text : String) :
    operandText (.comparison op) false operand text = testOperand operand text := by
  cases operand with
  | binary inner left right =>
      rcases inner with inner | inner | inner
      · cases inner <;> rfl
      · rfl
      · rfl
  | _ => rfl

variable {setting : Setting} {aggregates : Bool}

/-- Whatever is tested, its text stands in the places of the form. -/
theorem sql_member {arg : Expr} {argText : String} {values : List Literal}
    (written : arg.sql setting aggregates = .ok argText)
    (spelled : ∀ value ∈ values, ∃ text, literalText setting.dialect value = .ok text)
    (negated : Bool) :
    (Expr.member arg values negated).sql setting aggregates =
      .ok ((memberForm setting.dialect values negated).fill (testOperand arg argText)) := by
  have listed : memberValues setting.dialect values =
      .ok ((present values).map (constantText setting.dialect)) := by
    refine mapM_eq_ok.mpr (List.forall₂_map_right_iff.mpr (List.forall₂_same.mpr ?_))
    intro value member
    obtain ⟨text, valueWritten⟩ := spelled value (List.mem_of_mem_filter member)
    rw [constantText_eq valueWritten, valueWritten]
  obtain ⟨fragment, argWritten, same⟩ := bind_eq_ok.mp written
  cases same
  rw [fill_memberForm, Expr.sql, Expr.fragment, argWritten, listed]
  rfl

theorem sql_equal {arg : Expr} {argText text : String} {value : Literal}
    (compared : arg.isNullLiteral = false) (written : arg.sql setting aggregates = .ok argText)
    (spelled : literalText setting.dialect value = .ok text) :
    (Expr.binary (.comparison .equal) arg (.literal value)).sql setting aggregates =
      .ok ((equalForm setting.dialect value).fill (testOperand arg argText)) := by
  obtain ⟨fragment, argWritten, same⟩ := bind_eq_ok.mp written
  cases same
  rw [Expr.sql, Expr.fragment, equalForm]
  have argPresent : ¬ arg.isNullLiteral = true := by simp [compared]
  cases null : value.isNull with
  | true =>
      rw [if_pos ⟨.inl rfl, null⟩, if_neg argPresent, argWritten]
      exact congrArg Except.ok (by simp [Form.fill, nullTestForm, nullTest])
  | false =>
      have valuePresent : ¬ (Expr.literal value).isNullLiteral = true := by
        simp [isNullLiteral, null]
      have valueWritten : (Expr.literal value).fragment setting aggregates = .ok { text } := by
        rw [Expr.fragment, spelled]
        rfl
      rw [if_neg fun both => valuePresent both.2, if_neg fun both => argPresent both.2, argWritten,
        valueWritten]
      change Except.ok (operandText (.comparison .equal) false arg fragment.text ++ " " ++
        ComparisonOp.equal.symbol ++ " " ++ text) = _
      rw [operandText_comparison]
      simp [Form.fill, constantText_eq spelled, String.append_assoc]

end Expr

/-! ## The truth of a test -/

/-- The truth values are two different words or numbers. -/
structure Dialect.SpellsTruth (dialect : Dialect) : Prop where
  isQuote : IsNameQuote dialect.quote
  leaf : ∀ grammar truth, Scans grammar dialect.quote (dialect.truthText truth).toList
    [.leaf (dialect.truthText truth)]
  different : dialect.trueText ≠ dialect.falseText

theorem Dialect.spellsTruth_of_known {dialect : Dialect}
    (known : dialect ∈ Registry.builtin.dialects) : dialect.SpellsTruth := by
  have regular := regular_of_known known
  refine ⟨regular.isQuote, regular.scans_truth, ?_⟩
  have different : ∀ other ∈ Registry.builtin.dialects, other.trueText ≠ other.falseText := by
    decide
  exact different dialect known

namespace Assignment

variable {Value : Type} {dialect : Dialect} (assignment : Assignment Value)

/-- The truth of a text once it is read. -/
def textTruth? (grammar : Grammar) (dialect : Dialect) (text : String) : Option Truth :=
  (Tree.read? grammar dialect.quote text).bind (assignment.truth? dialect)

theorem textTruth?_eq {grammar : Grammar} {text : String} {tree : Tree} {edges : Edges}
    (operand : Operand grammar dialect.quote text tree edges) (front : 0 < edges.front)
    (back : 0 < edges.back) :
    assignment.textTruth? grammar dialect text = assignment.truth? dialect tree := by
  obtain ⟨read, reads, similar⟩ := operand.read?_eq front back
  rw [textTruth?, reads, Option.bind_some, assignment.truth?_congr dialect similar]

/-- Whether an operand is among values, a NULL among them or not. -/
def among (arg : Tree) (values : List Tree) (hasNull : Bool) : Truth :=
  (Truth.any (values.map (assignment.equal arg))).or
    (if hasNull then assignment.isNull arg else .no)

theorem truth?_memberTree (spells : dialect.SpellsTruth) (arg : Tree) (values : List Tree)
    (hasNull negated : Bool) :
    assignment.truth? dialect (Expr.memberTree dialect arg values hasNull negated) =
      some (if negated then (assignment.among arg values hasNull).not
        else assignment.among arg values hasNull) := by
  have isFalse : assignment.truth? dialect (.leaf dialect.falseText) = some .no := by
    simp [truth?, spells.different.symm]
  have isTrue : assignment.truth? dialect (.leaf dialect.trueText) = some .yes := by
    simp [truth?]
  unfold Expr.memberTree among
  cases values with
  | nil =>
      cases hasNull with
      | true => simp [truth?, Truth.any, Truth.or]
      | false => cases negated <;> simp [Dialect.truthText, isFalse, isTrue, Truth.any, Truth.not]
  | cons value values =>
      cases hasNull with
      | true => cases negated <;> simp [truth?, Truth.and_eq]
      | false => simp [truth?]

/-- A NULL among the values counts once, wherever and however often it stands. -/
theorem any_eq_among (arg : Tree) (tree : Literal → Tree) (values : List Literal) :
    Truth.any (values.map fun value =>
        if value.isNull then assignment.isNull arg else assignment.equal arg (tree value)) =
      assignment.among arg ((Expr.present values).map tree) (values.any Literal.isNull) := by
  induction values with
  | nil => rfl
  | cons value values induction =>
      rw [List.map_cons, Truth.any, List.foldr_cons]
      refine (congrArg _ induction).trans ?_
      cases null : value.isNull with
      | true =>
          have once (test others : Truth) (again : Bool) :
              test.or (others.or (if again then test else .no)) = others.or test := by
            cases test <;> cases others <;> cases again <;> rfl
          rw [if_pos rfl, Expr.present_cons, null, if_pos rfl, List.any_cons, null, Bool.true_or,
            among, among, if_pos rfl]
          exact once _ _ _
      | false => simp [among, Expr.present_cons, null, Truth.any, Truth.or_assoc]

end Assignment

/-! ## Reading a test -/

/-- What the text of a constant is read as. -/
def constantTree (grammar : Grammar) (dialect : Dialect) (value : Literal) : Tree :=
  (Tree.read? grammar dialect.quote (Expr.constantText dialect value)).getD (.leaf "NULL")

namespace Dialect.SpellsTruth

variable {dialect : Dialect} (spells : dialect.SpellsTruth)
include spells

theorem scans_constant {value : Literal} {text : String}
    (spelled : Expr.literalText dialect value = .ok text) (grammar : Grammar) :
    ∃ tokens, Scans grammar dialect.quote text.toList tokens ∧
      Spans grammar tokens (constantTree grammar dialect value) .leaf := by
  have operand : ∃ tokens tree, Scans grammar dialect.quote text.toList tokens ∧
      Spans grammar tokens tree .leaf := by
    by_cases isTruth : ∃ truth, value.value = .boolean truth
    · obtain ⟨truth, isTruth⟩ := isTruth
      rw [Expr.literalText, isTruth] at spelled
      cases spelled
      exact ⟨_, _, spells.leaf grammar truth, .leaf grammar _ .leaf⟩
    · exact (Atomic.literal spells.isQuote (fun truth isBoolean => isTruth ⟨truth, isBoolean⟩)
        spelled grammar).operand
  obtain ⟨tokens, tree, scans, spans⟩ := operand
  have read : constantTree grammar dialect value = tree := by
    simp [constantTree, Expr.constantText_eq spelled, Tree.read?, scans.tokens?_eq,
      spans.tree?_eq (by decide) (by decide)]
  exact ⟨tokens, scans, read ▸ spans⟩

variable {Value : Type} (assignment : Assignment Value) (grammar : Grammar) {unit : String}
  (isUnit : isFreeWord unit = true)
include isUnit

theorem textTruth?_equalForm {value : Literal} {text : String}
    (spelled : Expr.literalText dialect value = .ok text) :
    assignment.textTruth? grammar dialect ((Expr.equalForm dialect value).fill unit) =
      some (if value.isNull then assignment.isNull (.leaf unit)
        else assignment.equal (.leaf unit) (constantTree grammar dialect value)) := by
  have operand : Operand grammar dialect.quote unit (.leaf unit) .closed :=
    .leaf (scans_freeWord isUnit grammar _) _
  rw [Expr.equalForm]
  cases value.isNull with
  | true =>
      have test := operand.nullTest spells.isQuote (by decide) true Grammar.closedStrength
      have read := assignment.textTruth?_eq test (by decide) (by decide)
      simpa [Expr.nullTestForm, Form.fill, Expr.nullTest, Assignment.truth?] using read
  | false =>
      obtain ⟨tokens, scans, spans⟩ := spells.scans_constant spelled grammar
      have constant : Operand grammar dialect.quote text (constantTree grammar dialect value)
          .leaf := ⟨tokens, _, scans, spans, .refl _⟩
      have equation := operand.infixed spells.isQuote (.comparison .equal) constant
        (by decide : 6 ≤ 10) (by decide : 5 < 10)
      have read := assignment.textTruth?_eq equation (by decide : 0 < 5) (by decide : 0 < 5)
      simpa [Form.fill, Expr.constantText_eq spelled, String.append_assoc, BinaryOp.symbol,
        Assignment.truth?] using read

theorem textTruth?_memberForm {values : List Literal}
    (spelled : ∀ value ∈ values, ∃ text, Expr.literalText dialect value = .ok text)
    (negated : Bool) :
    let among := assignment.among (.leaf unit)
      ((Expr.present values).map (constantTree grammar dialect)) (values.any Literal.isNull)
    assignment.textTruth? grammar dialect ((Expr.memberForm dialect values negated).fill unit) =
      some (if negated then among.not else among) := by
  intro among
  have operand : Operand grammar dialect.quote unit (.leaf unit) .closed :=
    .leaf (scans_freeWord isUnit grammar _) _
  have constants : List.Forall₂ (fun text value => ∃ tokens,
      Scans grammar dialect.quote text.toList tokens ∧ Token.tree? grammar tokens = some value)
      ((Expr.present values).map (Expr.constantText dialect))
      ((Expr.present values).map (constantTree grammar dialect)) := by
    rw [List.forall₂_map_left_iff, List.forall₂_map_right_iff, List.forall₂_same]
    intro value member
    obtain ⟨text, written⟩ := spelled value (List.mem_of_mem_filter member)
    obtain ⟨tokens, scans, spans⟩ := spells.scans_constant written grammar
    rw [Expr.constantText_eq written]
    exact ⟨tokens, scans, spans.tree?_eq (by decide) (by decide)⟩
  have tight : values.any Literal.isNull = true → Grammar.testStrength ≤ Edges.closed.back :=
    fun _ => by decide
  have test := Expr.operand_memberText spells.isQuote (spells.leaf grammar) operand .closed
    constants tight (fun _ => by decide) negated
  have positive : ∀ isEmpty hasNull : Bool, 0 < (Expr.memberEdges isEmpty hasNull .closed).front ∧
      0 < (Expr.memberEdges isEmpty hasNull .closed).back := by decide
  rw [Expr.fill_memberForm, assignment.textTruth?_eq test (positive _ _).1 (positive _ _).2,
    assignment.truth?_memberTree spells]

end Dialect.SpellsTruth

/-- With a word for the argument, a membership test is true, false or unknown as the
equations with its values make it, and a denied one is the negation of that. -/
theorem Expr.member_truth_eq_any_equal {setting : Expr.Setting} {values : List Literal}
    (spells : setting.dialect.SpellsTruth)
    (spelled : ∀ value ∈ values, ∃ text, literalText setting.dialect value = .ok text) :
    ∃ (isIn notIn : Form) (equals : Literal → Form),
      (∀ (arg : Expr) (aggregates : Bool) (argText : String), arg.isNullLiteral = false →
        arg.sql setting aggregates = .ok argText →
          (Expr.member arg values false).sql setting aggregates =
            .ok (isIn.fill (testOperand arg argText)) ∧
          (Expr.member arg values true).sql setting aggregates =
            .ok (notIn.fill (testOperand arg argText)) ∧
          ∀ value ∈ values,
            (Expr.binary (.comparison .equal) arg (.literal value)).sql setting aggregates =
              .ok ((equals value).fill (testOperand arg argText))) ∧
      ∀ (grammar : Grammar) (Value : Type) (assignment : Assignment Value) (unit : String),
        Dialect.isFreeWord unit = true →
          ∃ truths,
            List.Forall₂ (fun value truth => assignment.textTruth? grammar setting.dialect
              ((equals value).fill unit) = some truth) values truths ∧
            assignment.textTruth? grammar setting.dialect (isIn.fill unit) =
              some (Truth.any truths) ∧
            assignment.textTruth? grammar setting.dialect (notIn.fill unit) =
              some (Truth.any truths).not := by
  refine ⟨memberForm setting.dialect values false, memberForm setting.dialect values true,
    equalForm setting.dialect, ?_, ?_⟩
  · intro arg aggregates argText compared written
    refine ⟨sql_member written spelled false, sql_member written spelled true, ?_⟩
    intro value member
    obtain ⟨text, valueWritten⟩ := spelled value member
    exact sql_equal compared written valueWritten
  · intro grammar Value assignment unit isUnit
    refine ⟨values.map fun value => if value.isNull then assignment.isNull (.leaf unit)
      else assignment.equal (.leaf unit) (constantTree grammar setting.dialect value), ?_, ?_, ?_⟩
    · refine List.forall₂_map_right_iff.mpr (List.forall₂_same.mpr fun value member => ?_)
      obtain ⟨text, written⟩ := spelled value member
      exact spells.textTruth?_equalForm assignment grammar isUnit written
    · rw [assignment.any_eq_among]
      exact spells.textTruth?_memberForm assignment grammar isUnit spelled false
    · rw [assignment.any_eq_among]
      exact spells.textTruth?_memberForm assignment grammar isUnit spelled true

/-- Every word stands for itself. -/
def Assignment.ofWords : Assignment String where
  value tree := tree.leafText?.filter (· != "NULL")
  equals left right := left == right
  null := rfl
  regrouped similar := by rw [similar.leafText?_eq]

theorem Expr.member_truth_eq_any_equal_withNull :
    let values : List Literal := [{ value := .null }, { value := .text "x" }, { value := .null }]
    ∃ (isIn notIn : Form) (truths : List Truth),
      (Expr.member (.named "a") values false).sql { dialect := .postgres } false =
        .ok (isIn.fill "a") ∧
      (Expr.member (.named "a") values true).sql { dialect := .postgres } false =
        .ok (notIn.fill "a") ∧
      Assignment.ofWords.textTruth? ⟨true⟩ .postgres (isIn.fill "a") = some (Truth.any truths) ∧
      Assignment.ofWords.textTruth? ⟨true⟩ .postgres (notIn.fill "a") =
        some (Truth.any truths).not := by
  intro values
  have spelled : ∀ value ∈ values, ∃ text, literalText .postgres value = .ok text := by
    intro value member
    rcases List.mem_cons.mp member with rfl | member
    · exact ⟨_, rfl⟩
    rcases List.mem_cons.mp member with rfl | member
    · exact ⟨_, rfl⟩
    · cases List.mem_singleton.mp member
      exact ⟨_, rfl⟩
  have known : Dialect.postgres ∈ Registry.builtin.dialects := by simp [Registry.builtin]
  obtain ⟨isIn, notIn, equals, texts, truth⟩ :=
    @Expr.member_truth_eq_any_equal { dialect := .postgres } values
      (Dialect.spellsTruth_of_known known) spelled
  have plain : Dialect.postgres.identifier "a" = "a" := if_neg (by decide +kernel)
  have written : (Expr.named "a").sql { dialect := .postgres } false = .ok "a" := by
    rw [Expr.named, Expr.sql, Expr.fragment]
    simp only [Dialect.qualified, plain]
    rfl
  obtain ⟨isInText, notInText, _⟩ := texts (.named "a") false "a" rfl written
  obtain ⟨truths, _, isInTruth, notInTruth⟩ :=
    truth ⟨true⟩ String Assignment.ofWords "a" (by decide)
  exact ⟨isIn, notIn, truths, isInText, notInText, isInTruth, notInTruth⟩

end SqlPlan
