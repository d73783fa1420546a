import SqlPlan.Proofs.Refusing
import SqlPlan.Proofs.Stepping

/-!
# When steps nest

A step nests the statement before it only if it cannot join its clauses: the
statement is sealed or grouped, or an expression of the step reads a derived
output.  No step nests twice, since a statement around another derives nothing.
-/

namespace SqlPlan

/-! ## Reading derived outputs -/

namespace Clauses

variable {clauses : Clauses}

/-- Whether a reference goes by a visible name to an output that is not a bare column.  A
qualifier reaches the outputs only where it names the statement and no side of a join. -/
def readsDerived (clauses : Clauses) (ref : ColumnRef) : Bool :=
  (ref.table.all fun table => !clauses.scope.isJoined && clauses.qualifiers.contains table) &&
    (clauses.visibleOutputs.find? fun output => output.name == ref.name).any fun output =>
      output.expr.column?.isNone

theorem readsDerived_of_select_none (whole : clauses.select = none) (ref : ColumnRef) :
    clauses.readsDerived ref = false := by
  simp [readsDerived, visibleOutputs, outputs, whole]

/-- What the source has to answer is no output. -/
theorem isDerived_locateInSource (clauses : Clauses) (ref : ColumnRef) :
    (clauses.locateInSource ref).toOption.any Located.isDerived = false := by
  unfold locateInSource
  cases clauses.scope.resolve clauses.qualifiers ref <;> rfl

theorem isDerived_locateOutput (clauses : Clauses) (ref : ColumnRef) :
    (clauses.locateOutput ref).toOption.any Located.isDerived =
      (clauses.visibleOutputs.find? fun output => output.name == ref.name).any fun output =>
        output.expr.column?.isNone := by
  unfold locateOutput
  cases clauses.visibleOutputs.find? fun output => output.name == ref.name with
  | some output =>
      rw [Option.any_some]
      dsimp only
      split
      · rename_i column isColumn
        rw [isColumn]
        rfl
      · rename_i noColumn
        cases expr : output.expr with
        | column column => exact absurd expr (noColumn column)
        | _ => rfl
  | none =>
      dsimp only
      split
      · exact clauses.isDerived_locateInSource _
      · split <;> rfl

/-- A reference is derived only through an output that it names. -/
theorem isDerived_eq (clauses : Clauses) (ref : ColumnRef) :
    clauses.isDerived ref = clauses.readsDerived ref := by
  have located : clauses.isDerived ref = (clauses.locate ref).toOption.any Located.isDerived := by
    unfold isDerived
    cases clauses.locate ref <;> rfl
  rw [located]
  cases select : clauses.select with
  | none =>
      rw [readsDerived_of_select_none select, locate, select]
      exact clauses.isDerived_locateInSource ref
  | some items =>
      rw [locate, select, readsDerived]
      cases qualifier : ref.table with
      | none => exact clauses.isDerived_locateOutput ref
      | some table =>
          dsimp only
          rw [Option.all_some]
          cases clauses.scope.isJoined with
          | true => exact clauses.isDerived_locateInSource ref
          | false =>
              cases clauses.qualifiers.contains table with
              | true => exact clauses.isDerived_locateOutput ref
              | false => rfl

/-- The clauses of a statement as a subquery has them: the ordering may be gone, and hidden
outputs may be selected beside what the statement selects. -/
def NestedAs (clauses inner : Clauses) : Prop :=
  ∃ (hidden : List SelectOutput) (orderBy : List SortKey),
    (∀ output ∈ hidden, output.hidden = true) ∧ (orderBy = clauses.orderBy ∨ orderBy = []) ∧
      inner = { clauses with select := clauses.select.map (· ++ hidden.map .output), orderBy }

end Clauses

/-! ## The statement around -/

namespace Draft

variable {dialect : Dialect} {draft : Draft}

theorem nestedAs_inner (draft : Draft) : draft.statement.NestedAs draft.inner := by
  refine ⟨draft.hoistedKeys, if draft.statement.limit.isSome then draft.statement.orderBy else [],
    draft.hoistedKeys_hidden, ?_, ?_⟩
  · split
    · exact .inl rfl
    · exact .inr rfl
  · have whole := @hoistedKeys_of_select_none draft
    unfold inner Clauses.nested Clauses.expandedSelect
    cases select : draft.statement.select with
    | none => simp [whole select]
    | some items =>
        cases draft.hoistedKeys <;> simp

/-- A sealed statement is nested at once, and any other where something derived is read. -/
theorem settled_unsealed (draft : Draft) (refs : List ColumnRef) :
    (draft.unsealed dialect).settled dialect refs =
      if draft.statement.isSealed || refs.any draft.statement.readsDerived then draft.nest dialect
      else draft := by
  unfold unsealed
  cases draft.statement.isSealed with
  | true => exact draft.settled_nest refs
  | false =>
      rw [settled]
      simp only [funext draft.statement.isDerived_eq, Bool.false_or, Bool.false_eq_true, if_false]

end Draft

/-- A statement that reads from exactly this one, as its only subquery of a new level. -/
def Statement.Encloses (outer before : Statement) : Prop :=
  ∃ inner, before.NestedAs inner ∧ outer.source = .relation (.subquery before.source inner)

namespace Plan

/-- Whether the last step of a plan cannot join the clauses of the statement before it. -/
def needsNesting (before : Clauses) : Plan → Bool
  | .projected _ outputs _ => before.isSealed || (Output.refs outputs).any before.readsDerived
  | .filtered _ predicate => before.isSealed || predicate.columnRefs.any before.readsDerived
  | .sorted _ _ => before.isSealed
  | .grouped _ groupKeys aggregates =>
      before.isSealed || before.isGrouped ||
        (Expr.refsOf (groupKeys.map (·.expr) ++
          (aggregates.mapM (Draft.bindGroupKeys groupKeys)).toOption.getD [])).any
            before.readsDerived
  | .deduplicated _ => before.limit.isSome
  | _ => false

/-- The last step of a plan keeps the source of the statement before it.  Where that is a
table, naming the plan names it. -/
inductive KeepsSource (before result : Source) : Plan → Prop where
  | same {plan : Plan} (kept : result = before) : KeepsSource before result plan
  | named {input : Plan} {name : String} {ref : TableRef} {shownAs : Option String}
      (table : before = .relation (.table ref shownAs))
      (shown : result = .relation (.table ref (some name))) :
      KeepsSource before result (.aliased input name)

end Plan

/-- A step that keeps the source does not nest. -/
theorem Plan.KeepsSource.not_encloses {plan : Plan} {before result : Statement}
    (keeps : plan.KeepsSource before.source result.source) : ¬ result.Encloses before := by
  rintro ⟨inner, _, nested⟩
  cases keeps with
  | same kept =>
      have size := congrArg sizeOf (kept.symm.trans nested)
      rw [Source.relation.sizeOf_spec, Relation.subquery.sizeOf_spec] at size
      omega
  | named table shown => cases shown.symm.trans nested

namespace Draft

variable {dialect : Dialect} {draft result : Draft}

theorem source_project {outputs : List Output} {keep : Bool}
    (success : draft.project dialect outputs keep = .ok result) :
    result.statement.source =
      (if draft.statement.isSealed || (Output.refs outputs).any draft.statement.readsDerived then
        draft.nest dialect else draft).statement.source := by
  obtain ⟨_, _, success⟩ := bind_eq_ok.mp success
  obtain ⟨⟨current, exprs⟩, resolved, success⟩ := bind_eq_ok.mp success
  obtain ⟨_, rfl, _⟩ := resolve_eq_ok.mp resolved
  rw [Output.refs, ← settled_unsealed]
  cases keep with
  | true =>
      obtain ⟨items, _, success⟩ := bind_eq_ok.mp success
      cases pure_eq_ok.mp success
      rfl
  | false =>
      cases success
      rfl

theorem source_filter {predicate : Expr} (success : draft.filter dialect predicate = .ok result) :
    result.statement.source =
      (if draft.statement.isSealed || predicate.columnRefs.any draft.statement.readsDerived then
        draft.nest dialect else draft).statement.source := by
  obtain ⟨_, _, success⟩ := bind_eq_ok.mp success
  obtain ⟨⟨current, exprs⟩, resolved, success⟩ := bind_eq_ok.mp success
  obtain ⟨_, rfl, _⟩ := resolve_eq_ok.mp resolved
  cases pure_eq_ok.mp success
  have refs : Expr.refsOf [predicate] = predicate.columnRefs := List.flatMap_singleton _ _
  rw [← refs, ← settled_unsealed]

theorem source_sort {keys : List SortKey} (success : draft.sort dialect keys = .ok result) :
    result.statement.source =
      (if draft.statement.isSealed then draft.nest dialect else draft).statement.source := by
  obtain ⟨_, _, success⟩ := bind_eq_ok.mp success
  obtain ⟨orderBy, _, success⟩ := bind_eq_ok.mp success
  cases pure_eq_ok.mp success
  rfl

theorem source_aggregate {groupKeys aggregates : List Output}
    (success : draft.aggregate dialect groupKeys aggregates = .ok result) :
    result.statement.source =
      (if draft.statement.isSealed || draft.statement.isGrouped ||
          (Expr.refsOf (groupKeys.map (·.expr) ++
            (aggregates.mapM (bindGroupKeys groupKeys)).toOption.getD [])).any
              draft.statement.readsDerived then
        draft.nest dialect else draft).statement.source := by
  obtain ⟨_, _, success⟩ := bind_eq_ok.mp success
  obtain ⟨bound, boundOk, success⟩ := bind_eq_ok.mp success
  obtain ⟨⟨current, exprs⟩, resolved, success⟩ := bind_eq_ok.mp success
  obtain ⟨_, rfl, _⟩ := resolve_eq_ok.mp resolved
  cases pure_eq_ok.mp success
  rw [boundOk]
  cases draft.statement.isSealed || draft.statement.isGrouped with
  | true =>
      simp only [if_true, Bool.true_or]
      rw [settled_nest]
  | false =>
      simp only [Bool.false_eq_true, if_false, Bool.false_or, Except.toOption, Option.getD_some]
      rw [settled, funext draft.statement.isDerived_eq]

theorem source_distinct (dialect : Dialect) (draft : Draft) :
    (draft.distinct dialect).statement.source =
      (if draft.statement.limit.isSome then draft.nest dialect else draft).statement.source := by
  unfold distinct
  generalize (if draft.statement.limit.isSome then draft.nest dialect else draft) = current
  dsimp only
  split <;> rfl

end Draft

/-- A step goes on from the statement before it or from the one around that. -/
theorem Plan.source_of_step {dialect : Dialect} {used : Nat} {plan input : Plan}
    {before result : Draft} (isInput : plan.inputs = [input])
    (reached : input.draft dialect used = .ok before)
    (success : plan.draft dialect used = .ok result) :
    (plan.needsNesting before.statement.toClauses = true ∧
        result.statement.source = (before.nest dialect).statement.source) ∨
      (plan.needsNesting before.statement.toClauses = false ∧
        plan.KeepsSource before.statement.source result.statement.source) := by
  have joins {plan : Plan}
      (source : result.statement.source =
        (if plan.needsNesting before.statement.toClauses then before.nest dialect
          else before).statement.source) :
      (plan.needsNesting before.statement.toClauses = true ∧
          result.statement.source = (before.nest dialect).statement.source) ∨
        (plan.needsNesting before.statement.toClauses = false ∧
          plan.KeepsSource before.statement.source result.statement.source) := by
    cases needed : plan.needsNesting before.statement.toClauses with
    | true =>
        rw [needed] at source
        exact .inl ⟨rfl, source⟩
    | false =>
        rw [needed] at source
        exact .inr ⟨rfl, .same source⟩
  cases plan with
  | base table => cases isInput
  | joined left right kind on => cases isInput
  | projected input outputs keep =>
      cases isInput
      rw [Plan.draft, reached] at success
      exact joins (Draft.source_project success)
  | filtered input predicate =>
      cases isInput
      rw [Plan.draft, reached] at success
      exact joins (Draft.source_filter success)
  | sorted input keys =>
      cases isInput
      rw [Plan.draft, reached] at success
      exact joins (Draft.source_sort success)
  | grouped input groupKeys aggregates =>
      cases isInput
      rw [Plan.draft, reached] at success
      exact joins (Draft.source_aggregate success)
  | deduplicated input =>
      cases isInput
      rw [Plan.draft, reached] at success
      cases success
      exact joins (before.source_distinct dialect)
  | limited input count =>
      cases isInput
      rw [Plan.draft, reached] at success
      cases success
      exact .inr ⟨rfl, .same rfl⟩
  | aliased input name =>
      cases isInput
      rw [Plan.draft, reached] at success
      cases success
      refine .inr ⟨rfl, ?_⟩
      rcases Statement.named_source name before with same | ⟨ref, shownAs, table, shown⟩
      · exact .same same
      · exact .named table shown

/-- The last step of a plan goes on with the source of the statement before it or makes that
statement its only subquery, and does the latter exactly if it cannot join its clauses.  In
particular limits and names never nest.  What is nested derives nothing, so no plan is refused
for what it reads after nesting. -/
theorem Plan.encloses_iff_needsNesting (dialect : Dialect) (used : Nat) (plan : Plan) :
    plan.draft dialect used ≠ .error (.misuse .derivedAfterNesting) ∧
      ∀ input before result, plan.inputs = [input] → input.draft dialect used = .ok before →
        plan.draft dialect used = .ok result →
        (plan.KeepsSource before.statement.source result.statement.source ∨
          result.statement.Encloses before.statement) ∧
        (result.statement.Encloses before.statement ↔
          plan.needsNesting before.statement.toClauses = true) := by
  refine ⟨fun failed => ?_, ?_⟩
  · cases plan.refuses_draft dialect used _ failed
  intro input before result isInput reached success
  rcases Plan.source_of_step isInput reached success with ⟨needed, nested⟩ | ⟨free, keeps⟩
  · have encloses : result.statement.Encloses before.statement := by
      refine ⟨before.inner, before.nestedAs_inner, ?_⟩
      rw [nested, before.nest_eq dialect]
    exact ⟨.inr encloses, fun _ => needed, fun _ => encloses⟩
  · refine ⟨.inl keeps, fun encloses => absurd encloses keeps.not_encloses, ?_⟩
    intro needed
    rw [free] at needed
    cases needed

def Plan.summed : Plan :=
  .projected (.base { name := "t", columns := some [⟨"a", none⟩, ⟨"b", none⟩] })
    [{ name := "c", expr := .binary (.arithmetic .add) (.named "a") (.named "b") }] true

/-- Groups by a sum of columns, which an output reads by the name of the group key. -/
def Plan.groupedSums : Plan :=
  .grouped summed [{ name := "k", expr := .named "c" }]
    [{ name := "n", expr := .aggregate "count" none false },
      { name := "m", expr := .unary .negate (.named "k") }]

theorem Plan.encloses_iff_needsNesting_groupedSums :
    ∃ before result, groupedSums.inputs = [summed] ∧ summed.draft .postgres 0 = .ok before ∧
      groupedSums.draft .postgres 0 = .ok result ∧
      groupedSums.needsNesting before.statement.toClauses = true ∧
      result.statement.Encloses before.statement := by
  obtain ⟨before, reached, needed⟩ : ∃ before, summed.draft .postgres 0 = .ok before ∧
      groupedSums.needsNesting before.statement.toClauses = true := ⟨_, rfl, rfl⟩
  obtain ⟨result, success⟩ : ∃ result, groupedSums.draft .postgres 0 = .ok result := ⟨_, rfl⟩
  have step := (encloses_iff_needsNesting .postgres 0 groupedSums).2 summed before result rfl
    reached success
  exact ⟨before, result, rfl, reached, success, needed, step.2.mpr needed⟩

end SqlPlan
