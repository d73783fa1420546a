import SqlPlan.Proofs.Parts
import SqlPlan.Proofs.Scoping

/-!
# Orderings of distinct statements

A distinct statement with a list is ordered only by what it selects: other keys
are dropped when it becomes distinct, and no later step adds one.  A statement
that selects everything keeps all its keys, whatever they compute.
-/

namespace SqlPlan

namespace Clauses

variable {clauses : Clauses}

/-- The statement selects all that its source shows, possibly beside other outputs. -/
def selectsAll (clauses : Clauses) : Bool := clauses.select.isNone || clauses.star?.isSome

theorem visibleOutputs_congr {other : Clauses} (select : clauses.select = other.select) :
    clauses.visibleOutputs = other.visibleOutputs := by
  simp only [visibleOutputs, outputs, select]

theorem selectsAll_congr {other : Clauses} (select : clauses.select = other.select) :
    clauses.selectsAll = other.selectsAll := by
  simp only [selectsAll, star?, select]

theorem distinctOrder_of_selectsAll (all : clauses.selectsAll = true) :
    clauses.distinctOrder = clauses.orderBy := by
  rw [distinctOrder, ← selectsAll, all]
  rfl

/-- A list keeps only the keys that it shows. -/
theorem exists_output_of_mem_distinctOrder (listed : clauses.selectsAll = false) {key : SortKey}
    (member : key ∈ clauses.distinctOrder) :
    ∃ output ∈ clauses.visibleOutputs, output.expr.same key.expr = true := by
  rw [distinctOrder, ← selectsAll, listed] at member
  exact List.any_eq_true.mp (List.mem_filter.mp member).2

end Clauses

/-! ## Where distinct statements come from -/

/-- The draft that a step which makes rows distinct joins: a limit comes first. -/
def Draft.unlimited (dialect : Dialect) (draft : Draft) : Draft :=
  if draft.statement.limit.isSome then draft.nest dialect else draft

theorem Draft.opens_unlimited (dialect : Dialect) (draft : Draft) :
    draft.Opens dialect (draft.unlimited dialect) := by
  unfold unlimited
  split
  · exact .nested
  · exact .kept

theorem Draft.distinct_eq (dialect : Dialect) (draft : Draft) :
    draft.distinct dialect =
      if (draft.unlimited dialect).statement.distinct then draft.unlimited dialect
      else { draft.unlimited dialect with statement := { (draft.unlimited dialect).statement with
        distinct := true
        orderBy := (draft.unlimited dialect).statement.distinctOrder } } :=
  rfl

/-- A part that became distinct at one of the stages of a plan, and has kept what it selects
and no other keys than were left to it there. -/
def Plan.MadeDistinct (dialect : Dialect) (plan : Plan) (part : Statement) : Prop :=
  ∃ input used before, Plan.deduplicated input ∈ plan.stages ∧
    input.draft dialect used = .ok before ∧
    (before.unlimited dialect).statement.distinct = false ∧
    part.select = (before.unlimited dialect).statement.select ∧
    part.orderBy ⊆ (before.unlimited dialect).statement.distinctOrder

namespace Plan.MadeDistinct

variable {dialect : Dialect} {plan input : Plan} {part next : Statement}

theorem mono (made : input.MadeDistinct dialect part) (isInput : input ∈ plan.inputs) :
    plan.MadeDistinct dialect part := by
  obtain ⟨before, used, draft, member, rest⟩ := made
  exact ⟨before, used, draft, stages_subset_of_mem_inputs isInput member, rest⟩

theorem congr (made : plan.MadeDistinct dialect part) (select : next.select = part.select)
    (orderBy : next.orderBy ⊆ part.orderBy) : plan.MadeDistinct dialect next := by
  obtain ⟨input, used, before, member, beforeOk, fresh, sameSelect, subset⟩ := made
  exact ⟨input, used, before, member, beforeOk, fresh, select.trans sameSelect,
    List.Subset.trans orderBy subset⟩

/-- A distinct statement selects no keys for the statement around it. -/
theorem inner {draft : Draft}
    (head : draft.statement.distinct = true → plan.MadeDistinct dialect draft.statement)
    (distinct : draft.inner.distinct = true) :
    plan.MadeDistinct dialect
      { toClauses := draft.inner, source := draft.statement.source } := by
  have distinct : draft.statement.distinct = true := distinct
  have nothing : draft.hoistedKeys = [] := by
    apply Clauses.hoisted_of_fixed
    rw [distinct, Bool.true_or]
  refine (head distinct).congr ?_ ?_
  · simp [Draft.inner, Clauses.nested, nothing]
  · dsimp only [Draft.inner, Clauses.nested]
    split
    · exact List.Subset.refl _
    · exact List.nil_subset _

end Plan.MadeDistinct

namespace Plan

section Steps

variable {dialect : Dialect} {used : Nat} {plan input : Plan} {before current result : Draft}

/-- Any step but those that limit, name or make rows distinct leaves an indistinct part
outermost. -/
theorem madeDistinct_step (isInput : input ∈ plan.inputs) (opens : before.Opens dialect current)
    (parts : ∀ part ∈ before.statement.parts, part.distinct = true →
      input.MadeDistinct dialect part)
    {next : Statement} (source : next.source = current.statement.source)
    (head : next.distinct = true → plan.MadeDistinct dialect next) :
    ∀ part ∈ next.parts, part.distinct = true → plan.MadeDistinct dialect part := by
  refine opens.forall_parts (fun part member distinct => ?_) MadeDistinct.inner source head
  exact (parts part member distinct).mono isInput

theorem not_distinct_of_unsealed {clauses : Clauses} (unsealed : clauses.isSealed = false) :
    clauses.distinct ≠ true := by
  intro distinct
  rw [Clauses.isSealed, distinct, Bool.true_or] at unsealed
  cases unsealed

/-- Every distinct part comes from a stage that makes rows distinct. -/
theorem madeDistinct (success : plan.draft dialect used = .ok result) :
    ∀ part ∈ result.statement.parts, part.distinct = true → plan.MadeDistinct dialect part := by
  induction plan generalizing used result with
  | base table =>
      cases success
      intro part member distinct
      simp only [Statement.parts, Statement.ofTable, Source.statements, Relation.statements,
        List.mem_singleton] at member
      subst member
      cases distinct
  | projected input outputs keep induction =>
      obtain ⟨before, current, _, items, beforeOk, opens, unsealed, _, _, _, rfl⟩ :=
        draft_projected success
      exact madeDistinct_step (List.mem_singleton.mpr rfl) opens (induction beforeOk) rfl
        fun distinct => absurd distinct (not_distinct_of_unsealed unsealed)
  | filtered input predicate induction =>
      obtain ⟨before, current, _, beforeOk, opens, unsealed, _, _, rfl⟩ := draft_filtered success
      exact madeDistinct_step (List.mem_singleton.mpr rfl) opens (induction beforeOk) rfl
        fun distinct => absurd distinct (not_distinct_of_unsealed unsealed)
  | sorted input keys induction =>
      obtain ⟨before, current, _, beforeOk, opens, unsealed, _, _, rfl⟩ := draft_sorted success
      exact madeDistinct_step (List.mem_singleton.mpr rfl) opens (induction beforeOk) rfl
        fun distinct => absurd distinct (not_distinct_of_unsealed unsealed)
  | grouped input groupKeys aggregates induction =>
      obtain ⟨before, current, _, _, beforeOk, opens, unsealed, _, _, _, _, rfl⟩ :=
        draft_grouped success
      exact madeDistinct_step (List.mem_singleton.mpr rfl) opens (induction beforeOk) rfl
        fun distinct => absurd distinct (not_distinct_of_unsealed unsealed)
  | joined input other kind on inputInduction otherInduction =>
      obtain ⟨left, right, leftOk, rightOk, _, joined⟩ := draft_joined success
      refine Statement.forall_parts_join joined
        (fun part member distinct =>
          (inputInduction leftOk part member distinct).mono List.mem_cons_self)
        (fun part member distinct => (otherInduction rightOk part member distinct).mono
          (List.mem_cons_of_mem _ List.mem_cons_self)) ?_ ?_
      · intro side made
        obtain ⟨orderBy, subset, equal⟩ := side.unordered_toClauses
        rw [equal]
        exact fun distinct => (made distinct).congr rfl subset
      · obtain ⟨_, _, _, _, equal⟩ := Statement.join_eq_ok joined
        rw [equal]
        intro distinct
        cases distinct
  | deduplicated input induction =>
      obtain ⟨before, beforeOk, success⟩ := bind_eq_ok.mp success
      cases pure_eq_ok.mp success
      have isInput : input ∈ (deduplicated input).inputs := List.mem_singleton.mpr rfl
      have step := @madeDistinct_step dialect (.deduplicated input) input before _ isInput
        (before.opens_unlimited dialect) (induction beforeOk)
      rw [before.distinct_eq dialect]
      cases distinct : (before.unlimited dialect).statement.distinct with
      | false =>
          exact step rfl fun _ =>
            ⟨input, used, before, List.mem_cons_self, beforeOk, distinct, rfl, List.Subset.refl _⟩
      | true =>
          -- What is distinct already has not been nested.
          have kept : before.unlimited dialect = before := by
            unfold Draft.unlimited at distinct ⊢
            split at distinct
            · cases distinct
            · rename_i free
              exact if_neg free
          rw [kept] at step ⊢
          exact step rfl fun distinct =>
            (induction beforeOk _ List.mem_cons_self distinct).mono isInput
  | limited input count induction =>
      obtain ⟨before, beforeOk, success⟩ := bind_eq_ok.mp success
      cases pure_eq_ok.mp success
      have parts : ∀ part ∈ before.statement.parts, part.distinct = true →
          (limited input count).MadeDistinct dialect part :=
        fun part member distinct =>
          (induction beforeOk part member distinct).mono (List.mem_singleton.mpr rfl)
      exact Statement.forall_parts_step parts rfl fun made distinct =>
        (made distinct).congr rfl (List.Subset.refl _)
  | aliased input name induction =>
      obtain ⟨before, beforeOk, success⟩ := bind_eq_ok.mp success
      cases pure_eq_ok.mp success
      have parts : ∀ part ∈ before.statement.parts, part.distinct = true →
          (aliased input name).MadeDistinct dialect part :=
        fun part member distinct =>
          (induction beforeOk part member distinct).mono (List.mem_singleton.mpr rfl)
      refine Draft.forall_parts_named name parts fun distinct => ?_
      exact (parts _ List.mem_cons_self distinct).congr rfl (List.Subset.refl _)

end Steps

end Plan

/-! ## Keys -/

/-- A distinct statement is ordered by what it selects or, where it selects everything, by
bare columns of its source. -/
def Statement.OrdersBySelected (part : Statement) : Prop :=
  part.distinct = true → ∀ key ∈ part.orderBy,
    (∃ output ∈ part.visibleOutputs, output.expr.same key.expr = true) ∨
      (part.selectsAll = true ∧ (∃ ref, key.expr = .column ref) ∧ part.Reads key.expr)

namespace Plan

/-- Where the last step makes rows distinct that are selected whole, these are ordered by
columns or by what is selected beside them. -/
def OrdersByColumns (dialect : Dialect) (plan : Plan) : Prop :=
  ∀ input used before, plan = .deduplicated input → input.draft dialect used = .ok before →
    (before.unlimited dialect).statement.distinct = false →
    (before.unlimited dialect).statement.selectsAll = true →
    ∀ key ∈ (before.unlimited dialect).statement.orderBy,
      (∃ output ∈ (before.unlimited dialect).statement.visibleOutputs,
        output.expr.same key.expr = true) ∨
      ∃ ref, key.expr = .column ref

variable {dialect : Dialect} {plan : Plan} {part : Statement}

theorem MadeDistinct.listed (made : plan.MadeDistinct dialect part)
    (listed : part.selectsAll = false) {key : SortKey} (member : key ∈ part.orderBy) :
    ∃ output ∈ part.visibleOutputs, output.expr.same key.expr = true := by
  obtain ⟨input, used, before, _, _, _, select, subset⟩ := made
  rw [Clauses.selectsAll_congr select] at listed
  rw [Clauses.visibleOutputs_congr select]
  exact Clauses.exists_output_of_mem_distinctOrder listed (subset member)

theorem MadeDistinct.ordersBySelected (made : part.distinct = true → plan.MadeDistinct dialect part)
    (columns : ∀ stage ∈ plan.stages, stage.OrdersByColumns dialect)
    (reads : ∀ key ∈ part.orderBy, part.Reads key.expr) : part.OrdersBySelected := by
  intro distinct key member
  cases all : part.selectsAll with
  | false => exact .inl ((made distinct).listed all member)
  | true =>
      obtain ⟨input, used, before, stage, beforeOk, fresh, select, subset⟩ := made distinct
      have whole := (Clauses.selectsAll_congr select).symm.trans all
      rw [Clauses.distinctOrder_of_selectsAll whole] at subset
      rw [Clauses.visibleOutputs_congr select]
      rcases columns _ stage input used before rfl beforeOk fresh whole key (subset member) with
        selected | column
      · exact .inl selected
      · exact .inr ⟨rfl, column, reads key member⟩

/-- A stage whose statement is ordered by what it selects has met no other keys. -/
theorem ordersByColumns_of_ordersBySelected {stage : Plan}
    (holds : ∀ used result, stage.draft dialect used = .ok result →
      result.statement.OrdersBySelected) : stage.OrdersByColumns dialect := by
  rintro input used before rfl beforeOk fresh all key member
  have success : (deduplicated input).draft dialect used = .ok (before.distinct dialect) := by
    rw [draft, beforeOk]
    rfl
  have ordered := holds used _ success
  rw [before.distinct_eq dialect, fresh] at ordered
  have kept : key ∈ (before.unlimited dialect).statement.distinctOrder := by
    rwa [Clauses.distinctOrder_of_selectsAll all]
  rcases ordered rfl key kept with selected | ⟨_, column, _⟩
  · exact .inl selected
  · exact .inr column

/-- A distinct part of a planned statement, at any depth, whose select list has no star is
ordered only by what it selects.  One that selects everything is ordered by bare columns of
its source or by what it selects beside them, if no step of the plan makes rows distinct that
are selected whole and ordered by anything else; and this is so of the statements of all the
plans that a plan is built from only if no step does that. -/
theorem distinct_ordered_by_selected {statement : Statement}
    (planned : plan.statement dialect = .ok statement) :
    (∀ part ∈ statement.parts, part.distinct = true → part.selectsAll = false →
      ∀ key ∈ part.orderBy, ∃ output ∈ part.visibleOutputs,
        output.expr.same key.expr = true) ∧
      ((∀ stage ∈ plan.stages, stage.OrdersByColumns dialect) →
        ∀ part ∈ statement.parts, part.OrdersBySelected) ∧
      ((∀ stage ∈ plan.stages, ∀ used result, stage.draft dialect used = .ok result →
          result.statement.OrdersBySelected) →
        ∀ stage ∈ plan.stages, stage.OrdersByColumns dialect) := by
  obtain ⟨draft, success, statementEq⟩ := bind_eq_ok.mp planned
  cases pure_eq_ok.mp statementEq
  have made := madeDistinct success
  have answered := (Plan.drafted success).answered
  refine ⟨?_, ?_, ?_⟩
  · intro part member distinct listed key isKey
    exact (made part member distinct).listed listed isKey
  · intro columns part member
    exact MadeDistinct.ordersBySelected (made part member) columns (answered part member).orderBy
  · intro holds stage member
    exact ordersByColumns_of_ordersBySelected (holds stage member)

/-- The different rows of a table by a key. -/
def distinctBy (key : Expr) : Plan :=
  .deduplicated (.sorted (.base { name := "t", columns := some [⟨"a", none⟩] }) [{ expr := key }])

def distinctTwice : Plan := .deduplicated (.limited (distinctBy (.named "a")) 5)

theorem distinct_ordered_by_selected_twice :
    ∃ statement, distinctTwice.statement .postgres = .ok statement ∧
      (∀ stage ∈ distinctTwice.stages, stage.OrdersByColumns .postgres) ∧
      ∀ part ∈ statement.parts, part.OrdersBySelected := by
  obtain ⟨statement, planned⟩ :
      ∃ statement, distinctTwice.statement .postgres = .ok statement := ⟨_, rfl⟩
  have columns : ∀ stage ∈ distinctTwice.stages, stage.OrdersByColumns .postgres := by
    rintro stage member input used before rfl beforeOk _ _ key isKey
    simp only [distinctTwice, distinctBy, stages, List.mem_cons, List.not_mem_nil, or_false,
      reduceCtorEq, deduplicated.injEq, false_or] at member
    rcases member with rfl | rfl
    all_goals
      cases beforeOk
      cases List.mem_singleton.mp isKey
      exact .inr ⟨_, rfl⟩
  exact ⟨statement, planned, columns, (distinct_ordered_by_selected planned).2.1 columns⟩

/-- A key that is computed from columns stays with a distinct statement that selects
everything, although it is none of the outputs. -/
theorem distinctBy_sum :
    ∃ statement, (distinctBy (.binary (.arithmetic .add) (.named "a") (.named "a"))).statement
        .postgres = .ok statement ∧
      statement.distinct = true ∧ statement.select = none ∧
      statement.orderBy =
        [{ expr := .binary (.arithmetic .add) (.named "a") (.named "a") }] :=
  ⟨_, rfl, rfl, rfl, rfl⟩

end Plan

end SqlPlan
