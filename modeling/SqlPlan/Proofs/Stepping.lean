import SqlPlan.Proofs.Columns
import SqlPlan.Proofs.Locating

/-!
# What a step does to the statement before it

A step joins the statement of the plan before it, or a statement around that
one; none nests twice.  For each step there is one statement here of what it
makes of the clauses that it joins.
-/

namespace SqlPlan

namespace Draft

variable {dialect : Dialect} {draft : Draft}

/-- The drafts that a step may join: the one before it, or the one around that. -/
inductive Opens (dialect : Dialect) (draft : Draft) : Draft → Prop where
  | kept : Opens dialect draft draft
  | nested : Opens dialect draft (draft.nest dialect)

theorem settled_nest (draft : Draft) (refs : List ColumnRef) :
    (draft.nest dialect).settled dialect refs = draft.nest dialect := by
  have passed : refs.any (draft.nest dialect).statement.isDerived = false := by
    simp [isDerived_nest]
  rw [settled, passed]
  rfl

theorem opens_unsealed (dialect : Dialect) (draft : Draft) :
    draft.Opens dialect (draft.unsealed dialect) := by
  unfold unsealed
  split
  · exact .nested
  · exact .kept

/-- No statement is its own subquery. -/
theorem source_nest_ne (dialect : Dialect) (draft : Draft) :
    (draft.nest dialect).statement.source ≠ draft.statement.source := by
  intro equal
  have size := congrArg sizeOf equal
  rw [draft.nest_eq dialect, Source.relation.sizeOf_spec, Relation.subquery.sizeOf_spec] at size
  omega

theorem Opens.eq_nest {current : Draft} (opens : draft.Opens dialect current)
    (source : current.statement.source = (draft.nest dialect).statement.source) :
    current = draft.nest dialect := by
  cases opens with
  | kept => exact absurd source.symm (draft.source_nest_ne dialect)
  | nested => rfl

/-- Where the draft is nested already, nothing is derived that would nest it again. -/
theorem Opens.settled {current : Draft} (opens : draft.Opens dialect current)
    (refs : List ColumnRef) : draft.Opens dialect (current.settled dialect refs) := by
  cases opens with
  | kept =>
      unfold Draft.settled
      split
      · exact .nested
      · exact .kept
  | nested =>
      rw [settled_nest]
      exact .nested

/-- Resolution joins a draft that is open to the step. -/
theorem Opens.resolve {start current : Draft} {exprs resolved : List Expr}
    (opens : draft.Opens dialect start)
    (success : start.resolve dialect exprs = .ok (current, resolved)) :
    draft.Opens dialect current ∧
      (start.statement.isSealed = false → current.statement.isSealed = false) ∧
      (start.statement.isGrouped = false → current.statement.isGrouped = false) ∧
      current.statement.resolved? exprs = .ok (some resolved) := by
  obtain ⟨accepts, rfl, rfl⟩ := resolve_eq_ok.mp success
  refine ⟨opens.settled _, fun unsealed => isSealed_settled unsealed _, ?_, ?_⟩
  · intro ungrouped
    unfold Draft.settled
    split
    · rfl
    · exact ungrouped
  · have passes : (Expr.refsOf exprs).findSome?
        (start.settled dialect (Expr.refsOf exprs)).statement.refusal? = none :=
      List.findSome?_eq_none_iff.mpr fun ref member => (accepts ref member).2
    have passed : (Expr.refsOf exprs).any
        (start.settled dialect (Expr.refsOf exprs)).statement.isDerived = false := by
      rw [List.any_eq_false]
      intro ref member
      simp [isDerived_settled start member]
    rw [Clauses.resolved?_eq, passes, passed]
    rfl

/-- Sorting inlines the keys against the draft that it joins. -/
theorem sort_eq_ok {keys : List SortKey} {result : Draft}
    (success : draft.sort dialect keys = .ok result) :
    (∀ key ∈ keys, key.expr.aggregate? = none) ∧ ∃ orderBy,
      List.Forall₂ (fun key ordered =>
        (draft.unsealed dialect).statement.inlined key.expr = .ok ordered.expr ∧
          ordered.direction = key.direction) keys orderBy ∧
      result = { draft.unsealed dialect with
        statement := { (draft.unsealed dialect).statement with orderBy } } := by
  unfold sort at success
  obtain ⟨_, refused, success⟩ := bind_eq_ok.mp success
  obtain ⟨orderBy, orderByOk, success⟩ := bind_eq_ok.mp success
  refine ⟨?_, orderBy, ?_, (pure_eq_ok.mp success).symm⟩
  · intro key member
    exact Expr.refuseAggregate_eq_ok.mp (forM_eq_ok.mp refused key member)
  · refine (mapM_eq_ok.mp orderByOk).imp ?_
    intro key ordered orderedOk
    obtain ⟨expr, exprOk, orderedOk⟩ := bind_eq_ok.mp orderedOk
    cases pure_eq_ok.mp orderedOk
    exact ⟨exprOk, rfl⟩

end Draft

theorem Drafted.opens {dialect : Dialect} {used : Nat} {plan : Plan} {draft current : Draft}
    (drafted : Drafted dialect used plan draft) (opens : draft.Opens dialect current) :
    Drafted dialect used plan current := by
  cases opens with
  | kept => exact drafted
  | nested => exact drafted.nest

namespace Plan

/-- The plans that a step follows. -/
def inputs : Plan → List Plan
  | .base _ => []
  | .projected input _ _ => [input]
  | .filtered input _ => [input]
  | .sorted input _ => [input]
  | .grouped input _ _ => [input]
  | .joined input other _ _ => [input, other]
  | .deduplicated input => [input]
  | .limited input _ => [input]
  | .aliased input _ => [input]

/-- A plan and all plans that it is built from. -/
def stages : Plan → List Plan
  | .base table => [.base table]
  | .projected input outputs keep => .projected input outputs keep :: input.stages
  | .filtered input predicate => .filtered input predicate :: input.stages
  | .sorted input keys => .sorted input keys :: input.stages
  | .grouped input groupKeys aggregates => .grouped input groupKeys aggregates :: input.stages
  | .joined input other kind on => .joined input other kind on :: (input.stages ++ other.stages)
  | .deduplicated input => .deduplicated input :: input.stages
  | .limited input count => .limited input count :: input.stages
  | .aliased input name => .aliased input name :: input.stages

theorem self_mem_stages (plan : Plan) : plan ∈ plan.stages := by
  cases plan <;> exact List.mem_cons_self

theorem stages_subset_of_mem_inputs {plan input : Plan} (member : input ∈ plan.inputs) :
    input.stages ⊆ plan.stages := by
  cases plan with
  | base table => cases member
  | joined left right kind on =>
      rcases List.mem_cons.mp member with rfl | isRight
      · exact List.subset_cons_of_subset _ (List.subset_append_left _ _)
      · cases List.mem_singleton.mp isRight
        exact List.subset_cons_of_subset _ (List.subset_append_right _ _)
  | _ =>
      cases List.mem_singleton.mp member
      exact List.subset_cons_self _ _

theorem forall_stages_input {holds : Plan → Prop} {plan input : Plan}
    (all : ∀ stage ∈ plan.stages, holds stage) (isInput : input ∈ plan.inputs) :
    ∀ stage ∈ input.stages, holds stage :=
  fun stage member => all stage (stages_subset_of_mem_inputs isInput member)

/-- The last step of the plan makes a subquery of this draft of the plan before it. -/
def Nests (dialect : Dialect) (plan : Plan) (draft : Draft) : Prop :=
  ∃ used result, (∃ input ∈ plan.inputs, input.draft dialect used = .ok draft) ∧
    plan.draft dialect used = .ok result ∧
    result.statement.source = (draft.nest dialect).statement.source

/-- A step that joins a draft keeps it or makes a subquery of it. -/
theorem eq_or_nests {dialect : Dialect} {used : Nat} {plan input : Plan}
    {before current result : Draft} (member : input ∈ plan.inputs)
    (beforeOk : input.draft dialect used = .ok before)
    (success : plan.draft dialect used = .ok result) (opens : before.Opens dialect current)
    (source : result.statement.source = current.statement.source) :
    current = before ∨ current = before.nest dialect ∧ plan.Nests dialect before := by
  cases opens with
  | kept => exact .inl rfl
  | nested => exact .inr ⟨rfl, used, result, ⟨input, member, beforeOk⟩, success, source⟩

section Steps

variable {dialect : Dialect} {used : Nat} {input : Plan} {result : Draft}

theorem draft_projected {outputs : List Output} {keep : Bool}
    (success : (Plan.projected input outputs keep).draft dialect used = .ok result) :
    ∃ draft current exprs items, input.draft dialect used = .ok draft ∧
      draft.Opens dialect current ∧ current.statement.isSealed = false ∧
      (∀ output ∈ outputs, output.expr.aggregate? = none) ∧
      current.statement.resolved? (outputs.map (·.expr)) = .ok (some exprs) ∧
      (if keep then current.statement.extendedSelect (Output.withExprs outputs exprs) = .ok items
       else items = (Output.withExprs outputs exprs).map Output.item) ∧
      result = { current with statement := { current.statement with select := some items } } := by
  obtain ⟨draft, draftOk, success⟩ := bind_eq_ok.mp success
  unfold Draft.project at success
  obtain ⟨_, refused, success⟩ := bind_eq_ok.mp success
  obtain ⟨⟨current, exprs⟩, resolvedOk, success⟩ := bind_eq_ok.mp success
  obtain ⟨opens, unsealed, _, resolved⟩ := (draft.opens_unsealed dialect).resolve resolvedOk
  have selected : ∃ items,
      (if keep then current.statement.extendedSelect (Output.withExprs outputs exprs) = .ok items
       else items = (Output.withExprs outputs exprs).map Output.item) ∧
      result = { current with statement := { current.statement with select := some items } } := by
    cases keep with
    | true =>
        obtain ⟨items, itemsOk, success⟩ := bind_eq_ok.mp success
        exact ⟨items, itemsOk, (pure_eq_ok.mp success).symm⟩
    | false => exact ⟨_, rfl, (Except.ok.inj success).symm⟩
  obtain ⟨items, itemsOk, resultEq⟩ := selected
  refine ⟨draft, current, exprs, items, draftOk, opens,
    unsealed (Draft.unsealed_isSealed dialect draft), ?_, resolved, itemsOk, resultEq⟩
  intro output member
  exact Expr.refuseAggregate_eq_ok.mp (forM_eq_ok.mp refused output member)

theorem draft_filtered {predicate : Expr}
    (success : (Plan.filtered input predicate).draft dialect used = .ok result) :
    ∃ draft current exprs, input.draft dialect used = .ok draft ∧
      draft.Opens dialect current ∧ current.statement.isSealed = false ∧
      predicate.aggregate? = none ∧
      current.statement.resolved? [predicate] = .ok (some exprs) ∧
      result = { current with statement := { current.statement with
        conditions := current.statement.conditions ++ exprs } } := by
  obtain ⟨draft, draftOk, success⟩ := bind_eq_ok.mp success
  unfold Draft.filter at success
  obtain ⟨_, refused, success⟩ := bind_eq_ok.mp success
  obtain ⟨⟨current, exprs⟩, resolvedOk, success⟩ := bind_eq_ok.mp success
  obtain ⟨opens, unsealed, _, resolved⟩ := (draft.opens_unsealed dialect).resolve resolvedOk
  exact ⟨draft, current, exprs, draftOk, opens,
    unsealed (Draft.unsealed_isSealed dialect draft), Expr.refuseAggregate_eq_ok.mp refused,
    resolved, (pure_eq_ok.mp success).symm⟩

theorem draft_sorted {keys : List SortKey}
    (success : (Plan.sorted input keys).draft dialect used = .ok result) :
    ∃ draft current orderBy, input.draft dialect used = .ok draft ∧
      draft.Opens dialect current ∧ current.statement.isSealed = false ∧
      (∀ key ∈ keys, key.expr.aggregate? = none) ∧
      List.Forall₂ (fun key ordered => current.statement.inlined key.expr = .ok ordered.expr ∧
        ordered.direction = key.direction) keys orderBy ∧
      result = { current with statement := { current.statement with orderBy } } := by
  obtain ⟨draft, draftOk, success⟩ := bind_eq_ok.mp success
  obtain ⟨plain, orderBy, inlined, rfl⟩ := Draft.sort_eq_ok success
  exact ⟨draft, _, orderBy, draftOk, draft.opens_unsealed dialect,
    Draft.unsealed_isSealed dialect draft, plain, inlined, rfl⟩

theorem draft_grouped {groupKeys aggregates : List Output}
    (success : (Plan.grouped input groupKeys aggregates).draft dialect used = .ok result) :
    ∃ draft current bound exprs, input.draft dialect used = .ok draft ∧
      draft.Opens dialect current ∧ current.statement.isSealed = false ∧
      current.statement.isGrouped = false ∧ (∀ key ∈ groupKeys, key.expr.aggregate? = none) ∧
      List.Forall₂ (fun output expr => Draft.bindGroupKeys groupKeys output = .ok expr)
        aggregates bound ∧
      current.statement.resolved? (groupKeys.map (·.expr) ++ bound) = .ok (some exprs) ∧
      result = { current with statement := { current.statement with
        select := some ((Output.withExprs (groupKeys ++ aggregates) exprs).map Output.item)
        grouping := some (exprs.take groupKeys.length)
        orderBy := [] } } := by
  obtain ⟨draft, draftOk, success⟩ := bind_eq_ok.mp success
  unfold Draft.aggregate at success
  obtain ⟨_, refused, success⟩ := bind_eq_ok.mp success
  obtain ⟨bound, boundOk, success⟩ := bind_eq_ok.mp success
  obtain ⟨⟨current, exprs⟩, resolvedOk, success⟩ := bind_eq_ok.mp success
  have current : draft.Opens dialect current ∧ current.statement.isSealed = false ∧
      current.statement.isGrouped = false ∧
      current.statement.resolved? (groupKeys.map (·.expr) ++ bound) = .ok (some exprs) := by
    split at resolvedOk
    · obtain ⟨opens, unsealed, ungrouped, resolved⟩ := Draft.Opens.nested.resolve resolvedOk
      exact ⟨opens, unsealed rfl, ungrouped rfl, resolved⟩
    · rename_i plainDraft
      simp only [Bool.or_eq_true, not_or, Bool.not_eq_true] at plainDraft
      obtain ⟨opens, unsealed, ungrouped, resolved⟩ := Draft.Opens.kept.resolve resolvedOk
      exact ⟨opens, unsealed plainDraft.1, ungrouped plainDraft.2, resolved⟩
  obtain ⟨opens, unsealed, ungrouped, resolved⟩ := current
  refine ⟨draft, _, bound, exprs, draftOk, opens, unsealed, ungrouped, ?_, mapM_eq_ok.mp boundOk,
    resolved, ?_⟩
  · intro key member
    exact Expr.refuseAggregate_eq_ok.mp (forM_eq_ok.mp refused key member)
  · rw [Output.map_item_withExprs]
    exact (pure_eq_ok.mp success).symm

theorem draft_deduplicated
    (success : (Plan.deduplicated input).draft dialect used = .ok result) :
    ∃ draft current, input.draft dialect used = .ok draft ∧ draft.Opens dialect current ∧
      (result = current ∨
        result = { current with statement := { current.statement with
          distinct := true
          orderBy := current.statement.distinctOrder } }) := by
  obtain ⟨draft, draftOk, success⟩ := bind_eq_ok.mp success
  have resultEq : draft.distinct dialect = result := pure_eq_ok.mp success
  have step (current : Draft) :
      let next := if current.statement.distinct then current
        else { current with statement := { current.statement with
          distinct := true
          orderBy := current.statement.distinctOrder } }
      next = current ∨
        next = { current with statement := { current.statement with
          distinct := true
          orderBy := current.statement.distinctOrder } } := by
    dsimp only
    split
    · exact .inl rfl
    · exact .inr rfl
  subst resultEq
  by_cases limited : draft.statement.limit.isSome
  · refine ⟨draft, draft.nest dialect, draftOk, .nested, ?_⟩
    unfold Draft.distinct
    rw [if_pos limited]
    exact step _
  · refine ⟨draft, draft, draftOk, .kept, ?_⟩
    unfold Draft.distinct
    rw [if_neg limited]
    exact step _

theorem draft_joined {other : Plan} {kind : JoinKind} {on : Expr}
    (success : (Plan.joined input other kind on).draft dialect used = .ok result) :
    ∃ left right, input.draft dialect used = .ok left ∧
      other.draft dialect left.hoisted = .ok right ∧
      input.refName ≠ other.refName ∧
      Statement.join dialect kind on
        { statement := left.statement
          name := input.refName
          scope := left.statement.visibleScope dialect }
        { statement := right.statement
          name := other.refName
          scope := right.statement.visibleScope dialect } = .ok result.statement := by
  obtain ⟨left, leftOk, success⟩ := bind_eq_ok.mp success
  obtain ⟨_, refused, success⟩ := bind_eq_ok.mp success
  obtain ⟨right, rightOk, success⟩ := bind_eq_ok.mp success
  obtain ⟨statement, joined, success⟩ := bind_eq_ok.mp success
  cases pure_eq_ok.mp success
  exact ⟨left, right, leftOk, rightOk, refuseJoin_eq_ok refused, joined⟩

end Steps

end Plan

end SqlPlan
