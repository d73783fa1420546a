import SqlPlan.Compile
import SqlPlan.Proofs.Expr.Traversal
import SqlPlan.Proofs.Success

/-!
# How statements arise

`Drafted` lists the moves by which a statement under construction comes about:
it starts as a table, it may be nested, and each step changes a few clauses of
a statement that is open to it.  Every draft of a plan arises this way, so what
the moves keep holds of every statement.
-/

namespace SqlPlan

/-! ## Checks and resolution -/

theorem Scope.resolveSingle_eq_ok {scope : Scope} {isOpen : Bool} {qualifiers : List String}
    {ref resolved : ColumnRef}
    (success : scope.resolveSingle isOpen qualifiers ref = .ok resolved) :
    resolved = { name := ref.name } ∧ (isOpen = true ∨ ref.name ∈ scope.names) := by
  have unqualified (success : resolveSingle.unqualified scope isOpen ref = .ok resolved) :
      resolved = { name := ref.name } ∧ (isOpen = true ∨ ref.name ∈ scope.names) := by
    unfold resolveSingle.unqualified at success
    split at success
    · rename_i known
      cases success
      exact ⟨rfl, by simpa using known⟩
    · cases success
  unfold resolveSingle at success
  split at success
  · split at success
    · exact unqualified success
    · cases success
  · exact unqualified success

theorem Expr.refuseAggregate_eq_ok {dialect : Dialect} {expr : Expr} :
    expr.refuseAggregate dialect = .ok () ↔ expr.aggregate? = none := by
  unfold Expr.refuseAggregate
  cases expr.aggregate? <;> simp

namespace Clauses

/-- Expressions resolve when each of them can be written in terms of the source
and none reads a derived output. -/
theorem resolved?_eq_some {clauses : Clauses} {exprs resolved : List Expr}
    (success : clauses.resolved? exprs = .ok (some resolved)) :
    List.Forall₂ (fun expr source => clauses.inlined expr = .ok source) exprs resolved ∧
      ∀ expr ∈ exprs, ∀ ref ∈ expr.columnRefs, clauses.isDerived ref = false := by
  unfold resolved? at success
  obtain ⟨inlined, inlinedOk, success⟩ := bind_eq_ok.mp success
  split at success
  · cases success
  · rename_i plain
    cases success
    refine ⟨mapM_eq_ok.mp inlinedOk, ?_⟩
    simpa using plain

/-- What a reference stands for: the visible output of its name, or a column of
the source where the source is joined or not all outputs are listed. -/
inductive Locates (clauses : Clauses) (ref : ColumnRef) : Expr → Prop where
  | output {output : SelectOutput} :
      clauses.visibleOutputs.find? (fun output => output.name == ref.name) = some output →
      Locates clauses ref output.expr
  | source {table : Option String} {column : ColumnRef} :
      clauses.select = none ∨ clauses.star? = some table ∨ clauses.scope.isJoined = true →
      clauses.scope.resolve clauses.qualifiers { table, name := ref.name } = .ok column →
      Locates clauses ref (.column column)

variable {clauses : Clauses} {ref : ColumnRef} {located : Located}

theorem locateInSource_eq_ok (success : clauses.locateInSource ref = .ok located) :
    ∃ column, clauses.scope.resolve clauses.qualifiers ref = .ok column ∧
      located.inlined = .column column := by
  obtain ⟨column, resolved, success⟩ := bind_eq_ok.mp success
  cases pure_eq_ok.mp success
  exact ⟨column, resolved, rfl⟩

theorem locateOutput_eq_ok (success : clauses.locateOutput ref = .ok located) :
    clauses.Locates ref located.inlined := by
  unfold locateOutput at success
  split at success
  · rename_i output found
    have inlined : located.inlined = output.expr := by
      split at success <;> cases success <;> rfl
    exact inlined ▸ .output found
  · split at success
    · rename_i table star
      obtain ⟨column, resolved, inlined⟩ := locateInSource_eq_ok success
      exact inlined ▸ .source (.inr (.inl star)) resolved
    · dsimp only at success
      split at success <;> cases success

theorem locate_eq_ok (success : clauses.locate ref = .ok located) :
    clauses.Locates ref located.inlined := by
  unfold locate at success
  split at success
  · rename_i whole
    obtain ⟨column, resolved, inlined⟩ := locateInSource_eq_ok success
    exact inlined ▸ .source (.inl whole) resolved
  · exact locateOutput_eq_ok success
  · split at success
    · rename_i joined
      obtain ⟨column, resolved, inlined⟩ := locateInSource_eq_ok success
      exact inlined ▸ .source (.inr (.inr joined)) resolved
    · split at success
      · exact locateOutput_eq_ok success
      · cases success

/-- What a reference stands for in terms of the source; one that stands for
nothing is left alone. -/
def sourceOf (clauses : Clauses) (ref : ColumnRef) : Expr :=
  match clauses.locate ref with
  | .ok found => found.inlined
  | .error _ => .column ref

/-- An expression that can be written in terms of the source has its references
replaced by what they stand for. -/
theorem inlined_eq_ok {expr source : Expr} (success : clauses.inlined expr = .ok source) :
    (∀ ref ∈ expr.columnRefs, ∃ found, clauses.locate ref = .ok found) ∧
      source = expr.mapColumns .everywhere clauses.sourceOf := by
  obtain ⟨substitution, replaced, rfl⟩ := Expr.tryMapColumns_ok success
  have found : ∀ ref ∈ expr.columnRefs, ∃ found, clauses.locate ref = .ok found ∧
      found.inlined = substitution ref := by
    intro ref member
    obtain ⟨found, locatedOk, inlinedEq⟩ := bind_eq_ok.mp (replaced ref member)
    exact ⟨found, locatedOk, pure_eq_ok.mp inlinedEq⟩
  constructor
  · intro ref member
    obtain ⟨found, locatedOk, _⟩ := found ref member
    exact ⟨found, locatedOk⟩
  · apply Expr.mapColumns_congr
    intro ref member
    obtain ⟨found, locatedOk, inlinedEq⟩ := found ref member
    simp only [sourceOf, locatedOk, inlinedEq]

theorem locates_of_inlined {expr source : Expr} (success : clauses.inlined expr = .ok source)
    (member : ref ∈ expr.columnRefs) : clauses.Locates ref (clauses.sourceOf ref) := by
  obtain ⟨found, locatedOk⟩ := (inlined_eq_ok success).1 ref member
  have locates := locate_eq_ok locatedOk
  simpa only [sourceOf, locatedOk] using locates

/-- Only a bare column is passed on; anything else is derived. -/
theorem exists_column_of_locate (success : clauses.locate ref = .ok located)
    (passed : located.isDerived = false) : ∃ column, located.inlined = .column column := by
  have inSource : ∀ {ref : ColumnRef}, clauses.locateInSource ref = .ok located →
      ∃ column, located.inlined = .column column := by
    intro ref success
    obtain ⟨column, _, inlined⟩ := locateInSource_eq_ok success
    exact ⟨column, inlined⟩
  have inOutput : clauses.locateOutput ref = .ok located →
      ∃ column, located.inlined = .column column := by
    intro success
    unfold locateOutput at success
    split at success
    · split at success
      · rename_i column isColumn
        cases success
        exact ⟨column, isColumn⟩
      · cases success
        cases passed
    · split at success
      · exact inSource success
      · dsimp only at success
        split at success <;> cases success
  unfold locate at success
  split at success
  · exact inSource success
  · exact inOutput success
  · split at success
    · exact inSource success
    · split at success
      · exact inOutput success
      · cases success

/-- Expressions that resolve have their references replaced by columns. -/
theorem sourceOf_of_resolved? {exprs resolved : List Expr}
    (success : clauses.resolved? exprs = .ok (some resolved)) {expr : Expr}
    (member : expr ∈ exprs) {ref : ColumnRef} (refMember : ref ∈ expr.columnRefs) :
    clauses.Locates ref (clauses.sourceOf ref) ∧
      ∃ column, clauses.sourceOf ref = .column column := by
  obtain ⟨inlined, passed⟩ := resolved?_eq_some success
  obtain ⟨source, _, inlinedOk⟩ := exists_mem_of_forall₂_left inlined member
  refine ⟨locates_of_inlined inlinedOk refMember, ?_⟩
  obtain ⟨found, locatedOk⟩ := (inlined_eq_ok inlinedOk).1 ref refMember
  have foundPassed : found.isDerived = false := by
    simpa only [isDerived, locatedOk] using passed expr member ref refMember
  simpa only [sourceOf, locatedOk] using exists_column_of_locate locatedOk foundPassed

theorem resolved?_eq_map {exprs resolved : List Expr}
    (success : clauses.resolved? exprs = .ok (some resolved)) :
    resolved = exprs.map (Expr.mapColumns .everywhere clauses.sourceOf) := by
  have inlined := (resolved?_eq_some success).1
  clear success
  induction inlined with
  | nil => rfl
  | cons head _ induction => rw [List.map_cons, induction, (inlined_eq_ok head).2]

end Clauses

/-! ## The moves -/

/-- Outputs with expressions in place of their own. -/
def Output.withExprs (outputs : List Output) (exprs : List Expr) : List Output :=
  outputs.zipWith (fun output expr => { output with expr }) exprs

def Output.item (output : Output) : SelectItem :=
  .output { name := output.name, expr := output.expr }

theorem Output.map_item_withExprs (outputs : List Output) (exprs : List Expr) :
    (Output.withExprs outputs exprs).map Output.item =
      outputs.zipWith (fun output expr => .output { name := output.name, expr }) exprs := by
  rw [Output.withExprs, List.map_zipWith]
  rfl

/-- The ordering that a statement keeps when it becomes distinct. -/
def Clauses.distinctOrder (clauses : Clauses) : List SortKey :=
  if clauses.select.isNone || clauses.star?.isSome then
    clauses.orderBy
  else
    clauses.orderBy.filter fun key =>
      clauses.visibleOutputs.any fun output => output.expr.same key.expr

theorem Clauses.distinctOrder_subset (clauses : Clauses) :
    clauses.distinctOrder ⊆ clauses.orderBy := by
  unfold distinctOrder
  split
  · exact List.Subset.refl _
  · exact List.filter_subset_self _

/-- The drafts of a plan, after `used` ordering keys with fresh names. -/
inductive Drafted (dialect : Dialect) : Nat → Plan → Draft → Prop where
  | base (table : TableRef) (used : Nat) :
      Drafted dialect used (.base table) { statement := .ofTable table, hoisted := used }
  | nest {used : Nat} {plan : Plan} {draft : Draft} :
      Drafted dialect used plan draft →
      Drafted dialect used plan (draft.nest dialect)
  | projected {used : Nat} {input : Plan} {current : Draft} {outputs : List Output}
      {exprs : List Expr} :
      Drafted dialect used input current →
      current.statement.isSealed = false →
      (∀ output ∈ outputs, output.expr.aggregate? = none) →
      current.statement.resolved? (outputs.map (·.expr)) = .ok (some exprs) →
      Drafted dialect used (.projected input outputs false)
        { current with statement := { current.statement with
            select := some ((Output.withExprs outputs exprs).map Output.item) } }
  | extended {used : Nat} {input : Plan} {current : Draft} {outputs : List Output}
      {exprs : List Expr} {items : List SelectItem} :
      Drafted dialect used input current →
      current.statement.isSealed = false →
      (∀ output ∈ outputs, output.expr.aggregate? = none) →
      current.statement.resolved? (outputs.map (·.expr)) = .ok (some exprs) →
      current.statement.extendedSelect (Output.withExprs outputs exprs) = .ok items →
      Drafted dialect used (.projected input outputs true)
        { current with statement := { current.statement with select := some items } }
  | filtered {used : Nat} {input : Plan} {current : Draft} {predicate : Expr}
      {exprs : List Expr} :
      Drafted dialect used input current →
      current.statement.isSealed = false →
      predicate.aggregate? = none →
      current.statement.resolved? [predicate] = .ok (some exprs) →
      Drafted dialect used (.filtered input predicate)
        { current with statement := { current.statement with
            conditions := current.statement.conditions ++ exprs } }
  | sorted {used : Nat} {input : Plan} {current : Draft} {keys orderBy : List SortKey} :
      Drafted dialect used input current →
      current.statement.isSealed = false →
      (∀ key ∈ keys, key.expr.aggregate? = none) →
      List.Forall₂ (fun key ordered => current.statement.inlined key.expr = .ok ordered.expr ∧
        ordered.direction = key.direction) keys orderBy →
      Drafted dialect used (.sorted input keys)
        { current with statement := { current.statement with orderBy } }
  | grouped {used : Nat} {input : Plan} {current : Draft} {groupKeys aggregates : List Output}
      {bound exprs : List Expr} :
      Drafted dialect used input current →
      current.statement.isSealed = false →
      current.statement.isGrouped = false →
      (∀ key ∈ groupKeys, key.expr.aggregate? = none) →
      List.Forall₂ (fun output expr => Draft.bindGroupKeys groupKeys output = .ok expr)
        aggregates bound →
      current.statement.resolved? (groupKeys.map (·.expr) ++ bound) = .ok (some exprs) →
      Drafted dialect used (.grouped input groupKeys aggregates)
        { current with statement := { current.statement with
            select := some ((Output.withExprs (groupKeys ++ aggregates) exprs).map Output.item)
            grouping := some (exprs.take groupKeys.length)
            orderBy := [] } }
  | joined {used : Nat} {input other : Plan} {left right : Draft} {kind : JoinKind} {on : Expr}
      {statement : Statement} :
      Drafted dialect used input left →
      Drafted dialect left.hoisted other right →
      refuseJoin dialect kind input.refName other.refName = .ok () →
      Statement.join dialect kind on
        { statement := left.statement
          name := input.refName
          scope := left.statement.visibleScope dialect }
        { statement := right.statement
          name := other.refName
          scope := right.statement.visibleScope dialect } = .ok statement →
      Drafted dialect used (.joined input other kind on)
        { statement, hoisted := right.hoisted }
  | deduplicated {used : Nat} {input : Plan} {current : Draft} :
      Drafted dialect used input current →
      current.statement.isSealed = false →
      Drafted dialect used (.deduplicated input)
        { current with statement := { current.statement with
            distinct := true
            orderBy := current.statement.distinctOrder } }
  | alreadyDistinct {used : Nat} {input : Plan} {current : Draft} :
      Drafted dialect used input current →
      current.statement.distinct = true →
      Drafted dialect used (.deduplicated input) current
  | limited {used : Nat} {input : Plan} {draft : Draft} (count : Nat) :
      Drafted dialect used input draft →
      Drafted dialect used (.limited input count) (draft.limit count)
  | aliased {used : Nat} {input : Plan} {draft : Draft} (name : String) :
      Drafted dialect used input draft →
      Drafted dialect used (.aliased input name) (draft.named name)

namespace Draft

theorem unsealed_isSealed (dialect : Dialect) (draft : Draft) :
    (draft.unsealed dialect).statement.isSealed = false := by
  unfold unsealed
  split
  · rfl
  · rename_i notSealed
    simpa using notSealed

end Draft

namespace Drafted

variable {dialect : Dialect} {used : Nat} {plan : Plan} {draft : Draft}

theorem unsealed (drafted : Drafted dialect used plan draft) :
    Drafted dialect used plan (draft.unsealed dialect) := by
  unfold Draft.unsealed
  split
  · exact drafted.nest
  · exact drafted

/-- Resolution keeps the draft or nests it once; the expressions are then in
terms of the source of what is left. -/
theorem resolve {current : Draft} {exprs resolved : List Expr}
    (drafted : Drafted dialect used plan draft)
    (success : draft.resolve dialect exprs = .ok (current, resolved)) :
    Drafted dialect used plan current ∧
      (draft.statement.isSealed = false → current.statement.isSealed = false) ∧
      (draft.statement.isGrouped = false → current.statement.isGrouped = false) ∧
      current.statement.resolved? exprs = .ok (some resolved) := by
  unfold Draft.resolve at success
  obtain ⟨first, firstOk, success⟩ := bind_eq_ok.mp success
  cases first with
  | some found =>
      cases pure_eq_ok.mp success
      exact ⟨drafted, id, id, firstOk⟩
  | none =>
      obtain ⟨second, secondOk, success⟩ := bind_eq_ok.mp success
      cases second with
      | some found =>
          cases pure_eq_ok.mp success
          exact ⟨drafted.nest, fun _ => rfl, fun _ => rfl, secondOk⟩
      | none => cases success

theorem project {outputs : List Output} {keep : Bool} {result : Draft}
    (drafted : Drafted dialect used plan draft)
    (success : draft.project dialect outputs keep = .ok result) :
    Drafted dialect used (.projected plan outputs keep) result := by
  unfold Draft.project at success
  obtain ⟨_, refused, success⟩ := bind_eq_ok.mp success
  obtain ⟨⟨current, exprs⟩, resolvedOk, success⟩ := bind_eq_ok.mp success
  have plain : ∀ output ∈ outputs, output.expr.aggregate? = none := by
    intro output member
    exact Expr.refuseAggregate_eq_ok.mp (forM_eq_ok.mp refused output member)
  obtain ⟨currentDrafted, unsealed, _, resolved⟩ := drafted.unsealed.resolve resolvedOk
  have unsealed := unsealed (Draft.unsealed_isSealed dialect draft)
  cases keep with
  | true =>
      obtain ⟨items, itemsOk, success⟩ := bind_eq_ok.mp success
      cases pure_eq_ok.mp success
      exact .extended currentDrafted unsealed plain resolved itemsOk
  | false =>
      cases success
      exact .projected currentDrafted unsealed plain resolved

theorem filter {predicate : Expr} {result : Draft}
    (drafted : Drafted dialect used plan draft)
    (success : draft.filter dialect predicate = .ok result) :
    Drafted dialect used (.filtered plan predicate) result := by
  unfold Draft.filter at success
  obtain ⟨_, refused, success⟩ := bind_eq_ok.mp success
  obtain ⟨⟨current, exprs⟩, resolvedOk, success⟩ := bind_eq_ok.mp success
  obtain ⟨currentDrafted, unsealed, _, resolved⟩ := drafted.unsealed.resolve resolvedOk
  cases pure_eq_ok.mp success
  exact .filtered currentDrafted (unsealed (Draft.unsealed_isSealed dialect draft))
    (Expr.refuseAggregate_eq_ok.mp refused) resolved

theorem sort {keys : List SortKey} {result : Draft}
    (drafted : Drafted dialect used plan draft)
    (success : draft.sort dialect keys = .ok result) :
    Drafted dialect used (.sorted plan keys) result := by
  unfold Draft.sort at success
  obtain ⟨_, refused, success⟩ := bind_eq_ok.mp success
  obtain ⟨orderBy, orderByOk, success⟩ := bind_eq_ok.mp success
  cases pure_eq_ok.mp success
  refine .sorted drafted.unsealed (Draft.unsealed_isSealed dialect draft) ?_ ?_
  · intro key member
    exact Expr.refuseAggregate_eq_ok.mp (forM_eq_ok.mp refused key member)
  · refine (mapM_eq_ok.mp orderByOk).imp ?_
    intro key ordered orderedOk
    obtain ⟨expr, exprOk, orderedOk⟩ := bind_eq_ok.mp orderedOk
    cases pure_eq_ok.mp orderedOk
    exact ⟨exprOk, rfl⟩

theorem aggregate {groupKeys aggregates : List Output} {result : Draft}
    (drafted : Drafted dialect used plan draft)
    (success : draft.aggregate dialect groupKeys aggregates = .ok result) :
    Drafted dialect used (.grouped plan groupKeys aggregates) result := by
  unfold Draft.aggregate at success
  obtain ⟨_, refused, success⟩ := bind_eq_ok.mp success
  obtain ⟨bound, boundOk, success⟩ := bind_eq_ok.mp success
  obtain ⟨⟨current, exprs⟩, resolvedOk, success⟩ := bind_eq_ok.mp success
  have plain : ∀ key ∈ groupKeys, key.expr.aggregate? = none := by
    intro key member
    exact Expr.refuseAggregate_eq_ok.mp (forM_eq_ok.mp refused key member)
  -- The statement that is resolved against is nested whenever it is sealed or grouped.
  have current : Drafted dialect used plan current ∧ current.statement.isSealed = false ∧
      current.statement.isGrouped = false ∧
      current.statement.resolved? (groupKeys.map (·.expr) ++ bound) = .ok (some exprs) := by
    split at resolvedOk
    · obtain ⟨nested, unsealed, ungrouped, resolved⟩ := drafted.nest.resolve resolvedOk
      exact ⟨nested, unsealed rfl, ungrouped rfl, resolved⟩
    · rename_i plainDraft
      simp only [Bool.or_eq_true, not_or, Bool.not_eq_true] at plainDraft
      obtain ⟨kept, unsealed, ungrouped, resolved⟩ := drafted.resolve resolvedOk
      exact ⟨kept, unsealed plainDraft.1, ungrouped plainDraft.2, resolved⟩
  obtain ⟨currentDrafted, unsealed, ungrouped, resolved⟩ := current
  cases pure_eq_ok.mp success
  have grouped := Drafted.grouped currentDrafted unsealed ungrouped plain
    (mapM_eq_ok.mp boundOk) resolved
  rwa [Output.map_item_withExprs] at grouped

theorem distinct (drafted : Drafted dialect used plan draft) :
    Drafted dialect used (.deduplicated plan) (draft.distinct dialect) := by
  have step : ∀ current : Draft, Drafted dialect used plan current →
      current.statement.limit = none →
      Drafted dialect used (.deduplicated plan)
        (if current.statement.distinct then current
         else { current with statement := { current.statement with
                  distinct := true
                  orderBy := current.statement.distinctOrder } }) := by
    intro current currentDrafted unlimited
    split
    · rename_i isDistinct
      exact .alreadyDistinct currentDrafted isDistinct
    · rename_i notDistinct
      exact .deduplicated currentDrafted (by simp [Clauses.isSealed, notDistinct, unlimited])
  by_cases limited : draft.statement.limit.isSome
  · have nested := step (draft.nest dialect) drafted.nest rfl
    unfold Draft.distinct
    rw [if_pos limited]
    exact nested
  · have kept := step draft drafted (by simpa using limited)
    unfold Draft.distinct
    rw [if_neg limited]
    exact kept

end Drafted

/-- Every draft of a plan arises by the moves. -/
theorem Plan.drafted {dialect : Dialect} {used : Nat} {plan : Plan} {draft : Draft}
    (success : plan.draft dialect used = .ok draft) : Drafted dialect used plan draft := by
  induction plan generalizing used draft with
  | base table =>
      cases success
      exact .base table used
  | projected input outputs keep induction =>
      obtain ⟨inner, innerOk, success⟩ := bind_eq_ok.mp success
      exact (induction innerOk).project success
  | filtered input predicate induction =>
      obtain ⟨inner, innerOk, success⟩ := bind_eq_ok.mp success
      exact (induction innerOk).filter success
  | sorted input keys induction =>
      obtain ⟨inner, innerOk, success⟩ := bind_eq_ok.mp success
      exact (induction innerOk).sort success
  | grouped input groupKeys aggregates induction =>
      obtain ⟨inner, innerOk, success⟩ := bind_eq_ok.mp success
      exact (induction innerOk).aggregate success
  | joined input other kind on inputInduction otherInduction =>
      obtain ⟨left, leftOk, success⟩ := bind_eq_ok.mp success
      obtain ⟨_, refused, success⟩ := bind_eq_ok.mp success
      obtain ⟨right, rightOk, success⟩ := bind_eq_ok.mp success
      obtain ⟨statement, joined, success⟩ := bind_eq_ok.mp success
      cases pure_eq_ok.mp success
      exact .joined (inputInduction leftOk) (otherInduction rightOk) refused joined
  | deduplicated input induction =>
      obtain ⟨inner, innerOk, success⟩ := bind_eq_ok.mp success
      cases pure_eq_ok.mp success
      exact (induction innerOk).distinct
  | limited input count induction =>
      obtain ⟨inner, innerOk, success⟩ := bind_eq_ok.mp success
      cases pure_eq_ok.mp success
      exact .limited count (induction innerOk)
  | aliased input name induction =>
      obtain ⟨inner, innerOk, success⟩ := bind_eq_ok.mp success
      cases pure_eq_ok.mp success
      exact .aliased name (induction innerOk)

end SqlPlan
