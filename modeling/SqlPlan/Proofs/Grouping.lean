import SqlPlan.Proofs.Columns

/-!
# The clauses of grouped statements

The keys of a grouped statement are those of the aggregation, and outside
aggregate calls its outputs read nothing else.  It lists its outputs, and it
stays grouped until it is nested.
-/

namespace SqlPlan

/-- What a reference outside aggregate calls is bound to: the key of its name, or
itself where it is a key. -/
inductive Output.Binds (groupKeys : List Output) (ref : ColumnRef) : Expr → Prop where
  | name {key : Output} :
      groupKeys.find? (fun key => ref.table.isNone && key.name == ref.name) = some key →
      Binds groupKeys ref key.expr
  | key {key : Output} :
      groupKeys.find? (fun key => ref.table.isNone && key.name == ref.name) = none →
      key ∈ groupKeys → key.expr = .column ref → Binds groupKeys ref (.column ref)

/-- Every reference is bound to a key. -/
theorem Output.Binds.exists_key {groupKeys : List Output} {ref : ColumnRef} {expr : Expr}
    (binds : Binds groupKeys ref expr) : ∃ key ∈ groupKeys, key.expr = expr := by
  cases binds with
  | name found => exact ⟨_, List.mem_of_find?_eq_some found, rfl⟩
  | key _ member isKey => exact ⟨_, member, isKey⟩

theorem Draft.bindGroupKeys_eq_ok {groupKeys : List Output} {output : Output} {bound : Expr}
    (success : Draft.bindGroupKeys groupKeys output = .ok bound) :
    ∃ binding : ColumnRef → Expr,
      bound = output.expr.mapColumns .outsideAggregates binding ∧
        ∀ ref ∈ output.expr.refs .outsideAggregates, Output.Binds groupKeys ref (binding ref) := by
  obtain ⟨binding, replaced, rfl⟩ := Expr.tryMapColumns_ok success
  refine ⟨binding, rfl, ?_⟩
  intro ref member
  have bindingOk := replaced ref member
  have byName : (if ref.table.isNone then groupKeys.find? fun key => key.name == ref.name
      else none) = groupKeys.find? fun key => ref.table.isNone && key.name == ref.name := by
    cases ref.table with
    | none => simp
    | some table => exact List.find?_eq_none.mpr (by simp) |>.symm
  dsimp only at bindingOk
  rw [byName] at bindingOk
  split at bindingOk
  · rename_i key found
    rw [← Except.ok.inj bindingOk]
    exact .name found
  · rename_i absent
    split at bindingOk
    · rename_i isKey
      obtain ⟨key, keyMember, same⟩ := List.any_eq_true.mp isKey
      rw [← Except.ok.inj bindingOk]
      exact .key absent keyMember (Expr.same_column_iff.mp same)
    · cases bindingOk

theorem Clauses.take_of_resolved {clauses : Clauses} {groupKeys : List Output}
    {bound exprs : List Expr}
    (resolved : clauses.resolved? (groupKeys.map (·.expr) ++ bound) = .ok (some exprs)) :
    exprs.take groupKeys.length =
      groupKeys.map fun key => key.expr.mapColumns .everywhere clauses.sourceOf := by
  rw [Clauses.resolved?_eq_map resolved, List.map_append, List.map_map, List.take_left' (by simp)]
  rfl

/-- A plan whose statement may be grouped: after its last aggregation no side of a
join begins. -/
def Plan.summarizes : Plan → Bool
  | .base _ => false
  | .grouped _ _ _ => true
  | .joined _ _ _ _ => false
  | .projected input _ _ => input.summarizes
  | .filtered input _ => input.summarizes
  | .sorted input _ => input.summarizes
  | .deduplicated input => input.summarizes
  | .limited input _ => input.summarizes
  | .aliased input _ => input.summarizes

namespace Drafted

variable {dialect : Dialect} {used : Nat} {plan : Plan} {draft : Draft}

theorem summarizes (drafted : Drafted dialect used plan draft)
    (grouped : draft.statement.isGrouped = true) : plan.summarizes = true := by
  induction drafted with
  | base table used => cases grouped
  | nest _ _ => cases grouped
  | grouped => rfl
  | joined _ _ _ joined _ _ =>
      obtain ⟨_, _, _, _, rfl⟩ := Statement.join_eq_ok joined
      cases grouped
  | projected _ _ _ _ induction | extended _ _ _ _ _ induction | filtered _ _ _ _ induction
  | sorted _ _ _ _ induction | deduplicated _ _ induction | alreadyDistinct _ _ induction
  | limited _ _ induction | aliased _ _ induction => exact induction grouped

/-- A grouped statement lists its outputs one by one. -/
theorem listed_of_grouped (drafted : Drafted dialect used plan draft)
    (grouped : draft.statement.isGrouped = true) :
    ∃ items, draft.statement.select = some items ∧ ∀ item ∈ items, item.star? = none := by
  induction drafted with
  | base table used => cases grouped
  | nest _ _ => cases grouped
  | projected _ _ _ _ _ | grouped _ _ _ _ _ _ _ =>
      refine ⟨_, rfl, fun item member => ?_⟩
      obtain ⟨output, _, rfl⟩ := List.mem_map.mp member
      rfl
  | extended _ _ _ _ itemsOk induction =>
      refine ⟨_, rfl, fun item member => ?_⟩
      obtain ⟨items, select, starless⟩ := induction grouped
      rcases Clauses.mem_extendedSelect itemsOk item member with ⟨old, _⟩ | ⟨output, _, rfl⟩
      · rw [Clauses.expandedSelect, select] at old
        exact starless item old
      · rfl
  | joined _ _ _ joined _ _ =>
      obtain ⟨_, _, _, _, rfl⟩ := Statement.join_eq_ok joined
      cases grouped
  | filtered _ _ _ _ induction | sorted _ _ _ _ induction | deduplicated _ _ induction
  | alreadyDistinct _ _ induction | limited _ _ induction | aliased _ _ induction =>
      exact induction grouped

theorem starless_of_grouped (drafted : Drafted dialect used plan draft)
    (grouped : draft.statement.isGrouped = true) :
    draft.statement.select.isSome = true ∧ draft.statement.star? = none := by
  obtain ⟨items, select, starless⟩ := drafted.listed_of_grouped grouped
  rw [Clauses.star?, select]
  exact ⟨rfl, List.findSome?_eq_none_iff.mpr starless⟩

end Drafted

end SqlPlan
