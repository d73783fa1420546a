import SqlPlan.Proofs.Built
import SqlPlan.Proofs.Joining
import SqlPlan.Proofs.Nesting
import SqlPlan.Proofs.Rows

/-!
# The columns that come out

The names that a plan promises are the columns of its statement, whatever is
nested below and whatever was selected there for an ordering.  A statement
selects nothing hidden itself; where it selects everything from a source whose
columns are known, nothing in that source is hidden.
-/

namespace SqlPlan

/-- Around a statement all its columns can be read, and the keys selected for its ordering. -/
theorem Draft.source_fields_nest (dialect : Dialect) (draft : Draft) (schema : Schema) :
    Tuple.row ((draft.nest dialect).statement.source.fields schema) =
      draft.statement.fields schema ++
        draft.hoistedKeys.map fun output => (output.name, output.hidden) := by
  rw [draft.nest_eq dialect, Source.fields, Relation.fields, Tuple.row_tagged, Statement.fields]
  cases select : draft.statement.select with
  | none =>
      have nothing := Draft.hoistedKeys_of_select_none select
      simp [Clauses.selected, Draft.inner, Clauses.nested, nothing, select]
  | some items =>
      have innerSelect : draft.inner.select =
          some (items ++ draft.hoistedKeys.map SelectItem.output) := by
        cases hoisted : draft.hoistedKeys <;>
          simp [Draft.inner, Clauses.nested, Clauses.expandedSelect, hoisted, select]
      simp only [Clauses.selected, innerSelect, select, List.flatMap_append, List.flatMap_map]
      exact congrArg _ List.map_eq_flatMap.symm

/-- A statement puts out what it shows. -/
structure Statement.Exposed (schema : Schema) (statement : Statement) : Prop where
  unhidden : ∀ item ∈ statement.select.getD [], item.isHidden = false
  whole : statement.select = none → statement.scope.isOpen = false →
    Tuple.row (statement.source.fields schema) =
      statement.scope.names.map fun name => (name, false)

namespace Statement.Exposed

variable {schema : Schema} {statement : Statement}

theorem fields_eq (exposed : statement.Exposed schema) {dialect : Dialect}
    (closed : (statement.visibleScope dialect).isOpen = false) :
    statement.fields schema = statement.visibleNames.map fun name => (name, false) := by
  cases select : statement.select with
  | none =>
      have scopeClosed : statement.scope.isOpen = false := by
        simpa [Clauses.isOpen_visibleScope, select] using closed
      simp only [Statement.fields, Clauses.selected, Clauses.visibleNames, select]
      exact exposed.whole select scopeClosed
  | some items =>
      have starless : statement.star? = none := by
        simpa [Clauses.isOpen_visibleScope, select] using closed
      have unhidden : ∀ item ∈ items, item.isHidden = false := by
        simpa [select] using exposed.unhidden
      rw [Statement.fields, Clauses.selected_eq_visibleOutputs select starless unhidden]
      simp only [Clauses.visibleNames, select, List.map_map]
      apply List.map_congr_left
      intro output member
      have visible : output.hidden = false := by
        simpa using (List.mem_filter.mp member).2
      simp [visible]

theorem ofTable (schema : Schema) (table : TableRef) :
    (Statement.ofTable table).Exposed schema := by
  constructor
  · simp [Statement.ofTable]
  · intro _ closed
    cases declared : table.columns with
    | none => simp [Statement.ofTable, TableRef.scope, Scope.isOpen, declared] at closed
    | some columns =>
        simp [Statement.ofTable, TableRef.scope, Scope.names, Source.fields, Relation.fields,
          schema.declared declared, declared, Function.comp_def]

/-- Only the select list, the scope and the source matter. -/
theorem congr (exposed : statement.Exposed schema) {other : Statement}
    (select : other.select = statement.select) (scope : other.scope = statement.scope)
    (source : other.source.fields schema = statement.source.fields schema) :
    other.Exposed schema := by
  constructor
  · rw [select]
    exact exposed.unhidden
  · rw [select, scope, source]
    exact exposed.whole

theorem ofSelect {items : List SelectItem} (select : statement.select = some items)
    (unhidden : ∀ item ∈ items, item.isHidden = false) : statement.Exposed schema := by
  constructor
  · simpa [select] using unhidden
  · intro none
    rw [select] at none
    cases none

theorem nest {draft : Draft} (exposed : draft.statement.Exposed schema) (dialect : Dialect) :
    (draft.nest dialect).statement.Exposed schema := by
  have source := draft.source_fields_nest dialect schema
  rw [draft.nest_eq dialect] at source ⊢
  constructor
  · intro item member
    dsimp only at member
    split at member
    · cases member
    · obtain ⟨name, _, rfl⟩ := List.mem_map.mp member
      rfl
  · intro unselected closed
    dsimp only at unselected closed
    split at unselected
    · rename_i hoistsNothing
      have nothing : draft.hoistedKeys = [] := by simpa [closed] using hoistsNothing
      rw [source, nothing, List.map_nil, List.append_nil, exposed.fields_eq closed,
        Clauses.names_visibleScope]
    · cases unselected

end Statement.Exposed

theorem Output.item_isHidden (output : Output) : output.item.isHidden = false := rfl

theorem joinSelect_unhidden {kind : JoinKind} {on : Expr} {left right : JoinInput} :
    ∀ item ∈ joinSelect kind on left right, item.isHidden = false := by
  intro item member
  rcases mem_joinSelect member with ⟨_, rfl⟩ | ⟨_, _, rfl⟩ | ⟨_, rfl⟩ <;> rfl

theorem Draft.named_fields (schema : Schema) (name : String) (draft : Draft) :
    (draft.named name).statement.source.fields schema =
      draft.statement.source.fields schema := by
  rcases Statement.named_source name draft with same | ⟨ref, shownAs, before, after⟩
  · rw [same]
  · rw [before, after]
    rfl

/-- A side of a join shows what its statement puts out. -/
theorem JoinInput.fields_relation (side : JoinInput) (schema : Schema) :
    side.relation.fields schema = side.statement.fields schema := by
  obtain ⟨orderBy, _, clauses⟩ := side.statement.unordered_toClauses
  have select : side.statement.unordered.select = side.statement.select := by rw [clauses]
  rcases side.relation_cases with ⟨ref, whole, relation⟩ | relation
  · obtain ⟨⟨shownAs, source⟩, unselected, _⟩ := Statement.wholeTable?_eq_some whole
    rw [Statement.unordered_source] at source
    rw [select] at unselected
    simp [relation, Statement.fields, Clauses.selected, unselected, source, Source.fields,
      Relation.fields]
  · rw [relation, Relation.fields, Statement.fields]
    simp only [Clauses.selected, select]

/-- Every statement of a plan puts out what it shows. -/
theorem Drafted.exposed {dialect : Dialect} {used : Nat} {plan : Plan} {draft : Draft}
    (drafted : Drafted dialect used plan draft) (schema : Schema) :
    draft.statement.Exposed schema := by
  induction drafted with
  | base table used => exact .ofTable schema table
  | nest _ induction => exact induction.nest dialect
  | projected _ _ _ _ _ =>
      refine .ofSelect rfl ?_
      intro item member
      obtain ⟨output, _, rfl⟩ := List.mem_map.mp member
      exact output.item_isHidden
  | extended _ _ _ _ itemsOk _ =>
      refine .ofSelect rfl ?_
      intro item member
      rcases Clauses.mem_extendedSelect itemsOk item member with ⟨_, visible⟩ | ⟨output, _, rfl⟩
      · exact visible
      · exact output.item_isHidden
  | filtered _ _ _ _ induction => exact induction.congr rfl rfl rfl
  | sorted _ _ _ _ induction => exact induction.congr rfl rfl rfl
  | grouped _ _ _ _ _ _ _ =>
      refine .ofSelect rfl ?_
      intro item member
      obtain ⟨output, _, rfl⟩ := List.mem_map.mp member
      exact output.item_isHidden
  | joined _ _ _ joined _ _ =>
      obtain ⟨_, resolved, _, _, rfl⟩ := Statement.join_eq_ok joined
      exact .ofSelect rfl joinSelect_unhidden
  | deduplicated _ _ induction => exact induction.congr rfl rfl rfl
  | alreadyDistinct _ _ induction => exact induction
  | limited count _ induction => exact induction.congr rfl rfl rfl
  | aliased name _ induction => exact induction.congr rfl rfl (Draft.named_fields schema name _)

/-! ## No name twice -/

namespace Clauses

variable {clauses : Clauses}

theorem names_outputs {items : List SelectItem} (select : clauses.select = some items) :
    clauses.outputs.map (·.name) = items.filterMap SelectItem.name? := by
  simp only [Clauses.outputs, select, Option.getD_some, List.map_filterMap]
  rfl

theorem visibleNames_sublist {items : List SelectItem} (select : clauses.select = some items) :
    clauses.visibleNames.Sublist (items.filterMap SelectItem.name?) := by
  rw [← names_outputs select]
  simp only [visibleNames, select]
  exact List.filter_sublist.map _

theorem mem_outputs {output : SelectOutput} :
    output ∈ clauses.outputs ↔ .output output ∈ clauses.select.getD [] := by
  rw [outputs, List.mem_filterMap]
  constructor
  · rintro ⟨item, member, found⟩
    cases item with
    | output selected => exact Option.some.inj found ▸ member
    | star table => cases found
  · intro member
    exact ⟨_, member, rfl⟩

/-- The columns that are kept beside new outputs are those that are visible already. -/
theorem mem_of_mem_expandedSelect {output : SelectOutput}
    (member : .output output ∈ clauses.expandedSelect) (visible : output.hidden = false) :
    output ∈ clauses.visibleOutputs ∨
      clauses.select = none ∧ output.name ∈ clauses.scope.names ∧
        output.expr = .named output.name := by
  unfold expandedSelect at member
  split at member
  · rename_i items select
    exact .inl (List.mem_filter.mpr
      ⟨mem_outputs.mpr (by simpa [select] using member), by simp [visible]⟩)
  · rename_i whole
    split at member
    · cases List.mem_singleton.mp member
    · obtain ⟨name, known, equal⟩ := List.mem_map.mp member
      cases equal
      exact .inr ⟨whole, known, rfl⟩

theorem name_mem_of_mem_expandedSelect {output : SelectOutput}
    (member : .output output ∈ clauses.expandedSelect) (visible : output.hidden = false) :
    output.name ∈ clauses.visibleNames := by
  rcases mem_of_mem_expandedSelect member visible with listed | ⟨whole, known, _⟩
  · cases select : clauses.select with
    | none => simp [visibleOutputs, outputs, select] at listed
    | some items =>
        simp only [visibleNames, select]
        exact List.mem_map_of_mem listed
  · simpa [visibleNames, whole] using known

theorem visibleOutputs_of_items {outputs : List Output}
    (select : clauses.select = some (outputs.map Output.item)) :
    clauses.visibleOutputs =
      outputs.map fun output => { name := output.name, expr := output.expr } := by
  have produced : (outputs.map Output.item).filterMap SelectItem.output? =
      outputs.map fun output => { name := output.name, expr := output.expr } := by
    rw [List.filterMap_map]
    exact congrFun List.filterMap_eq_map outputs
  rw [visibleOutputs, Clauses.outputs, select, Option.getD_some, produced, List.filter_eq_self]
  intro selected member
  obtain ⟨output, _, rfl⟩ := List.mem_map.mp member
  rfl

theorem visibleNames_of_items {outputs : List Output}
    (select : clauses.select = some (outputs.map Output.item)) :
    clauses.visibleNames = outputs.map (·.name) := by
  simp [visibleNames, select, visibleOutputs_of_items select, Function.comp_def]

theorem isOpen_of_items {dialect : Dialect} {outputs : List Output}
    (select : clauses.select = some (outputs.map Output.item)) :
    (clauses.visibleScope dialect).isOpen = false := by
  have starless : (outputs.map Output.item).findSome? SelectItem.star? = none := by
    rw [List.findSome?_eq_none_iff, List.forall_mem_map]
    exact fun _ _ => rfl
  simp [isOpen_visibleScope, star?, select, starless]

theorem visibleOutputs_ofColumn {names : List String}
    (select : clauses.select = some (names.map SelectItem.ofColumn)) :
    clauses.visibleOutputs = names.map fun name => { name, expr := .named name } := by
  have asOutputs : names.map SelectItem.ofColumn =
      (names.map fun name => { name, expr := .named name : Output }).map Output.item := by
    simp [Function.comp_def, Output.item, SelectItem.ofColumn]
  rw [asOutputs] at select
  rw [visibleOutputs_of_items select, List.map_map]
  rfl

theorem star?_ofColumn {names : List String}
    (select : clauses.select = some (names.map SelectItem.ofColumn)) : clauses.star? = none := by
  rw [star?, select, Option.getD_some, List.findSome?_map]
  exact List.findSome?_eq_none_iff.mpr fun _ _ => rfl

end Clauses

/-- Outputs with expressions in place of their own keep all else. -/
theorem Output.forall₂_withExprs {related : Output → Expr → Prop} {outputs : List Output}
    {exprs : List Expr} (pairs : List.Forall₂ related outputs exprs) :
    List.Forall₂ (fun output changed => related output changed.expr ∧
        changed = { output with expr := changed.expr })
      outputs (Output.withExprs outputs exprs) := by
  induction pairs with
  | nil => exact .nil
  | cons head _ induction => exact .cons ⟨head, rfl⟩ induction

theorem Output.map_withExprs {α : Type} {view : Output → α}
    (kept : ∀ output expr, view { output with expr } = view output) {outputs : List Output}
    {exprs : List Expr} (length : outputs.length = exprs.length) :
    (Output.withExprs outputs exprs).map view = outputs.map view := by
  induction outputs generalizing exprs with
  | nil => rfl
  | cons output outputs induction =>
      cases exprs with
      | nil => cases length
      | cons expr exprs =>
          have rest := induction (Nat.succ.inj length)
          simp only [Output.withExprs] at rest
          simp [Output.withExprs, rest, kept]

theorem Output.names_withExprs {outputs : List Output} {exprs : List Expr}
    (length : outputs.length = exprs.length) :
    (Output.withExprs outputs exprs).map (·.name) = outputs.map (·.name) :=
  Output.map_withExprs (fun _ _ => rfl) length

theorem Output.targets_withExprs {outputs : List Output} {exprs : List Expr}
    (length : outputs.length = exprs.length) :
    (Output.withExprs outputs exprs).map Output.target = outputs.map Output.target :=
  Output.map_withExprs (fun _ _ => rfl) length

theorem Draft.nest_visibleNames (dialect : Dialect) (draft : Draft) :
    (draft.nest dialect).statement.visibleNames = draft.statement.visibleNames := by
  rw [draft.nest_eq dialect]
  split
  · exact Clauses.names_visibleScope _ dialect
  · rw [Clauses.visibleNames, Clauses.visibleOutputs_ofColumn rfl]
    simp [Function.comp_def]

theorem Statement.visibleNames_ofTable (table : TableRef) :
    (Statement.ofTable table).visibleNames = (table.columns.getD []).map (·.name) := by
  cases declared : table.columns <;>
    simp [Statement.ofTable, Clauses.visibleNames, Scope.names, TableRef.scope, declared,
      Function.comp_def]

/-- In a plan that was built no two visible columns have one name. -/
theorem Drafted.nodup_visibleNames {dialect : Dialect} {used : Nat} {plan : Plan} {draft : Draft}
    (drafted : Drafted dialect used plan draft) (distinct : plan.DistinctNames) :
    draft.statement.visibleNames.Nodup := by
  induction drafted with
  | base table used =>
      rw [Statement.visibleNames_ofTable]
      exact distinct
  | nest _ induction =>
      rw [Draft.nest_visibleNames]
      exact induction distinct
  | projected _ _ _ resolved _ =>
      have length := (Clauses.resolved?_eq_some resolved).1.length_eq
      rw [Clauses.visibleNames_of_items rfl, Output.names_withExprs (by simpa using length)]
      exact distinct.2.1
  | extended _ _ _ _ itemsOk _ =>
      obtain ⟨_, _, nodup⟩ := Clauses.extendedSelect_eq_ok itemsOk
      exact nodup.sublist (Clauses.visibleNames_sublist rfl)
  | filtered _ _ _ _ induction => exact induction distinct
  | sorted _ _ _ _ induction => exact induction distinct
  | grouped _ _ _ _ bound resolved _ =>
      have length := (Clauses.resolved?_eq_some resolved).1.length_eq
      rw [Clauses.visibleNames_of_items rfl, Output.names_withExprs
        (by simpa [bound.length_eq] using length)]
      exact distinct.2
  | joined _ _ _ joined _ _ =>
      obtain ⟨_, resolved, _, nodup, rfl⟩ := Statement.join_eq_ok joined
      exact nodup.sublist (Clauses.visibleNames_sublist rfl)
  | deduplicated _ _ induction => exact induction distinct
  | alreadyDistinct _ _ induction => exact induction distinct
  | limited count _ induction => exact induction distinct
  | aliased name _ induction => exact induction distinct

/-! ## Where names come from -/

/-- The names that tables declare, that steps put out, and that joins make of these. -/
def Plan.shownNames : Plan → List String
  | .base table => (table.columns.getD []).map (·.name)
  | .projected input outputs _ => input.shownNames ++ outputs.map (·.name)
  | .grouped input groupKeys aggregates =>
      input.shownNames ++ (groupKeys ++ aggregates).map (·.name)
  | .joined input other _ _ =>
      sideNames input.refName input.shownNames ++ sideNames other.refName other.shownNames
  | .filtered input _ => input.shownNames
  | .sorted input _ => input.shownNames
  | .deduplicated input => input.shownNames
  | .limited input _ => input.shownNames
  | .aliased input _ => input.shownNames

theorem Drafted.visibleNames_subset_shownNames {dialect : Dialect} {used : Nat} {plan : Plan}
    {draft : Draft} (drafted : Drafted dialect used plan draft) :
    draft.statement.visibleNames ⊆ plan.shownNames := by
  induction drafted with
  | base table used =>
      rw [Statement.visibleNames_ofTable]
      exact List.Subset.refl _
  | nest _ induction =>
      rw [Draft.nest_visibleNames]
      exact induction
  | projected _ _ _ resolved _ =>
      have length := (Clauses.resolved?_eq_some resolved).1.length_eq
      rw [Clauses.visibleNames_of_items rfl, Output.names_withExprs (by simpa using length)]
      exact List.subset_append_right _ _
  | @extended used input current outputs exprs items _ _ _ resolved itemsOk induction =>
      intro name member
      obtain ⟨selected, selectedMember, rfl⟩ := List.mem_map.mp member
      obtain ⟨listed, visible⟩ := List.mem_filter.mp selectedMember
      rcases Clauses.mem_extendedSelect itemsOk _ (Clauses.mem_outputs.mp listed) with
        ⟨old, unhidden⟩ | ⟨output, outputMember, equal⟩
      · exact List.mem_append_left _ (induction
          (Clauses.name_mem_of_mem_expandedSelect old unhidden))
      · have length := (Clauses.resolved?_eq_some resolved).1.length_eq
        rw [Output.item, SelectItem.output.injEq] at equal
        rw [equal]
        refine List.mem_append_right _ ?_
        rw [← Output.names_withExprs (show outputs.length = exprs.length by simpa using length)]
        exact List.mem_map_of_mem outputMember
  | grouped _ _ _ _ bound resolved _ =>
      have length := (Clauses.resolved?_eq_some resolved).1.length_eq
      rw [Clauses.visibleNames_of_items rfl, Output.names_withExprs
        (by simpa [bound.length_eq] using length)]
      exact List.subset_append_right _ _
  | joined _ _ _ joined leftInduction rightInduction =>
      obtain ⟨_, resolved, _, _, rfl⟩ := Statement.join_eq_ok joined
      intro name member
      obtain ⟨selected, selectedMember, rfl⟩ := List.mem_map.mp member
      have listed := Clauses.mem_outputs.mp (List.mem_filter.mp selectedMember).1
      have named := name_mem_of_mem_joinSelect listed
      simp only [Clauses.names_visibleScope] at named
      exact (List.mem_append.mp named).elim
        (fun inLeft => List.mem_append_left _ (sideNames_subset _ leftInduction inLeft))
        (fun inRight => List.mem_append_right _ (sideNames_subset _ rightInduction inRight))
  | filtered _ _ _ _ induction => exact induction
  | sorted _ _ _ _ induction => exact induction
  | deduplicated _ _ induction => exact induction
  | alreadyDistinct _ _ induction => exact induction
  | limited count _ induction => exact induction
  | aliased name _ induction => exact induction

/-! ## The columns that a plan promises -/

/-- Where a plan knows the names of its columns, its statement puts out exactly
these columns, in this order, each once and none of them hidden. -/
theorem Plan.fields_of_columns {dialect : Dialect} {plan : Plan} {names : List String}
    (built : plan.Built) (known : plan.columns dialect = .ok (some names)) :
    ∃ statement, plan.statement dialect = .ok statement ∧
      (∀ schema, statement.fields schema = names.map fun name => (name, false)) ∧
      names.Nodup := by
  obtain ⟨statement, planned, known⟩ := bind_eq_ok.mp known
  refine ⟨statement, planned, ?_⟩
  obtain ⟨draft, drafted, statementEq⟩ := bind_eq_ok.mp planned
  cases pure_eq_ok.mp statementEq
  have drafted := Plan.drafted drafted
  have closed : (draft.statement.visibleScope dialect).isOpen = false ∧
      names = draft.statement.visibleNames := by
    have known := pure_eq_ok.mp known
    split at known
    · cases known
    · rename_i notOpen
      rw [Clauses.names_visibleScope] at known
      exact ⟨by simpa using notOpen, (Option.some.inj known).symm⟩
  obtain ⟨closed, rfl⟩ := closed
  exact ⟨fun schema => (drafted.exposed schema).fields_eq closed,
    drafted.nodup_visibleNames built.distinctNames⟩

theorem Plan.fields_of_columns_narrowedTwice :
    narrowedTwice.Built ∧ narrowedTwice.columns .postgres = .ok (some ["b"]) ∧
      ∃ statement, narrowedTwice.statement .postgres = .ok statement ∧
        (∀ schema, statement.fields schema = [("b", false)]) ∧ ["b"].Nodup :=
  have known : narrowedTwice.columns .postgres = .ok (some ["b"]) := rfl
  ⟨narrowedTwice_built, known, fields_of_columns narrowedTwice_built known⟩

end SqlPlan
