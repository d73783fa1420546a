import SqlPlan.Proofs.Scoping.Joining
import SqlPlan.Proofs.Scoping.Nesting

/-!
# References of planned statements

Each step of a plan keeps every part of the statement within what its source
provides, so no part of a planned statement names anything else.
-/

namespace SqlPlan

/-- Only a statement that lists its outputs reads from a join. -/
theorem Drafted.single_of_whole {dialect : Dialect} {used : Nat} {plan : Plan} {draft : Draft}
    (drafted : Drafted dialect used plan draft) (whole : draft.statement.select = none) :
    draft.statement.scope.isJoined = false := by
  induction drafted with
  | base table used =>
      simp only [Statement.ofTable, TableRef.scope]
      split <;> rfl
  | nest _ _ =>
      rw [Draft.nest_eq]
      simp only [Scope.isJoined, Clauses.extent_visibleScope]
  | projected => cases whole
  | extended => cases whole
  | grouped => cases whole
  | joined _ _ _ joined =>
      obtain ⟨_, _, _, _, rfl⟩ := Statement.join_eq_ok joined
      cases whole
  | filtered _ _ _ _ induction => exact induction whole
  | sorted _ _ _ _ induction => exact induction whole
  | deduplicated _ _ induction => exact induction whole
  | alreadyDistinct _ _ induction => exact induction whole
  | limited count _ induction => exact induction whole
  | aliased name _ induction => exact induction whole

theorem Statement.Exposed.hiddenNames_eq_nil {schema : Schema} {statement : Statement}
    (exposed : statement.Exposed schema) (whole : statement.select = none)
    (closed : statement.scope.isOpen = false) : statement.source.hiddenNames = [] := by
  have fields := exposed.whole whole closed
  cases source : statement.source with
  | join left leftName right rightName kind on => rfl
  | relation shown =>
      cases shown with
      | table ref shownAs => rfl
      | subquery inner clauses =>
          rw [source, Source.fields, Tuple.row_tagged, Relation.fields] at fields
          rw [Source.hiddenNames, List.map_eq_nil_iff, List.filter_eq_nil_iff]
          intro output member isHidden
          have selected := Clauses.mem_selected_of_mem_outputs member (fun output => output.hidden)
            (inner.fields schema)
          rw [fields, isHidden] at selected
          simp at selected

theorem Statement.answered_named {dialect : Dialect} (name : String) {draft : Draft}
    (parts : ∀ part ∈ draft.statement.parts, part.Answered dialect) :
    ∀ part ∈ (draft.named name).statement.parts, part.Answered dialect := by
  obtain ⟨head, nested⟩ := List.forall_mem_cons.mp parts
  have source : (draft.named name).statement.source.scope dialect =
        draft.statement.source.scope dialect ∧
      (draft.named name).statement.source.hiddenNames = draft.statement.source.hiddenNames ∧
      (draft.named name).statement.source.on? = draft.statement.source.on? ∧
      (draft.named name).statement.source.statements = draft.statement.source.statements := by
    rcases Statement.named_source name draft with same | ⟨ref, shownAs, before, after⟩
    · simp [same]
    · rw [before, after]
      simp [Source.scope, Relation.scope, Source.hiddenNames, Source.on?, Source.statements,
        Relation.statements]
  obtain ⟨scope, hidden, on, statements⟩ := source
  have reads : ∀ expr, draft.statement.Reads expr → (draft.named name).statement.Reads expr := by
    intro expr reads
    unfold Statement.Reads
    rw [hidden]
    exact reads
  refine List.forall_mem_cons.mpr
    ⟨⟨?_, head.visible, ?_, head.conditions, head.grouping, ?_, ?_⟩, ?_⟩
  · rw [scope]
    exact head.scope
  · exact fun output member isHidden => reads _ (head.hidden output member isHidden)
  · rw [on]
    exact head.on
  · exact fun key member => reads _ (head.orderBy key member)
  · rw [statements]
    exact nested

/-- Every part of a statement under construction names what its source provides. -/
theorem Drafted.answered {dialect : Dialect} {used : Nat} {plan : Plan} {draft : Draft}
    (drafted : Drafted dialect used plan draft) :
    ∀ part ∈ draft.statement.parts, part.Answered dialect := by
  induction drafted with
  | base table used =>
      refine List.forall_mem_cons.mpr ⟨.ofTable table, ?_⟩
      simp [Statement.ofTable, Source.statements, Relation.statements]
  | @nest used plan draft drafted induction =>
      obtain ⟨head, nested⟩ := List.forall_mem_cons.mp induction
      have outer := head.nest drafted.single_of_whole
        (drafted.exposed Schema.ofDeclared).hiddenNames_eq_nil
      refine List.forall_mem_cons.mpr ⟨outer, ?_⟩
      rw [Draft.nest_eq, Source.statements, Relation.statements]
      exact List.forall_mem_cons.mpr ⟨head.inner, nested⟩
  | projected _ _ _ resolved induction =>
      refine Statement.forall_parts_step induction rfl fun head => ?_
      have resolves := Clauses.resolvesIn_of_resolved? head.visible resolved
      refine .ofItems rfl ?_ head.scope head.conditions head.grouping head.on head.orderBy
      intro item member
      obtain ⟨output, outputMember, rfl⟩ := List.mem_map.mp member
      exact Output.item_of_mem_withExprs resolves outputMember
  | extended drafted _ _ resolved itemsOk induction =>
      refine Statement.forall_parts_step induction rfl fun head => ?_
      have resolves := Clauses.resolvesIn_of_resolved? head.visible resolved
      refine .ofItems rfl ?_ head.scope head.conditions head.grouping head.on head.orderBy
      intro item member
      rcases Clauses.mem_extendedSelect itemsOk item member with
        ⟨old, unhidden⟩ | ⟨output, outputMember, rfl⟩
      · exact ⟨unhidden, Clauses.expandedSelect_resolvesIn head.visible drafted.single_of_whole
          item old unhidden⟩
      · exact Output.item_of_mem_withExprs resolves outputMember
  | filtered _ _ _ resolved induction =>
      refine Statement.forall_parts_step induction rfl fun head => ?_
      refine ⟨head.scope, head.visible, head.hidden, ?_, head.grouping, head.on, head.orderBy⟩
      intro condition member
      rcases List.mem_append.mp member with old | new
      · exact head.conditions condition old
      · exact Clauses.resolvesIn_of_resolved? head.visible resolved condition new
  | sorted _ _ _ ordered induction =>
      refine Statement.forall_parts_step induction rfl fun head => ?_
      refine ⟨head.scope, head.visible, head.hidden, head.conditions, head.grouping, head.on, ?_⟩
      intro key member
      obtain ⟨_, _, inlined, _⟩ := exists_mem_of_forall₂ ordered member
      intro ref refMember
      exact .inl (Clauses.resolvesIn_of_inlined head.visible inlined ref refMember)
  | grouped _ _ _ _ _ resolved induction =>
      refine Statement.forall_parts_step induction rfl fun head => ?_
      have resolves := Clauses.resolvesIn_of_resolved? head.visible resolved
      refine .ofItems rfl ?_ head.scope head.conditions ?_ head.on (by simp)
      · intro item member
        obtain ⟨output, outputMember, rfl⟩ := List.mem_map.mp member
        exact Output.item_of_mem_withExprs resolves outputMember
      · intro key member
        exact resolves key (List.mem_of_mem_take member)
  | joined _ _ _ joined leftInduction rightInduction =>
      exact Statement.answered_join joined rfl rfl leftInduction rightInduction
  | deduplicated _ _ induction =>
      refine Statement.forall_parts_step induction rfl fun head => ?_
      exact ⟨head.scope, head.visible, head.hidden, head.conditions, head.grouping, head.on,
        fun key member => head.orderBy key (Clauses.distinctOrder_subset _ member)⟩
  | alreadyDistinct _ _ induction => exact induction
  | limited count _ induction =>
      refine Statement.forall_parts_step induction rfl fun head => ?_
      exact ⟨head.scope, head.visible, head.hidden, head.conditions, head.grouping, head.on,
        head.orderBy⟩
  | aliased name _ induction => exact Statement.answered_named name induction

/-- Every part of a planned statement, at any depth, has the scope that its
source shows, and each of its references resolves there or, in an ordering and
in the keys that are selected for one, names a key that its subquery selects. -/
theorem Plan.parts_answered {dialect : Dialect} {plan : Plan} {statement : Statement}
    (planned : plan.statement dialect = .ok statement) :
    ∀ part ∈ statement.parts, part.Answered dialect := by
  obtain ⟨draft, drafted, statementEq⟩ := bind_eq_ok.mp planned
  cases pure_eq_ok.mp statementEq
  exact (Plan.drafted drafted).answered

theorem Plan.parts_answered_narrowedTwice :
    ∃ statement, narrowedTwice.statement .postgres = .ok statement ∧
      ∀ part ∈ statement.parts, part.Answered .postgres := by
  obtain ⟨statement, planned⟩ : ∃ statement, narrowedTwice.statement .postgres = .ok statement :=
    ⟨_, rfl⟩
  exact ⟨statement, planned, parts_answered planned⟩

/-- A key that was selected once for an ordering may be selected again further
out, where it is none of the columns that the source shows. -/
theorem Plan.hoisted_key_outside_scope :
    narrowedTwice.Built ∧ ∃ statement, narrowedTwice.statement .postgres = .ok statement ∧
      ∃ part ∈ statement.parts, ∃ output ∈ part.outputs,
        ¬ output.expr.ResolvesIn part.scope := by
  refine ⟨narrowedTwice_built, _, rfl, _, List.mem_cons_of_mem _ List.mem_cons_self,
    { name := "__order_2", expr := .named "__order_1", hidden := true },
    List.mem_cons_of_mem _ List.mem_cons_self, ?_⟩
  intro resolves
  have resolved := resolves { name := "__order_1" } (List.mem_singleton.mpr rfl)
  rcases resolved.2 with isOpen | shown
  · cases isOpen
  · exact absurd (List.mem_singleton.mp shown) (by decide)

end SqlPlan