import SqlPlan.Proofs.Scoping.Resolving

/-!
# References across a nesting

A statement that becomes the subquery of another shows the columns it showed
before.  Its ordering keys are read outside under the names of columns that it
shows, or under those of the keys that it selects in addition.
-/

namespace SqlPlan

namespace Clauses

variable {clauses : Clauses} {dialect : Dialect}

theorem resolves_visibleScope {name : String}
    (known : (clauses.visibleScope dialect).isOpen = true ∨ name ∈ clauses.visibleNames) :
    (clauses.visibleScope dialect).Resolves { name } :=
  Scope.resolves_of_single (extent_visibleScope clauses dialect)
    (by rwa [names_visibleScope])

theorem name_mem_visibleNames {items : List SelectItem} (select : clauses.select = some items)
    {output : SelectOutput} (member : output ∈ clauses.visibleOutputs) :
    output.name ∈ clauses.visibleNames := by
  simp only [visibleNames, select]
  exact List.mem_map_of_mem member

theorem isOpen_visibleScope_of_star {table : Option String} (star : clauses.star? = some table) :
    (clauses.visibleScope dialect).isOpen = true := by
  cases select : clauses.select with
  | none => simp [star?, select] at star
  | some items => simp [isOpen_visibleScope, select, star]

theorem carriedRef?_resolves {items : List SelectItem} (select : clauses.select = some items)
    {ref : ColumnRef} {expr : Expr} (carried : clauses.carriedRef? ref = some expr) :
    ∃ name, expr = .named name ∧ (clauses.visibleScope dialect).Resolves { name } := by
  unfold carriedRef? at carried
  split at carried
  · rename_i output found
    cases carried
    exact ⟨_, rfl, resolves_visibleScope
      (.inr (name_mem_visibleNames select (List.mem_of_find?_eq_some found)))⟩
  · split at carried
    · rename_i behindStar
      cases carried
      exact ⟨_, rfl, resolves_visibleScope (.inl (isOpen_visibleScope_of_star behindStar.1))⟩
    · cases carried

/-- A key that a list of outputs carries is written in terms of what is shown. -/
theorem carried?_resolvesIn {items : List SelectItem} (select : clauses.select = some items)
    {key expr : Expr} (carried : clauses.carried? key = some expr) :
    expr.ResolvesIn (clauses.visibleScope dialect) := by
  simp only [carried?, select] at carried
  split at carried
  · rename_i output found
    cases carried
    intro ref member
    cases List.mem_singleton.mp member
    exact resolves_visibleScope
      (.inr (name_mem_visibleNames select (List.mem_of_find?_eq_some found)))
  · split at carried
    · rename_i all
      cases carried
      intro ref member
      rw [Expr.columnRefs_mapColumns] at member
      obtain ⟨original, originalMember, member⟩ := List.mem_flatMap.mp member
      have carriedRef := List.all_eq_true.mp all original originalMember
      obtain ⟨replaced, replacedEq⟩ := Option.isSome_iff_exists.mp carriedRef
      obtain ⟨name, rfl, resolves⟩ := carriedRef?_resolves select replacedEq
      rw [replacedEq] at member
      cases List.mem_singleton.mp member
      exact resolves
    · cases carried

end Clauses

namespace Statement.Answered

variable {dialect : Dialect} {draft : Draft}

/-- The statement inside, which selects further keys for the one around it. -/
theorem inner (answered : draft.statement.Answered dialect) :
    Statement.Answered dialect { toClauses := draft.inner, source := draft.statement.source } where
  scope := answered.scope
  visible := by
    have same : draft.inner.visibleOutputs = draft.statement.visibleOutputs :=
      Clauses.visibleOutputs_nested Draft.hoistedKeys_of_select_none draft.hoistedKeys_hidden
    rw [same]
    exact answered.visible
  hidden := by
    have appended : draft.inner.outputs = draft.statement.outputs ++ draft.hoistedKeys :=
      Clauses.outputs_nested Draft.hoistedKeys_of_select_none
    intro output member hidden
    rw [appended] at member
    rcases List.mem_append.mp member with old | new
    · exact answered.hidden output old hidden
    · obtain ⟨_, _, key, keyMember, same⟩ := Clauses.mem_hoisted new
      rw [same]
      exact answered.orderBy key keyMember
  conditions := answered.conditions
  grouping := answered.grouping
  on := answered.on
  orderBy := by
    intro key member
    have kept : key ∈ draft.statement.orderBy := by
      simp only [Draft.inner, Clauses.nested] at member
      split at member
      · exact member
      · cases member
    exact answered.orderBy key kept

/-- A statement that selects all of one relation shows that relation. -/
theorem resolves_visibleScope_of_whole {statement : Statement} {ref : ColumnRef}
    (whole : statement.select = none) (single : statement.scope.isJoined = false)
    (resolves : statement.scope.Resolves ref) : (statement.visibleScope dialect).Resolves ref := by
  cases extent : statement.scope.extent with
  | joined openSide => simp [Scope.isJoined, extent] at single
  | single isOpen =>
      obtain ⟨table, name⟩ := ref
      simp only [Scope.Resolves, extent] at resolves
      obtain ⟨rfl, known⟩ := resolves
      apply Clauses.resolves_visibleScope
      rw [Clauses.isOpen_visibleScope]
      simpa [Clauses.visibleNames, whole, Scope.isOpen, extent] using known

/-- The statement around, when a statement without a list of outputs reads one
relation and leaves nothing hidden below it. -/
theorem nest (answered : draft.statement.Answered dialect)
    (single : draft.statement.select = none → draft.statement.scope.isJoined = false)
    (settled : draft.statement.select = none → draft.statement.scope.isOpen = false →
      draft.statement.source.hiddenNames = []) :
    (draft.nest dialect).statement.Answered dialect := by
  have orderBy : ∀ carried ∈ draft.outerKeys, ∀ ref ∈ carried.expr.columnRefs,
      (draft.statement.visibleScope dialect).Resolves ref ∨
        ref.table = none ∧ ref.name ∈
          (Source.relation (.subquery draft.statement.source draft.inner)).hiddenNames := by
    intro carried member ref refMember
    obtain ⟨key, keyMember, _, written | ⟨output, hoisted, _, read⟩⟩ :=
      Clauses.mem_carriedKeys member
    · left
      cases select : draft.statement.select with
      | some items => exact Clauses.carried?_resolvesIn select written ref refMember
      | none =>
          rw [Clauses.carried?_of_select_none select] at written
          rw [← Option.some.inj written] at refMember
          rcases answered.orderBy key keyMember ref refMember with resolves | ⟨bare, isHidden⟩
          · exact resolves_visibleScope_of_whole select (single select) resolves
          · obtain ⟨table, name⟩ := ref
            cases bare
            apply Clauses.resolves_visibleScope
            -- A star over an open source passes its hidden keys on; a closed source has none.
            cases isOpen : draft.statement.scope.isOpen with
            | true => exact .inl (by simp [Clauses.isOpen_visibleScope, select, isOpen])
            | false => simp [settled select isOpen] at isHidden
    · right
      rw [read] at refMember
      cases List.mem_singleton.mp refMember
      refine ⟨rfl, List.mem_map.mpr ⟨output, List.mem_filter.mpr ⟨?_, ?_⟩, rfl⟩⟩
      · have appended : draft.inner.outputs = draft.statement.outputs ++ draft.hoistedKeys :=
          Clauses.outputs_nested Draft.hoistedKeys_of_select_none
        rw [appended]
        exact List.mem_append_right _ hoisted
      · exact draft.hoistedKeys_hidden output hoisted
  have scope : draft.statement.visibleScope dialect = draft.inner.visibleScope dialect :=
    (draft.visibleScope_inner dialect).symm
  rw [draft.nest_eq dialect]
  split
  · exact ⟨scope, by simp [Clauses.visibleOutputs, Clauses.outputs], by simp [Clauses.outputs],
      by simp, by simp, by simp [Source.on?], orderBy⟩
  · refine .ofItems rfl ?_ scope (by simp) (by simp) (by simp [Source.on?]) orderBy
    intro item member
    obtain ⟨name, known, rfl⟩ := List.mem_map.mp member
    exact ⟨rfl, SelectItem.resolvesIn_ofColumn (Clauses.resolves_visibleScope (.inr known))⟩

end Statement.Answered

end SqlPlan
