import SqlPlan.Proofs.Parts

/-!
# References of a join

A join shows the columns of both sides, each under its side.  Its select list
qualifies the names that both sides have, so that a name without a qualifier is
one that a single column has.
-/

namespace SqlPlan

section Join

variable {left right : JoinInput}

theorem joinScope_resolves_left {name : String} (known : name ∈ left.scope.names) :
    (joinScope left right).Resolves { table := some left.name, name } := by
  obtain ⟨column, member, rfl⟩ := List.mem_map.mp known
  have tagged : { column with table := some left.name } ∈ (joinScope left right).columns :=
    List.mem_append_left _ (List.mem_map.mpr ⟨column, member, rfl⟩)
  exact Scope.resolves_of_mem rfl (List.mem_map.mpr ⟨_, tagged, rfl⟩)

theorem joinScope_resolves_right {name : String} (known : name ∈ right.scope.names) :
    (joinScope left right).Resolves { table := some right.name, name } := by
  obtain ⟨column, member, rfl⟩ := List.mem_map.mp known
  have tagged : { column with table := some right.name } ∈ (joinScope left right).columns :=
    List.mem_append_right _ (List.mem_map.mpr ⟨column, member, rfl⟩)
  exact Scope.resolves_of_mem rfl (List.mem_map.mpr ⟨_, tagged, rfl⟩)

theorem length_matching_joinScope (name : String) :
    ((joinScope left right).matching name).length =
      left.scope.names.count name + right.scope.names.count name := by
  simp [Scope.matching, joinScope, Scope.tagged, Scope.names, List.filter_map, List.count,
    List.countP_eq_length_filter, Function.comp_def]

theorem joinScope_resolves_bare {name : String}
    (closed : (left.scope.isOpen || right.scope.isOpen) = false)
    (once : left.scope.names.count name + right.scope.names.count name = 1) :
    (joinScope left right).Resolves { name } := by
  obtain ⟨leftClosed, rightClosed⟩ := Bool.or_eq_false_iff.mp closed
  have extent : (joinScope left right).extent = .joined none := by
    simp [joinScope, leftClosed, rightClosed]
  simp only [Scope.Resolves, extent, length_matching_joinScope]
  exact ⟨once, trivial⟩

/-- A name whose item occurs once is itself listed once. -/
theorem count_eq_one_of_nodup_flatMap {names : List String} {listed : String → List String}
    (distinct : (names.flatMap listed).Nodup) {name item : String} (member : name ∈ names)
    (itemMember : item ∈ listed name) : names.count name = 1 := by
  induction names with
  | nil => cases member
  | cons first names induction =>
      rw [List.flatMap_cons, List.nodup_append] at distinct
      by_cases same : first = name
      · subst same
        have absent : first ∉ names := by
          intro later
          exact distinct.2.2 item itemMember item
            (List.mem_flatMap.mpr ⟨first, later, itemMember⟩) rfl
        simp [List.count_eq_zero_of_not_mem absent]
      · have later : name ∈ names := by simpa [Ne.symm same] using member
        rw [List.count_cons_of_ne same]
        exact induction distinct.2.1 later

theorem JoinInput.prefixedItem_resolvesIn {scope : Scope} {side : JoinInput} {name : String}
    (resolves : scope.Resolves { table := some side.name, name }) :
    (side.prefixedItem name).ResolvesIn scope := by
  intro output outputMember
  cases Option.mem_some.mp outputMember
  intro ref refMember
  cases List.mem_singleton.mp refMember
  exact resolves

/-- The columns of one side of a join; unshared names are then unique. -/
theorem joinItems_resolvesIn {scope : Scope} {keys : List String} {side other : JoinInput}
    {keyItem : String → List SelectItem}
    (distinct : ((joinItems keys side other keyItem).filterMap SelectItem.name?).Nodup)
    (key : ∀ name ∈ keys, ∀ item ∈ keyItem name, item.ResolvesIn scope)
    (shared : ∀ name ∈ side.scope.names, scope.Resolves { table := some side.name, name })
    (own : ∀ name, side.scope.names.count name = 1 → other.scope.names.count name = 0 →
      scope.Resolves { name }) :
    ∀ item ∈ joinItems keys side other keyItem, item.ResolvesIn scope := by
  rw [joinItems, List.filterMap_flatMap] at distinct
  intro item member
  obtain ⟨name, nameMember, ⟨isKey, itemMember⟩ | ⟨_, _, rfl⟩ | ⟨notKey, notShared, rfl⟩⟩ :=
    mem_joinItems member
  · exact key name isKey item itemMember
  · exact JoinInput.prefixedItem_resolvesIn (shared name nameMember)
  · apply SelectItem.resolvesIn_ofColumn
    apply own name
    · apply count_eq_one_of_nodup_flatMap distinct nameMember
      rw [if_neg (by simpa using notKey), if_neg (by simpa using notShared)]
      exact List.mem_singleton.mpr rfl
    · exact List.count_eq_zero_of_not_mem notShared

theorem joinItemsBesideOpen_resolvesIn {scope : Scope} {side : JoinInput}
    (known : ∀ name ∈ side.scope.names, scope.Resolves { table := some side.name, name }) :
    ∀ item ∈ joinItemsBesideOpen side, item.ResolvesIn scope := by
  intro item member
  rcases mem_joinItemsBesideOpen member with rfl | ⟨name, nameMember, rfl⟩
  · intro output outputMember
    cases outputMember
  · exact JoinInput.prefixedItem_resolvesIn (known name nameMember)

theorem joinKey_resolvesIn {scope : Scope} {kind : JoinKind} {left right name : String}
    (inLeft : scope.Resolves { table := some left, name })
    (inRight : scope.Resolves { table := some right, name }) :
    (joinKey kind left right name).ResolvesIn scope := by
  intro ref member
  cases kind with
  | inner | left =>
      cases List.mem_singleton.mp member
      exact inLeft
  | right =>
      cases List.mem_singleton.mp member
      exact inRight
  | full =>
      simp only [joinKey, Expr.refs_call, Expr.refs, List.flatMap_cons, List.flatMap_nil,
        List.append_nil, List.singleton_append, List.mem_cons, List.not_mem_nil, or_false] at member
      rcases member with rfl | rfl
      · exact inLeft
      · exact inRight

theorem joinSelect_resolvesIn {kind : JoinKind} {on : Expr}
    (distinct : ((joinSelect kind on left right).filterMap SelectItem.name?).Nodup)
    (resolves : on.ResolvesIn (joinScope left right)) :
    ∀ item ∈ joinSelect kind on left right, item.ResolvesIn (joinScope left right) := by
  unfold joinSelect at distinct ⊢
  split
  · intro item member
    rcases List.mem_append.mp member with inLeft | inRight
    · exact joinItemsBesideOpen_resolvesIn (fun _ => joinScope_resolves_left) item inLeft
    · exact joinItemsBesideOpen_resolvesIn (fun _ => joinScope_resolves_right) item inRight
  · rename_i notOpen
    have closed : (left.scope.isOpen || right.scope.isOpen) = false := by simpa using notOpen
    rw [if_neg notOpen, List.filterMap_append] at distinct
    intro item member
    rcases List.mem_append.mp member with inLeft | inRight
    · refine joinItems_resolvesIn (List.Nodup.of_append_left distinct) ?_
        (fun _ => joinScope_resolves_left) ?_ item inLeft
      · intro name isKey keyItem keyMember
        cases List.mem_singleton.mp keyMember
        intro output outputMember
        cases Option.mem_some.mp outputMember
        obtain ⟨readLeft, readRight⟩ := Expr.mem_columnRefs_of_mem_equatedNames isKey
        exact joinKey_resolvesIn (resolves _ readLeft) (resolves _ readRight)
      · intro name once absent
        exact joinScope_resolves_bare closed (by rw [once, absent])
    · refine joinItems_resolvesIn (List.Nodup.of_append_right distinct) (by simp)
        (fun _ => joinScope_resolves_right) ?_ item inRight
      intro name once absent
      exact joinScope_resolves_bare closed (by rw [once, absent])

end Join

namespace Statement.Answered

variable {dialect : Dialect}

theorem unordered {statement : Statement} (answered : statement.Answered dialect) :
    Statement.Answered dialect
      { toClauses := statement.unordered.toClauses, source := statement.source } := by
  obtain ⟨orderBy, subset, clauses⟩ := statement.unordered_toClauses
  rw [clauses]
  exact ⟨answered.scope, answered.visible, answered.hidden, answered.conditions,
    answered.grouping, answered.on, fun key member => answered.orderBy key (subset member)⟩

end Statement.Answered

namespace JoinInput

variable {dialect : Dialect} {side : JoinInput}

/-- A side of a join shows what its statement shows. -/
theorem scope_relation (answered : side.statement.Answered dialect) :
    side.relation.scope dialect = side.statement.visibleScope dialect := by
  obtain ⟨orderBy, _, clauses⟩ := side.statement.unordered_toClauses
  rcases side.relation_cases with ⟨ref, whole, relation⟩ | relation
  · obtain ⟨⟨shownAs, source⟩, select, _⟩ := Statement.wholeTable?_eq_some whole
    rw [Statement.unordered_source] at source
    have select : side.statement.select = none := by simpa [clauses] using select
    have scope : side.statement.scope = ref.scope := by rw [answered.scope, source]; rfl
    rw [relation, Relation.scope, Clauses.visibleScope, select, scope]
    cases declared : ref.columns <;> simp [TableRef.scope, declared, Scope.isOpen]
  · rw [relation, Relation.scope, clauses]
    rfl

end JoinInput

theorem Statement.answered_join {dialect : Dialect} {kind : JoinKind} {on : Expr}
    {left right : JoinInput} {statement : Statement}
    (success : Statement.join dialect kind on left right = .ok statement)
    (leftScope : left.scope = left.statement.visibleScope dialect)
    (rightScope : right.scope = right.statement.visibleScope dialect)
    (leftParts : ∀ part ∈ left.statement.parts, part.Answered dialect)
    (rightParts : ∀ part ∈ right.statement.parts, part.Answered dialect) :
    ∀ part ∈ statement.parts, part.Answered dialect := by
  obtain ⟨_, resolved, resolvedOk, distinct, rfl⟩ := Statement.join_eq_ok success
  have onResolves : resolved.ResolvesIn (joinScope left right) := by
    obtain ⟨substitution, replaced, rfl⟩ := Expr.tryMapColumns_ok resolvedOk
    intro ref member
    rw [Expr.columnRefs_mapColumns] at member
    obtain ⟨original, originalMember, member⟩ := List.mem_flatMap.mp member
    obtain ⟨column, columnOk, columnEq⟩ := bind_eq_ok.mp (replaced original originalMember)
    rw [← pure_eq_ok.mp columnEq] at member
    cases List.mem_singleton.mp member
    exact Scope.resolves_of_resolve columnOk
  have scope : joinScope left right = Source.scope dialect
      (.join left.relation left.name right.relation right.name kind resolved) := by
    rw [Source.scope, JoinInput.scope_relation (List.forall_mem_cons.mp leftParts).1,
      JoinInput.scope_relation (List.forall_mem_cons.mp rightParts).1, ← leftScope, ← rightScope]
    rfl
  refine List.forall_mem_cons.mpr ⟨?_, ?_⟩
  · refine .ofItems rfl ?_ scope (by simp) (by simp) ?_ (by simp)
    · intro item member
      exact ⟨joinSelect_unhidden item member,
        joinSelect_resolvesIn distinct onResolves item member⟩
    · intro condition member
      cases Option.mem_some.mp member
      exact onResolves
  · rw [Source.statements]
    exact List.forall_mem_append.mpr
      ⟨JoinInput.forall_statements leftParts .unordered,
        JoinInput.forall_statements rightParts .unordered⟩

end SqlPlan
