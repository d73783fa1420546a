import SqlPlan.Proofs.Stepping
import SqlPlan.Proofs.Visibility

/-!
# References behind the name of a plan

A name that is given to a plan qualifies what the plan shows.  The next step takes
a qualified reference for the bare one wherever its statement reads from a single
relation, nested or not.  A statement that reads from a join looks up qualifiers
among the two sides alone, so there the name of the plan is of no use.
-/

namespace SqlPlan

/-- The expression with every reference behind one name. -/
def Expr.qualified (name : String) (expr : Expr) : Expr :=
  expr.mapColumns .everywhere fun ref => .column { ref with table := some name }

namespace Expr

theorem columnRefs_renamed (replace : ColumnRef → ColumnRef) (expr : Expr) :
    (expr.mapColumns .everywhere fun ref => .column (replace ref)).columnRefs =
      expr.columnRefs.map replace := by
  rw [columnRefs_mapColumns, List.map_eq_flatMap]
  apply List.flatMap_congr
  intro ref member
  rfl

theorem columnRefs_qualified (name : String) (expr : Expr) :
    (expr.qualified name).columnRefs =
      expr.columnRefs.map fun ref => { ref with table := some name } :=
  columnRefs_renamed _ expr

theorem mapColumns_qualified (name : String) (replace : ColumnRef → Expr) (expr : Expr) :
    (expr.qualified name).mapColumns .everywhere replace =
      expr.mapColumns .everywhere fun ref => replace { ref with table := some name } := by
  rw [qualified, mapColumns_mapColumns]
  rfl

theorem aggregate?_qualified {name : String} {expr : Expr} (plain : expr.aggregate? = none) :
    (expr.qualified name).aggregate? = none :=
  aggregate?_mapColumns plain fun _ _ => rfl

/-- Columns in the places of references tell what each was replaced by. -/
theorem eq_of_mapColumns_eq {expr : Expr} {first second : ColumnRef → ColumnRef}
    (equal : expr.mapColumns .everywhere (fun ref => .column (first ref)) =
      expr.mapColumns .everywhere fun ref => .column (second ref)) :
    ∀ ref ∈ expr.columnRefs, first ref = second ref := by
  have refs := congrArg columnRefs equal
  rw [columnRefs_renamed, columnRefs_renamed] at refs
  exact List.map_inj_left.mp refs

end Expr

/-! ## Single relations -/

namespace Clauses

variable {clauses : Clauses} {name : String} {ref : ColumnRef}

theorem locateInSource_qualified (single : clauses.scope.isJoined = false)
    (named : name ∈ clauses.qualifiers) (bare : ref.table = none) :
    clauses.locateInSource { ref with table := some name } = clauses.locateInSource ref := by
  have extent := Scope.extent_of_single single
  have contained : clauses.qualifiers.contains name = true := by simpa using named
  unfold locateInSource
  simp only [Scope.resolve, extent, Scope.resolveSingle, bare, contained, if_true]
  rfl

/-- Where a statement reads from a single relation, its name may stand before what it shows. -/
theorem locate_qualified (single : clauses.scope.isJoined = false)
    (named : name ∈ clauses.qualifiers) (bare : ref.table = none) :
    clauses.locate { ref with table := some name } = clauses.locate ref := by
  cases select : clauses.select with
  | none =>
      rw [locate_of_select_none select, locate_of_select_none select]
      exact locateInSource_qualified single named bare
  | some items =>
      have contained : clauses.qualifiers.contains name = true := by simpa using named
      rw [locate_of_select_some select bare, locate]
      simp only [select, single, contained, Bool.false_eq_true, if_false, if_true]
      rfl

/-- The sides of a join are named apart from the statement that reads from them. -/
theorem locate_requalified (joined : clauses.scope.isJoined = true) (qualifiers : List String)
    (ref : ColumnRef) : { clauses with qualifiers }.locate ref = clauses.locate ref := by
  cases extent : clauses.scope.extent with
  | single isOpen => simp [Scope.isJoined, extent] at joined
  | joined openSide =>
      simp only [locate, joined, locateOutput, locateInSource, Scope.resolve, extent, if_true]
      rfl

/-- A reference behind a name is read on the side of a join that has the name. -/
theorem locate_side (joined : clauses.scope.isJoined = true) (listed : clauses.select ≠ none)
    {located : Located} (qualified : ref.table = some name) :
    clauses.locate ref = .ok located ↔
      clauses.scope.Resolves ref ∧ located = .source (.column ref) := by
  cases extent : clauses.scope.extent with
  | single isOpen => simp [Scope.isJoined, extent] at joined
  | joined openSide =>
      obtain ⟨items, select⟩ := Option.ne_none_iff_exists'.mp listed
      have known : (clauses.scope.columns.any fun column => column.ref == ref) = true ↔
          ref ∈ clauses.scope.columns.map ScopeColumn.ref := by simp
      simp only [locate, select, qualified, joined, if_true, locateInSource, Scope.resolve, extent,
        Scope.resolveJoined, Scope.Resolves, ← known]
      by_cases shown : (clauses.scope.columns.any fun column => column.ref == ref) = true ∨
        openSide = some name
      · rw [if_pos (by simpa using shown)]
        constructor
        · intro success
          exact ⟨shown, (Except.ok.inj success).symm⟩
        · rintro ⟨_, rfl⟩
          rfl
      · rw [if_neg (by simpa using shown)]
        constructor
        · intro success
          cases success
        · intro found
          exact absurd found.1 shown

end Clauses

namespace Draft

variable {dialect : Dialect} {draft : Draft} {name : String} {predicate : Expr}

theorem settled_qualified (single : draft.statement.scope.isJoined = false)
    (named : name ∈ draft.statement.qualifiers)
    (bare : ∀ ref ∈ predicate.columnRefs, ref.table = none) :
    draft.settled dialect (predicate.qualified name).columnRefs =
      draft.settled dialect predicate.columnRefs := by
  have derived : (predicate.qualified name).columnRefs.any draft.statement.isDerived =
      predicate.columnRefs.any draft.statement.isDerived := by
    rw [Expr.columnRefs_qualified, List.any_map, Bool.eq_iff_iff, List.any_eq_true,
      List.any_eq_true]
    apply exists_congr
    intro ref
    apply and_congr_right
    intro member
    rw [Function.comp_apply, Clauses.isDerived, Clauses.isDerived,
      Clauses.locate_qualified single named (bare ref member)]
  rw [settled, settled, derived]

theorem single_settled (single : draft.statement.scope.isJoined = false)
    (refs : List ColumnRef) :
    (draft.settled dialect refs).statement.scope.isJoined = false := by
  unfold settled
  split
  · exact single_nest dialect draft
  · exact single

theorem qualifiers_settled (draft : Draft) (refs : List ColumnRef) :
    (draft.settled dialect refs).statement.qualifiers = draft.statement.qualifiers := by
  unfold settled
  split
  · rw [nest_eq]
  · rfl

theorem restricted_qualified (alike : ∀ ref ∈ predicate.columnRefs, ∃ located,
      draft.statement.locate ref = .ok located ∧
        draft.statement.locate { ref with table := some name } = .ok located) :
    draft.restricted (predicate.qualified name) = draft.restricted predicate := by
  have condition : (predicate.qualified name).mapColumns .everywhere draft.statement.sourceOf =
      predicate.mapColumns .everywhere draft.statement.sourceOf := by
    rw [Expr.mapColumns_qualified]
    apply Expr.mapColumns_congr
    intro ref member
    obtain ⟨located, bareFound, found⟩ := alike ref member
    simp only [Clauses.sourceOf, bareFound, found]
  rw [restricted, restricted, condition]

/-- On a single relation a condition behind its name is the bare condition. -/
theorem filter_qualified (single : (draft.unsealed dialect).statement.scope.isJoined = false)
    (named : name ∈ (draft.unsealed dialect).statement.qualifiers)
    (bare : ∀ ref ∈ predicate.columnRefs, ref.table = none) {result : Draft}
    (filtered : draft.filter dialect predicate = .ok result) :
    draft.filter dialect (predicate.qualified name) = .ok result := by
  obtain ⟨plain, accepts, rfl⟩ := filter_eq_ok.mp filtered
  have settled : (draft.unsealed dialect).settled dialect (predicate.qualified name).columnRefs =
      (draft.unsealed dialect).settled dialect predicate.columnRefs :=
    settled_qualified single named bare
  have outer : ((draft.unsealed dialect).settled dialect
      predicate.columnRefs).statement.scope.isJoined = false := single_settled single _
  have outerNamed : name ∈ ((draft.unsealed dialect).settled dialect
      predicate.columnRefs).statement.qualifiers := by
    rw [qualifiers_settled]
    exact named
  rw [filter_eq_ok, settled, restricted_qualified]
  · refine ⟨Expr.aggregate?_qualified plain, ?_, rfl⟩
    intro qualified member
    rw [Expr.columnRefs_qualified] at member
    obtain ⟨ref, refMember, rfl⟩ := List.mem_map.mp member
    rw [settled, Clauses.refusal?, Clauses.refusal?,
      Clauses.locate_qualified single named (bare ref refMember),
      Clauses.locate_qualified outer outerNamed (bare ref refMember)]
    exact accepts ref refMember
  · intro ref member
    obtain ⟨located, found⟩ := Clauses.refusal?_eq_none.mp (accepts ref member).2
    refine ⟨located, found, ?_⟩
    rw [Clauses.locate_qualified outer outerNamed (bare ref member), found]

/-! ## Joins -/

/-- References that are read against a join itself stand for columns of its sides. -/
theorem locate_of_joined_settled {refs : List ColumnRef}
    (joined : (draft.settled dialect refs).statement.scope.isJoined = true)
    (accepts : draft.Accepts dialect refs) :
    ∀ ref ∈ refs, ∃ column, draft.statement.locate ref = .ok (.source (.column column)) := by
  have underived : ∀ ref ∈ refs, draft.statement.isDerived ref = false := by
    unfold settled at joined
    split at joined
    · rw [single_nest] at joined
      cases joined
    · rename_i none
      simpa using none
  intro ref member
  obtain ⟨located, found⟩ := Clauses.refusal?_eq_none.mp (accepts ref member).1
  have passed : located.isDerived = false := by
    simpa only [Clauses.isDerived, found] using underived ref member
  obtain ⟨column, isColumn⟩ := Clauses.exists_column_of_locate found passed
  cases located with
  | source expr =>
      cases isColumn
      exact ⟨column, found⟩
  | derived output => cases passed

/-- The condition that was added tells which columns its references stand for. -/
theorem locate_of_restricted_eq {replace : ColumnRef → ColumnRef}
    (located : ∀ ref ∈ predicate.columnRefs,
      ∃ column, draft.statement.locate ref = .ok (.source (.column column)))
    (equal : predicate.mapColumns .everywhere draft.statement.sourceOf =
      predicate.mapColumns .everywhere fun ref => .column (replace ref)) :
    ∀ ref ∈ predicate.columnRefs,
      draft.statement.locate ref = .ok (.source (.column (replace ref))) := by
  have columns : predicate.mapColumns .everywhere draft.statement.sourceOf =
      predicate.mapColumns .everywhere fun ref =>
        .column ((draft.statement.sourceOf ref).column?.getD ref) := by
    apply Expr.mapColumns_congr
    intro ref member
    obtain ⟨column, found⟩ := located ref member
    simp [Clauses.sourceOf, found, Located.inlined, Expr.column?]
  rw [columns] at equal
  intro ref member
  obtain ⟨column, found⟩ := located ref member
  have same := Expr.eq_of_mapColumns_eq equal ref member
  simp only [Clauses.sourceOf, found, Located.inlined, Expr.column?, Option.getD_some] at same
  rw [found, same]

/-- On a join a condition behind a name is the bare condition only where the bare
names stand for columns of a side of that name. -/
theorem filter_qualified_iff_of_joined (unsealed : draft.statement.isSealed = false)
    (joined : draft.statement.scope.isJoined = true) (listed : draft.statement.select ≠ none)
    (visible : ∀ output ∈ draft.statement.visibleOutputs,
      output.expr.ResolvesIn draft.statement.scope) {result : Draft}
    (filtered : draft.filter dialect predicate = .ok result) :
    (∃ other, draft.filter dialect (predicate.qualified name) = .ok other ∧
        other.statement = result.statement) ↔
      ∀ ref ∈ predicate.columnRefs,
        draft.statement.locate ref = .ok (.source (.column { ref with table := some name })) := by
  have current : draft.unsealed dialect = draft := by simp [Draft.unsealed, unsealed]
  rw [filter_eq_ok, current] at filtered
  obtain ⟨plain, accepts, rfl⟩ := filtered
  have qualifiedSettled (located : ∀ ref ∈ predicate.columnRefs,
      draft.statement.locate { ref with table := some name } =
        .ok (.source (.column { ref with table := some name }))) :
      draft.settled dialect (predicate.qualified name).columnRefs = draft := by
    apply settled_of_located
    rw [Expr.columnRefs_qualified, List.forall_mem_map]
    exact fun ref member => ⟨_, located ref member⟩
  simp only [filter_eq_ok, current]
  constructor
  · rintro ⟨_, ⟨_, qualifiedAccepts, rfl⟩, equal⟩
    have located : ∀ ref ∈ predicate.columnRefs,
        draft.statement.locate { ref with table := some name } =
          .ok (.source (.column { ref with table := some name })) := by
      intro ref member
      have qualifiedMember :
          { ref with table := some name } ∈ (predicate.qualified name).columnRefs := by
        rw [Expr.columnRefs_qualified]
        exact List.mem_map_of_mem member
      obtain ⟨found, success⟩ := Clauses.refusal?_eq_none.mp (qualifiedAccepts _ qualifiedMember).1
      rw [success, ((Clauses.locate_side joined listed rfl).mp success).2]
    rw [qualifiedSettled located] at equal
    -- Nesting would have left the join, so the bare names stand for columns of its sides too.
    have stays : (draft.settled dialect predicate.columnRefs).statement.scope.isJoined = true := by
      have scope := congrArg (fun result : Statement => result.scope.isJoined) equal
      exact scope.symm.trans joined
    have bareLocated := locate_of_joined_settled stays accepts
    rw [settled_of_located fun ref member => (bareLocated ref member).elim fun _ found => ⟨_, found⟩]
      at equal
    have conditions := congrArg (fun result : Statement => result.conditions) equal
    have condition := List.singleton_inj.mp (List.append_cancel_left conditions)
    rw [Expr.mapColumns_qualified] at condition
    refine locate_of_restricted_eq bareLocated (condition.symm.trans ?_)
    apply Expr.mapColumns_congr
    intro ref member
    simp only [Clauses.sourceOf, located ref member, Located.inlined]
  · intro located
    have alike : ∀ ref ∈ predicate.columnRefs,
        draft.statement.locate { ref with table := some name } =
          .ok (.source (.column { ref with table := some name })) := by
      intro ref member
      refine (Clauses.locate_side joined listed rfl).mpr ⟨?_, rfl⟩
      have stands := Clauses.resolvesIn_of_locates visible (Clauses.locate_eq_ok (located ref member))
      exact stands _ (List.mem_singleton.mpr rfl)
    have same := restricted_qualified fun ref member =>
      ⟨_, located ref member, alike ref member⟩
    rw [qualifiedSettled alike, settled_of_located fun ref member => ⟨_, located ref member⟩]
    refine ⟨_, ⟨Expr.aggregate?_qualified plain, ?_, rfl⟩, by rw [same]⟩
    intro qualified member
    rw [qualifiedSettled alike]
    rw [Expr.columnRefs_qualified] at member
    obtain ⟨ref, refMember, rfl⟩ := List.mem_map.mp member
    have accepted := Clauses.refusal?_eq_none.mpr ⟨_, alike ref refMember⟩
    exact ⟨accepted, accepted⟩

end Draft

/-! ## Named plans -/

namespace Draft

variable {dialect : Dialect} {draft : Draft}

theorem single_unsealed
    (single : draft.statement.isSealed = true ∨ draft.statement.scope.isJoined = false) :
    (draft.unsealed dialect).statement.scope.isJoined = false := by
  unfold unsealed
  split
  · exact single_nest dialect draft
  · rename_i unsealed
    exact single.resolve_left unsealed

theorem qualifiers_unsealed (draft : Draft) :
    (draft.unsealed dialect).statement.qualifiers = draft.statement.qualifiers := by
  unfold unsealed
  split
  · rw [nest_eq]
  · rfl

end Draft

namespace Plan

variable {dialect : Dialect} {plan : Plan} {name : String} {predicate : Expr}

theorem statement_filtered_aliased {draft : Draft} (drafted : plan.draft dialect 0 = .ok draft)
    {filtered : Statement} :
    (Plan.filtered (.aliased plan name) predicate).statement dialect = .ok filtered ↔
      ∃ result, (draft.named name).filter dialect predicate = .ok result ∧
        result.statement = filtered := by
  simp only [Plan.statement, Plan.draft, drafted, bind_eq_ok, pure_eq_ok]
  constructor
  · rintro ⟨result, ⟨_, ⟨_, ⟨⟩, rfl⟩, filters⟩, rfl⟩
    exact ⟨result, filters, rfl⟩
  · rintro ⟨result, filters, rfl⟩
    exact ⟨result, ⟨_, ⟨draft, rfl, rfl⟩, filters⟩, rfl⟩

/-- What a filter says about the columns of a named plan it may say behind the name, unless
the plan ends in a join: there the columns of a side are the only ones behind a name. -/
theorem alias_qualifies_columns_iff {statement filtered : Statement}
    (planned : plan.statement dialect = .ok statement)
    (bare : ∀ ref ∈ predicate.columnRefs, ref.table = none)
    (filters : (Plan.filtered (.aliased plan name) predicate).statement dialect =
      .ok filtered) :
    (Plan.filtered (.aliased plan name) (predicate.qualified name)).statement dialect =
        .ok filtered ↔
      statement.isSealed = true ∨ statement.scope.isJoined = false ∨
        ∀ ref ∈ predicate.columnRefs,
          statement.locate ref = .ok (.source (.column { ref with table := some name })) := by
  obtain ⟨draft, drafted, isStatement⟩ := bind_eq_ok.mp planned
  cases pure_eq_ok.mp isStatement
  rw [statement_filtered_aliased drafted] at filters ⊢
  obtain ⟨result, filtersOk, rfl⟩ := filters
  by_cases single : draft.statement.isSealed = true ∨ draft.statement.scope.isJoined = false
  · have unsealed : ((draft.named name).unsealed dialect).statement.scope.isJoined = false :=
      Draft.single_unsealed single
    have named : name ∈ ((draft.named name).unsealed dialect).statement.qualifiers := by
      rw [Draft.qualifiers_unsealed]
      exact List.mem_singleton.mpr rfl
    rw [← or_assoc]
    exact iff_of_true ⟨result, Draft.filter_qualified unsealed named bare filtersOk, rfl⟩
      (.inl single)
  · rw [not_or, Bool.not_eq_true, Bool.not_eq_false] at single
    obtain ⟨unsealed, joined⟩ := single
    have drafting := Plan.drafted drafted
    have listed : draft.statement.select ≠ none := by
      intro whole
      rw [drafting.single_of_whole whole] at joined
      cases joined
    have visible := (List.forall_mem_cons.mp drafting.answered).1.visible
    have namedUnsealed : (draft.named name).statement.isSealed = false := unsealed
    rw [Draft.filter_qualified_iff_of_joined namedUnsealed joined listed visible filtersOk]
    simp only [unsealed, joined, Bool.false_eq_true, Bool.true_eq_false, false_or]
    apply forall₂_congr
    intro ref member
    rw [← Clauses.locate_requalified joined [name] ref]
    rfl

/-- Pairs joined with pairs. -/
def joinedPairs : Plan :=
  .joined (.base { name := "t", columns := some [⟨"a", none⟩, ⟨"b", none⟩] })
    (.base { name := "u", columns := some [⟨"k", none⟩, ⟨"d", none⟩] }) .inner
    (.binary (.comparison .equal) (.named "a") (.named "k"))

theorem alias_qualifies_columns_iff_joinedPairs :
    ∃ statement filtered, (Plan.limited joinedPairs 2).statement .postgres = .ok statement ∧
      statement.isSealed = true ∧
      (Plan.filtered (.aliased (.limited joinedPairs 2) "j")
        (.unary .isNotNull (.named "d"))).statement .postgres = .ok filtered ∧
      (Plan.filtered (.aliased (.limited joinedPairs 2) "j")
        (.unary .isNotNull (.column { table := some "j", name := "d" }))).statement .postgres =
          .ok filtered := by
  obtain ⟨statement, filtered, planned, isSealed, filters⟩ : ∃ statement filtered,
      (Plan.limited joinedPairs 2).statement .postgres = .ok statement ∧
        statement.isSealed = true ∧
        (Plan.filtered (.aliased (.limited joinedPairs 2) "j")
          (.unary .isNotNull (.named "d"))).statement .postgres = .ok filtered :=
    ⟨_, _, rfl, rfl, rfl⟩
  have bare : ∀ ref ∈ (Expr.unary .isNotNull (.named "d")).columnRefs, ref.table = none :=
    List.forall_mem_singleton.mpr rfl
  exact ⟨statement, filtered, planned, isSealed, filters,
    (alias_qualifies_columns_iff planned bare filters).mpr (.inl isSealed)⟩

/-- The name of a join is not known to a filter that its bare columns are. -/
theorem joinedPairs_alias_refused :
    ∃ statement filtered, joinedPairs.statement .postgres = .ok statement ∧
      (Plan.filtered (.aliased joinedPairs "j")
        (.unary .isNotNull (.named "d"))).statement .postgres = .ok filtered ∧
      (Plan.filtered (.aliased joinedPairs "j")
        (.unary .isNotNull (.column { table := some "j", name := "d" }))).statement .postgres =
          .error (.unresolved "j.d" ["t.a", "t.b", "u.k", "u.d"] .notVisible) :=
  ⟨_, _, rfl, rfl, rfl⟩

end Plan

end SqlPlan
