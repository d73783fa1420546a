import SqlPlan.Proofs.Aggregating

/-!
# What grouped statements select and are ordered by

The expressions of a grouped statement come about in three ways.  They are group
keys; they are outputs of an aggregation, with keys in place of the columns that
they read outside aggregate calls; or they belong to a later projection or
ordering and are put together from expressions that the statement had before.
A later step may also read a column of a join by the name of its side, past what
the statement shows: that is the only way in which a column that is no key comes
to stand outside aggregate calls.
-/

namespace SqlPlan

namespace Plan

/-- The outputs of all aggregations. -/
def aggregateExprs : Plan → List Expr
  | .base _ => []
  | .projected input _ _ => input.aggregateExprs
  | .filtered input _ => input.aggregateExprs
  | .sorted input _ => input.aggregateExprs
  | .grouped input _ aggregates => aggregates.map (·.expr) ++ input.aggregateExprs
  | .joined input other _ _ => input.aggregateExprs ++ other.aggregateExprs
  | .deduplicated input => input.aggregateExprs
  | .limited input _ => input.aggregateExprs
  | .aliased input _ => input.aggregateExprs

/-- The expressions of the projections and orderings that follow an aggregation. -/
def lateExprs : Plan → List Expr
  | .base _ => []
  | .projected input outputs _ =>
      (if input.summarizes then outputs.map (·.expr) else []) ++ input.lateExprs
  | .filtered input _ => input.lateExprs
  | .sorted input keys =>
      (if input.summarizes then keys.map (·.expr) else []) ++ input.lateExprs
  | .grouped input _ _ => input.lateExprs
  | .joined input other _ _ => input.lateExprs ++ other.lateExprs
  | .deduplicated input => input.lateExprs
  | .limited input _ => input.lateExprs
  | .aliased input _ => input.lateExprs

theorem exprs_subset_of_mem_inputs {plan input : Plan} (member : input ∈ plan.inputs) :
    input.aggregateExprs ⊆ plan.aggregateExprs ∧ input.lateExprs ⊆ plan.lateExprs := by
  cases plan with
  | base table => cases member
  | joined left right kind on =>
      rcases List.mem_cons.mp member with rfl | isRight
      · exact ⟨List.subset_append_left _ _, List.subset_append_left _ _⟩
      · cases List.mem_singleton.mp isRight
        exact ⟨List.subset_append_right _ _, List.subset_append_right _ _⟩
  | _ =>
      cases List.mem_singleton.mp member
      simp [aggregateExprs, lateExprs]

end Plan

/-! ## Expressions over groups -/

/-- How an expression comes to stand in a grouped statement with the given keys,
whose source is joined or not. -/
inductive Expr.OverGroups (plan : Plan) (joined : Bool) (keys : List Expr) : Expr → Prop where
  | key {expr : Expr} : expr ∈ keys → OverGroups plan joined keys expr
  /-- An output of an aggregation. -/
  | output {expr : Expr} {binding columns : ColumnRef → Expr} :
      expr ∈ plan.aggregateExprs →
      (∀ ref ∈ expr.refs .outsideAggregates,
        (binding ref).mapColumns .everywhere columns ∈ keys) →
      (∀ ref ∈ (expr.mapColumns .outsideAggregates binding).columnRefs,
        ∃ column, columns ref = .column column) →
      OverGroups plan joined keys
        ((expr.mapColumns .outsideAggregates binding).mapColumns .everywhere columns)
  /-- A column of one side of a join, named by a later step. -/
  | stray {expr : Expr} {ref : ColumnRef} :
      joined = true → expr ∈ plan.lateExprs → ref ∈ expr.columnRefs → ref.table.isSome = true →
      OverGroups plan joined keys (.column ref)
  /-- An expression of a later step. -/
  | late {expr : Expr} {replace : ColumnRef → Expr} :
      expr ∈ plan.lateExprs → expr.aggregate? = none →
      (∀ ref ∈ expr.columnRefs, OverGroups plan joined keys (replace ref)) →
      OverGroups plan joined keys (expr.mapColumns .everywhere replace)

theorem Expr.OverGroups.mono {plan more : Plan} {joined : Bool} {keys : List Expr} {expr : Expr}
    (formed : expr.OverGroups plan joined keys)
    (subset : plan.aggregateExprs ⊆ more.aggregateExprs ∧ plan.lateExprs ⊆ more.lateExprs) :
    expr.OverGroups more joined keys := by
  induction formed with
  | key member => exact .key member
  | output member bound columns => exact .output (subset.1 member) bound columns
  | stray isJoined member read qualified =>
      exact .stray isJoined (subset.2 member) read qualified
  | late member scalar _ induction => exact .late (subset.2 member) scalar induction

/-- All that the clauses select and are ordered by comes about over the groups of
the given keys. -/
structure Clauses.OverGroups (plan : Plan) (keys : List Expr) (clauses : Clauses) : Prop where
  outputs : ∀ output ∈ clauses.outputs,
    output.expr.OverGroups plan clauses.scope.isJoined keys
  orderBy : ∀ key ∈ clauses.orderBy, key.expr.OverGroups plan clauses.scope.isJoined keys

/-- A step that adds no output and no key. -/
theorem Clauses.OverGroups.step {plan input : Plan} {keys : List Expr} {clauses next : Clauses}
    (formed : clauses.OverGroups input keys) (isInput : input ∈ plan.inputs)
    (outputs : next.outputs ⊆ clauses.outputs) (orderBy : next.orderBy ⊆ clauses.orderBy)
    (scope : next.scope = clauses.scope) : next.OverGroups plan keys := by
  have subset := Plan.exprs_subset_of_mem_inputs isInput
  constructor
  · rw [scope]
    exact fun output member => (formed.outputs output (outputs member)).mono subset
  · rw [scope]
    exact fun key member => (formed.orderBy key (orderBy member)).mono subset

/-- A qualified reference into a join stays as it is. -/
theorem Scope.resolve_qualified {scope : Scope} {qualifiers : List String}
    {ref column : ColumnRef} {table : String} (joined : scope.isJoined = true)
    (qualified : ref.table = some table) (success : scope.resolve qualifiers ref = .ok column) :
    column = ref := by
  unfold resolve at success
  split at success
  · rename_i isOpen single
    simp [isJoined, single] at joined
  · unfold resolveJoined at success
    rw [qualified] at success
    dsimp only at success
    split at success
    · exact (Except.ok.inj success).symm
    · cases success

namespace Clauses

variable {clauses : Clauses}

/-- A reference to a statement that lists its outputs stands for one of them, or is
a column of one side of a join. -/
theorem inlined_of_locate {ref : ColumnRef} {located : Located}
    (listed : clauses.select.isSome = true) (starless : clauses.star? = none)
    (success : clauses.locate ref = .ok located) :
    (∃ output ∈ clauses.visibleOutputs, located.inlined = output.expr) ∨
      clauses.scope.isJoined = true ∧ ref.table.isSome = true ∧
        located.inlined = .column ref := by
  have shown (success : clauses.locateOutput ref = .ok located) :
      ∃ output ∈ clauses.visibleOutputs, located.inlined = output.expr := by
    unfold locateOutput at success
    split at success
    · rename_i output found
      refine ⟨output, List.mem_of_find?_eq_some found, ?_⟩
      split at success <;> cases success <;> rfl
    · rw [starless] at success
      dsimp only at success
      split at success <;> cases success
  unfold locate at success
  split at success
  · rename_i whole
    simp [whole] at listed
  · exact .inl (shown success)
  · rename_i table _ qualified
    split at success
    · rename_i joined
      obtain ⟨column, resolved, inlined⟩ := locateInSource_eq_ok success
      refine .inr ⟨joined, by simp [qualified], ?_⟩
      rw [inlined, Scope.resolve_qualified joined qualified resolved]
    · split at success
      · exact .inl (shown success)
      · cases success

/-- Whatever a later step reads comes about over the groups. -/
theorem overGroups_sourceOf {plan : Plan} {keys : List Expr} {expr source : Expr}
    (success : clauses.inlined expr = .ok source) (listed : clauses.select.isSome = true)
    (starless : clauses.star? = none) (late : expr ∈ plan.lateExprs)
    (outputs : ∀ output ∈ clauses.visibleOutputs,
      output.expr.OverGroups plan clauses.scope.isJoined keys) :
    ∀ ref ∈ expr.columnRefs,
      (clauses.sourceOf ref).OverGroups plan clauses.scope.isJoined keys := by
  intro ref member
  obtain ⟨found, locatedOk⟩ := (inlined_eq_ok success).1 ref member
  simp only [sourceOf, locatedOk]
  rcases inlined_of_locate listed starless locatedOk with
    ⟨output, shown, inlined⟩ | ⟨joined, qualified, inlined⟩
  · rw [inlined]
    exact outputs output shown
  · rw [inlined]
    exact .stray joined late member qualified

end Clauses

section Steps

variable {plan : Plan} {clauses : Clauses}

/-- The expressions of a later projection, in terms of the source. -/
theorem Clauses.overGroups_of_resolved? {keys exprs resolved : List Expr}
    (success : clauses.resolved? exprs = .ok (some resolved))
    (listed : clauses.select.isSome = true) (starless : clauses.star? = none)
    (late : exprs ⊆ plan.lateExprs) (scalar : ∀ expr ∈ exprs, expr.aggregate? = none)
    (outputs : ∀ output ∈ clauses.visibleOutputs,
      output.expr.OverGroups plan clauses.scope.isJoined keys) :
    ∀ expr ∈ resolved, expr.OverGroups plan clauses.scope.isJoined keys := by
  intro expr member
  obtain ⟨source, sourceMember, inlined⟩ :=
    exists_mem_of_forall₂ (resolved?_eq_some success).1 member
  rw [(inlined_eq_ok inlined).2]
  exact .late (late sourceMember) (scalar source sourceMember)
    (overGroups_sourceOf inlined listed starless (late sourceMember) outputs)

/-- The keys and the outputs of an aggregation, in terms of the source. -/
theorem Clauses.overGroups_of_grouped {groupKeys aggregates : List Output}
    {bound exprs : List Expr}
    (boundOk : List.Forall₂ (fun output expr => Draft.bindGroupKeys groupKeys output = .ok expr)
      aggregates bound)
    (resolved : clauses.resolved? (groupKeys.map (·.expr) ++ bound) = .ok (some exprs))
    (aggregated : aggregates.map (·.expr) ⊆ plan.aggregateExprs) {joined : Bool} :
    ∀ expr ∈ exprs, expr.OverGroups plan joined (exprs.take groupKeys.length) := by
  intro expr member
  rw [take_of_resolved resolved]
  rw [resolved?_eq_map resolved, List.map_append] at member
  rcases List.mem_append.mp member with isKey | isOutput
  · refine .key ?_
    rwa [List.map_map] at isKey
  · obtain ⟨source, sourceMember, rfl⟩ := List.mem_map.mp isOutput
    obtain ⟨output, outputMember, boundEq⟩ := exists_mem_of_forall₂ boundOk sourceMember
    obtain ⟨binding, rfl, binds⟩ := Draft.bindGroupKeys_eq_ok boundEq
    refine .output (aggregated (List.mem_map_of_mem outputMember)) ?_ ?_
    · intro ref outside
      obtain ⟨key, keyMember, isKey⟩ := (binds ref outside).exists_key
      rw [← isKey]
      exact List.mem_map_of_mem keyMember
    · intro ref read
      exact (sourceOf_of_resolved? resolved (List.mem_append_right _ sourceMember) read).2

end Steps

theorem Draft.hoistedKeys_of_grouped {draft : Draft}
    (grouped : draft.statement.isGrouped = true) : draft.hoistedKeys = [] :=
  Clauses.hoisted_of_fixed (by simp [grouped]) _ _

/-- The expressions of a grouped statement come about over its groups. -/
theorem Drafted.overGroups {dialect : Dialect} {used : Nat} {plan : Plan} {draft : Draft}
    (drafted : Drafted dialect used plan draft) {keys : List Expr}
    (grouping : draft.statement.grouping = some keys) :
    draft.statement.OverGroups plan keys := by
  induction drafted with
  | base table used => cases grouping
  | nest _ _ => cases grouping
  | @projected used input current outputs exprs drafted _ scalar resolved induction =>
      have head : Clauses.OverGroups (.projected input outputs false) keys _ :=
        (induction grouping).step (List.mem_singleton.mpr rfl) (List.Subset.refl _)
          (List.Subset.refl _) rfl
      have grouped : current.statement.isGrouped = true := Option.isSome_of_mem grouping
      obtain ⟨listed, starless⟩ := drafted.starless_of_grouped grouped
      refine ⟨fun output member => ?_, head.orderBy⟩
      refine Clauses.overGroups_of_resolved? resolved listed starless ?_
        (List.forall_mem_map.mpr scalar) ?_ _
        (Output.exists_expr_of_item (Clauses.mem_outputs.mp member))
      · simp [Plan.lateExprs, drafted.summarizes grouped]
      · exact fun output shown => head.outputs output (List.mem_filter.mp shown).1
  | @extended used input current outputs exprs items drafted _ scalar resolved itemsOk induction =>
      have head : Clauses.OverGroups (.projected input outputs true) keys _ :=
        (induction grouping).step (List.mem_singleton.mpr rfl) (List.Subset.refl _)
          (List.Subset.refl _) rfl
      have grouped : current.statement.isGrouped = true := Option.isSome_of_mem grouping
      obtain ⟨listed, starless⟩ := drafted.starless_of_grouped grouped
      refine ⟨fun output member => ?_, head.orderBy⟩
      rcases Clauses.mem_extendedSelect itemsOk _ (Clauses.mem_outputs.mp member) with
        ⟨old, unhidden⟩ | ⟨new, isNew, equal⟩
      · rcases Clauses.mem_of_mem_expandedSelect old unhidden with shown | ⟨whole, _⟩
        · exact head.outputs output (List.mem_filter.mp shown).1
        · simp [whole] at listed
      · cases equal
        refine Clauses.overGroups_of_resolved? resolved listed starless ?_
          (List.forall_mem_map.mpr scalar) ?_ _ (Output.expr_mem_of_mem_withExprs isNew)
        · simp [Plan.lateExprs, drafted.summarizes grouped]
        · exact fun output shown => head.outputs output (List.mem_filter.mp shown).1
  | @sorted used input current sortKeys orderBy drafted _ scalar ordered induction =>
      have head : Clauses.OverGroups (.sorted input sortKeys) keys _ :=
        (induction grouping).step (List.mem_singleton.mpr rfl) (List.Subset.refl _)
          (List.Subset.refl _) rfl
      have grouped : current.statement.isGrouped = true := Option.isSome_of_mem grouping
      obtain ⟨listed, starless⟩ := drafted.starless_of_grouped grouped
      refine ⟨head.outputs, fun key member => ?_⟩
      obtain ⟨source, sourceMember, inlined, _⟩ := exists_mem_of_forall₂ ordered member
      have late : source.expr ∈ (Plan.sorted input sortKeys).lateExprs := by
        simp only [Plan.lateExprs, drafted.summarizes grouped, if_true]
        exact List.mem_append_left _ (List.mem_map_of_mem sourceMember)
      rw [(Clauses.inlined_eq_ok inlined).2]
      refine .late late (scalar source sourceMember)
        (Clauses.overGroups_sourceOf inlined listed starless late ?_)
      exact fun output shown => head.outputs output (List.mem_filter.mp shown).1
  | grouped _ _ _ _ boundOk resolved _ =>
      cases grouping
      refine ⟨fun output member => ?_, by simp⟩
      exact Clauses.overGroups_of_grouped boundOk resolved (List.subset_append_left _ _) _
        (Output.exists_expr_of_item (Clauses.mem_outputs.mp member))
  | joined _ _ _ joined _ _ =>
      obtain ⟨_, _, _, _, rfl⟩ := Statement.join_eq_ok joined
      cases grouping
  | deduplicated _ _ induction =>
      exact (induction grouping).step (List.mem_singleton.mpr rfl) (List.Subset.refl _)
        (Clauses.distinctOrder_subset _) rfl
  | filtered _ _ _ _ induction | alreadyDistinct _ _ induction | limited _ _ induction
  | aliased _ _ induction =>
      exact (induction grouping).step (List.mem_singleton.mpr rfl) (List.Subset.refl _)
        (List.Subset.refl _) rfl

/-- Where the statement is grouped, it lists its outputs, and these and its ordering
come about over its groups. -/
def Statement.Summarized (plan : Plan) (statement : Statement) : Prop :=
  ∀ keys, statement.grouping = some keys →
    statement.select.isSome = true ∧ statement.star? = none ∧ statement.OverGroups plan keys

theorem Drafted.summarized {dialect : Dialect} {used : Nat} {plan : Plan} {draft : Draft}
    (drafted : Drafted dialect used plan draft) : draft.statement.Summarized plan := by
  intro keys grouping
  obtain ⟨listed, starless⟩ := drafted.starless_of_grouped (Option.isSome_of_mem grouping)
  exact ⟨listed, starless, drafted.overGroups grouping⟩

theorem Drafted.summarized_parts {dialect : Dialect} {used : Nat} {plan : Plan} {draft : Draft}
    (drafted : Drafted dialect used plan draft) :
    ∀ part ∈ draft.statement.parts, part.Summarized plan := by
  refine Drafted.forall_parts (fun drafted => drafted.summarized) ?_ ?_ ?_ drafted
  · intro used plan draft drafted keys grouping
    have hoists : draft.hoistedKeys = [] :=
      Draft.hoistedKeys_of_grouped (Option.isSome_of_mem grouping)
    have select : draft.inner.select = draft.statement.select := by
      simp [Draft.inner, hoists, Clauses.nested]
    obtain ⟨listed, starless, formed⟩ := drafted.summarized keys grouping
    refine ⟨select ▸ listed, by rwa [Clauses.star?, select], ⟨?_, ?_⟩⟩
    · rw [Clauses.outputs, select]
      exact formed.outputs
    · dsimp only [Draft.inner, Clauses.nested]
      split
      · exact formed.orderBy
      · simp
  · intro used plan draft drafted
    obtain ⟨orderBy, subset, equal⟩ := draft.statement.unordered_toClauses
    rw [equal]
    intro keys grouping
    obtain ⟨listed, starless, formed⟩ := drafted.summarized keys grouping
    exact ⟨listed, starless, formed.outputs, fun key member => formed.orderBy key (subset member)⟩
  · intro plan input part isInput formed keys grouping
    obtain ⟨listed, starless, formed⟩ := formed keys grouping
    exact ⟨listed, starless,
      formed.step isInput (List.Subset.refl _) (List.Subset.refl _) rfl⟩

/-! ## Keys, aggregate calls and what is made of them -/

/-- Put together from group keys, aggregate calls and stray columns. -/
inductive Expr.GroupedBy (keys : List Expr) (stray : ColumnRef → Prop) : Expr → Prop where
  | key {expr : Expr} : expr ∈ keys → GroupedBy keys stray expr
  | aggregate (name : String) (arg : Option Expr) (distinct : Bool) :
      GroupedBy keys stray (.aggregate name arg distinct)
  | stray {ref : ColumnRef} : stray ref → GroupedBy keys stray (.column ref)
  | combined {expr : Expr} : expr.column? = none →
      (∀ child ∈ expr.children, GroupedBy keys stray child) → GroupedBy keys stray expr

namespace Expr

variable {keys : List Expr} {stray : ColumnRef → Prop} {expr : Expr}

theorem GroupedBy.ofAggregate (call : expr.isAggregate = true) : expr.GroupedBy keys stray := by
  cases expr with
  | aggregate name arg distinct => exact .aggregate name arg distinct
  | _ => cases call

theorem GroupedBy.mapColumns {replace : ColumnRef → Expr}
    (replaced : ∀ ref ∈ expr.columnRefs, (replace ref).GroupedBy keys stray) :
    (expr.mapColumns .everywhere replace).GroupedBy keys stray := by
  induction expr using inductionOnChildren with
  | step expr induction =>
      cases compound : expr.column? with
      | some ref =>
          rw [eq_column_of_column? compound] at replaced ⊢
          exact replaced ref (List.mem_singleton.mpr rfl)
      | none =>
          refine .combined (column?_mapColumns compound) ?_
          rw [children_mapColumns compound (.inl rfl), List.forall_mem_map]
          intro child member
          exact induction child member fun ref refMember =>
            replaced ref (refs_subset_of_mem_children member (.inl rfl) refMember)

/-- Whatever becomes of its arguments, an aggregate call stays one. -/
theorem GroupedBy.mapColumns_outside {binding columns : ColumnRef → Expr}
    (bound : ∀ ref ∈ expr.refs .outsideAggregates,
      ((binding ref).mapColumns .everywhere columns).GroupedBy keys stray) :
    ((expr.mapColumns .outsideAggregates binding).mapColumns .everywhere columns).GroupedBy
      keys stray := by
  induction expr using inductionOnChildren with
  | step expr induction =>
      cases compound : expr.column? with
      | some ref =>
          rw [eq_column_of_column? compound] at bound ⊢
          exact bound ref (List.mem_singleton.mpr rfl)
      | none =>
          have boundCompound : (expr.mapColumns .outsideAggregates binding).column? = none :=
            column?_mapColumns compound
          cases call : expr.isAggregate with
          | true =>
              refine .ofAggregate ?_
              rw [isAggregate_mapColumns boundCompound, isAggregate_mapColumns compound, call]
          | false =>
              refine .combined (column?_mapColumns boundCompound) ?_
              rw [children_mapColumns boundCompound (.inl rfl),
                children_mapColumns compound (.inr call), List.map_map, List.forall_mem_map]
              intro child member
              exact induction child member fun ref refMember =>
                bound ref (refs_subset_of_mem_children member (.inr call) refMember)

theorem GroupedBy.mono {more : ColumnRef → Prop} (grouped : expr.GroupedBy keys stray)
    (subset : ∀ ref, stray ref → more ref) : expr.GroupedBy keys more := by
  induction grouped with
  | key member => exact .key member
  | aggregate name arg distinct => exact .aggregate name arg distinct
  | stray isStray => exact .stray (subset _ isStray)
  | combined compound _ induction => exact .combined compound induction

/-- A column that is neither a key nor stray is not put together from any. -/
theorem not_groupedBy_column {ref : ColumnRef} (noKey : .column ref ∉ keys)
    (notStray : ¬ stray ref) : ¬ (Expr.column ref).GroupedBy keys stray := by
  intro grouped
  cases grouped with
  | key member => exact noKey member
  | stray isStray => exact notStray isStray
  | combined compound _ => cases compound

/-- A column that a later step reads past what the statement shows. -/
def Stray (plan : Plan) (joined : Bool) (ref : ColumnRef) : Prop :=
  joined = true ∧ ref.table.isSome = true ∧ ref ∈ refsOf plan.lateExprs

theorem OverGroups.groupedBy {plan : Plan} {joined : Bool}
    (formed : expr.OverGroups plan joined keys) : expr.GroupedBy keys (Stray plan joined) := by
  induction formed with
  | key member => exact .key member
  | output _ bound _ => exact .mapColumns_outside fun ref outside => .key (bound ref outside)
  | stray isJoined late read qualified =>
      exact .stray ⟨isJoined, qualified, List.mem_flatMap.mpr ⟨_, late, read⟩⟩
  | late _ _ _ induction => exact .mapColumns induction

end Expr

namespace Plan

/-- A grouped part of a planned statement, at any depth, lists its outputs, and these
and its ordering are put together from group keys and aggregate calls.  The only
other columns are those that a later projection or ordering reads from a side of a
join by the name of that side. -/
theorem grouped_by_keys {dialect : Dialect} {plan : Plan} {statement : Statement}
    (planned : plan.statement dialect = .ok statement) :
    ∀ part ∈ statement.parts, ∀ keys, part.grouping = some keys →
      part.select.isSome = true ∧ part.star? = none ∧
      (∀ output ∈ part.outputs,
        output.expr.GroupedBy keys (Expr.Stray plan part.scope.isJoined)) ∧
      ∀ key ∈ part.orderBy, key.expr.GroupedBy keys (Expr.Stray plan part.scope.isJoined) := by
  obtain ⟨draft, success, statementEq⟩ := bind_eq_ok.mp planned
  cases pure_eq_ok.mp statementEq
  intro part member keys grouping
  obtain ⟨listed, starless, formed⟩ :=
    (Plan.drafted success).summarized_parts part member keys grouping
  exact ⟨listed, starless, fun output isOutput => (formed.outputs output isOutput).groupedBy,
    fun key isKey => (formed.orderBy key isKey).groupedBy⟩

/-- Two tables that are joined and grouped, with one more column. -/
def groupedPairs (added : Expr) : Plan :=
  .projected
    (.grouped
      (.joined
        (.base { name := "t", columns := some [⟨"id", none⟩, ⟨"a", none⟩] })
        (.base { name := "u", columns := some [⟨"id", none⟩, ⟨"b", none⟩] })
        .inner
        (.binary (.comparison .equal) (.column { table := some "t", name := "id" })
          (.column { table := some "u", name := "id" })))
      [{ name := "a", expr := .named "a" }]
      [{ name := "n", expr := .aggregate "count" none false }])
    [{ name := "c", expr := added }] true

theorem grouped_by_keys_negatedKey :
    ∃ statement, (groupedPairs (.unary .negate (.named "a"))).statement .postgres = .ok statement ∧
      statement.grouping = some [.named "a"] ∧
      ∀ output ∈ statement.outputs, output.expr.GroupedBy [.named "a"] fun _ => False := by
  obtain ⟨statement, planned, grouping⟩ : ∃ statement,
      (groupedPairs (.unary .negate (.named "a"))).statement .postgres = .ok statement ∧
        statement.grouping = some [.named "a"] := ⟨_, rfl, rfl⟩
  obtain ⟨_, _, outputs, _⟩ := grouped_by_keys planned _ List.mem_cons_self _ grouping
  refine ⟨statement, planned, grouping, fun output member => (outputs output member).mono ?_⟩
  rintro ref ⟨_, qualified, late⟩
  cases List.mem_singleton.mp late
  cases qualified

/-- Over a join a qualified name is not looked up among the outputs: a column that is
no key comes to be selected beside the groups. -/
theorem groupedPairs_stray :
    ∃ statement, (groupedPairs (.column { table := some "u", name := "b" })).statement .postgres =
        .ok statement ∧
      statement.grouping = some [.named "a"] ∧
      ∃ output ∈ statement.outputs, ¬ output.expr.GroupedBy [.named "a"] fun _ => False := by
  refine ⟨_, rfl, rfl, _, List.mem_cons_of_mem _ (List.mem_cons_of_mem _ List.mem_cons_self), ?_⟩
  refine Expr.not_groupedBy_column (fun isKey => ?_) id
  cases List.mem_singleton.mp isKey

end Plan

end SqlPlan
