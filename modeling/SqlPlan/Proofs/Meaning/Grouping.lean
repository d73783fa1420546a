import SqlPlan.Proofs.Grouping
import SqlPlan.Proofs.Refinement

/-!
# Groups of rows

A statement that groups gives a row for each class of tuples with equal keys.
The columns that it passes on are among its keys, so they have one value in all
tuples of a class: a condition on them keeps a class or drops it as a whole, and
what is left of the statement's groups is what it was.
-/

namespace SqlPlan

variable {V : Type}

/-! ## Classes of equal keys -/

section

variable {α β γ : Type} [DecidableEq β]

theorem eraseDups_filter (items : List β) (passes : β → Bool) :
    (items.filter passes).eraseDups = items.eraseDups.filter passes := by
  -- Each step removes all copies of the first item, so the induction is on the length.
  induction lengthEq : items.length using Nat.strongRecOn generalizing items with
  | ind length induction =>
      cases items with
      | nil => rfl
      | cons item items =>
          have shorter : (items.filter fun other => !other == item).length < length := by
            have bound := List.length_filter_le (fun other => !other == item) items
            rw [List.length_cons] at lengthEq
            omega
          have rest := induction _ shorter (items.filter fun other => !other == item) rfl
          rw [List.filter_filter] at rest
          rw [List.eraseDups_cons, List.filter_cons, List.filter_cons]
          by_cases passing : passes item = true
          · rw [if_pos passing, if_pos passing, List.eraseDups_cons, List.filter_filter, ← rest]
            simp only [Bool.and_comm]
          · rw [if_neg passing, if_neg passing, ← rest]
            congr 1
            apply List.filter_congr
            intro other _
            by_cases same : other = item
            · simp [same, passing]
            · simp [same]

theorem mem_classesBy {key : α → β} {items members : List α} :
    members ∈ classesBy key items ↔
      ∃ item ∈ items, members = items.filter fun other => key other == key item := by
  simp only [classesBy, List.mem_map, List.mem_eraseDups]
  constructor
  · rintro ⟨_, ⟨item, member, rfl⟩, rfl⟩
    exact ⟨item, member, rfl⟩
  · rintro ⟨item, member, rfl⟩
    exact ⟨_, ⟨item, member, rfl⟩, rfl⟩

theorem key_eq_of_mem_classesBy {key : α → β} {items members : List α}
    (isClass : members ∈ classesBy key items) {first second : α} (firstMember : first ∈ members)
    (secondMember : second ∈ members) : key first = key second := by
  obtain ⟨item, _, rfl⟩ := mem_classesBy.mp isClass
  have firstKey : key first = key item := by simpa using (List.mem_filter.mp firstMember).2
  have secondKey : key second = key item := by simpa using (List.mem_filter.mp secondMember).2
  rw [firstKey, secondKey]

theorem ne_nil_of_mem_classesBy {key : α → β} {items members : List α}
    (isClass : members ∈ classesBy key items) : members ≠ [] := by
  obtain ⟨item, member, rfl⟩ := mem_classesBy.mp isClass
  exact List.ne_nil_of_mem (List.mem_filter.mpr ⟨member, by simp⟩)

theorem classesBy_map (key : γ → β) (change : α → γ) (items : List α) :
    classesBy key (items.map change) =
      (classesBy (fun item => key (change item)) items).map (List.map change) := by
  simp [classesBy, List.filter_map, Function.comp_def]

theorem classesBy_congr {first second : α → β} {items : List α}
    (agree : ∀ item ∈ items, first item = second item) :
    classesBy first items = classesBy second items := by
  rw [classesBy, classesBy, List.map_congr_left agree]
  apply List.map_congr_left
  intro value _
  apply List.filter_congr
  intro item member
  rw [agree item member]

/-- A test that all items of a class pass together selects among the classes
and changes none of them. -/
theorem classesBy_filter {key : α → β} {items : List α} {passes : α → Bool}
    {passing : List α → Bool}
    (together : ∀ members ∈ classesBy key items, ∀ item ∈ members,
      passes item = passing members) :
    classesBy key (items.filter passes) = (classesBy key items).filter passing := by
  have byKey : ∀ item ∈ items, passes item =
      passing (items.filter fun other => key other == key item) := by
    intro item member
    exact together _ (mem_classesBy.mpr ⟨item, member, rfl⟩) item
      (List.mem_filter.mpr ⟨member, by simp⟩)
  have keys : (items.filter passes).map key = (items.map key).filter fun value =>
      passing (items.filter fun other => key other == value) := by
    rw [List.filter_map]
    exact congrArg (List.map key) (List.filter_congr byKey)
  rw [classesBy, keys, eraseDups_filter, classesBy, List.filter_map]
  apply List.map_congr_left
  intro value member
  have passed := (List.mem_filter.mp member).2
  rw [List.filter_filter]
  apply List.filter_congr
  intro item itemMember
  by_cases same : key item = value
  · rw [byKey item itemMember, same, passed]
    simp
  · simp [same]

end

/-! ## The groups of a statement -/

namespace Clauses

variable [DecidableEq V] {meaning : Interpretation V} {clauses : Clauses} {blank : Tuple V}
  {tuples : List (Tuple V)}

theorem groups_of_ungrouped (ungrouped : clauses.grouping = none) :
    clauses.groups meaning blank tuples = tuples.map .single := by
  simp only [groups, ungrouped]

theorem groups_of_keys {keys : List Expr} (grouping : clauses.grouping = some keys)
    (nonempty : keys ≠ []) :
    clauses.groups meaning blank tuples =
      (classesBy (fun tuple => keys.map (tuple.value meaning)) tuples).map (.ofMembers blank) := by
  cases keys with
  | nil => exact absurd rfl nonempty
  | cons key keys => simp only [groups, grouping]

/-- Without keys an aggregate makes one group of all tuples. -/
theorem groups_of_total (grouping : clauses.grouping = some [])
    (aggregated : clauses.selectsAggregate = true) :
    clauses.groups meaning blank tuples = [.ofMembers blank tuples] := by
  simp only [groups, grouping, aggregated, if_true]

/-- Without keys a statement makes groups only where it selects an aggregate. -/
def MakesGroups (clauses : Clauses) : Prop :=
  clauses.grouping = some [] → clauses.selectsAggregate = true

/-- Another select list makes other rows of the same groups. -/
theorem groups_congr {next : Clauses} (grouping : next.grouping = clauses.grouping)
    (before : clauses.MakesGroups) (after : next.MakesGroups) :
    next.groups meaning blank tuples = clauses.groups meaning blank tuples := by
  cases keysEq : clauses.grouping with
  | none => rw [groups_of_ungrouped keysEq, groups_of_ungrouped (grouping.trans keysEq)]
  | some keys =>
      have nextKeys := grouping.trans keysEq
      by_cases empty : keys = []
      · subst empty
        rw [groups_of_total keysEq (before keysEq), groups_of_total nextKeys (after nextKeys)]
      · rw [groups_of_keys keysEq empty, groups_of_keys nextKeys empty]

end Clauses

/-- An expression in terms of the source has one value wherever the columns that
it reads have. -/
theorem Clauses.value_congr_of_inlined {clauses : Clauses} {meaning : Interpretation V}
    {expr source : Expr} (success : clauses.inlined expr = .ok source)
    (scalar : expr.aggregate? = none) {first second : Group V}
    (agree : ∀ ref ∈ expr.columnRefs, first.value meaning (clauses.sourceOf ref) =
      second.value meaning (clauses.sourceOf ref)) :
    first.value meaning source = second.value meaning source := by
  rw [(Clauses.inlined_eq_ok success).2, Group.value, Group.value, Expr.eval_mapColumns,
    Expr.eval_mapColumns, Expr.eval_of_scalar scalar]
  exact Expr.eval_congr agree

/-- A statement that later steps may join: it neither orders nor limits its rows,
and as long as it groups, the columns that it passes on are keys. -/
structure Clauses.Summary (clauses : Clauses) : Prop where
  unordered : clauses.orderBy = []
  bag : clauses.distinct = false
  unlimited : clauses.limit = none
  selects : ∀ {keys : List Expr}, clauses.grouping = some keys → clauses.select.isSome = true
  passesKeys : ∀ {keys : List Expr}, clauses.grouping = some keys →
    ∀ output ∈ clauses.visibleOutputs, ∀ {column : ColumnRef}, output.expr = .column column →
      .column column ∈ keys

theorem Clauses.Summary.mem_keys {clauses : Clauses} (summary : clauses.Summary)
    (listed : clauses.Listed) {keys : List Expr} (grouping : clauses.grouping = some keys)
    {ref column : ColumnRef} (locates : clauses.Locates ref (.column column)) :
    .column column ∈ keys := by
  generalize located : Expr.column column = expr at locates
  cases locates with
  | output found =>
      rw [← located]
      exact summary.passesKeys grouping _ (List.mem_of_find?_eq_some found) located.symm
  | source position _ =>
      rcases position with whole | star | joined
      · simpa [whole] using summary.selects grouping
      · simp [listed.starless] at star
      · simp [Scope.isJoined, listed.closed] at joined

namespace Statement

variable [DecidableEq V] {meaning : Interpretation V} {database : Database V}
  {statement : Statement}

/-- The groups that a statement makes of its source. -/
def collected (meaning : Interpretation V) (database : Database V) (statement : Statement) :
    List (Group V) :=
  statement.groups meaning (Tuple.nulls meaning (statement.source.fields database.toSchema))
    (statement.kept meaning (statement.source.tuples meaning database))

theorem rows_eq_map_collected (summary : statement.Summary) :
    statement.rows meaning database =
      (statement.collected meaning database).map (statement.row meaning) := by
  have ordered : ∀ groups : List (Group V), statement.ordered meaning groups = groups := by
    intro groups
    apply List.mergeSort_of_pairwise
    simp [List.pairwise_iff_getElem, summary.unordered, Group.keys, Interpretation.leKeys]
  simp only [rows, Clauses.rows, ordered, Clauses.distinctRows, summary.bag, Clauses.limited,
    summary.unlimited]
  rfl

/-- Where a statement groups, a condition on columns that it passes on has one
value in all tuples of a group. -/
theorem value_member {keys : List Expr} (summary : statement.Summary) (listed : statement.Listed)
    (grouping : statement.grouping = some keys) {predicate condition : Expr}
    (scalar : predicate.aggregate? = none)
    (resolved : statement.resolved? [predicate] = .ok (some [condition]))
    {tuples members : List (Tuple V)} {blank : Tuple V}
    (isClass : members ∈ classesBy (fun tuple => keys.map (tuple.value meaning)) tuples)
    {tuple : Tuple V} (member : tuple ∈ members) :
    tuple.value meaning condition =
      (statement.row meaning (.ofMembers blank members)).value meaning predicate := by
  have inlined : statement.inlined predicate = .ok condition := by
    cases (Clauses.resolved?_eq_some resolved).1 with
    | cons inlined _ => exact inlined
  rw [← listed.value_inlined scalar inlined]
  change (Group.single tuple).value meaning condition = _
  apply Clauses.value_congr_of_inlined inlined scalar
  intro ref refMember
  obtain ⟨locates, column, passed⟩ :=
    Clauses.sourceOf_of_resolved? resolved List.mem_cons_self refMember
  rw [passed] at locates ⊢
  have key := summary.mem_keys listed grouping locates
  cases members with
  | nil => cases member
  | cons first rest =>
      have sameKeys := key_eq_of_mem_classesBy isClass member List.mem_cons_self
      exact List.map_inj_left.mp sameKeys _ key

/-- A condition that joins a statement keeps some of its groups and changes none.
Without keys it may only be one that always holds. -/
theorem collected_filter (meaning : Interpretation V) (database : Database V)
    (summary : statement.Summary) (listed : statement.Listed) {predicate condition : Expr}
    (scalar : predicate.aggregate? = none)
    (resolved : statement.resolved? [predicate] = .ok (some [condition]))
    (always : statement.grouping = some [] →
      ∀ row : Cells V, meaning.isTrue (row.value meaning predicate) = true) :
    collected meaning database
        { statement with conditions := statement.conditions ++ [condition] } =
      (statement.collected meaning database).filter fun group =>
        meaning.isTrue ((statement.row meaning group).value meaning predicate) := by
  let next : Statement := { statement with conditions := statement.conditions ++ [condition] }
  let tuples := statement.source.tuples meaning database
  let blank := Tuple.nulls meaning (statement.source.fields database.toSchema)
  have kept : next.kept meaning tuples = (statement.kept meaning tuples).filter fun tuple =>
      meaning.isTrue (tuple.value meaning condition) := by
    rw [Clauses.kept, Clauses.kept, List.filter_filter]
    apply List.filter_congr
    intro tuple _
    simp [next, Bool.and_comm]
  have single : ∀ tuple : Tuple V, tuple.value meaning condition =
      (statement.row meaning (.single tuple)).value meaning predicate := by
    intro tuple
    change (Group.single tuple).value meaning condition = _
    cases (Clauses.resolved?_eq_some resolved).1 with
    | cons inlined _ => exact listed.value_inlined scalar inlined
  change next.groups meaning blank (next.kept meaning tuples) =
    (statement.groups meaning blank (statement.kept meaning tuples)).filter _
  rw [kept]
  cases grouping : statement.grouping with
  | none =>
      have nextGrouping : next.grouping = none := grouping
      rw [Clauses.groups_of_ungrouped grouping, Clauses.groups_of_ungrouped nextGrouping,
        List.filter_map]
      simp only [single, Function.comp_def]
  | some keys =>
      by_cases empty : keys = []
      · subst empty
        simp only [single, always grouping, List.filter_true]
        rfl
      · have nextGrouping : next.grouping = some keys := grouping
        rw [Clauses.groups_of_keys grouping empty, Clauses.groups_of_keys nextGrouping empty,
          List.filter_map]
        refine congrArg _ (classesBy_filter ?_)
        intro members isClass tuple member
        rw [value_member summary listed grouping scalar resolved isClass member]
        rfl

/-- A select list that makes other rows of the groups changes the rows that come out. -/
theorem rows_select (meaning : Interpretation V) (database : Database V)
    {items : Option (List SelectItem)} (change : Cells V → Cells V)
    (summary : statement.Summary) (nextSummary : Clauses.Summary { statement with select := items })
    (before : statement.MakesGroups)
    (after : Clauses.MakesGroups { statement with select := items })
    (changed : ∀ group ∈ statement.collected meaning database,
      Clauses.row meaning { statement.toClauses with select := items } group =
        change (statement.row meaning group)) :
    rows meaning database { statement with select := items } =
      (statement.rows meaning database).map change := by
  rw [rows_eq_map_collected summary, rows_eq_map_collected nextSummary, List.map_map]
  have same : collected meaning database { statement with select := items } =
      statement.collected meaning database := Clauses.groups_congr rfl before after
  rw [same]
  exact List.map_congr_left changed

end Statement

namespace Draft

variable {draft : Draft}

/-- Nothing is hoisted out of a statement without an order. -/
theorem nest_of_unordered (unordered : draft.statement.orderBy = []) (dialect : Dialect) :
    (draft.nest dialect).statement =
      { source := .relation (.subquery draft.statement.source draft.statement.toClauses)
        scope := draft.statement.visibleScope dialect
        qualifiers := draft.statement.qualifiers } := by
  have hoisted : draft.hoistedKeys = [] := by
    rw [hoistedKeys, unordered]
    rfl
  have outer : draft.outerKeys = [] := by
    rw [outerKeys, unordered]
    rfl
  have inner : draft.inner = draft.statement.toClauses := by
    have orderBy : (if draft.statement.limit.isSome then draft.statement.orderBy else []) =
        draft.statement.orderBy := by simp [unordered]
    rw [Draft.inner, hoisted, Clauses.nested, orderBy]
    rfl
  rw [nest_eq, hoisted, outer, inner]
  rfl

theorem summary_nest (unordered : draft.statement.orderBy = []) (dialect : Dialect) :
    (draft.nest dialect).statement.Summary := by
  rw [nest_of_unordered unordered]
  exact ⟨rfl, rfl, rfl, nofun, nofun⟩

theorem rows_nest [DecidableEq V] (meaning : Interpretation V) (database : Database V)
    (dialect : Dialect) (unordered : draft.statement.orderBy = []) :
    (draft.nest dialect).statement.rows meaning database =
      draft.statement.rows meaning database := by
  rw [Statement.rows_eq_map_collected (summary_nest unordered dialect),
    nest_of_unordered unordered, Statement.collected, Clauses.groups_of_ungrouped rfl]
  simp only [Clauses.kept, List.all_nil, List.filter_true, Source.tuples, Relation.rows,
    List.map_map, Function.comp_def, Clauses.row, Clauses.selected, Group.single,
    Tuple.row_tagged, List.map_id']
  rfl

end Draft

/-! ## The grouping step -/

/-- The cells of a group's row.  Outside aggregate calls a reference has the value
of the key that it is bound to. -/
theorem Cells.aggregate_eq_cells (meaning : Interpretation V) (groupKeys aggregates : List Output)
    (members : List (Cells V)) :
    ∃ env : Env V,
      (∀ {ref : ColumnRef} {expr : Expr}, Output.Binds groupKeys ref expr →
        env ref = (members.headD []).value meaning expr) ∧
      Cells.aggregate meaning groupKeys aggregates members =
        (Output.cells ((members.headD []).value meaning) groupKeys ++
          Output.cells (Expr.eval meaning (members.map (Cells.env meaning)) env)
            aggregates).map Prod.snd := by
  refine ⟨fun ref => ((groupKeys.find? fun key =>
    ref.table.isNone && key.name == ref.name).map fun key =>
      (members.headD []).value meaning key.expr).getD ((members.headD []).env meaning ref), ?_, ?_⟩
  · intro ref expr binds
    cases binds with
    | name found => simp only [found, Option.map_some, Option.getD_some]
    | key absent _ _ => simp only [absent, Option.map_none, Option.getD_none]; rfl
  · rw [List.map_append, ← Cells.project_eq_cells, Output.cells, List.map_map, Cells.aggregate]
    refine congrArg _ (List.map_congr_left fun output _ => ?_)
    refine congrArg (Prod.mk output.name) (Expr.eval_congr fun ref _ => ?_)
    cases groupKeys.find? fun key => ref.table.isNone && key.name == ref.name <;> rfl

namespace Clauses.Listed

variable {clauses : Clauses} {meaning : Interpretation V} {groupKeys : List Output}

/-- A key has the value for a group that it has in the row of its first tuple. -/
theorem value_key (listed : clauses.Listed) (meaning : Interpretation V) {expr : Expr}
    (scalar : expr.aggregate? = none)
    (passed : ∀ ref ∈ expr.columnRefs, clauses.Locates ref (clauses.sourceOf ref) ∧
      ∃ column, clauses.sourceOf ref = .column column) (group : Group V) :
    group.value meaning (expr.mapColumns .everywhere clauses.sourceOf) =
      (clauses.row meaning (.single group.tuple)).value meaning expr := by
  rw [Group.value, Expr.eval_mapColumns, Cells.value, Expr.eval_of_scalar scalar]
  apply Expr.eval_congr
  intro ref member
  obtain ⟨locates, column, isColumn⟩ := passed ref member
  rw [← listed.value_of_locates locates, isColumn]
  rfl

/-- An output of the grouping step has the value for a group that it has among the
rows of the group's tuples. -/
theorem value_bound (listed : clauses.Listed)
    (scalar : ∀ key ∈ groupKeys, key.expr.aggregate? = none)
    (passed : ∀ key ∈ groupKeys, ∀ ref ∈ key.expr.columnRefs,
      clauses.Locates ref (clauses.sourceOf ref) ∧
        ∃ column, clauses.sourceOf ref = .column column)
    {output : Output} {bound : Expr} (boundOk : Draft.bindGroupKeys groupKeys output = .ok bound)
    (locates : ∀ ref ∈ bound.columnRefs, clauses.Locates ref (clauses.sourceOf ref))
    {group : Group V} {env : Env V}
    (agrees : ∀ {ref : ColumnRef} {expr : Expr}, Output.Binds groupKeys ref expr →
      env ref = (clauses.row meaning (.single group.tuple)).value meaning expr) :
    group.value meaning (bound.mapColumns .everywhere clauses.sourceOf) =
      output.expr.eval meaning
        (group.members.map fun tuple => (clauses.row meaning (.single tuple)).env meaning) env := by
  -- Inside aggregate calls the tuples of the group are read through their rows.
  have inside : ∀ env : Env V,
      bound.eval meaning ((group.members.map (Tuple.env meaning)).map fun row ref =>
        (clauses.sourceOf ref).eval meaning [] row) env =
      bound.eval meaning
        (group.members.map fun tuple => (clauses.row meaning (.single tuple)).env meaning) env := by
    intro env
    rw [List.map_map]
    apply Expr.eval_congr_group
    intro tuple _ ref member
    change (Group.single tuple).value meaning (clauses.sourceOf ref) = _
    exact listed.value_of_locates (locates ref member)
  rw [Group.value, Expr.eval_mapColumns, inside]
  obtain ⟨binding, rfl, binds⟩ := Draft.bindGroupKeys_eq_ok boundOk
  rw [Expr.eval_mapColumns_outside]
  apply Expr.eval_congr_outside
  intro ref outside
  obtain ⟨key, member, isKey⟩ := (binds ref outside).exists_key
  have value := listed.value_key meaning (scalar key member) (passed key member) group
  rw [Group.value, Expr.eval_mapColumns, isKey] at value
  rw [agrees (binds ref outside), ← value]
  exact Expr.eval_of_scalar (isKey ▸ scalar key member)

/-- The row of a group is the aggregation of the rows of its tuples. -/
theorem row_grouped (listed : clauses.Listed)
    (scalar : ∀ key ∈ groupKeys, key.expr.aggregate? = none) {aggregates : List Output}
    {bound exprs : List Expr}
    (boundOk : List.Forall₂ (fun output expr => Draft.bindGroupKeys groupKeys output = .ok expr)
      aggregates bound)
    (resolved : clauses.resolved? (groupKeys.map (·.expr) ++ bound) = .ok (some exprs))
    {next : Clauses}
    (select : next.select =
      some ((Output.withExprs (groupKeys ++ aggregates) exprs).map Output.item))
    {blank : Tuple V} {members : List (Tuple V)} (present : groupKeys ≠ [] → members ≠ []) :
    next.row meaning (.ofMembers blank members) =
      Cells.aggregate meaning groupKeys aggregates
        (members.map fun tuple => clauses.row meaning (.single tuple)) := by
  have first : groupKeys ≠ [] →
      (members.map fun tuple => clauses.row meaning (.single tuple)).headD [] =
        clauses.row meaning (.single (Group.ofMembers blank members).tuple) := by
    intro keyed
    cases members with
    | nil => exact absurd rfl (present keyed)
    | cons tuple members => rfl
  have passed : ∀ key ∈ groupKeys, ∀ ref ∈ key.expr.columnRefs,
      clauses.Locates ref (clauses.sourceOf ref) ∧
        ∃ column, clauses.sourceOf ref = .column column := by
    intro key member ref refMember
    exact Clauses.sourceOf_of_resolved? resolved
      (List.mem_append_left _ (List.mem_map_of_mem member)) refMember
  have locates : ∀ expr ∈ bound, ∀ ref ∈ expr.columnRefs,
      clauses.Locates ref (clauses.sourceOf ref) := by
    intro expr member ref refMember
    exact (Clauses.sourceOf_of_resolved? resolved (List.mem_append_right _ member) refMember).1
  obtain ⟨env, agrees, row⟩ := Cells.aggregate_eq_cells meaning groupKeys aggregates
    (members.map fun tuple => clauses.row meaning (.single tuple))
  rw [Clauses.row_of_items select, Clauses.resolved?_eq_map resolved, List.map_append, row,
    Output.withExprs, List.zipWith_append (by simp), Output.cells, List.map_append]
  congr 2
  · apply Output.cells_withExprs
    rw [List.map_map, List.forall₂_map_right_iff, List.forall₂_same]
    intro key member
    rw [first (List.ne_nil_of_mem member)]
    exact listed.value_key meaning (scalar key member) (passed key member) _
  · apply Output.cells_withExprs
    rw [List.forall₂_map_right_iff, List.map_map]
    refine ((List.forall₂_and_left _ _).mpr ⟨locates, boundOk.flip⟩).flip.imp ?_
    rintro output expr ⟨exprLocates, exprOk⟩
    refine listed.value_bound scalar passed exprOk exprLocates ?_
    intro ref expr binds
    obtain ⟨key, member, _⟩ := binds.exists_key
    rw [agrees binds, first (List.ne_nil_of_mem member)]

end Clauses.Listed

/-- A statement that groups gives the aggregations of the classes of its rows. -/
theorem Statement.rows_grouped [DecidableEq V] {meaning : Interpretation V}
    {database : Database V} {statement : Statement} (listed : statement.Listed)
    {groupKeys aggregates : List Output}
    (scalar : ∀ key ∈ groupKeys, key.expr.aggregate? = none) {bound exprs : List Expr}
    (boundOk : List.Forall₂ (fun output expr => Draft.bindGroupKeys groupKeys output = .ok expr)
      aggregates bound)
    (resolved : statement.resolved? (groupKeys.map (·.expr) ++ bound) = .ok (some exprs))
    {next : Statement}
    (nextEq : next = { statement with
      select := some ((Output.withExprs (groupKeys ++ aggregates) exprs).map Output.item)
      grouping := some (exprs.take groupKeys.length)
      orderBy := [] })
    (summary : next.Summary) (makesGroups : next.MakesGroups) :
    let rows := (statement.kept meaning (statement.source.tuples meaning database)).map
      fun tuple => statement.row meaning (.single tuple)
    next.rows meaning database =
      (if groupKeys.isEmpty then [rows]
       else classesBy (fun row => groupKeys.map fun key => Cells.value meaning row key.expr)
         rows).map (Cells.aggregate meaning groupKeys aggregates) := by
  intro rows
  let tuples := statement.kept meaning (statement.source.tuples meaning database)
  let blank := Tuple.nulls meaning (statement.source.fields database.toSchema)
  have row : ∀ members : List (Tuple V), (groupKeys ≠ [] → members ≠ []) →
      next.row meaning (.ofMembers blank members) =
        Cells.aggregate meaning groupKeys aggregates
          (members.map fun tuple => statement.row meaning (.single tuple)) :=
    fun members present => listed.row_grouped scalar boundOk resolved (nextEq ▸ rfl) present
  have collected : next.collected meaning database = next.groups meaning blank tuples := by
    rw [nextEq]
    rfl
  have grouping : next.grouping = some (groupKeys.map fun key =>
      key.expr.mapColumns .everywhere statement.sourceOf) := by
    rw [← Clauses.take_of_resolved resolved, nextEq]
  rw [Statement.rows_eq_map_collected summary, collected]
  by_cases empty : groupKeys = []
  · subst empty
    rw [Clauses.groups_of_total grouping (makesGroups grouping)]
    exact congrArg (fun row => [row]) (row tuples (fun keyed => absurd rfl keyed))
  · rw [Clauses.groups_of_keys grouping (by simpa using empty), List.map_map,
      if_neg (by simpa using empty), classesBy_map, List.map_map]
    have sameKeys : ∀ tuple ∈ tuples,
        (groupKeys.map fun key => key.expr.mapColumns .everywhere statement.sourceOf).map
            (tuple.value meaning) =
          groupKeys.map fun key =>
            (statement.row meaning (.single tuple)).value meaning key.expr := by
      intro tuple _
      rw [List.map_map]
      apply List.map_congr_left
      intro key member
      exact listed.value_key meaning (scalar key member) (fun ref refMember =>
        Clauses.sourceOf_of_resolved? resolved
          (List.mem_append_left _ (List.mem_map_of_mem member)) refMember) (.single tuple)
    rw [classesBy_congr sameKeys]
    apply List.map_congr_left
    intro members isClass
    exact row members fun _ => ne_nil_of_mem_classesBy isClass

end SqlPlan
