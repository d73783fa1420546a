import SqlPlan.Proofs.Meaning.Steps

/-!
# Nesting keeps rows and their order

A plain statement and the one that is nested around it have the same rows
pending: the same rows, with the same values of the ordering keys.  A key that
the output does not carry is read from the hidden output that was selected for
it, whose name no other column has.
-/

namespace SqlPlan

variable {V : Type}

theorem Clauses.selected_nested {α : Type} {clauses : Clauses} {hoisted : List SelectOutput}
    (whole : clauses.select = none → hoisted = []) (value : SelectOutput → α) (tuple : Tuple α) :
    (clauses.nested hoisted).selected value tuple =
      clauses.selected value tuple ++ hoisted.map fun output => (output.name, value output) := by
  cases hoisted with
  | nil => simp [Clauses.nested, Clauses.selected]
  | cons first rest =>
      cases select : clauses.select with
      | none => cases whole select
      | some items =>
          simp only [Clauses.nested, Clauses.selected, Clauses.expandedSelect, select,
            List.isEmpty_cons, Bool.false_eq_true, if_false, List.flatMap_append, List.flatMap_map]
          exact congrArg _ List.map_eq_flatMap.symm

namespace Draft

variable {meaning : Interpretation V} {draft : Draft} {tuple : Tuple V}

theorem row_inner :
    draft.inner.row meaning (.single tuple) =
      draft.statement.row meaning (.single tuple) ++
        draft.hoistedKeys.map fun output => (output.name, tuple.value meaning output.expr) :=
  Clauses.selected_nested hoistedKeys_of_select_none _ _

/-- The statement inside gives the rows of the surviving tuples as they come. -/
theorem rows_inner [DecidableEq V] (plain : draft.statement.Plain) (blank : Tuple V)
    (tuples : List (Tuple V)) :
    draft.inner.rows meaning blank tuples =
      (draft.statement.survivors meaning tuples).map fun tuple =>
        draft.inner.row meaning (.single tuple) := by
  have ordered : draft.inner.orderedTuples meaning (draft.inner.survivors meaning tuples) =
      draft.statement.survivors meaning tuples := by
    cases limit : draft.statement.limit with
    | none =>
        have unordered : draft.inner.orderBy = [] := by simp [inner, Clauses.nested, limit]
        rw [Clauses.orderedTuples_of_orderBy_nil unordered]
        simp only [Clauses.survivors, limit, show draft.inner.limit = none from limit]
        rfl
    | some count =>
        have orderBy : draft.inner.orderBy = draft.statement.orderBy := by
          simp [inner, Clauses.nested, limit]
        have sameOrder : ∀ tuples : List (Tuple V), draft.inner.orderedTuples meaning tuples =
            draft.statement.orderedTuples meaning tuples := by
          intro tuples
          simp only [Clauses.orderedTuples, orderBy]
        simp only [Clauses.survivors, limit, show draft.inner.limit = some count from limit,
          sameOrder]
        -- The first tuples of a sorted list are sorted, so the ordering inside changes nothing.
        exact Clauses.orderedTuples_take count
  have ungrouped : draft.inner.grouping = none := plain.ungrouped
  have bag : draft.inner.distinct = false := plain.bag
  rw [Clauses.rows_eq_map_survivors ungrouped bag, ordered]

/-! ## The statement around -/

theorem nodup_names_inner (meaning : Interpretation V) (plain : draft.statement.Plain)
    (fits : draft.statement.Fits tuple)
    (distinct : draft.statement.visibleNames.Nodup)
    (ordinary : ∀ name ∈ draft.statement.visibleNames, ¬ Clauses.IsReserved name) :
    (draft.inner.row meaning (.single tuple)).names.Nodup := by
  have names : (draft.inner.row meaning (.single tuple)).names =
      draft.statement.visibleNames ++ draft.hoistedKeys.map (·.name) := by
    rw [row_inner, Cells.names, List.map_append]
    congr 1
    · exact plain.listed.names_row fits
    · simp [Function.comp_def]
  rw [names]
  refine List.Nodup.append distinct (Clauses.nodup_names_hoisted _ _) ?_
  intro name visible hoisted
  obtain ⟨output, member, rfl⟩ := List.mem_map.mp hoisted
  obtain ⟨_, ⟨count, _, named⟩, _⟩ := Clauses.mem_hoisted member
  exact ordinary _ visible (named ▸ Clauses.isReserved_hoistedName count)

/-- A column that is read from outside has the value of its cell. -/
theorem value_named {row : Cells V} (distinct : row.names.Nodup) {name : String} {value : V}
    (member : (name, value) ∈ row) :
    Tuple.value meaning (Cells.tagged none row) (.named name) = value := by
  simp [Tuple.value, Expr.eval, Tuple.env, Tuple.get?_unqualified,
    Cells.get?_of_mem distinct member]

/-- A key that the output carries has the same value outside. -/
theorem value_carried? {clauses : Clauses} (plain : clauses.Plain) {row : Cells V}
    (distinct : row.names.Nodup)
    (cells : ∀ cell ∈ clauses.row meaning (.single tuple), cell ∈ row)
    {items : List SelectItem} (select : clauses.select = some items) {key carried : Expr}
    (success : clauses.carried? key = some carried) :
    Tuple.value meaning (Cells.tagged none row) carried = tuple.value meaning key := by
  have output : ∀ output ∈ clauses.visibleOutputs,
      Tuple.value meaning (Cells.tagged none row) (.named output.name) =
        tuple.value meaning output.expr := by
    intro output member
    apply value_named distinct
    apply cells
    rw [plain.listed.row_eq select]
    exact List.mem_map.mpr ⟨output, member, rfl⟩
  simp only [Clauses.carried?, select] at success
  split at success
  · rename_i found foundEq
    cases success
    have same : found.expr.same key = true := by simpa using List.find?_some foundEq
    rw [output found (List.mem_of_find?_eq_some foundEq)]
    exact Expr.eval_eq_of_same same
  · split at success
    · rename_i all
      cases success
      rw [Tuple.value, Expr.eval_mapColumns, List.map_nil, Tuple.value]
      apply Expr.eval_congr
      intro ref member
      have carriedRef := List.all_eq_true.mp all ref member
      unfold Clauses.carriedRef? at carriedRef ⊢
      cases foundEq : clauses.visibleOutputs.find? fun output =>
          output.expr.same (.column ref) with
      | none => simp [foundEq, plain.listed.starless] at carriedRef
      | some found =>
          have same : found.expr.same (.column ref) = true := by
            simpa using List.find?_some foundEq
          have passes := Expr.same_column_iff.mp same
          have value := output found (List.mem_of_find?_eq_some foundEq)
          rw [passes] at value
          exact value
    · cases success

theorem row_nest (dialect : Dialect) (plain : draft.statement.Plain)
    (fits : draft.statement.Fits tuple) (distinct : draft.statement.visibleNames.Nodup) :
    (draft.nest dialect).statement.row meaning
        (.single (Cells.tagged none (draft.inner.row meaning (.single tuple)))) =
      draft.statement.row meaning (.single tuple) := by
  have names : (draft.statement.row meaning (.single tuple)).names =
      draft.statement.visibleNames := plain.listed.names_row fits
  rw [nest_eq, plain.listed.closed_visibleScope, Bool.or_false]
  cases hoisted : draft.hoistedKeys with
  | nil =>
      rw [List.isEmpty_nil, if_pos rfl, row_inner, hoisted]
      simp only [Clauses.row, Clauses.selected, Group.single, Tuple.row_tagged]
      exact List.append_nil _
  | cons first rest =>
      rw [List.isEmpty_cons, if_neg Bool.false_ne_true]
      have read : ∀ name ∈ draft.statement.visibleNames,
          Tuple.value meaning (Cells.tagged none (draft.inner.row meaning (.single tuple)))
              (.named name) =
            ((draft.statement.row meaning (.single tuple)).get? name).getD meaning.null := by
        intro name visible
        simp only [Tuple.value, Expr.eval, Tuple.env, Tuple.get?_unqualified, Tuple.row_tagged]
        rw [row_inner, Cells.get?_append_left (names ▸ visible)]
      calc
        _ = draft.statement.visibleNames.flatMap fun name =>
              [(name, Tuple.value meaning
                (Cells.tagged none (draft.inner.row meaning (.single tuple))) (.named name))] :=
          List.flatMap_map _ _ _
        _ = draft.statement.visibleNames.map fun name =>
              (name, ((draft.statement.row meaning (.single tuple)).get? name).getD
                meaning.null) := by
          rw [List.map_eq_flatMap]
          exact List.flatMap_congr fun name visible => by rw [read name visible]
        _ = draft.statement.row meaning (.single tuple) := by
          rw [← names]
          exact Cells.map_get?_names (names ▸ distinct) meaning.null

theorem keys_nest (plain : draft.statement.Plain)
    (untagged : Cells.tagged none (Tuple.row tuple) = tuple)
    (distinct : (draft.inner.row meaning (.single tuple)).names.Nodup) :
    SortKey.values draft.outerKeys
        (Tuple.value meaning (Cells.tagged none (draft.inner.row meaning (.single tuple)))) =
      SortKey.values draft.statement.orderBy (tuple.value meaning) := by
  have free : (draft.statement.distinct || draft.statement.isGrouped) = false := by
    simp [plain.bag, Clauses.isGrouped, plain.ungrouped]
  refine SortKey.values_eq_of_forall₂ ?_
  refine (Clauses.forall₂_carriedKeys free draft.hoisted draft.statement.orderBy).imp ?_
  rintro key carried ⟨direction, written | ⟨output, member, same, read⟩⟩
  · refine ⟨direction, ?_⟩
    cases select : draft.statement.select with
    | none =>
        rw [Clauses.carried?_of_select_none select] at written
        rw [← Option.some.inj written, row_inner, hoistedKeys_of_select_none select]
        simp only [List.map_nil, List.append_nil, Clauses.row, Clauses.selected, select,
          Group.single, untagged]
    | some items =>
        refine value_carried? plain distinct ?_ select written
        intro cell member
        rw [row_inner]
        exact List.mem_append_left _ member
  · refine ⟨direction, ?_⟩
    rw [read, ← same]
    apply value_named distinct
    rw [row_inner]
    exact List.mem_append_right _ (List.mem_map.mpr ⟨output, member, rfl⟩)

/-- The statement around sees each surviving tuple as a row with its keys. -/
theorem pendingOf_nest (dialect : Dialect) (plain : draft.statement.Plain)
    (fits : draft.statement.Fits tuple)
    (untagged : Cells.tagged none (Tuple.row tuple) = tuple)
    (distinct : draft.statement.visibleNames.Nodup)
    (ordinary : ∀ name ∈ draft.statement.visibleNames, ¬ Clauses.IsReserved name) :
    (draft.nest dialect).statement.pendingOf meaning
        (Cells.tagged none (draft.inner.row meaning (.single tuple))) =
      draft.statement.pendingOf meaning tuple := by
  have keys := keys_nest plain untagged (nodup_names_inner meaning plain fits distinct ordinary)
  rw [Clauses.pendingOf, row_nest dialect plain fits distinct, nest_eq, keys]
  rfl

/-- A statement and the one around it have the same rows pending. -/
theorem pending_nest [DecidableEq V] (database : Database V) (dialect : Dialect)
    (plain : draft.statement.Plain)
    (single : ∃ relation, draft.statement.source = .relation relation)
    (fits : ∀ tuple ∈ draft.statement.source.tuples meaning database, draft.statement.Fits tuple)
    (distinct : draft.statement.visibleNames.Nodup)
    (ordinary : ∀ name ∈ draft.statement.visibleNames, ¬ Clauses.IsReserved name) :
    (draft.nest dialect).statement.pending meaning database =
      draft.statement.pending meaning database := by
  obtain ⟨relation, source⟩ := single
  have everything : ∀ tuples : List (Tuple V),
      (draft.nest dialect).statement.survivors meaning tuples = tuples := by
    intro tuples
    exact List.filter_true tuples
  have tuples : (draft.nest dialect).statement.source.tuples meaning database =
      (draft.statement.survivors meaning
        (draft.statement.source.tuples meaning database)).map fun tuple =>
          Cells.tagged none (draft.inner.row meaning (.single tuple)) := by
    rw [nest_eq, Source.tuples, Relation.rows, rows_inner plain, List.map_map]
    rfl
  rw [Statement.pending, everything, tuples, List.map_map]
  apply List.map_congr_left
  intro tuple member
  have tupleMember := Clauses.mem_of_mem_survivors member
  apply pendingOf_nest dialect plain (fits tuple tupleMember) _ distinct ordinary
  rw [source, Source.tuples] at tupleMember
  obtain ⟨row, _, rfl⟩ := List.mem_map.mp tupleMember
  rw [Tuple.row_tagged]

end Draft

end SqlPlan
