import SqlPlan.Proofs.Meaning.Nesting

/-!
# Statements give the rows of their plans

For a plan over one declared table whose steps project, filter, sort and limit
rows, the planned statement gives the rows that the steps give when they run
one after another, in the same order.  Each move by which a statement comes
about keeps the rows that are pending.
-/

namespace SqlPlan

namespace Plan

/-- Plans over one declared table whose steps keep rows apart. -/
def IsSingleTable : Plan → Prop
  | .base table => table.columns.isSome
  | .projected input _ _ => input.IsSingleTable
  | .filtered input _ => input.IsSingleTable
  | .sorted input _ => input.IsSingleTable
  | .limited input _ => input.IsSingleTable
  | .aliased input _ => input.IsSingleTable
  | .grouped _ _ _ => False
  | .joined _ _ _ _ => False
  | .deduplicated _ => False

/-- Plans over one declared table, whatever their steps do with its rows. -/
def IsUnjoined : Plan → Prop
  | .base table => table.columns.isSome
  | .projected input _ _ => input.IsUnjoined
  | .filtered input _ => input.IsUnjoined
  | .sorted input _ => input.IsUnjoined
  | .grouped input _ _ => input.IsUnjoined
  | .deduplicated input => input.IsUnjoined
  | .limited input _ => input.IsUnjoined
  | .aliased input _ => input.IsUnjoined
  | .joined _ _ _ _ => False

theorem IsSingleTable.unjoined {plan : Plan} (single : plan.IsSingleTable) : plan.IsUnjoined := by
  induction plan with
  | base table => exact single
  | projected input outputs keep induction => exact induction single
  | filtered input predicate induction => exact induction single
  | sorted input keys induction => exact induction single
  | grouped => exact single.elim
  | joined => exact single.elim
  | deduplicated => exact single.elim
  | limited input count induction => exact induction single
  | aliased input name induction => exact induction single

/-- The names of the columns that tables declare and steps put out. -/
def columnNames : Plan → List String
  | .base table => (table.columns.getD []).map (·.name)
  | .projected input outputs _ => input.columnNames ++ outputs.map (·.name)
  | .grouped input groupKeys aggregates =>
      input.columnNames ++ (groupKeys ++ aggregates).map (·.name)
  | .joined input other _ _ => input.columnNames ++ other.columnNames
  | .filtered input _ => input.columnNames
  | .sorted input _ => input.columnNames
  | .deduplicated input => input.columnNames
  | .limited input _ => input.columnNames
  | .aliased input _ => input.columnNames

/-- Without a join there are no other names. -/
theorem IsSingleTable.shownNames_eq {plan : Plan} (single : plan.IsSingleTable) :
    plan.shownNames = plan.columnNames := by
  induction plan with
  | base table => rfl
  | projected input outputs keep induction =>
      rw [shownNames, columnNames, induction single]
  | filtered input predicate induction => exact induction single
  | sorted input keys induction => exact induction single
  | grouped => exact single.elim
  | joined => exact single.elim
  | deduplicated => exact single.elim
  | limited input count induction => exact induction single
  | aliased input name induction => exact induction single

end Plan

theorem Clauses.Listed.items_expandedSelect {clauses : Clauses} (listed : clauses.Listed) :
    ∀ item ∈ clauses.expandedSelect, ∃ output, item = .output output ∧ output.hidden = false := by
  intro item member
  unfold Clauses.expandedSelect at member
  split at member
  · rename_i items select
    exact listed.items item (by simpa [select] using member)
  · rw [if_neg (by simp [Scope.isOpen, listed.closed])] at member
    obtain ⟨name, _, rfl⟩ := List.mem_map.mp member
    exact ⟨_, rfl, rfl⟩

theorem Output.items_unhidden (outputs : List Output) :
    ∀ item ∈ outputs.map Output.item, ∃ output, item = .output output ∧ output.hidden = false := by
  intro item member
  obtain ⟨output, _, rfl⟩ := List.mem_map.mp member
  exact ⟨_, rfl, rfl⟩

namespace Drafted

variable {dialect : Dialect} {used : Nat} {plan : Plan} {draft : Draft}

theorem listed (drafted : Drafted dialect used plan draft) (unjoined : plan.IsUnjoined) :
    draft.statement.Listed := by
  induction drafted with
  | base table used =>
      obtain ⟨columns, declared⟩ := Option.isSome_iff_exists.mp unjoined
      refine ⟨?_, by simp [Statement.ofTable]⟩
      simp [Statement.ofTable, TableRef.scope, declared]
  | @nest used plan draft _ induction =>
      have listed := induction unjoined
      have closed : (draft.statement.visibleScope dialect).extent = .single false := by
        rw [Clauses.extent_visibleScope, listed.closed_visibleScope]
      rw [Draft.nest_eq]
      refine ⟨closed, ?_⟩
      intro item member
      dsimp only at member
      split at member
      · cases member
      · obtain ⟨name, _, rfl⟩ := List.mem_map.mp member
        exact ⟨_, rfl, rfl⟩
  | projected _ _ _ _ induction =>
      exact ⟨(induction unjoined).closed, Output.items_unhidden _⟩
  | extended _ _ _ _ itemsOk induction =>
      have listed := induction unjoined
      refine ⟨listed.closed, ?_⟩
      intro item member
      rcases Clauses.mem_extendedSelect itemsOk item member with ⟨old, _⟩ | ⟨output, _, rfl⟩
      · exact listed.items_expandedSelect item old
      · exact ⟨_, rfl, rfl⟩
  | filtered _ _ _ _ induction => exact ⟨(induction unjoined).closed, (induction unjoined).items⟩
  | sorted _ _ _ _ induction => exact ⟨(induction unjoined).closed, (induction unjoined).items⟩
  | grouped _ _ _ _ _ _ induction =>
      exact ⟨(induction unjoined).closed, Output.items_unhidden _⟩
  | joined => exact unjoined.elim
  | deduplicated _ _ induction => exact ⟨(induction unjoined).closed, (induction unjoined).items⟩
  | alreadyDistinct _ _ induction => exact induction unjoined
  | limited count _ induction => exact ⟨(induction unjoined).closed, (induction unjoined).items⟩
  | aliased name _ induction => exact ⟨(induction unjoined).closed, (induction unjoined).items⟩

theorem plain (drafted : Drafted dialect used plan draft) (single : plan.IsSingleTable) :
    draft.statement.Plain := by
  have listed := drafted.listed single.unjoined
  have flat : draft.statement.grouping = none ∧ draft.statement.distinct = false := by
    clear listed
    induction drafted with
    | base table used => exact ⟨rfl, rfl⟩
    | nest _ _ => exact ⟨rfl, rfl⟩
    | projected _ _ _ _ induction => exact induction single
    | extended _ _ _ _ _ induction => exact induction single
    | filtered _ _ _ _ induction => exact induction single
    | sorted _ _ _ _ induction => exact induction single
    | grouped => exact single.elim
    | joined => exact single.elim
    | deduplicated => exact single.elim
    | alreadyDistinct => exact single.elim
    | limited count _ induction => exact induction single
    | aliased name _ induction => exact induction single
  exact ⟨listed.closed, flat.1, flat.2, listed.items⟩

theorem reads_relation (drafted : Drafted dialect used plan draft) (unjoined : plan.IsUnjoined) :
    ∃ relation, draft.statement.source = .relation relation := by
  induction drafted with
  | base table used => exact ⟨_, rfl⟩
  | nest _ _ => exact ⟨_, rfl⟩
  | projected _ _ _ _ induction => exact induction unjoined
  | extended _ _ _ _ _ induction => exact induction unjoined
  | filtered _ _ _ _ induction => exact induction unjoined
  | sorted _ _ _ _ induction => exact induction unjoined
  | grouped _ _ _ _ _ _ induction => exact induction unjoined
  | joined => exact unjoined.elim
  | deduplicated _ _ induction => exact induction unjoined
  | alreadyDistinct _ _ induction => exact induction unjoined
  | limited count _ induction => exact induction unjoined
  | @aliased used input draft name _ induction =>
      rcases Statement.named_source name draft with same | ⟨ref, shownAs, _, after⟩
      · rw [same]
        exact induction unjoined
      · exact ⟨_, after⟩

/-- A visible column was declared or put out by a step. -/
theorem visibleNames_subset (drafted : Drafted dialect used plan draft)
    (single : plan.IsSingleTable) : draft.statement.visibleNames ⊆ plan.columnNames := by
  rw [← single.shownNames_eq]
  exact drafted.visibleNames_subset_shownNames

/-- A statement that selects everything reads tuples of the columns of its scope. -/
theorem fits {V : Type} [DecidableEq V] {meaning : Interpretation V} {database : Database V}
    (drafted : Drafted dialect used plan draft) (listed : draft.statement.Listed) :
    ∀ tuple ∈ draft.statement.source.tuples meaning database, draft.statement.Fits tuple := by
  intro tuple member whole
  have closed : draft.statement.scope.isOpen = false := by simp [Scope.isOpen, listed.closed]
  have fields := (drafted.exposed database.toSchema).whole whole closed
  have refs := draft.statement.source.refs_of_mem_tuples member
  rw [Tuple.names_row, refs, ← Tuple.names_row, fields]
  simp [Cells.names, Function.comp_def]

theorem limit_of_unsealed {clauses : Clauses} (unsealed : clauses.isSealed = false) :
    clauses.limit = none := by
  simpa [Clauses.isSealed] using (Bool.or_eq_false_iff.mp unsealed).2

/-- Every draft has the rows pending that the steps of its plan give. -/
theorem pending?_eq {V : Type} [DecidableEq V] (meaning : Interpretation V)
    (database : Database V) (drafted : Drafted dialect used plan draft)
    (single : plan.IsSingleTable) (distinct : plan.DistinctNames)
    (ordinary : ∀ name ∈ plan.columnNames, ¬ Clauses.IsReserved name) :
    plan.pending? meaning database = some (draft.statement.pending meaning database) := by
  induction drafted with
  | base table used => rw [Plan.pending?, Statement.pending_ofTable]
  | nest drafted induction =>
      -- The plan takes no step here, so the rows that are pending have to stay.
      have plain := drafted.plain single
      rw [Draft.pending_nest database dialect plain (drafted.reads_relation single.unjoined)
        (drafted.fits plain.listed) (drafted.nodup_visibleNames distinct)
        fun name member => ordinary name (drafted.visibleNames_subset single member)]
      exact induction single distinct ordinary
  | @projected used input current outputs exprs drafted _ scalar resolved induction =>
      have listed := drafted.listed single.unjoined
      rw [Plan.pending?, induction single distinct.1 fun name member =>
        ordinary name (List.mem_append_left _ member)]
      refine congrArg some (Eq.symm ?_)
      exact Statement.pending_select fun tuple _ => listed.row_projected scalar resolved rfl
  | @extended used input current outputs exprs items drafted _ scalar resolved itemsOk induction =>
      have listed := drafted.listed single.unjoined
      rw [Plan.pending?, induction single distinct.1 fun name member =>
        ordinary name (List.mem_append_left _ member)]
      refine congrArg some (Eq.symm ?_)
      exact Statement.pending_select fun tuple member =>
        listed.row_extended (drafted.nodup_visibleNames distinct.1) scalar distinct.2.2 resolved
          itemsOk rfl (drafted.fits listed tuple member)
  | @filtered used input current predicate exprs drafted unsealed scalar resolved induction =>
      have listed := drafted.listed single.unjoined
      obtain ⟨condition, rfl, inlined⟩ : ∃ condition, exprs = [condition] ∧
          current.statement.inlined predicate = .ok condition := by
        have pairs := (Clauses.resolved?_eq_some resolved).1
        obtain ⟨condition, rest, inlined, nothing, rfl⟩ := List.forall₂_cons_left_iff.mp pairs
        cases nothing
        exact ⟨condition, rfl, inlined⟩
      rw [Plan.pending?, induction single distinct ordinary]
      refine congrArg some (Eq.symm ?_)
      refine Statement.pending_filter (limit_of_unsealed unsealed) fun tuple => ?_
      change (Group.single tuple).value meaning condition = _
      exact listed.value_inlined scalar inlined
  | @sorted used input current keys orderBy drafted unsealed scalar ordered induction =>
      have listed := drafted.listed single.unjoined
      rw [Plan.pending?, induction single distinct ordinary]
      refine congrArg some (Eq.symm ?_)
      refine Statement.pending_sort (limit_of_unsealed unsealed) fun tuple => ?_
      apply SortKey.values_eq_of_forall₂
      refine ((List.forall₂_and_left _ _).mpr ⟨scalar, ordered⟩).imp ?_
      rintro key ordered ⟨keyScalar, inlined, direction⟩
      refine ⟨direction, ?_⟩
      change (Group.single tuple).value meaning ordered.expr = _
      exact listed.value_inlined keyScalar inlined
  | grouped => exact single.elim
  | joined => exact single.elim
  | deduplicated => exact single.elim
  | alreadyDistinct => exact single.elim
  | limited count _ induction =>
      rw [Plan.pending?, induction single distinct ordinary, Statement.pending_limit]
      rfl
  | @aliased used input draft name _ induction =>
      rw [Plan.pending?, induction single distinct ordinary, Statement.pending_named]

end Drafted

/-- A statement of a plan over one declared table gives the rows that the steps
of the plan give one after another, in the same order, whatever the tables
contain and the operators mean. -/
theorem Plan.result?_eq_rows {V : Type} [DecidableEq V] {dialect : Dialect} {plan : Plan}
    {statement : Statement} (built : plan.Built) (single : plan.IsSingleTable)
    (ordinary : ∀ name ∈ plan.columnNames, ¬ Clauses.IsReserved name)
    (planned : plan.statement dialect = .ok statement) (meaning : Interpretation V)
    (database : Database V) :
    plan.result? meaning database = some (statement.rows meaning database) := by
  obtain ⟨draft, success, statementEq⟩ := bind_eq_ok.mp planned
  cases pure_eq_ok.mp statementEq
  have drafted := Plan.drafted success
  rw [Plan.result?, drafted.pending?_eq meaning database single built.distinctNames ordinary,
    Statement.rows_eq_sorted_pending (drafted.plain single)]
  rfl

theorem Plan.result?_eq_rows_narrowedTwice :
    narrowedTwice.Built ∧ narrowedTwice.IsSingleTable ∧
      (∀ name ∈ narrowedTwice.columnNames, ¬ Clauses.IsReserved name) ∧
      ∃ statement, narrowedTwice.statement .postgres = .ok statement ∧
        ∀ database : Database Nat, narrowedTwice.result? .numeric database =
          some (statement.rows .numeric database) := by
  have ordinary : ∀ name ∈ narrowedTwice.columnNames, ¬ Clauses.IsReserved name := by decide
  obtain ⟨statement, planned⟩ : ∃ statement, narrowedTwice.statement .postgres = .ok statement :=
    ⟨_, rfl⟩
  exact ⟨narrowedTwice_built, rfl, ordinary, statement, planned,
    result?_eq_rows narrowedTwice_built rfl ordinary planned .numeric⟩

end SqlPlan
