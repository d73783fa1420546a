import SqlPlan.Proofs.Columns
import SqlPlan.Proofs.Meaning.Ordering

/-!
# Steps on the rows of one statement

A listed statement reads one relation whose columns are known and writes out
what it selects.  An expression against its output, written in terms of its
source, has the value for a group of tuples that it has in the row of that
group.  So a projection that joins the select list is a projection of rows.  A
plain statement moreover neither groups nor removes duplicates; each of its
tuples stands for itself.
-/

namespace SqlPlan

variable {V : Type}

structure Clauses.Listed (clauses : Clauses) : Prop where
  closed : clauses.scope.extent = .single false
  items : ∀ item ∈ clauses.select.getD [], ∃ output, item = .output output ∧ output.hidden = false

structure Clauses.Plain (clauses : Clauses) : Prop where
  closed : clauses.scope.extent = .single false
  ungrouped : clauses.grouping = none
  bag : clauses.distinct = false
  items : ∀ item ∈ clauses.select.getD [], ∃ output, item = .output output ∧ output.hidden = false

theorem Clauses.Plain.listed {clauses : Clauses} (plain : clauses.Plain) : clauses.Listed :=
  ⟨plain.closed, plain.items⟩

/-- A tuple has the columns of the scope where all of them are selected. -/
def Clauses.Fits (clauses : Clauses) (tuple : Tuple V) : Prop :=
  clauses.select = none → (Tuple.row tuple).names = clauses.scope.names

namespace Clauses.Listed

variable {clauses : Clauses} {meaning : Interpretation V} {group : Group V}

theorem starless (listed : clauses.Listed) : clauses.star? = none := by
  rw [Clauses.star?, List.findSome?_eq_none_iff]
  intro item member
  obtain ⟨output, rfl, _⟩ := listed.items item member
  rfl

theorem unhidden (listed : clauses.Listed) :
    ∀ item ∈ clauses.select.getD [], item.isHidden = false := by
  intro item member
  obtain ⟨output, rfl, visible⟩ := listed.items item member
  exact visible

theorem closed_visibleScope (listed : clauses.Listed) (dialect : Dialect) :
    (clauses.visibleScope dialect).isOpen = false := by
  rw [Clauses.isOpen_visibleScope]
  cases clauses.select <;> simp [Scope.isOpen, listed.closed, listed.starless]

theorem row_eq (listed : clauses.Listed) {items : List SelectItem}
    (select : clauses.select = some items) :
    clauses.row meaning group =
      clauses.visibleOutputs.map fun output => (output.name, group.value meaning output.expr) :=
  Clauses.selected_eq_visibleOutputs select listed.starless
    (by simpa [select] using listed.unhidden) _ _

theorem names_row (listed : clauses.Listed) (fits : clauses.Fits group.tuple) :
    (clauses.row meaning group).names = clauses.visibleNames := by
  cases select : clauses.select with
  | none =>
      simp only [Clauses.row, Clauses.selected, Clauses.visibleNames, select]
      exact fits select
  | some items =>
      rw [listed.row_eq select]
      simp [Cells.names, Clauses.visibleNames, select, Function.comp_def]

/-- A reference stands for the column of its name in the row. -/
theorem value_of_locates (listed : clauses.Listed) {ref : ColumnRef} {expr : Expr}
    (locates : clauses.Locates ref expr) :
    group.value meaning expr = (clauses.row meaning group).env meaning ref := by
  cases locates with
  | @output output found =>
      obtain ⟨items, select⟩ : ∃ items, clauses.select = some items := by
        cases select : clauses.select with
        | none => simp [Clauses.visibleOutputs, Clauses.outputs, select] at found
        | some items => exact ⟨items, rfl⟩
      rw [listed.row_eq select]
      simp only [Cells.env, Cells.get?, List.find?_map, Function.comp_def, found]
      rfl
  | @source table column position resolved =>
      have whole : clauses.select = none := by
        rcases position with whole | star | joined
        · exact whole
        · simp [listed.starless] at star
        · simp [Scope.isJoined, listed.closed] at joined
      have bare : column = { name := ref.name } := by
        rw [Scope.resolve, listed.closed] at resolved
        exact (Scope.resolveSingle_eq_ok resolved).1
      rw [bare]
      simp only [Group.value, Expr.eval, Tuple.env, Tuple.get?_unqualified, Cells.env, Clauses.row,
        Clauses.selected, whole]

/-- An expression in terms of the source has the value that the expression has
in the row. -/
theorem value_inlined (listed : clauses.Listed) {expr source : Expr}
    (scalar : expr.aggregate? = none) (success : clauses.inlined expr = .ok source) :
    group.value meaning source = (clauses.row meaning group).value meaning expr := by
  rw [(Clauses.inlined_eq_ok success).2, Group.value, Expr.eval_mapColumns, Cells.value,
    Expr.eval_of_scalar scalar]
  apply Expr.eval_congr
  intro ref member
  exact listed.value_of_locates (Clauses.locates_of_inlined success member)

/-- The items of a listed statement, written out, are the columns of its rows. -/
theorem expandedSelect_eq (listed : clauses.Listed) (meaning : Interpretation V)
    (distinct : clauses.visibleNames.Nodup) :
    ∃ outputs : List SelectOutput, clauses.expandedSelect = outputs.map .output ∧
      (∀ output ∈ outputs, output.hidden = false) ∧
      clauses.visibleNames = outputs.map (·.name) ∧
      ∀ group : Group V, clauses.Fits group.tuple → clauses.row meaning group =
        outputs.map fun output => (output.name, group.value meaning output.expr) := by
  cases select : clauses.select with
  | none =>
      refine ⟨clauses.scope.names.map fun name => { name, expr := .named name }, ?_, ?_, ?_, ?_⟩
      · have closed : clauses.scope.isOpen = false := by simp [Scope.isOpen, listed.closed]
        simp [Clauses.expandedSelect, select, closed, SelectItem.ofColumn, Function.comp_def]
      · simp
      · simp [Clauses.visibleNames, select, Function.comp_def]
      · intro group fits
        have names := fits select
        have tupleDistinct : (Tuple.row group.tuple).names.Nodup := by
          rw [names]
          simpa [Clauses.visibleNames, select] using distinct
        have cells := Cells.map_get?_names tupleDistinct meaning.null
        rw [names] at cells
        simp only [Clauses.row, Clauses.selected, select, List.map_map, Function.comp_def,
          Group.value, Expr.eval, Tuple.env, Tuple.get?_unqualified]
        exact cells.symm
  | some items =>
      refine ⟨clauses.visibleOutputs, ?_, ?_, ?_, fun group _ => listed.row_eq select⟩
      · simp only [Clauses.expandedSelect, select]
        exact Clauses.select_eq_visibleOutputs select listed.starless
          (by simpa [select] using listed.unhidden)
      · intro output member
        simpa using (List.mem_filter.mp member).2
      · simp [Clauses.visibleNames, select]

end Clauses.Listed

/-! ## Projections of rows -/

/-- What outputs put into a row, each with the column whose place it takes. -/
def Output.cells (value : Expr → V) (outputs : List Output) : List (String × String × V) :=
  outputs.map fun output => (output.target, output.name, value output.expr)

/-- Outputs in terms of the source put into a row what the outputs themselves do. -/
theorem Output.cells_withExprs {outputs : List Output} {exprs : List Expr}
    {value source : Expr → V}
    (same : List.Forall₂ (fun output expr => source expr = value output.expr) outputs exprs) :
    Output.cells source (Output.withExprs outputs exprs) = Output.cells value outputs := by
  induction same with
  | nil => rfl
  | cons head _ induction =>
      rw [Output.cells, Output.withExprs, List.zipWith_cons_cons, List.map_cons, head]
      exact congrArg (List.cons _) induction

namespace Cells

variable {meaning : Interpretation V} {outputs : List Output} {row : Cells V}

theorem project_eq_cells :
    row.project meaning outputs = (Output.cells (row.value meaning) outputs).map Prod.snd := by
  simp [Cells.project, Output.cells]

theorem extend_eq_cells :
    row.extend meaning outputs =
      (row.map fun cell =>
        (((Output.cells (row.value meaning) outputs).find? fun placed =>
          placed.1 == cell.1).map Prod.snd).getD cell) ++
      ((Output.cells (row.value meaning) outputs).filter fun placed =>
        !row.names.contains placed.1).map Prod.snd := by
  rw [Cells.extend, Cells.project_eq_cells]
  congr 1
  · apply List.map_congr_left
    intro cell _
    simp only [Output.cells, List.find?_map, Function.comp_def]
    cases outputs.find? fun output => output.target == cell.1 <;> rfl
  · simp [Output.cells, List.filter_map, Function.comp_def]

end Cells

namespace Clauses

variable {clauses : Clauses} {meaning : Interpretation V} {group : Group V}

theorem cells_items (value : Expr → V) (tuple : Tuple V) (outputs : List Output) :
    (outputs.map Output.item).flatMap
        (SelectItem.cells (fun output => value output.expr) tuple) =
      (Output.cells value outputs).map Prod.snd := by
  rw [Output.cells, List.flatMap_map, List.map_map]
  exact List.map_eq_flatMap.symm

theorem row_of_items {outputs : List Output}
    (select : clauses.select = some (outputs.map Output.item)) :
    clauses.row meaning group = (Output.cells (group.value meaning) outputs).map Prod.snd := by
  simp only [row, selected, select]
  exact cells_items (group.value meaning) group.tuple outputs

/-- An extended list has the new outputs in the places of the columns that they
redefine, and the others at its end. -/
theorem extendedSelect_eq {shown : List SelectOutput} {outputs : List Output}
    {items : List SelectItem} (distinct : clauses.visibleNames.Nodup)
    (targets : (outputs.map Output.target).Nodup)
    (extended : clauses.extendedSelect outputs = .ok items)
    (expanded : clauses.expandedSelect = shown.map .output)
    (unhidden : ∀ output ∈ shown, output.hidden = false)
    (names : clauses.visibleNames = shown.map (·.name)) :
    items =
      (shown.map fun selected =>
        SelectItem.replacedBy outputs selected.name (.output selected)) ++
      (outputs.filter fun output =>
        !(shown.map (·.name)).contains output.target).map Output.item := by
  obtain ⟨behindStar, placed, _⟩ := Clauses.extendedSelect_eq_ok extended
  have kept : clauses.expandedSelect.filter (fun item => !item.isHidden) =
      shown.map .output := by
    rw [expanded, List.filter_eq_self]
    intro item member
    obtain ⟨output, outputMember, rfl⟩ := List.mem_map.mp member
    simp [SelectItem.isHidden, unhidden output outputMember]
  have places : (shown.map SelectItem.output).map SelectItem.name? =
      clauses.visibleNames.map some := by
    simp [names, SelectItem.name?, SelectItem.output?, Function.comp_def]
  rw [kept, places, ← List.append_nil (shown.map SelectItem.output)] at placed
  rw [SelectItem.foldlM_place_eq_ok distinct targets (by simp [names]) placed, names,
    List.zipWith_map, List.zipWith_self, List.append_nil]

/-- An item whose column is not redefined stays in an extended list. -/
theorem mem_extendedSelect_of_untouched {shown : List SelectOutput} {outputs : List Output}
    {items : List SelectItem} (distinct : clauses.visibleNames.Nodup)
    (targets : (outputs.map Output.target).Nodup)
    (extended : clauses.extendedSelect outputs = .ok items)
    (expanded : clauses.expandedSelect = shown.map .output)
    (unhidden : ∀ output ∈ shown, output.hidden = false)
    (names : clauses.visibleNames = shown.map (·.name)) {selected : SelectOutput}
    (member : selected ∈ shown) (untouched : selected.name ∉ outputs.map Output.target) :
    .output selected ∈ items := by
  have absent : outputs.find? (fun output => output.target == selected.name) = none := by
    rw [List.find?_eq_none]
    intro output outputMember same
    exact untouched (List.mem_map.mpr ⟨output, outputMember, by simpa using same⟩)
  rw [extendedSelect_eq distinct targets extended expanded unhidden names]
  refine List.mem_append_left _ (List.mem_map.mpr ⟨selected, member, ?_⟩)
  simp only [SelectItem.replacedBy, absent]

/-- The cell in the place of a column after outputs take the places of theirs. -/
theorem cells_replacedBy (value : Expr → V) (tuple : Tuple V) (outputs : List Output)
    (selected : SelectOutput) :
    (SelectItem.replacedBy outputs selected.name (.output selected)).cells
        (fun output => value output.expr) tuple =
      [(((Output.cells value outputs).find? fun placed =>
        placed.1 == selected.name).map Prod.snd).getD
          (selected.name, value selected.expr)] := by
  simp only [SelectItem.replacedBy, Output.cells, List.find?_map, Function.comp_def]
  cases outputs.find? fun output => output.target == selected.name <;> rfl

end Clauses

namespace Clauses.Listed

variable {clauses : Clauses} {meaning : Interpretation V} {group : Group V} {outputs : List Output}
  {exprs : List Expr}

/-- The values that resolved outputs have for a group are those that the
outputs have in its row. -/
theorem cells_resolved (listed : clauses.Listed)
    (scalar : ∀ output ∈ outputs, output.expr.aggregate? = none)
    (resolved : clauses.resolved? (outputs.map (·.expr)) = .ok (some exprs))
    (meaning : Interpretation V) (group : Group V) :
    Output.cells (group.value meaning) (Output.withExprs outputs exprs) =
      Output.cells ((clauses.row meaning group).value meaning) outputs := by
  apply Output.cells_withExprs
  have inlined := (Clauses.resolved?_eq_some resolved).1
  rw [List.forall₂_map_left_iff] at inlined
  refine ((List.forall₂_and_left _ _).mpr ⟨scalar, inlined⟩).imp ?_
  rintro output source ⟨outputScalar, success⟩
  exact listed.value_inlined outputScalar success

/-- A projection that joins the select list is a projection of the row. -/
theorem row_projected (listed : clauses.Listed)
    (scalar : ∀ output ∈ outputs, output.expr.aggregate? = none)
    (resolved : clauses.resolved? (outputs.map (·.expr)) = .ok (some exprs)) {next : Clauses}
    (select : next.select = some ((Output.withExprs outputs exprs).map Output.item)) :
    next.row meaning group = (clauses.row meaning group).project meaning outputs := by
  rw [Clauses.row_of_items select, listed.cells_resolved scalar resolved meaning group,
    Cells.project_eq_cells]

/-- Outputs that join the select list beside its items extend the row. -/
theorem row_extended (listed : clauses.Listed) (distinct : clauses.visibleNames.Nodup)
    (scalar : ∀ output ∈ outputs, output.expr.aggregate? = none)
    (targets : (outputs.map Output.target).Nodup)
    (resolved : clauses.resolved? (outputs.map (·.expr)) = .ok (some exprs))
    {items : List SelectItem}
    (extended : clauses.extendedSelect (Output.withExprs outputs exprs) = .ok items)
    {next : Clauses} (select : next.select = some items) (fits : clauses.Fits group.tuple) :
    next.row meaning group = (clauses.row meaning group).extend meaning outputs := by
  obtain ⟨shown, expanded, unhidden, names, rows⟩ :=
    listed.expandedSelect_eq meaning distinct
  have cells := listed.cells_resolved scalar resolved meaning group
  have length := (Clauses.resolved?_eq_some resolved).1.length_eq
  rw [← Output.targets_withExprs (by simpa using length)] at targets
  rw [Clauses.extendedSelect_eq distinct targets extended expanded unhidden names] at select
  have rowNames : (clauses.row meaning group).names = shown.map (·.name) := by
    rw [listed.names_row fits, names]
  rw [Cells.extend_eq_cells, ← cells, rowNames, rows group fits]
  simp only [Clauses.row, Clauses.selected, select, List.flatMap_append]
  congr 1
  · rw [List.flatMap_map, List.map_map, List.map_eq_flatMap]
    exact List.flatMap_congr fun selected _ => Clauses.cells_replacedBy _ _ _ selected
  · refine (Clauses.cells_items (group.value meaning) group.tuple _).trans ?_
    simp [Output.cells, List.filter_map, Function.comp_def]

end Clauses.Listed

/-! ## Rows that are pending -/

namespace Statement

variable [DecidableEq V]

/-- The rows of the surviving tuples, with the values of their keys. -/
def pending (meaning : Interpretation V) (database : Database V) (statement : Statement) :
    List (Pending V) :=
  (statement.survivors meaning (statement.source.tuples meaning database)).map
    (statement.pendingOf meaning)

variable {meaning : Interpretation V} {database : Database V} {statement : Statement}

/-- A plain statement gives its pending rows in the order of their keys. -/
theorem rows_eq_sorted_pending (plain : statement.Plain) :
    statement.rows meaning database =
      (Pending.sorted meaning (statement.pending meaning database)).map (·.row) := by
  rw [Statement.rows, Clauses.rows_eq_map_survivors plain.ungrouped plain.bag, pending,
    Clauses.sorted_map_pendingOf, List.map_map]
  rfl

theorem pending_ofTable (table : TableRef) :
    (Statement.ofTable table).pending meaning database =
      (database.rows table).map fun row => { row, keys := [] } := by
  have survivors : ∀ tuples : List (Tuple V),
      (Statement.ofTable table).survivors meaning tuples = tuples := List.filter_true
  have tuples : (Statement.ofTable table).source.tuples meaning database =
      (database.rows table).map (Cells.tagged none) := rfl
  rw [pending, survivors, tuples, List.map_map]
  apply List.map_congr_left
  intro row _
  simp [Clauses.pendingOf, Clauses.row, Clauses.selected, Group.single, SortKey.values,
    Statement.ofTable]

/-- Another select list makes other rows of the same tuples. -/
theorem pending_select {items : Option (List SelectItem)} {change : Cells V → Cells V}
    (changed : ∀ tuple ∈ statement.source.tuples meaning database,
      Clauses.row meaning { statement.toClauses with select := items } (.single tuple) =
        change (statement.row meaning (.single tuple))) :
    pending meaning database { statement with select := items } =
      (statement.pending meaning database).map fun pending =>
        { pending with row := change pending.row } := by
  rw [pending, pending, List.map_map]
  apply List.map_congr_left
  intro tuple member
  simp only [Clauses.pendingOf, Function.comp_def,
    changed tuple (Clauses.mem_of_mem_survivors member)]

theorem pending_filter (unlimited : statement.limit = none) {predicate condition : Expr}
    (same : ∀ tuple, tuple.value meaning condition =
      (statement.row meaning (.single tuple)).value meaning predicate) :
    pending meaning database
        { statement with conditions := statement.conditions ++ [condition] } =
      (statement.pending meaning database).filter fun pending =>
        meaning.isTrue (pending.row.value meaning predicate) := by
  let next : Clauses :=
    { statement.toClauses with conditions := statement.conditions ++ [condition] }
  have nextUnlimited : next.limit = none := unlimited
  have survivors : ∀ tuples : List (Tuple V), next.survivors meaning tuples =
      (statement.survivors meaning tuples).filter fun tuple =>
        meaning.isTrue ((statement.row meaning (.single tuple)).value meaning predicate) := by
    intro tuples
    rw [Clauses.survivors_of_unlimited nextUnlimited, Clauses.survivors_of_unlimited unlimited,
      Clauses.kept, Clauses.kept, List.filter_filter]
    apply List.filter_congr
    intro tuple _
    simp [next, same, Bool.and_comm]
  rw [pending, pending, List.filter_map, survivors]
  rfl

theorem pending_sort (unlimited : statement.limit = none) {keys orderBy : List SortKey}
    (same : ∀ tuple, SortKey.values orderBy (tuple.value meaning) =
      SortKey.values keys ((statement.row meaning (.single tuple)).value meaning)) :
    pending meaning database { statement with orderBy } =
      (statement.pending meaning database).map fun pending =>
        { pending with keys := SortKey.values keys (pending.row.value meaning) } := by
  simp only [pending, Clauses.survivors, unlimited, List.map_map]
  apply List.map_congr_left
  intro tuple _
  simp only [Clauses.pendingOf, same, Function.comp_def]
  rfl

theorem pending_limit {draft : Draft} (count : Nat) :
    (draft.limit count).statement.pending meaning database =
      (Pending.sorted meaning (draft.statement.pending meaning database)).take count := by
  have survivors : ∀ tuples : List (Tuple V),
      (draft.limit count).statement.survivors meaning tuples =
        (draft.statement.limited (draft.statement.orderedTuples meaning
          (draft.statement.kept meaning tuples))).take count := by
    intro tuples
    cases limit : draft.statement.limit with
    | none => simp only [Clauses.survivors, Clauses.limited, Draft.limit, limit]; rfl
    | some earlier =>
        simp only [Clauses.survivors, Clauses.limited, Draft.limit, limit, List.take_take,
          Nat.min_comm]
        rfl
  rw [pending, survivors, pending, Clauses.sorted_map_pendingOf, ← List.map_take,
    Clauses.orderedTuples_survivors]
  rfl

theorem pending_named {draft : Draft} (name : String) :
    (draft.named name).statement.pending meaning database =
      draft.statement.pending meaning database := by
  have tuples : (draft.named name).statement.source.tuples meaning database =
      draft.statement.source.tuples meaning database := by
    rcases Statement.named_source name draft with same | ⟨ref, shownAs, before, after⟩
    · rw [same]
    · rw [before, after]
      rfl
  rw [pending, tuples]
  rfl

end Statement

end SqlPlan
