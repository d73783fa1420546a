import SqlPlan.Proofs.Columns

/-!
# What a statement may name

Every part of a planned statement names only what its source shows.  A source
also provides the ordering keys that its subquery selects under fresh names:
these are read by the ordering of the part around it, and by the keys that this
part selects for a statement further out.
-/

namespace SqlPlan

/-- A reference to a single relation is unqualified, and names a declared column
unless some are not declared.  A reference into a join is qualified, or names the
only column of its name where all columns are declared. -/
def Scope.Resolves (scope : Scope) (ref : ColumnRef) : Prop :=
  match scope.extent, ref.table with
  | .single isOpen, table => table = none ∧ (isOpen = true ∨ ref.name ∈ scope.names)
  | .joined openSide, some side => ref ∈ scope.columns.map ScopeColumn.ref ∨ openSide = some side
  | .joined openSide, none => (scope.matching ref.name).length = 1 ∧ openSide = none

def Relation.scope (dialect : Dialect) : Relation → Scope
  | .table ref _ => ref.scope
  | .subquery _ clauses => clauses.visibleScope dialect

/-- The columns that a source shows; those of a join carry their side. -/
def Source.scope (dialect : Dialect) : Source → Scope
  | .relation shown => shown.scope dialect
  | .join left leftName right rightName _ _ =>
      { columns := (left.scope dialect).tagged leftName ++ (right.scope dialect).tagged rightName
        extent := .joined
          (if (left.scope dialect).isOpen then some leftName
           else if (right.scope dialect).isOpen then some rightName
           else none) }

/-- The names of the ordering keys that a subquery selects for the statement around it. -/
def Source.hiddenNames : Source → List String
  | .relation (.subquery _ clauses) =>
      (clauses.outputs.filter fun output => output.hidden).map (·.name)
  | _ => []

/-- The condition of a join. -/
def Source.on? : Source → Option Expr
  | .relation _ => none
  | .join _ _ _ _ _ on => some on

mutual

/-- The statements nested in a relation, at any depth. -/
def Relation.statements : Relation → List Statement
  | .table _ _ => []
  | .subquery source clauses => { toClauses := clauses, source } :: source.statements

def Source.statements : Source → List Statement
  | .relation relation => relation.statements
  | .join left _ right _ _ _ => left.statements ++ right.statements

end

/-- A statement and all that are nested in it. -/
def Statement.parts (statement : Statement) : List Statement :=
  statement :: statement.source.statements

def Expr.ResolvesIn (scope : Scope) (expr : Expr) : Prop :=
  ∀ ref ∈ expr.columnRefs, scope.Resolves ref

/-- An expression that names what the source shows or a key that it selects for
this statement. -/
def Statement.Reads (statement : Statement) (expr : Expr) : Prop :=
  ∀ ref ∈ expr.columnRefs, statement.scope.Resolves ref ∨
    ref.table = none ∧ ref.name ∈ statement.source.hiddenNames

/-- Every reference of a statement is answered by its source. -/
structure Statement.Answered (dialect : Dialect) (statement : Statement) : Prop where
  scope : statement.scope = statement.source.scope dialect
  visible : ∀ output ∈ statement.visibleOutputs, output.expr.ResolvesIn statement.scope
  hidden : ∀ output ∈ statement.outputs, output.hidden = true → statement.Reads output.expr
  conditions : ∀ condition ∈ statement.conditions, condition.ResolvesIn statement.scope
  grouping : ∀ key ∈ statement.grouping.getD [], key.ResolvesIn statement.scope
  on : ∀ on ∈ statement.source.on?, on.ResolvesIn statement.scope
  orderBy : ∀ key ∈ statement.orderBy, statement.Reads key.expr

/-! ## Resolution -/

namespace Scope

variable {scope : Scope}

theorem resolves_of_single {isOpen : Bool} (single : scope.extent = .single isOpen)
    {name : String} (known : isOpen = true ∨ name ∈ scope.names) : scope.Resolves { name } := by
  simp only [Resolves, single]
  exact ⟨trivial, known⟩

theorem resolves_of_mem {openSide : Option String} (joined : scope.extent = .joined openSide)
    {side name : String}
    (member : { table := some side, name } ∈ scope.columns.map ScopeColumn.ref) :
    scope.Resolves { table := some side, name } := by
  simp only [Resolves, joined]
  exact .inl member

theorem resolves_of_resolveJoined {openSide : Option String} {ref resolved : ColumnRef}
    (joined : scope.extent = .joined openSide)
    (success : scope.resolveJoined openSide ref = .ok resolved) : scope.Resolves resolved := by
  unfold resolveJoined at success
  split at success
  · rename_i side qualified
    split at success
    · rename_i known
      cases success
      simpa [Resolves, joined, qualified] using known
    · cases success
  · rename_i unqualified
    split at success
    · cases success
    · rename_i column unique
      cases success
      simp [Resolves, joined, unqualified, unique]
    · rename_i column side unique
      cases success
      simp only [Resolves, joined]
      have member : column ∈ scope.matching ref.name := by simp [unique]
      obtain ⟨member, named⟩ := List.mem_filter.mp member
      cases tagged : column.table with
      | none => exact .inr rfl
      | some table =>
          refine .inl (List.mem_map.mpr ⟨column, member, ?_⟩)
          simp only [ScopeColumn.ref, tagged, Option.getD_some]
          rw [show column.name = ref.name by simpa using named]
    · cases success
      simp [Resolves, joined]
    · cases success

/-- What resolution returns is answered by the scope. -/
theorem resolves_of_resolve {qualifiers : List String} {ref resolved : ColumnRef}
    (success : scope.resolve qualifiers ref = .ok resolved) : scope.Resolves resolved := by
  unfold resolve at success
  split at success
  · rename_i isOpen single
    obtain ⟨rfl, known⟩ := resolveSingle_eq_ok success
    exact resolves_of_single single known
  · rename_i openSide joined
    exact resolves_of_resolveJoined joined success

end Scope

/-! ## Steps within a statement -/

namespace Clauses

variable {clauses : Clauses}
  (visible : ∀ output ∈ clauses.visibleOutputs, output.expr.ResolvesIn clauses.scope)

include visible

theorem resolvesIn_of_locates {ref : ColumnRef} {expr : Expr}
    (locates : clauses.Locates ref expr) : expr.ResolvesIn clauses.scope := by
  cases locates with
  | output found => exact visible _ (List.mem_of_find?_eq_some found)
  | source _ resolved =>
      intro ref member
      cases List.mem_singleton.mp member
      exact Scope.resolves_of_resolve resolved

/-- An expression that is written in terms of the source resolves there. -/
theorem resolvesIn_of_inlined {expr source : Expr} (success : clauses.inlined expr = .ok source) :
    source.ResolvesIn clauses.scope := by
  intro ref member
  rw [(inlined_eq_ok success).2, Expr.columnRefs_mapColumns] at member
  obtain ⟨original, originalMember, member⟩ := List.mem_flatMap.mp member
  exact resolvesIn_of_locates visible (locates_of_inlined success originalMember) ref member

theorem resolvesIn_of_resolved? {exprs resolved : List Expr}
    (success : clauses.resolved? exprs = .ok (some resolved)) :
    ∀ expr ∈ resolved, expr.ResolvesIn clauses.scope := by
  intro expr member
  obtain ⟨_, _, inlined⟩ := exists_mem_of_forall₂ (resolved?_eq_some success).1 member
  exact resolvesIn_of_inlined visible inlined

end Clauses

theorem Output.expr_mem_of_mem_withExprs {outputs : List Output} {exprs : List Expr}
    {output : Output} (member : output ∈ Output.withExprs outputs exprs) : output.expr ∈ exprs := by
  rw [Output.withExprs, ← List.map_uncurry_zip_eq_zipWith] at member
  obtain ⟨pair, pairMember, rfl⟩ := List.mem_map.mp member
  exact (List.of_mem_zip pairMember).2

/-- The expression of an item resolves; a star has none. -/
def SelectItem.ResolvesIn (scope : Scope) (item : SelectItem) : Prop :=
  ∀ output ∈ item.output?, output.expr.ResolvesIn scope

theorem SelectItem.resolvesIn_ofColumn {scope : Scope} {name : String}
    (resolves : scope.Resolves { name }) : (SelectItem.ofColumn name).ResolvesIn scope := by
  intro output member
  cases Option.mem_some.mp member
  intro ref refMember
  cases List.mem_singleton.mp refMember
  exact resolves

/-- Outputs with resolved expressions become visible items that resolve. -/
theorem Output.item_of_mem_withExprs {scope : Scope} {outputs : List Output} {exprs : List Expr}
    (resolves : ∀ expr ∈ exprs, expr.ResolvesIn scope) {output : Output}
    (member : output ∈ Output.withExprs outputs exprs) :
    output.item.isHidden = false ∧ output.item.ResolvesIn scope := by
  refine ⟨rfl, ?_⟩
  intro selected isItem
  cases Option.mem_some.mp isItem
  exact resolves _ (expr_mem_of_mem_withExprs member)

namespace Clauses

variable {clauses : Clauses}

theorem mem_selected_of_mem_outputs {α : Type} {output : SelectOutput}
    (member : output ∈ clauses.outputs) (value : SelectOutput → α) (tuple : Tuple α) :
    (output.name, value output) ∈ clauses.selected value tuple := by
  have listed := mem_outputs.mp member
  cases select : clauses.select with
  | none => simp [select] at listed
  | some items =>
      rw [select, Option.getD_some] at listed
      simp only [selected, select]
      exact List.mem_flatMap.mpr ⟨_, listed, List.mem_singleton.mpr rfl⟩

theorem expandedSelect_resolvesIn
    (visible : ∀ output ∈ clauses.visibleOutputs, output.expr.ResolvesIn clauses.scope)
    (single : clauses.select = none → clauses.scope.isJoined = false) :
    ∀ item ∈ clauses.expandedSelect, item.isHidden = false → item.ResolvesIn clauses.scope := by
  intro item member unhidden
  unfold expandedSelect at member
  split at member
  · rename_i items select
    intro output found
    cases item with
    | star table => cases found
    | output selected =>
        cases Option.mem_some.mp found
        refine visible _ (List.mem_filter.mpr
          ⟨mem_outputs.mpr (by simpa [select] using member), ?_⟩)
        simpa [SelectItem.isHidden] using unhidden
  · rename_i whole
    have single := single whole
    split at member
    · cases List.mem_singleton.mp member
      intro output found
      cases found
    · obtain ⟨name, known, rfl⟩ := List.mem_map.mp member
      apply SelectItem.resolvesIn_ofColumn
      cases extent : clauses.scope.extent with
      | single isOpen => exact Scope.resolves_of_single extent (.inr known)
      | joined openSide => simp [Scope.isJoined, extent] at single

end Clauses

namespace Statement.Answered

variable {dialect : Dialect} {statement : Statement}

theorem ofItems {items : List SelectItem} (select : statement.select = some items)
    (resolves : ∀ item ∈ items, item.isHidden = false ∧ item.ResolvesIn statement.scope)
    (scope : statement.scope = statement.source.scope dialect)
    (conditions : ∀ condition ∈ statement.conditions, condition.ResolvesIn statement.scope)
    (grouping : ∀ key ∈ statement.grouping.getD [], key.ResolvesIn statement.scope)
    (on : ∀ on ∈ statement.source.on?, on.ResolvesIn statement.scope)
    (orderBy : ∀ key ∈ statement.orderBy, statement.Reads key.expr) :
    statement.Answered dialect := by
  have selected : ∀ output ∈ statement.outputs,
      output.hidden = false ∧ output.expr.ResolvesIn statement.scope := by
    intro output member
    have listed : .output output ∈ items := by simpa [select] using Clauses.mem_outputs.mp member
    exact ⟨(resolves _ listed).1, (resolves _ listed).2 output rfl⟩
  refine ⟨scope, ?_, ?_, conditions, grouping, on, orderBy⟩
  · intro output member
    exact (selected output (List.mem_filter.mp member).1).2
  · intro output member hidden
    rw [(selected output member).1] at hidden
    cases hidden

theorem ofTable (table : TableRef) : (Statement.ofTable table).Answered dialect where
  scope := rfl
  visible := by simp [Statement.ofTable, Clauses.visibleOutputs, Clauses.outputs]
  hidden := by simp [Statement.ofTable, Clauses.outputs]
  conditions := by simp [Statement.ofTable]
  grouping := by simp [Statement.ofTable]
  on := by simp [Statement.ofTable, Source.on?]
  orderBy := by simp [Statement.ofTable]

end Statement.Answered

end SqlPlan
