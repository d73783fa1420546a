import SqlPlan.Proofs.Columns
import SqlPlan.Proofs.Stepping

/-!
# Statements without types

The scope of a statement records a type for each of its columns.  These types are
taken away here.  Which names resolve, what they stand for, what a nested statement
selects and how a join is put together is the same with them and without.
-/

namespace SqlPlan

def ScopeColumn.untyped (column : ScopeColumn) : ScopeColumn := { column with type := none }

def Scope.untyped (scope : Scope) : Scope :=
  { scope with columns := scope.columns.map ScopeColumn.untyped }

def Clauses.untyped (clauses : Clauses) : Clauses :=
  { clauses with scope := clauses.scope.untyped }

mutual

def Relation.untyped : Relation → Relation
  | .table ref shownAs => .table ref shownAs
  | .subquery source clauses => .subquery source.untyped clauses.untyped

def Source.untyped : Source → Source
  | .relation relation => .relation relation.untyped
  | .join left leftName right rightName kind on =>
      .join left.untyped leftName right.untyped rightName kind on

end

/-- A statement without the types that its scope and those of its parts record. -/
def Statement.untyped (statement : Statement) : Statement :=
  { toClauses := statement.toClauses.untyped, source := statement.source.untyped }

def Draft.untyped (draft : Draft) : Draft :=
  { draft with statement := draft.statement.untyped }

namespace Scope

variable (scope : Scope)

theorem names_untyped : scope.untyped.names = scope.names := by
  simp [untyped, names, Function.comp_def, ScopeColumn.untyped]

theorem listed_untyped : scope.untyped.listed = scope.listed := by
  have joined : scope.untyped.isJoined = scope.isJoined := rfl
  simp only [listed, joined, names_untyped]
  simp [untyped, Function.comp_def, ScopeColumn.untyped, ScopeColumn.ref]

theorem matching_untyped (name : String) :
    scope.untyped.matching name = (scope.matching name).map ScopeColumn.untyped := by
  simp [untyped, matching, List.filter_map, Function.comp_def, ScopeColumn.untyped]

theorem tables_matching_untyped (name : String) :
    (scope.untyped.matching name).map (fun column => column.table.getD "") =
      (scope.matching name).map fun column => column.table.getD "" := by
  rw [matching_untyped, List.map_map]
  rfl

theorem resolveJoined_untyped (openSide : Option String) (ref : ColumnRef) :
    scope.untyped.resolveJoined openSide ref = scope.resolveJoined openSide ref := by
  have known : scope.untyped.columns.any (fun column => column.ref == ref) =
      scope.columns.any fun column => column.ref == ref := by
    rw [untyped, List.any_map]
    rfl
  unfold resolveJoined
  rw [known, listed_untyped, tables_matching_untyped, matching_untyped]
  cases ref.table with
  | some table => rfl
  | none =>
      cases scope.matching ref.name with
      | nil => rfl
      | cons first rest =>
          cases rest with
          | nil => cases openSide <;> rfl
          | cons second rest => rfl

/-- What a reference resolves to depends on names only. -/
theorem resolve_untyped (qualifiers : List String) (ref : ColumnRef) :
    scope.untyped.resolve qualifiers ref = scope.resolve qualifiers ref := by
  have extent : scope.untyped.extent = scope.extent := rfl
  unfold resolve
  rw [extent]
  cases scope.extent with
  | joined openSide => exact scope.resolveJoined_untyped openSide ref
  | single isOpen =>
      simp only [resolveSingle, resolveSingle.unqualified, names_untyped, listed_untyped]

end Scope

namespace Clauses

theorem visibleNames_untyped (clauses : Clauses) :
    clauses.untyped.visibleNames = clauses.visibleNames := by
  unfold visibleNames
  rw [show clauses.untyped.scope = clauses.scope.untyped from rfl, Scope.names_untyped]
  rfl

theorem locateInSource_untyped (clauses : Clauses) (ref : ColumnRef) :
    clauses.untyped.locateInSource ref = clauses.locateInSource ref := by
  unfold locateInSource
  rw [show clauses.untyped.scope = clauses.scope.untyped from rfl, Scope.resolve_untyped]
  rfl

theorem locateOutput_untyped (clauses : Clauses) (ref : ColumnRef) :
    clauses.untyped.locateOutput ref = clauses.locateOutput ref := by
  have length : (clauses.scope.untyped.matching ref.name).length =
      (clauses.scope.matching ref.name).length := by
    rw [Scope.matching_untyped, List.length_map]
  unfold locateOutput
  simp only [locateInSource_untyped, visibleNames_untyped]
  rw [show clauses.untyped.scope = clauses.scope.untyped from rfl, length,
    Scope.tables_matching_untyped]
  rfl

/-- What a reference stands for depends on names only. -/
theorem locate_untyped (clauses : Clauses) (ref : ColumnRef) :
    clauses.untyped.locate ref = clauses.locate ref := by
  unfold locate
  rw [locateInSource_untyped, locateOutput_untyped, visibleNames_untyped]
  rfl

theorem expandedSelect_untyped (clauses : Clauses) :
    clauses.untyped.expandedSelect = clauses.expandedSelect := by
  unfold expandedSelect
  rw [show clauses.untyped.scope = clauses.scope.untyped from rfl, Scope.names_untyped]
  rfl

theorem extendedSelect_untyped (clauses : Clauses) (outputs : List Output) :
    clauses.untyped.extendedSelect outputs = clauses.extendedSelect outputs := by
  unfold extendedSelect
  rw [expandedSelect_untyped]
  rfl

/-- A statement shows the same names in any dialect. -/
theorem visibleScope_untyped (clauses : Clauses) (first second : Dialect) :
    (clauses.untyped.visibleScope first).untyped = (clauses.visibleScope second).untyped := by
  have select : clauses.untyped.select = clauses.select := rfl
  unfold visibleScope
  rw [select]
  cases clauses.select with
  | none =>
      simp only [Scope.untyped, untyped, List.map_map]
      rfl
  | some items =>
      simp only [Scope.untyped, List.map_map]
      rfl

theorem nested_untyped (clauses : Clauses) (hoisted : List SelectOutput) :
    (clauses.nested hoisted).untyped = clauses.untyped.nested hoisted := by
  unfold nested
  rw [expandedSelect_untyped]
  rfl

theorem carriedKeys_untyped (clauses : Clauses) (used : Nat) (keys : List SortKey) :
    clauses.untyped.carriedKeys used keys = clauses.carriedKeys used keys := by
  induction keys generalizing used with
  | nil => rfl
  | cons key keys induction =>
      unfold carriedKeys
      rw [show clauses.untyped.carried? key.expr = clauses.carried? key.expr from rfl,
        induction used, induction (used + 1)]
      rfl

section Congruence

variable {first second : Clauses} (same : first.untyped = second.untyped)

include same

/-- What does not depend on types is the same for statements that differ in them only. -/
theorem eq_of_untyped {α : Type} (view : Clauses → α)
    (blind : ∀ clauses, view clauses.untyped = view clauses) : view first = view second := by
  rw [← blind first, same, blind second]

theorem locate_congr : first.locate = second.locate :=
  eq_of_untyped same locate fun clauses => funext clauses.locate_untyped

theorem refusal?_congr : first.refusal? = second.refusal? := by
  funext ref
  rw [refusal?, refusal?, locate_congr same]

theorem isDerived_congr : first.isDerived = second.isDerived := by
  funext ref
  rw [isDerived, isDerived, locate_congr same]

theorem sourceOf_congr : first.sourceOf = second.sourceOf := by
  funext ref
  rw [sourceOf, sourceOf, locate_congr same]

theorem inlined_congr : first.inlined = second.inlined := by
  funext expr
  rw [inlined, inlined, locate_congr same]

theorem extendedSelect_congr : first.extendedSelect = second.extendedSelect :=
  eq_of_untyped same extendedSelect fun clauses => funext clauses.extendedSelect_untyped

theorem visibleNames_congr : first.visibleNames = second.visibleNames :=
  eq_of_untyped same visibleNames visibleNames_untyped

theorem visibleScope_congr (dialect other : Dialect) :
    (first.visibleScope dialect).untyped = (second.visibleScope other).untyped := by
  rw [← first.visibleScope_untyped dialect dialect, same, second.visibleScope_untyped]

end Congruence

end Clauses

theorem Scope.isOpen_congr {first second : Scope} (same : first.untyped = second.untyped) :
    first.isOpen = second.isOpen := by
  have isOpen : first.untyped.isOpen = second.untyped.isOpen := by rw [same]
  exact isOpen

theorem Scope.names_congr {first second : Scope} (same : first.untyped = second.untyped) :
    first.names = second.names := by
  rw [← first.names_untyped, same, second.names_untyped]

/-! ## Drafts -/

namespace Draft

variable {first second : Draft} (same : first.untyped = second.untyped) (dialect other : Dialect)

include same

theorem eq_of_untyped {α : Type} (view : Draft → α)
    (blind : ∀ draft, view draft.untyped = view draft) : view first = view second := by
  rw [← blind first, same, blind second]

theorem statement_congr : first.statement.untyped = second.statement.untyped :=
  congrArg Draft.statement same

theorem clauses_congr : first.statement.toClauses.untyped = second.statement.toClauses.untyped :=
  congrArg Statement.toClauses (statement_congr same)

theorem source_congr : first.statement.source.untyped = second.statement.source.untyped :=
  congrArg Statement.source (statement_congr same)

theorem hoistedKeys_congr : first.hoistedKeys = second.hoistedKeys :=
  eq_of_untyped same hoistedKeys fun draft =>
    congrArg Prod.snd (draft.statement.carriedKeys_untyped draft.hoisted draft.statement.orderBy)

theorem inner_congr : first.inner.untyped = second.inner.untyped := by
  rw [inner, inner, Clauses.nested_untyped, Clauses.nested_untyped, clauses_congr same,
    hoistedKeys_congr same]

/-- Nesting reads no types. -/
theorem nest_congr : (first.nest dialect).untyped = (second.nest other).untyped := by
  have scope := Clauses.visibleScope_congr (clauses_congr same) dialect other
  have names := Clauses.visibleNames_congr (clauses_congr same)
  have qualifiers := eq_of_untyped same (·.statement.qualifiers) fun _ => rfl
  have orderBy := eq_of_untyped same outerKeys fun draft =>
    congrArg Prod.fst (draft.statement.carriedKeys_untyped draft.hoisted draft.statement.orderBy)
  have hoisted := eq_of_untyped same Draft.hoisted fun _ => rfl
  rw [nest_eq, nest_eq]
  simp only [Draft.untyped, Statement.untyped, Source.untyped, Relation.untyped,
    source_congr same, inner_congr same, hoistedKeys_congr same, hoisted]
  simp only [Clauses.untyped, scope, Scope.isOpen_congr scope, names, qualifiers, orderBy]

theorem unsealed_congr : (first.unsealed dialect).untyped = (second.unsealed other).untyped := by
  have isSealed := eq_of_untyped same (·.statement.isSealed) fun _ => rfl
  unfold unsealed
  rw [isSealed]
  split
  · exact nest_congr same dialect other
  · exact same

theorem settled_congr_untyped (refs : List ColumnRef) :
    (first.settled dialect refs).untyped = (second.settled other refs).untyped := by
  unfold settled
  rw [Clauses.isDerived_congr (clauses_congr same)]
  split
  · exact nest_congr same dialect other
  · exact same

end Draft

namespace Statement

theorem wholeTable?_untyped (statement : Statement) :
    statement.untyped.wholeTable? = statement.wholeTable? := by
  have source : statement.untyped.source = statement.source.untyped := rfl
  unfold wholeTable?
  rw [source]
  cases statement.source with
  | join left leftName right rightName kind on => rfl
  | relation relation => cases relation <;> rfl

theorem untyped_unordered (statement : Statement) :
    statement.unordered.untyped = statement.untyped.unordered := by
  have limit : statement.untyped.limit = statement.limit := rfl
  unfold unordered
  rw [limit]
  split <;> rfl

end Statement

/-! ## Joins -/

def JoinInput.untyped (side : JoinInput) : JoinInput :=
  { side with statement := side.statement.untyped, scope := side.scope.untyped }

section Sides

variable {first second : JoinInput} (same : first.untyped = second.untyped)

include same

theorem JoinInput.name_congr : first.name = second.name := by
  have name : first.untyped.name = second.untyped.name := by rw [same]
  exact name

theorem JoinInput.scope_congr : first.scope.untyped = second.scope.untyped :=
  congrArg JoinInput.scope same

theorem JoinInput.relation_congr : first.relation.untyped = second.relation.untyped := by
  have untyped : first.statement.untyped = second.statement.untyped :=
    congrArg JoinInput.statement same
  have unordered : first.statement.unordered.untyped = second.statement.unordered.untyped := by
    rw [Statement.untyped_unordered, untyped, Statement.untyped_unordered]
  have whole : first.statement.unordered.wholeTable? = second.statement.unordered.wholeTable? := by
    rw [← Statement.wholeTable?_untyped, unordered, Statement.wholeTable?_untyped]
  unfold relation
  rw [← Statement.unordered, ← Statement.unordered]
  dsimp only
  rw [whole, JoinInput.name_congr same]
  cases second.statement.unordered.wholeTable? with
  | some ref => rfl
  | none =>
      rw [Relation.untyped, Relation.untyped]
      rw [show first.statement.unordered.source.untyped =
          second.statement.unordered.source.untyped from congrArg Statement.source unordered,
        show first.statement.unordered.toClauses.untyped =
          second.statement.unordered.toClauses.untyped from congrArg Statement.toClauses unordered]

end Sides

theorem joinScope_untyped (left right : JoinInput) :
    joinScope left.untyped right.untyped = (joinScope left right).untyped := by
  simp only [joinScope, JoinInput.untyped, Scope.untyped, Scope.tagged, List.map_append,
    List.map_map]
  rfl

theorem joinSelect_untyped (kind : JoinKind) (on : Expr) (left right : JoinInput) :
    joinSelect kind on left.untyped right.untyped = joinSelect kind on left right := by
  simp only [joinSelect, joinItemsBesideOpen, joinItems, JoinInput.untyped, Scope.names_untyped]
  rfl

theorem refuseShared_untyped (openSide closedSide : JoinInput) (tables : List String) (on : Expr) :
    refuseShared openSide.untyped closedSide.untyped tables on =
      refuseShared openSide closedSide tables on := by
  simp only [refuseShared, JoinInput.untyped, Scope.names_untyped]

end SqlPlan
