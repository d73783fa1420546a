import Mathlib.Data.List.Find
import SqlPlan.Proofs.Parts
import SqlPlan.Proofs.Stepping
import SqlPlan.Proofs.Visibility

/-!
# Steps that keep the columns

Filters, sorts, deduplications, limits and new names choose rows, order them or
name their source.  Whether such a step joins a statement or goes around it, the
columns that the next step sees are the same, with their order and their types.

What a division is cast by are the types of its operands.  These are the types
that the columns are shown with, except for a name that is read through a star:
the statement may know a type for it that nobody sees outside.
-/

namespace SqlPlan

/-! ## Types under replacement -/

/-- Where each reference has the type of what replaces it, so has the expression. -/
theorem Expr.type?_mapColumns {dialect : Dialect}
    {sourceType shownType : ColumnRef → Option DataType} {replace : ColumnRef → Expr} {expr : Expr}
    (agree : ∀ ref ∈ expr.columnRefs, (replace ref).type? dialect sourceType = shownType ref) :
    (expr.mapColumns .everywhere replace).type? dialect sourceType =
      expr.type? dialect shownType := by
  induction expr with
  | column ref => exact agree ref (List.mem_singleton_self _)
  | literal constant => rfl
  | unary op arg induction =>
      cases op with
      | negate => exact induction agree
      | _ => rfl
  | binary op left right leftInduction rightInduction =>
      have leftType := leftInduction fun ref member => agree ref (List.mem_append_left _ member)
      have rightType := rightInduction fun ref member => agree ref (List.mem_append_right _ member)
      cases op with
      | arithmetic op => cases op <;> simp only [mapColumns, type?, leftType, rightType]
      | _ => rfl
  | member arg values negated _ => rfl
  | call name args induction =>
      rw [mapColumns_call]
      cases args with
      | nil => rfl
      | cons first rest =>
          have firstType := induction first List.mem_cons_self fun ref member =>
            agree ref (List.mem_append_left _ member)
          rw [List.map_cons, type?, type?, firstType]
  | case branches otherwise induction _ =>
      rw [mapColumns_case]
      cases branches with
      | nil => rw [List.map_nil, type?, type?]
      | cons branch rest =>
          have resultType := (induction branch List.mem_cons_self).2 fun ref member =>
            agree ref (by simp [member])
          obtain ⟨condition, result⟩ := branch
          rw [List.map_cons, type?, type?, resultType]
  | cast arg type _ => rfl
  | aggregate name arg distinct induction =>
      rw [mapColumns_aggregate_everywhere]
      cases arg with
      | none => rfl
      | some arg =>
          rw [Option.map_some, type?, type?, induction arg rfl (by simpa using agree)]

namespace Scope

variable {scope : Scope}

/-- Without a qualifier, or in one relation, columns are found by their names. -/
theorem columnType_eq {ref : ColumnRef}
    (bare : ref.table = none ∨ ∀ column ∈ scope.columns, column.table = none) :
    scope.columnType ref =
      (scope.columns.find? fun column => column.name == ref.name).bind (·.type) := by
  have same : scope.columns.find? (fun column => column.name == ref.name &&
        (ref.table.isNone || column.table.isNone || column.table == ref.table)) =
      scope.columns.find? fun column => column.name == ref.name := by
    apply List.find?_congr
    intro column member
    rcases bare with unqualified | untagged
    · simp [unqualified]
    · simp [untagged column member]
  rw [columnType, same]

/-- A column that shares its name with no other has its own type. -/
theorem columnType_of_nodup (nodup : scope.names.Nodup) {column : ScopeColumn}
    (member : column ∈ scope.columns) :
    scope.columnType { name := column.name } = column.type := by
  have found : scope.columns.find? (fun other => other.name == column.name) = some column := by
    obtain ⟨other, otherFound⟩ : ∃ other,
        scope.columns.find? (fun other => other.name == column.name) = some other :=
      Option.isSome_iff_exists.mp (List.find?_isSome.mpr ⟨column, member, by simp⟩)
    have same : other.name = column.name := by simpa using List.find?_some otherFound
    rw [otherFound, List.inj_on_of_nodup_map nodup (List.mem_of_find?_eq_some otherFound) member
      same]
  rw [columnType_eq (.inl rfl), found, Option.bind_some]

end Scope

namespace Clauses

variable {clauses : Clauses} {dialect : Dialect}

theorem untagged_visibleScope (clauses : Clauses) (dialect : Dialect) :
    ∀ column ∈ (clauses.visibleScope dialect).columns, column.table = none := by
  unfold visibleScope
  cases clauses.select with
  | none => simp
  | some items => simp

/-! ## The columns around a statement -/

section Shown

variable (untagged : ∀ column ∈ clauses.scope.columns, column.table = none)
include untagged

/-- A statement that selects all columns of one relation shows them as they are. -/
theorem visibleScope_of_select_none (whole : clauses.select = none)
    (single : clauses.scope.extent = .single clauses.scope.isOpen) :
    clauses.visibleScope dialect = clauses.scope := by
  have columns : clauses.scope.columns.map (fun column => { column with table := none }) =
      clauses.scope.columns := by
    refine (List.map_congr_left fun column member => ?_).trans (List.map_id _)
    rw [← untagged column member]
    rfl
  rw [visibleScope, whole]
  dsimp only
  rw [columns, ← single]

/-- So does a statement that lists them under their own names. -/
theorem visibleScope_ofColumn (nodup : clauses.scope.names.Nodup)
    (closed : clauses.scope.extent = .single false)
    (select : clauses.select = some (clauses.scope.names.map SelectItem.ofColumn)) :
    clauses.visibleScope dialect = clauses.scope := by
  -- each column is looked up by its name, which finds another one if names repeat
  have columns : clauses.scope.columns.map (fun column =>
        { name := column.name, type := clauses.scope.columnType { name := column.name } }) =
      clauses.scope.columns := by
    refine (List.map_congr_left fun column member => ?_).trans (List.map_id _)
    rw [Scope.columnType_of_nodup nodup member, ← untagged column member]
    rfl
  rw [visibleScope, select]
  dsimp only
  rw [visibleOutputs_ofColumn select, star?_ofColumn select, List.map_map, Scope.names,
    List.map_map]
  exact congr (congrArg Scope.mk columns) closed.symm

end Shown

end Clauses

/-- Around a statement the same columns are visible, of the same types. -/
theorem Draft.visibleScope_nest {dialect : Dialect} {draft : Draft}
    (nodup : draft.statement.visibleNames.Nodup) :
    (draft.nest dialect).statement.visibleScope dialect =
      draft.statement.visibleScope dialect := by
  have untagged := draft.statement.untagged_visibleScope dialect
  have extent := draft.statement.extent_visibleScope dialect
  have names := draft.statement.names_visibleScope dialect
  rw [draft.nest_eq dialect]
  split
  · exact Clauses.visibleScope_of_select_none untagged rfl extent
  · rename_i listed
    simp only [Bool.or_eq_true, not_or, Bool.not_eq_true] at listed
    rw [listed.2] at extent
    refine Clauses.visibleScope_ofColumn untagged (names ▸ nodup) extent ?_
    rw [names]

/-! ## The types that references have -/

namespace Clauses

variable {clauses : Clauses} {dialect : Dialect} {ref : ColumnRef}

/-- The type of what a reference stands for. -/
def readType (dialect : Dialect) (clauses : Clauses) (ref : ColumnRef) : Option DataType :=
  (clauses.sourceOf ref).type? dialect clauses.scope.columnType

/-- The reference names one of the columns that are shown, or one behind the star
of whose type nothing is known.  A reference to one side of a join does not name
what is shown. -/
def Retains (clauses : Clauses) (ref : ColumnRef) : Prop :=
  (ref.table = none ∨ clauses.scope.isJoined = false) ∧
    (ref.name ∈ clauses.visibleNames ∨
      ∀ table ∈ clauses.star?, clauses.scope.columnType { table, name := ref.name } = none)

/-- A shown column has the type of what is selected under its name. -/
theorem columnType_visibleScope {items : List SelectItem} (select : clauses.select = some items)
    (ref : ColumnRef) :
    (clauses.visibleScope dialect).columnType ref =
      (clauses.visibleOutputs.find? fun output => output.name == ref.name).bind fun output =>
        output.expr.type? dialect clauses.scope.columnType := by
  rw [Scope.columnType_eq (.inr (clauses.untagged_visibleScope dialect)), visibleScope, select]
  dsimp only
  rw [List.find?_map, Option.bind_map]
  rfl

theorem columnType_visibleScope_of_select_none (whole : clauses.select = none) (ref : ColumnRef) :
    (clauses.visibleScope dialect).columnType ref =
      clauses.scope.columnType { name := ref.name } := by
  rw [Scope.columnType_eq (.inr (clauses.untagged_visibleScope dialect)), visibleScope, whole,
    Scope.columnType_eq (.inl rfl)]
  dsimp only
  rw [List.find?_map, Option.bind_map]
  rfl

theorem columnType_visibleScope_of_absent (absent : ref.name ∉ clauses.visibleNames) :
    (clauses.visibleScope dialect).columnType ref = none := by
  have unknown : (clauses.visibleScope dialect).columns.find?
      (fun column => column.name == ref.name) = none := by
    rw [← names_visibleScope clauses dialect, Scope.names] at absent
    simpa [List.find?_eq_none] using absent
  rw [Scope.columnType_eq (.inr (clauses.untagged_visibleScope dialect)), unknown, Option.bind_none]

theorem readType_of_locate {located : Located} (success : clauses.locate ref = .ok located) :
    clauses.readType dialect ref =
      located.inlined.type? dialect clauses.scope.columnType := by
  rw [readType, sourceOf, success]

/-- What is not a reference to one side of a join is looked for among the outputs. -/
theorem locate_of_bare {items : List SelectItem} (select : clauses.select = some items)
    (bare : ref.table = none ∨ clauses.scope.isJoined = false) {located : Located}
    (success : clauses.locate ref = .ok located) : clauses.locateOutput ref = .ok located := by
  unfold locate at success
  split at success
  · rename_i whole
    rw [whole] at select
    cases select
  · exact success
  · rename_i qualified
    have single : clauses.scope.isJoined = false := by simpa [qualified] using bare
    rw [single, if_neg Bool.false_ne_true] at success
    split at success
    · exact success
    · cases success

/-- A shown name is read with the type that it is shown with. -/
theorem Covered.readType_of_shown (covered : clauses.Covered)
    (bare : ref.table = none ∨ clauses.scope.isJoined = false)
    (accepted : clauses.refusal? ref = none)
    (shown : ref.name ∈ clauses.visibleNames ∨ clauses.star? = none) :
    clauses.readType dialect ref = (clauses.visibleScope dialect).columnType ref := by
  obtain ⟨located, success⟩ := Clauses.refusal?_eq_none.mp accepted
  rw [readType_of_locate success]
  cases select : clauses.select with
  | none =>
      rw [locate_of_select_none select] at success
      obtain ⟨column, resolved, inlined⟩ := locateInSource_eq_ok success
      rw [Scope.resolve, Scope.extent_of_single (covered.whole select)] at resolved
      rw [columnType_visibleScope_of_select_none select, inlined,
        (Scope.resolveSingle_eq_ok resolved).1, Expr.type?]
  | some items =>
      have success := locate_of_bare select bare success
      rw [columnType_visibleScope select]
      unfold locateOutput at success
      split at success
      · rename_i output found
        have inlined : located.inlined = output.expr := by
          split at success <;> cases success <;> rfl
        rw [found, inlined, Option.bind_some]
      · rename_i missing
        have starless := shown.resolve_left ((find?_visibleOutputs_eq_none select).mp missing)
        rw [starless] at success
        dsimp only at success
        split at success <;> cases success

/-- A name that is read through a star has the type that the source has for it. -/
theorem Covered.readType_of_star (covered : clauses.Covered)
    (bare : ref.table = none ∨ clauses.scope.isJoined = false)
    (accepted : clauses.refusal? ref = none) {table : Option String}
    (star : clauses.star? = some table) (absent : ref.name ∉ clauses.visibleNames) :
    clauses.readType dialect ref = clauses.scope.columnType { table, name := ref.name } := by
  obtain ⟨located, success⟩ := Clauses.refusal?_eq_none.mp accepted
  rw [readType_of_locate success]
  cases select : clauses.select with
  | none =>
      rw [star?, select] at star
      cases star
  | some items =>
      have success := locate_of_bare select bare success
      rw [locateOutput, (find?_visibleOutputs_eq_none select).mpr absent, star] at success
      dsimp only at success
      rw [locateInSource, Scope.resolve_of_covers (covered.of_star? star)] at success
      cases success
      rfl

/-- A reference is read with the type that is shown for its name exactly where this
type is retained. -/
theorem Covered.readType_eq_iff (covered : clauses.Covered) (dialect : Dialect)
    (bare : ref.table = none ∨ clauses.scope.isJoined = false)
    (accepted : clauses.refusal? ref = none) :
    clauses.readType dialect ref = (clauses.visibleScope dialect).columnType ref ↔
      clauses.Retains ref := by
  by_cases shown : ref.name ∈ clauses.visibleNames
  · exact iff_of_true (covered.readType_of_shown bare accepted (.inl shown)) ⟨bare, .inl shown⟩
  · cases star : clauses.star? with
    | none =>
        exact iff_of_true (covered.readType_of_shown bare accepted (.inr star))
          ⟨bare, .inr (by simp [star])⟩
    | some table =>
        rw [covered.readType_of_star bare accepted star shown,
          columnType_visibleScope_of_absent shown, Retains]
        simp [bare, shown, star]

/-- An expression over references whose types are retained has the type that the
shown columns give it. -/
theorem Covered.type?_inlined (covered : clauses.Covered) (dialect : Dialect) {expr source : Expr}
    (inlined : clauses.inlined expr = .ok source)
    (retained : ∀ ref ∈ expr.columnRefs, clauses.Retains ref) :
    source.type? dialect clauses.scope.columnType =
      expr.type? dialect (clauses.visibleScope dialect).columnType := by
  obtain ⟨located, rfl⟩ := inlined_eq_ok inlined
  apply Expr.type?_mapColumns
  intro ref member
  have accepted := Clauses.refusal?_eq_none.mpr (located ref member)
  exact (covered.readType_eq_iff dialect (retained ref member).1 accepted).mpr (retained ref member)

/-! ## What a step keeps -/

/-- The same columns are visible in two statements, and types that the first
retains are retained by the second. -/
structure KeepsColumns (dialect : Dialect) (before after : Clauses) : Prop where
  scope : after.visibleScope dialect = before.visibleScope dialect
  retains : ∀ ref, before.Retains ref → after.Retains ref

theorem KeepsColumns.refl (dialect : Dialect) (clauses : Clauses) :
    clauses.KeepsColumns dialect clauses :=
  ⟨rfl, fun _ retains => retains⟩

theorem KeepsColumns.trans {first second third : Clauses} (one : first.KeepsColumns dialect second)
    (two : second.KeepsColumns dialect third) : first.KeepsColumns dialect third :=
  ⟨two.scope.trans one.scope, fun ref retains => two.retains ref (one.retains ref retains)⟩

/-- Only the selected items and the scope matter. -/
theorem KeepsColumns.of_eq {before after : Clauses} (select : after.select = before.select)
    (scope : after.scope = before.scope) : before.KeepsColumns dialect after := by
  obtain ⟨_, _, _, _, _, _, _, _⟩ := before
  cases select
  cases scope
  exact ⟨rfl, fun _ retains => retains⟩

end Clauses

namespace Draft

variable {dialect : Dialect} {draft current : Draft}

/-- Around a statement all types are retained that are still known. -/
theorem retains_nest (draft : Draft) (ref : ColumnRef) :
    (draft.nest dialect).statement.Retains ref := by
  have starless : (draft.nest dialect).statement.star? = none := by
    rw [draft.nest_eq dialect]
    split
    · rfl
    · exact Clauses.star?_ofColumn rfl
  exact ⟨.inr (single_nest dialect draft), .inr (by simp [starless])⟩

/-- A step finds the columns of the draft that it follows. -/
theorem Opens.keepsColumns (opens : draft.Opens dialect current)
    (nodup : draft.statement.visibleNames.Nodup) :
    draft.statement.KeepsColumns dialect current.statement.toClauses := by
  cases opens with
  | kept => exact .refl dialect _
  | nested => exact ⟨visibleScope_nest nodup, fun ref _ => draft.retains_nest ref⟩

end Draft

namespace Plan

/-- Any number of steps that choose rows, order them or name their source. -/
inductive RowSteps (plan : Plan) : Plan → Prop where
  | start : RowSteps plan plan
  | filtered {next : Plan} (predicate : Expr) :
      RowSteps plan next → RowSteps plan (.filtered next predicate)
  | sorted {next : Plan} (keys : List SortKey) :
      RowSteps plan next → RowSteps plan (.sorted next keys)
  | deduplicated {next : Plan} : RowSteps plan next → RowSteps plan (.deduplicated next)
  | limited {next : Plan} (count : Nat) :
      RowSteps plan next → RowSteps plan (.limited next count)
  | aliased {next : Plan} (name : String) :
      RowSteps plan next → RowSteps plan (.aliased next name)

namespace RowSteps

variable {dialect : Dialect} {used : Nat} {plan next : Plan} {before after : Draft}

theorem distinctNames (steps : plan.RowSteps next) (distinct : plan.DistinctNames) :
    next.DistinctNames := by
  induction steps with
  | start => exact distinct
  | filtered _ _ induction => exact induction
  | sorted _ _ induction => exact induction
  | deduplicated _ induction => exact induction
  | limited _ _ induction => exact induction
  | aliased _ _ induction => exact induction

/-- Each of the steps keeps the columns of the statement that it joins or goes around. -/
theorem keepsColumns (steps : plan.RowSteps next) (distinct : plan.DistinctNames)
    (planned : plan.draft dialect used = .ok before)
    (resulted : next.draft dialect used = .ok after) :
    before.statement.KeepsColumns dialect after.statement.toClauses := by
  induction steps generalizing after with
  | start =>
      cases planned.symm.trans resulted
      exact .refl dialect _
  | filtered predicate steps induction =>
      obtain ⟨draft, current, exprs, draftOk, opens, _, _, _, rfl⟩ := draft_filtered resulted
      have nodup := (Plan.drafted draftOk).nodup_visibleNames (steps.distinctNames distinct)
      exact (induction draftOk).trans ((opens.keepsColumns nodup).trans (.of_eq rfl rfl))
  | sorted keys steps induction =>
      obtain ⟨draft, current, orderBy, draftOk, opens, _, _, _, rfl⟩ := draft_sorted resulted
      have nodup := (Plan.drafted draftOk).nodup_visibleNames (steps.distinctNames distinct)
      exact (induction draftOk).trans ((opens.keepsColumns nodup).trans (.of_eq rfl rfl))
  | deduplicated steps induction =>
      obtain ⟨draft, current, draftOk, opens, resultEq⟩ := draft_deduplicated resulted
      have nodup := (Plan.drafted draftOk).nodup_visibleNames (steps.distinctNames distinct)
      have kept := (induction draftOk).trans (opens.keepsColumns nodup)
      rcases resultEq with rfl | rfl
      · exact kept
      · exact kept.trans (.of_eq rfl rfl)
  | limited count steps induction =>
      obtain ⟨draft, draftOk, success⟩ := bind_eq_ok.mp resulted
      cases pure_eq_ok.mp success
      exact (induction draftOk).trans (.of_eq rfl rfl)
  | aliased name steps induction =>
      obtain ⟨draft, draftOk, success⟩ := bind_eq_ok.mp resulted
      cases pure_eq_ok.mp success
      exact (induction draftOk).trans (.of_eq rfl rfl)

end RowSteps

/-- Steps that choose rows, order them or name their source change neither the
columns that are visible nor their order nor their types, at any depth of nesting.

A division in a later step is cast by the types of the visible columns, wherever
that step finds the statement: before these steps, after them or around either;
provided its references retain their types.  An unqualified reference that is
accepted retains its type exactly where it has the same type in the statement
around. -/
theorem rowSteps_keep_columns {dialect : Dialect} {used : Nat} {plan next : Plan}
    {before after : Draft} (built : plan.Built) (steps : plan.RowSteps next)
    (planned : plan.draft dialect used = .ok before)
    (resulted : next.draft dialect used = .ok after) :
    after.statement.visibleScope dialect = before.statement.visibleScope dialect ∧
      (∀ current left right dividend divisor,
        before.Opens dialect current ∨ after.Opens dialect current →
        (∀ ref ∈ left.columnRefs ++ right.columnRefs, before.statement.Retains ref) →
        current.statement.inlined left = .ok dividend →
        current.statement.inlined right = .ok divisor →
        Expr.castsDivision (current.statement.setting dialect) .div dividend divisor =
          Expr.castsDivision
            { dialect, columnType := (before.statement.visibleScope dialect).columnType }
            .div left right) ∧
      ∀ ref, ref.table = none → before.statement.refusal? ref = none →
        (before.statement.Retains ref ↔
          before.statement.readType dialect ref =
            (before.nest dialect).statement.readType dialect ref) := by
  have distinct := built.distinctNames
  have drafted := Plan.drafted planned
  have result := Plan.drafted resulted
  have kept := steps.keepsColumns distinct planned resulted
  have nodup := drafted.nodup_visibleNames distinct
  refine ⟨kept.scope, ?_, ?_⟩
  · intro current left right dividend divisor opens retained leftOk rightOk
    -- a statement around either draft retains more, never less
    have current : current.statement.Covered ∧
        before.statement.KeepsColumns dialect current.statement.toClauses := by
      rcases opens with opens | opens
      · exact ⟨(drafted.opens opens).covered, opens.keepsColumns nodup⟩
      · have nodup := result.nodup_visibleNames (steps.distinctNames distinct)
        exact ⟨(result.opens opens).covered, kept.trans (opens.keepsColumns nodup)⟩
    obtain ⟨covered, kept⟩ := current
    have leftType := covered.type?_inlined dialect leftOk fun ref member =>
      kept.retains ref (retained ref (List.mem_append_left _ member))
    have rightType := covered.type?_inlined dialect rightOk fun ref member =>
      kept.retains ref (retained ref (List.mem_append_right _ member))
    rw [kept.scope] at leftType rightType
    simp only [Expr.castsDivision, Clauses.setting, leftType, rightType]
  · intro ref unqualified accepted
    have acceptedAround : (before.nest dialect).statement.refusal? ref = none := by
      have sees : before.statement.Sees dialect ref.name :=
        (drafted.covered.refusal?_eq_none unqualified).mp accepted
      exact (drafted.nest.covered.refusal?_eq_none unqualified).mpr
        ((before.sees_nest dialect ref.name).mpr sees)
    have around := (drafted.nest.covered.readType_eq_iff dialect (.inl unqualified)
      acceptedAround).mpr (before.retains_nest ref)
    rw [around, Draft.visibleScope_nest nodup]
    exact (drafted.covered.readType_eq_iff dialect (.inl unqualified) accepted).symm

/-- Totals and sizes in an order that depends on neither of them. -/
def rankedTotals : Plan :=
  let columns := [⟨"rank", none⟩, ⟨"total", some .integer⟩, ⟨"size", some .integer⟩]
  .projected
    (.sorted (.base { name := "t", columns := some columns }) [{ expr := .named "rank" }])
    [{ name := "total", expr := .named "total" }, { name := "size", expr := .named "size" }] false

theorem rankedTotals_built : rankedTotals.Built := by
  have base := Built.table (show Plan.table "t" none (some (.types
    ⟨[("rank", none), ("total", some .integer), ("size", some .integer)], by simp⟩)) = .ok _ from
      rfl)
  have sorted := base.sort (show Plan.sort _ [{ expr := .named "rank" }] = .ok _ from rfl)
  exact sorted.project
    (show Plan.project _ ⟨[("total", .named "total"), ("size", .named "size")], by simp⟩ = .ok _
      from rfl)

/-- The statement that the filter is put into goes around the others and lists its
columns anew, since the ordering is by a column that they do not show. -/
theorem rowSteps_keep_columns_rankedTotals :
    ∃ before after, rankedTotals.draft .postgres 0 = .ok before ∧
      (Plan.filtered (.limited rankedTotals 2) (.unary .isNotNull (.named "total"))).draft
        .postgres 0 = .ok after ∧
      after.statement.parts.length = before.statement.parts.length + 1 ∧
      after.statement.visibleScope .postgres = before.statement.visibleScope .postgres ∧
      Expr.castsDivision (after.statement.setting .postgres) .div (.named "total")
        (.named "size") = true := by
  obtain ⟨before, planned, length, shown, casts⟩ : ∃ before,
      rankedTotals.draft .postgres 0 = .ok before ∧ before.statement.parts.length = 1 ∧
        (∀ ref ∈ [ColumnRef.mk none "total", .mk none "size"],
          ref.table = none ∧ ref.name ∈ before.statement.visibleNames) ∧
        Expr.castsDivision { dialect := .postgres, columnType :=
          (before.statement.visibleScope .postgres).columnType } .div (.named "total")
          (.named "size") = true :=
    ⟨_, rfl, rfl, by decide +kernel, by decide +kernel⟩
  obtain ⟨after, resulted, afterLength, leftOk, rightOk⟩ : ∃ after,
      (Plan.filtered (.limited rankedTotals 2) (.unary .isNotNull (.named "total"))).draft
        .postgres 0 = .ok after ∧ after.statement.parts.length = 2 ∧
        after.statement.inlined (.named "total") = .ok (.named "total") ∧
        after.statement.inlined (.named "size") = .ok (.named "size") :=
    ⟨_, rfl, rfl, rfl, rfl⟩
  obtain ⟨scope, kept, _⟩ := rowSteps_keep_columns rankedTotals_built
    (.filtered _ (.limited 2 .start)) planned resulted
  have retained : ∀ ref ∈ (Expr.named "total").columnRefs ++ (Expr.named "size").columnRefs,
      before.statement.Retains ref :=
    fun ref member => ⟨.inl (shown ref member).1, .inl (shown ref member).2⟩
  refine ⟨before, after, planned, resulted, by rw [length, afterLength], scope, ?_⟩
  exact (kept after _ _ _ _ (.inr .kept) retained leftOk rightOk).trans casts

/-- Some rows of a table without declared columns, with two integers and a label. -/
def labelledTotals : Plan :=
  .projected
    (.limited
      (.projected (.base { name := "t", columns := none })
        [{ name := "total", expr := .cast (.named "a") .integer },
          { name := "size", expr := .cast (.named "b") .integer }] true)
      4)
    [{ name := "label", expr := .named "c" }] true

theorem labelledTotals_built : labelledTotals.Built := by
  have base := Built.table (show Plan.table "t" none none = .ok _ from rfl)
  have totals := base.mutate
    ⟨[("total", .cast (.named "a") .integer), ("size", .cast (.named "b") .integer)], by simp⟩
  have limited := totals.limit (show Plan.limit _ (.finite false 1025 0) = .ok _ from rfl)
  exact limited.mutate ⟨[("label", .named "c")], by simp⟩

/-- A division of two integers that are read through a star is cast where a filter
joins the statement, and no more where a limit puts a statement around it. -/
theorem labelledTotals_cast_lost :
    let ratio := Expr.binary (.arithmetic .div) (.named "total") (.named "size")
    let casts (statement : Statement) := Expr.castsDivision (statement.setting .postgres) .div
      (.named "total") (.named "size")
    let filtered (plan : Plan) :=
      Plan.filtered plan (.binary (.comparison .greater) ratio (.named "label"))
    labelledTotals.Built ∧
      ∃ joined around, (filtered labelledTotals).statement .postgres = .ok joined ∧
        (filtered (.limited labelledTotals 2)).statement .postgres = .ok around ∧
        joined.conditions = [.binary (.comparison .greater) ratio (.named "c")] ∧
        casts joined = true ∧
        around.conditions = [.binary (.comparison .greater) ratio (.named "label")] ∧
        casts around = false :=
  ⟨labelledTotals_built, _, _, rfl, rfl, rfl, by decide +kernel, rfl, by decide +kernel⟩

end Plan

end SqlPlan
