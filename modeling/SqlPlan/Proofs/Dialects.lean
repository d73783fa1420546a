import SqlPlan.Proofs.Dialects.Untyped

/-!
# Planning in different dialects

While a plan is turned into a statement, the dialect gives types to the columns
that a statement shows, and the scope of a statement around it records them.  No
step reads them there: which names resolve, what is nested and which keys are
selected for an ordering is decided by the names alone.  So two dialects plan the
same statement but for these types, and fail on the same plans; only a full join
asks for a dialect that has it.
-/

namespace SqlPlan

/-! ## Results apart from the dialect -/

/-- The error without the name of the dialect that it arose in. -/
def Error.undialected : Error → Error
  | .unsupported expression _ cause => .unsupported expression "" cause
  | .incapable capability _ stated => .incapable capability "" stated
  | error => error

/-- A result as it is seen without the dialect. -/
def outcome {α β : Type} (view : α → β) : Except Error α → Except Error β
  | .ok value => .ok (view value)
  | .error error => .error error.undialected

section Outcome

variable {α β γ δ : Type}

theorem outcome_bind {view : α → β} {nextView : γ → δ} {first second : Except Error α}
    {next other : α → Except Error γ} (same : outcome view first = outcome view second)
    (step : ∀ value changed, view value = view changed →
      outcome nextView (next value) = outcome nextView (other changed)) :
    outcome nextView (first >>= next) = outcome nextView (second >>= other) := by
  cases first with
  | error error =>
      cases second with
      | error changed => exact congrArg Except.error (Except.error.inj same)
      | ok changed => cases same
  | ok value =>
      cases second with
      | error changed => cases same
      | ok changed => exact step value changed (Except.ok.inj same)

/-- A result that is found without the dialect. -/
theorem outcome_bind_of_eq {nextView : γ → δ} {result : Except Error α}
    {next other : α → Except Error γ}
    (step : ∀ value, outcome nextView (next value) = outcome nextView (other value)) :
    outcome nextView (result >>= next) = outcome nextView (result >>= other) := by
  cases result with
  | error error => rfl
  | ok value => exact step value

theorem outcome_guarded {nextView : γ → δ} {condition : Prop} [Decidable condition]
    {check : Except Error Unit} {next other : Unit → Except Error γ}
    (step : outcome nextView (next ()) = outcome nextView (other ())) :
    outcome nextView (if condition then check >>= next else next ()) =
      outcome nextView (if condition then check >>= other else other ()) := by
  split
  · exact outcome_bind_of_eq fun _ => step
  · exact step

theorem outcome_forM {items : List α} {check other : α → Except Error Unit}
    (same : ∀ item, outcome id (check item) = outcome id (other item)) :
    outcome id (items.forM check) = outcome id (items.forM other) := by
  induction items with
  | nil => rfl
  | cons item items induction =>
      rw [List.forM_eq_forM] at induction ⊢
      rw [List.forM_cons, List.forM_cons]
      exact outcome_bind (same item) fun _ _ _ => induction

theorem exists_ok_iff {view : α → β} {first second : Except Error α}
    (same : outcome view first = outcome view second) :
    (∃ value, first = .ok value) ↔ ∃ value, second = .ok value := by
  cases first <;> cases second <;> simp [outcome] at same ⊢

theorem ok_iff {first second : Except Error α} (same : outcome id first = outcome id second)
    (value : α) : first = .ok value ↔ second = .ok value := by
  cases first <;> cases second <;> simp_all [outcome]

end Outcome

theorem Expr.outcome_refuseAggregate (expr : Expr) (dialect other : Dialect) :
    outcome id (expr.refuseAggregate dialect) = outcome id (expr.refuseAggregate other) := by
  unfold Expr.refuseAggregate
  cases expr.aggregate? <;> rfl

namespace Draft

variable {first second : Draft} (same : first.untyped = second.untyped) (dialect other : Dialect)

include same

theorem outcome_resolve (exprs : List Expr) :
    outcome (fun resolved => (resolved.1.untyped, resolved.2)) (first.resolve dialect exprs) =
      outcome (fun resolved => (resolved.1.untyped, resolved.2)) (second.resolve other exprs) := by
  have settled := settled_congr_untyped same dialect other (Expr.refsOf exprs)
  rw [resolve_eq, resolve_eq, Clauses.refusal?_congr (clauses_congr same),
    Clauses.refusal?_congr (clauses_congr settled), Clauses.sourceOf_congr (clauses_congr settled)]
  cases (Expr.refsOf exprs).findSome? second.statement.refusal? with
  | some error => rfl
  | none =>
      cases (Expr.refsOf exprs).findSome?
          (second.settled other (Expr.refsOf exprs)).statement.refusal? with
      | some error => rfl
      | none => simp only [Option.elim_none, outcome, settled]

theorem outcome_project (outputs : List Output) (keep : Bool) :
    outcome untyped (first.project dialect outputs keep) =
      outcome untyped (second.project other outputs keep) := by
  unfold project
  refine outcome_bind
    (outcome_forM fun output => output.expr.outcome_refuseAggregate dialect other) ?_
  intro _ _ _
  refine outcome_bind (outcome_resolve (unsealed_congr same dialect other) dialect other _) ?_
  rintro ⟨current, exprs⟩ ⟨changed, changedExprs⟩ resolved
  obtain ⟨current, rfl⟩ := Prod.mk.inj resolved
  dsimp only
  have selected (items : List SelectItem) :=
    congrArg (fun draft : Draft => (Except.ok { draft with
      statement := { draft.statement with select := some items } } : Except Error Draft)) current
  cases keep with
  | false => exact selected _
  | true =>
      rw [Clauses.extendedSelect_congr (clauses_congr current)]
      exact outcome_bind_of_eq selected

theorem outcome_filter (predicate : Expr) :
    outcome untyped (first.filter dialect predicate) =
      outcome untyped (second.filter other predicate) := by
  unfold filter
  refine outcome_bind (predicate.outcome_refuseAggregate dialect other) ?_
  intro _ _ _
  refine outcome_bind (outcome_resolve (unsealed_congr same dialect other) dialect other _) ?_
  rintro ⟨current, exprs⟩ ⟨changed, changedExprs⟩ resolved
  obtain ⟨current, rfl⟩ := Prod.mk.inj resolved
  exact congrArg (fun draft : Draft => (Except.ok { draft with
    statement := { draft.statement with
      conditions := draft.statement.conditions ++ exprs } } : Except Error Draft)) current

theorem outcome_sort (keys : List SortKey) :
    outcome untyped (first.sort dialect keys) = outcome untyped (second.sort other keys) := by
  have current := unsealed_congr same dialect other
  unfold sort
  refine outcome_bind (outcome_forM fun key => key.expr.outcome_refuseAggregate dialect other) ?_
  intro _ _ _
  dsimp only
  rw [Clauses.inlined_congr (clauses_congr current)]
  refine outcome_bind_of_eq fun orderBy => ?_
  exact congrArg (fun draft : Draft => (Except.ok { draft with
    statement := { draft.statement with orderBy } } : Except Error Draft)) current

theorem outcome_aggregate (groupKeys aggregates : List Output) :
    outcome untyped (first.aggregate dialect groupKeys aggregates) =
      outcome untyped (second.aggregate other groupKeys aggregates) := by
  unfold aggregate
  refine outcome_bind (outcome_forM fun key => key.expr.outcome_refuseAggregate dialect other) ?_
  intro _ _ _
  refine outcome_bind_of_eq fun bound => ?_
  have closed := eq_of_untyped same
    (fun draft => draft.statement.isSealed || draft.statement.isGrouped) fun _ => rfl
  have start : (if first.statement.isSealed || first.statement.isGrouped then first.nest dialect
        else first).untyped =
      (if second.statement.isSealed || second.statement.isGrouped then second.nest other
        else second).untyped := by
    rw [closed]
    split
    · exact nest_congr same dialect other
    · exact same
  refine outcome_bind (outcome_resolve start dialect other _) ?_
  rintro ⟨current, exprs⟩ ⟨changed, changedExprs⟩ resolved
  obtain ⟨current, rfl⟩ := Prod.mk.inj resolved
  exact congrArg (fun draft : Draft => (Except.ok { draft with
    statement := { draft.statement with
      select := some ((groupKeys ++ aggregates).zipWith
        (fun output expr => SelectItem.output { name := output.name, expr }) exprs)
      grouping := some (exprs.take groupKeys.length)
      orderBy := [] } } : Except Error Draft)) current

theorem distinct_congr : (first.distinct dialect).untyped = (second.distinct other).untyped := by
  have step {current changed : Draft} (same : current.untyped = changed.untyped) :
      (if current.statement.distinct then current
        else { current with statement := { current.statement with
          distinct := true, orderBy := current.statement.distinctOrder } }).untyped =
      (if changed.statement.distinct then changed
        else { changed with statement := { changed.statement with
          distinct := true, orderBy := changed.statement.distinctOrder } }).untyped := by
    have isDistinct := eq_of_untyped same (·.statement.distinct) fun _ => rfl
    rw [isDistinct]
    split
    · exact same
    · exact congrArg (fun draft : Draft => { draft with statement := { draft.statement with
        distinct := true, orderBy := draft.statement.distinctOrder } }) same
  have limited := eq_of_untyped same (·.statement.limit.isSome) fun _ => rfl
  unfold distinct
  rw [limited]
  split
  · exact step (nest_congr same dialect other)
  · exact step same

theorem limit_congr (count : Nat) : (first.limit count).untyped = (second.limit count).untyped :=
  congrArg (Draft.limit count) same

theorem named_congr (name : String) :
    (first.named name).untyped = (second.named name).untyped := by
  have whole : first.statement.wholeTable? = second.statement.wholeTable? := by
    rw [← Statement.wholeTable?_untyped, statement_congr same, Statement.wholeTable?_untyped]
  unfold named
  dsimp only
  rw [whole]
  cases second.statement.wholeTable? with
  | some ref =>
      exact congrArg (fun draft : Draft => { draft with statement := { draft.statement with
        source := .relation (.table ref (some name)), qualifiers := [name] } }) same
  | none =>
      exact congrArg (fun draft : Draft => { draft with statement := { draft.statement with
        qualifiers := [name] } }) same

/-- A draft as one side of a join. -/
theorem side_congr (name : String) :
    JoinInput.untyped
        { statement := first.statement, name := name
          scope := first.statement.visibleScope dialect } =
      JoinInput.untyped
        { statement := second.statement, name := name
          scope := second.statement.visibleScope other } := by
  simp only [JoinInput.untyped, statement_congr same,
    Clauses.visibleScope_congr (clauses_congr same) dialect other]

end Draft

theorem outcome_refuseJoin {dialect other : Dialect} {kind : JoinKind}
    (capable : kind = .full →
      dialect.supportsFullJoin = true ∧ other.supportsFullJoin = true) (left right : String) :
    outcome id (refuseJoin dialect kind left right) =
      outcome id (refuseJoin other kind left right) := by
  unfold refuseJoin
  split
  · rfl
  · by_cases full : kind = .full
    · simp [full, capable full]
    · simp [full]

theorem Statement.outcome_join {left right changedLeft changedRight : JoinInput}
    (sameLeft : left.untyped = changedLeft.untyped)
    (sameRight : right.untyped = changedRight.untyped) (dialect other : Dialect)
    (kind : JoinKind) (on : Expr) :
    outcome untyped (Statement.join dialect kind on left right) =
      outcome untyped (Statement.join other kind on changedLeft changedRight) := by
  have leftName : left.name = changedLeft.name := JoinInput.name_congr sameLeft
  have rightName : right.name = changedRight.name := JoinInput.name_congr sameRight
  have leftOpen := Scope.isOpen_congr (JoinInput.scope_congr sameLeft)
  have rightOpen := Scope.isOpen_congr (JoinInput.scope_congr sameRight)
  have scope : (joinScope left right).untyped = (joinScope changedLeft changedRight).untyped := by
    rw [← joinScope_untyped, sameLeft, sameRight, joinScope_untyped]
  have resolve : (joinScope left right).resolve [] =
      (joinScope changedLeft changedRight).resolve [] := by
    funext ref
    rw [← Scope.resolve_untyped, scope, Scope.resolve_untyped]
  have select (on : Expr) :
      joinSelect kind on left right = joinSelect kind on changedLeft changedRight := by
    rw [← joinSelect_untyped, sameLeft, sameRight, joinSelect_untyped]
  have sharedLeft (tables : List String) (on : Expr) :
      refuseShared left right tables on = refuseShared changedLeft changedRight tables on := by
    rw [← refuseShared_untyped, sameLeft, sameRight, refuseShared_untyped]
  have sharedRight (tables : List String) (on : Expr) :
      refuseShared right left tables on = refuseShared changedRight changedLeft tables on := by
    rw [← refuseShared_untyped, sameLeft, sameRight, refuseShared_untyped]
  unfold Statement.join
  simp only [leftName, rightName, leftOpen, rightOpen, resolve, select, sharedLeft, sharedRight]
  refine outcome_guarded (outcome_bind (on.outcome_refuseAggregate dialect other) ?_)
  intro _ _ _
  refine outcome_bind_of_eq fun on => outcome_guarded (outcome_guarded ?_)
  refine outcome_bind_of_eq fun _ => congrArg Except.ok ?_
  simp only [Statement.untyped, Clauses.untyped, Source.untyped, scope,
    JoinInput.relation_congr sameLeft, JoinInput.relation_congr sameRight]

/-! ## Plans -/

namespace Plan

/-- The last step is a full join. -/
def isFullJoin : Plan → Bool
  | .joined _ _ .full _ => true
  | _ => false

section Outcome

variable {plan : Plan} {dialect other : Dialect}

/-- The draft of a plan differs between dialects in its types only, unless one of them
lacks the full joins that the plan asks for. -/
theorem outcome_draft (capable : ∀ stage ∈ plan.stages, stage.isFullJoin = true →
      dialect.supportsFullJoin = true ∧ other.supportsFullJoin = true) (used : Nat) :
    outcome Draft.untyped (plan.draft dialect used) =
      outcome Draft.untyped (plan.draft other used) := by
  induction plan generalizing used with
  | base table => rfl
  | projected input outputs keep induction =>
      have input := induction (forall_stages_input capable (List.mem_singleton.mpr rfl)) used
      exact outcome_bind input fun _ _ same => Draft.outcome_project same dialect other outputs keep
  | filtered input predicate induction =>
      have input := induction (forall_stages_input capable (List.mem_singleton.mpr rfl)) used
      exact outcome_bind input fun _ _ same => Draft.outcome_filter same dialect other predicate
  | sorted input keys induction =>
      have input := induction (forall_stages_input capable (List.mem_singleton.mpr rfl)) used
      exact outcome_bind input fun _ _ same => Draft.outcome_sort same dialect other keys
  | grouped input groupKeys aggregates induction =>
      have input := induction (forall_stages_input capable (List.mem_singleton.mpr rfl)) used
      exact outcome_bind input fun _ _ same =>
        Draft.outcome_aggregate same dialect other groupKeys aggregates
  | joined input right kind on inputInduction rightInduction =>
      have here : kind = .full →
          dialect.supportsFullJoin = true ∧ other.supportsFullJoin = true := by
        rintro rfl
        exact capable _ (self_mem_stages _) rfl
      have isRight : right ∈ (joined input right kind on).inputs :=
        List.mem_cons_of_mem _ List.mem_cons_self
      refine outcome_bind
        (inputInduction (forall_stages_input capable List.mem_cons_self) used) ?_
      intro left changedLeft sameLeft
      refine outcome_bind (outcome_refuseJoin here input.refName right.refName) fun _ _ _ => ?_
      rw [Draft.eq_of_untyped sameLeft Draft.hoisted fun _ => rfl]
      refine outcome_bind (rightInduction (forall_stages_input capable isRight) _) ?_
      intro draft changed same
      rw [Draft.eq_of_untyped same Draft.hoisted fun _ => rfl]
      refine outcome_bind (Statement.outcome_join
        (Draft.side_congr sameLeft dialect other input.refName)
        (Draft.side_congr same dialect other right.refName) dialect other kind on) ?_
      intro statement changedStatement sameStatement
      exact congrArg (fun untyped => Except.ok (Draft.mk untyped changed.hoisted)) sameStatement
  | deduplicated input induction =>
      have input := induction (forall_stages_input capable (List.mem_singleton.mpr rfl)) used
      exact outcome_bind input fun _ _ same =>
        congrArg Except.ok (Draft.distinct_congr same dialect other)
  | limited input count induction =>
      have input := induction (forall_stages_input capable (List.mem_singleton.mpr rfl)) used
      exact outcome_bind input fun _ _ same => congrArg Except.ok (Draft.limit_congr same count)
  | aliased input name induction =>
      have input := induction (forall_stages_input capable (List.mem_singleton.mpr rfl)) used
      exact outcome_bind input fun _ _ same => congrArg Except.ok (Draft.named_congr same name)

theorem outcome_statement (capable : ∀ stage ∈ plan.stages, stage.isFullJoin = true →
      dialect.supportsFullJoin = true ∧ other.supportsFullJoin = true) :
    outcome Statement.untyped (plan.statement dialect) =
      outcome Statement.untyped (plan.statement other) :=
  outcome_bind (outcome_draft capable 0) fun _ _ same =>
    congrArg Except.ok (Draft.statement_congr same)

/-- The names that a statement shows are the same in any dialect. -/
theorem outcome_columns (capable : ∀ stage ∈ plan.stages, stage.isFullJoin = true →
      dialect.supportsFullJoin = true ∧ other.supportsFullJoin = true) :
    outcome id (plan.columns dialect) = outcome id (plan.columns other) := by
  refine outcome_bind (outcome_statement capable) fun statement changed same => ?_
  have scope := Clauses.visibleScope_congr (congrArg Statement.toClauses same) dialect other
  dsimp only
  rw [Scope.isOpen_congr scope, Scope.names_congr scope]

end Outcome

/-- Planning does not depend on the dialect: where both have the full joins that a plan
asks for, the plan has a statement in one dialect if and only if it has one in the
other, and then the two are equal but for the types that their scopes record; otherwise
both fail alike.  So the columns of a plan are the same in all such dialects. -/
theorem statement_independent_of_dialect {plan : Plan} {first second : Dialect}
    (capable : ∀ stage ∈ plan.stages, stage.isFullJoin = true →
      first.supportsFullJoin = true ∧ second.supportsFullJoin = true) :
    ((∃ statement, plan.statement first = .ok statement) ↔
        ∃ statement, plan.statement second = .ok statement) ∧
      (∀ statement other, plan.statement first = .ok statement →
        plan.statement second = .ok other → statement.untyped = other.untyped) ∧
      (∀ error other, plan.statement first = .error error →
        plan.statement second = .error other → error.undialected = other.undialected) ∧
      ∀ columns, plan.columns first = .ok columns ↔ plan.columns second = .ok columns := by
  have statements := outcome_statement capable
  have columns := outcome_columns capable
  refine ⟨?_, ?_, ?_, fun names => ?_⟩
  · exact exists_ok_iff statements
  · intro statement other firstOk secondOk
    rw [firstOk, secondOk] at statements
    exact Except.ok.inj statements
  · intro error other firstFails secondFails
    rw [firstFails, secondFails] at statements
    exact Except.error.inj statements
  · exact ok_iff columns names

/-- Ratios from the first rows of one table beside another table, for the rows of either. -/
def pairedRatios : Plan :=
  let columns := [⟨"id", none⟩, ⟨"a", some .integer⟩, ⟨"b", some .integer⟩]
  .joined
    (.limited
      (.projected (.base { name := "t", columns := some columns })
        [{ name := "c", expr := .binary (.arithmetic .div) (.named "a") (.named "b") }] true)
      2)
    (.base { name := "u", columns := some [⟨"id", none⟩] }) .full
    (.equal (.column { table := some "t", name := "id" })
      (.column { table := some "u", name := "id" }))

/-- A dialect with full joins whose division keeps the fraction of integers. -/
def keepsFractions : Dialect := { Dialect.postgres with truncatesDivision := false }

theorem statement_independent_of_dialect_pairedRatios :
    pairedRatios.stages.any isFullJoin = true ∧
      ∃ statement other, pairedRatios.statement .postgres = .ok statement ∧
        pairedRatios.statement keepsFractions = .ok other ∧
        statement.scope.columnType { table := some "t", name := "c" } = some .float ∧
        other.scope.columnType { table := some "t", name := "c" } = some .integer ∧
        statement.untyped = other.untyped ∧
        pairedRatios.columns keepsFractions = .ok (some ["id", "a", "b", "c"]) := by
  have capable : ∀ stage ∈ pairedRatios.stages, stage.isFullJoin = true →
      Dialect.postgres.supportsFullJoin = true ∧ keepsFractions.supportsFullJoin = true :=
    fun _ _ _ => ⟨rfl, rfl⟩
  obtain ⟨statement, planned, type⟩ : ∃ statement,
      pairedRatios.statement .postgres = .ok statement ∧
        statement.scope.columnType { table := some "t", name := "c" } = some .float :=
    ⟨_, rfl, by decide +kernel⟩
  obtain ⟨other, otherPlanned, otherType⟩ : ∃ other,
      pairedRatios.statement keepsFractions = .ok other ∧
        other.scope.columnType { table := some "t", name := "c" } = some .integer :=
    ⟨_, rfl, by decide +kernel⟩
  have known : pairedRatios.columns .postgres = .ok (some ["id", "a", "b", "c"]) := rfl
  have alike := statement_independent_of_dialect capable
  exact ⟨rfl, statement, other, planned, otherPlanned, type, otherType,
    alike.2.1 statement other planned otherPlanned, (alike.2.2.2 _).mp known⟩

end Plan

end SqlPlan
