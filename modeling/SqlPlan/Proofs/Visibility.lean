import SqlPlan.Proofs.Merging
import SqlPlan.Proofs.Scoping

/-!
# Visible names

The next step of a plan may name exactly the columns that come out of it.  This
is so for every statement under construction, whether it selects everything,
lists its outputs, or keeps a star for columns that are not declared, and nesting
the statement changes none of it.
-/

namespace SqlPlan

/-! ## References without a qualifier -/

/-- A star stands for the columns that are not declared: those of an open
relation, or those of the open side of a join. -/
def Scope.Covers (scope : Scope) (table : Option String) : Prop :=
  scope.extent = .single true ∧ table = none ∨
    ∃ side, scope.extent = .joined (some side) ∧ table = some side

theorem Scope.resolve_of_covers {scope : Scope} {table : Option String}
    (covers : scope.Covers table) (qualifiers : List String) (name : String) :
    scope.resolve qualifiers { table, name } = .ok { table, name } := by
  rcases covers with ⟨single, rfl⟩ | ⟨side, joined, rfl⟩
  · simp [resolve, single, resolveSingle, resolveSingle.unqualified]
  · simp [resolve, joined, resolveJoined]

theorem Scope.extent_of_single {scope : Scope} (single : scope.isJoined = false) :
    scope.extent = .single scope.isOpen := by
  cases extent : scope.extent with
  | joined openSide => simp [isJoined, extent] at single
  | single isOpen => rw [Scope.isOpen, extent]

theorem Scope.resolve_of_single {scope : Scope} (single : scope.isJoined = false)
    {ref : ColumnRef} (unqualified : ref.table = none) (qualifiers : List String) :
    scope.resolve qualifiers ref =
      if scope.isOpen || scope.names.contains ref.name then .ok { name := ref.name }
      else .error (.unresolved ref.name scope.names .notVisible) := by
  have bare : scope.resolve qualifiers ref =
      resolveSingle.unqualified scope scope.isOpen ref := by
    unfold resolve resolveSingle
    rw [extent_of_single single, unqualified]
  have listed : scope.listed = scope.names := by
    rw [Scope.listed, single]
    rfl
  rw [bare, resolveSingle.unqualified, listed]

/-- A statement that selects everything reads one relation, and a star among the
items of one covers what is not declared. -/
structure Clauses.Covered (clauses : Clauses) : Prop where
  whole : clauses.select = none → clauses.scope.isJoined = false
  star : ∀ table, .star table ∈ clauses.select.getD [] → clauses.scope.Covers table

namespace Clauses

variable {clauses : Clauses}

/-- The error for a name that is not visible. -/
def missing (clauses : Clauses) (name : String) : Error :=
  if clauses.scope.isJoined ∧ 1 < (clauses.scope.matching name).length then
    .ambiguous name ((clauses.scope.matching name).map fun column => column.table.getD "") .several
  else
    .unresolved name clauses.visibleNames .notVisible

/-- The next step may use the name. -/
def Sees (dialect : Dialect) (clauses : Clauses) (name : String) : Prop :=
  (clauses.visibleScope dialect).isOpen = true ∨ name ∈ clauses.visibleNames

theorem Covered.of_star? (covered : clauses.Covered) {table : Option String}
    (star : clauses.star? = some table) : clauses.scope.Covers table := by
  obtain ⟨item, member, isStar⟩ := List.exists_of_findSome?_eq_some star
  cases item with
  | output selected => cases isStar
  | star other =>
      cases isStar
      exact covered.star table member

theorem locate_of_select_none (whole : clauses.select = none) (ref : ColumnRef) :
    clauses.locate ref = clauses.locateInSource ref := by
  unfold locate
  rw [whole]

theorem locate_of_select_some {items : List SelectItem} (select : clauses.select = some items)
    {ref : ColumnRef} (unqualified : ref.table = none) :
    clauses.locate ref = clauses.locateOutput ref := by
  unfold locate
  rw [select, unqualified]

variable {dialect : Dialect}

theorem find?_visibleOutputs_eq_none {items : List SelectItem}
    (select : clauses.select = some items) {name : String} :
    clauses.visibleOutputs.find? (fun output => output.name == name) = none ↔
      name ∉ clauses.visibleNames := by
  simp [visibleNames, select, List.find?_eq_none]

/-- A name that is visible stands for something. -/
theorem Covered.locate_of_sees (covered : clauses.Covered) {ref : ColumnRef}
    (unqualified : ref.table = none) (sees : clauses.Sees dialect ref.name) :
    ∃ located, clauses.locate ref = .ok located := by
  rw [Sees, isOpen_visibleScope] at sees
  cases select : clauses.select with
  | none =>
      have known : (clauses.scope.isOpen || clauses.scope.names.contains ref.name) = true := by
        simpa [select, visibleNames] using sees
      rw [locate_of_select_none select, locateInSource,
        Scope.resolve_of_single (covered.whole select) unqualified, if_pos known]
      exact ⟨_, rfl⟩
  | some items =>
      rw [locate_of_select_some select unqualified, locateOutput]
      cases found : clauses.visibleOutputs.find? (fun output => output.name == ref.name) with
      | some output =>
          dsimp only
          split <;> exact ⟨_, rfl⟩
      | none =>
          have absent := (find?_visibleOutputs_eq_none select).mp found
          have starred : clauses.star?.isSome = true := by simpa [select, absent] using sees
          obtain ⟨table, star⟩ := Option.isSome_iff_exists.mp starred
          rw [star]
          dsimp only
          rw [locateInSource, Scope.resolve_of_covers (covered.of_star? star)]
          exact ⟨_, rfl⟩

/-- A name that is not visible is missing. -/
theorem Covered.locate_of_not_sees (covered : clauses.Covered) {ref : ColumnRef}
    (unqualified : ref.table = none) (unseen : ¬ clauses.Sees dialect ref.name) :
    clauses.locate ref = .error (clauses.missing ref.name) := by
  rw [Sees, isOpen_visibleScope] at unseen
  cases select : clauses.select with
  | none =>
      have single := covered.whole select
      have unknown : ¬ (clauses.scope.isOpen || clauses.scope.names.contains ref.name) = true := by
        simpa [select, visibleNames] using unseen
      rw [locate_of_select_none select, locateInSource,
        Scope.resolve_of_single single unqualified, if_neg unknown]
      simp only [missing, single, visibleNames, select]
      rfl
  | some items =>
      have unseen : clauses.star? = none ∧ ref.name ∉ clauses.visibleNames := by
        simpa [select] using unseen
      rw [locate_of_select_some select unqualified, locateOutput,
        (find?_visibleOutputs_eq_none select).mpr unseen.2, unseen.1]
      dsimp only
      rw [missing]
      split <;> rfl

/-- A reference without a qualifier is refused exactly where its name is not visible. -/
theorem Covered.refusal?_eq_none (covered : clauses.Covered) {ref : ColumnRef}
    (unqualified : ref.table = none) :
    clauses.refusal? ref = none ↔ clauses.Sees dialect ref.name := by
  rw [Clauses.refusal?_eq_none]
  constructor
  · rintro ⟨located, locatedOk⟩
    by_contra unseen
    rw [covered.locate_of_not_sees unqualified unseen] at locatedOk
    cases locatedOk
  · exact covered.locate_of_sees unqualified

theorem Covered.refusal?_eq_some (covered : clauses.Covered) {ref : ColumnRef}
    (unqualified : ref.table = none) {error : Error} (refused : clauses.refusal? ref = some error) :
    ¬ clauses.Sees dialect ref.name ∧ error = clauses.missing ref.name := by
  by_cases sees : clauses.Sees dialect ref.name
  · rw [(covered.refusal?_eq_none unqualified).mpr sees] at refused
    cases refused
  · refine ⟨sees, ?_⟩
    rw [refusal?, covered.locate_of_not_sees unqualified sees] at refused
    cases refused
    rfl

end Clauses

/-! ## Statements of plans -/

theorem covers_joinSelect {kind : JoinKind} {on : Expr} {left right : JoinInput}
    (oneClosed : (left.scope.isOpen && right.scope.isOpen) = false) {table : Option String}
    (member : .star table ∈ joinSelect kind on left right) :
    (joinScope left right).Covers table := by
  have beside {side : JoinInput} (member : .star table ∈ joinItemsBesideOpen side) :
      side.scope.isOpen = true ∧ table = some side.name := by
    unfold joinItemsBesideOpen at member
    split at member
    · rename_i isOpen
      cases List.mem_singleton.mp member
      exact ⟨isOpen, rfl⟩
    · obtain ⟨name, _, isItem⟩ := List.mem_map.mp member
      cases isItem
  have listed {keys : List String} {side other : JoinInput} {keyItem : String → List SelectItem}
      (noStar : ∀ name, .star table ∉ keyItem name) :
      .star table ∉ joinItems keys side other keyItem := by
    intro member
    obtain ⟨name, _, ⟨_, isKey⟩ | ⟨_, _, isItem⟩ | ⟨_, _, isItem⟩⟩ := mem_joinItems member
    · exact noStar name isKey
    · cases isItem
    · cases isItem
  unfold joinSelect at member
  split at member
  · right
    rcases List.mem_append.mp member with inLeft | inRight
    · obtain ⟨isOpen, rfl⟩ := beside inLeft
      exact ⟨left.name, by simp [joinScope, isOpen], rfl⟩
    · obtain ⟨isOpen, rfl⟩ := beside inRight
      have leftClosed : left.scope.isOpen = false := by simpa [isOpen] using oneClosed
      exact ⟨right.name, by simp [joinScope, isOpen, leftClosed], rfl⟩
  · rcases List.mem_append.mp member with inLeft | inRight
    · exact absurd inLeft (listed (by simp))
    · exact absurd inRight (listed (by simp))

namespace Drafted

variable {dialect : Dialect} {used : Nat} {plan : Plan} {draft : Draft}

/-- In every statement under construction a star covers what is not declared. -/
theorem covers_of_star (drafted : Drafted dialect used plan draft) {table : Option String}
    (member : .star table ∈ draft.statement.select.getD []) :
    draft.statement.scope.Covers table := by
  have noItem {outputs : List Output} : .star table ∉ outputs.map Output.item := by
    intro member
    obtain ⟨output, _, isItem⟩ := List.mem_map.mp member
    cases isItem
  have noColumn {names : List String} : .star table ∉ names.map SelectItem.ofColumn := by
    intro member
    obtain ⟨name, _, isItem⟩ := List.mem_map.mp member
    cases isItem
  induction drafted with
  | base table used => cases member
  | nest _ _ =>
      rw [Draft.nest_eq] at member
      dsimp only at member
      split at member
      · cases member
      · exact absurd member noColumn
  | projected => exact absurd member noItem
  | @extended _ _ current _ _ _ drafted _ _ _ itemsOk induction =>
      rcases Clauses.mem_extendedSelect itemsOk _ member with ⟨old, _⟩ | ⟨output, _, isItem⟩
      · unfold Clauses.expandedSelect at old
        split at old
        · rename_i items select
          exact induction (by simpa [select] using old)
        · rename_i whole
          split at old
          · rename_i isOpen
            cases List.mem_singleton.mp old
            have single := drafted.single_of_whole whole
            exact .inl ⟨isOpen ▸ Scope.extent_of_single single, rfl⟩
          · exact absurd old noColumn
      · cases isItem
  | grouped => exact absurd member noItem
  | joined _ _ _ joined _ _ =>
      obtain ⟨oneClosed, resolved, _, _, rfl⟩ := Statement.join_eq_ok joined
      exact covers_joinSelect oneClosed member
  | filtered _ _ _ _ induction => exact induction member
  | sorted _ _ _ _ induction => exact induction member
  | deduplicated _ _ induction => exact induction member
  | alreadyDistinct _ _ induction => exact induction member
  | limited count _ induction => exact induction member
  | aliased name _ induction => exact induction member

theorem covered (drafted : Drafted dialect used plan draft) : draft.statement.Covered where
  whole := drafted.single_of_whole
  star _ := drafted.covers_of_star

end Drafted

/-- Nesting makes no name visible and hides none. -/
theorem Draft.sees_nest (dialect : Dialect) (draft : Draft) (name : String) :
    (draft.nest dialect).statement.Sees dialect name ↔ draft.statement.Sees dialect name := by
  have isOpen : ((draft.nest dialect).statement.visibleScope dialect).isOpen =
      (draft.statement.visibleScope dialect).isOpen := by
    rw [draft.nest_eq dialect]
    split
    · rw [Clauses.isOpen_visibleScope]
    · rename_i listed
      simp only [Bool.or_eq_true, not_or, Bool.not_eq_true] at listed
      rw [Clauses.isOpen_visibleScope, listed.2]
      exact congrArg Option.isSome (Clauses.star?_ofColumn rfl)
  rw [Clauses.Sees, Clauses.Sees, draft.nest_visibleNames dialect, isOpen]

theorem Draft.sees_unsealed (dialect : Dialect) (draft : Draft) (name : String) :
    (draft.unsealed dialect).statement.Sees dialect name ↔ draft.statement.Sees dialect name := by
  unfold unsealed
  split
  · exact draft.sees_nest dialect name
  · rfl

/-! ## Names that both sides of a join have -/

namespace Source

variable {dialect : Dialect}

/-- The sides of a join that have a column of the name. -/
def sidesWith (dialect : Dialect) (name : String) : Source → List String
  | .relation _ => []
  | .join left leftName right rightName _ _ =>
      (if name ∈ (left.scope dialect).names then [leftName] else []) ++
        if name ∈ (right.scope dialect).names then [rightName] else []

theorem length_sidesWith_le (dialect : Dialect) (name : String) (source : Source) :
    (source.sidesWith dialect name).length ≤ 2 := by
  cases source with
  | relation relation => exact Nat.zero_le 2
  | join left leftName right rightName kind on =>
      rw [sidesWith, List.length_append]
      split <;> split <;> simp

/-- On neither side of a join two columns have one name. -/
def DistinctSides (dialect : Dialect) : Source → Prop
  | .relation _ => True
  | .join left _ right _ _ _ =>
      (left.scope dialect).names.Nodup ∧ (right.scope dialect).names.Nodup

theorem isJoined_scope_relation (relation : Relation) :
    ((Source.relation relation).scope dialect).isJoined = false := by
  cases relation with
  | table ref shownAs => cases declared : ref.columns <;> simp [Source.scope, Relation.scope,
      TableRef.scope, declared, Scope.isJoined]
  | subquery source clauses =>
      simp only [Source.scope, Relation.scope, Scope.isJoined, Clauses.extent_visibleScope]

/-- The columns of one side that have the name. -/
theorem tables_tagged {scope : Scope} (distinct : scope.names.Nodup) (side name : String) :
    ((scope.tagged side).filter fun column => column.name == name).map
        (fun column => column.table.getD "") =
      if name ∈ scope.names then [side] else [] := by
  have replicated : ((scope.tagged side).filter fun column => column.name == name).map
      (fun column => column.table.getD "") = List.replicate (scope.names.count name) side := by
    rw [List.eq_replicate_iff]
    constructor
    · simp [Scope.tagged, Scope.names, List.filter_map, List.count,
        List.countP_eq_length_filter, Function.comp_def]
    · intro table member
      simp only [Scope.tagged, List.filter_map, List.map_map, List.mem_map] at member
      obtain ⟨column, _, rfl⟩ := member
      rfl
  rw [replicated]
  split
  · rename_i member
    rw [List.count_eq_one_of_mem distinct member]
    rfl
  · rename_i absent
    rw [List.count_eq_zero_of_not_mem absent]
    rfl

theorem tables_matching {source : Source} (distinct : source.DistinctSides dialect)
    (joined : (source.scope dialect).isJoined = true) (name : String) :
    ((source.scope dialect).matching name).map (fun column => column.table.getD "") =
      source.sidesWith dialect name := by
  cases source with
  | relation relation =>
      rw [isJoined_scope_relation] at joined
      cases joined
  | join left leftName right rightName kind on =>
      rw [Scope.matching, Source.scope, List.filter_append, List.map_append,
        tables_tagged distinct.1, tables_tagged distinct.2, sidesWith]

end Source

theorem JoinInput.nodup_names_relation {dialect : Dialect} {side : JoinInput}
    (answered : side.statement.Answered dialect) (distinct : side.statement.visibleNames.Nodup) :
    (side.relation.scope dialect).names.Nodup := by
  rw [JoinInput.scope_relation answered, Clauses.names_visibleScope]
  exact distinct

namespace Drafted

variable {dialect : Dialect} {used : Nat} {plan : Plan} {draft : Draft}

theorem distinctSides (drafted : Drafted dialect used plan draft) (distinct : plan.DistinctNames) :
    draft.statement.source.DistinctSides dialect := by
  induction drafted with
  | base table used => trivial
  | nest _ _ =>
      rw [Draft.nest_eq]
      trivial
  | joined left right _ joined _ _ =>
      obtain ⟨_, resolved, _, _, rfl⟩ := Statement.join_eq_ok joined
      exact ⟨
        JoinInput.nodup_names_relation (List.forall_mem_cons.mp left.answered).1
          (left.nodup_visibleNames distinct.1),
        JoinInput.nodup_names_relation (List.forall_mem_cons.mp right.answered).1
          (right.nodup_visibleNames distinct.2)⟩
  | aliased name _ induction =>
      rcases Statement.named_source name _ with same | ⟨ref, shownAs, _, after⟩
      · rw [same]
        exact induction distinct
      · rw [after]
        trivial
  | projected _ _ _ _ induction => exact induction distinct.1
  | extended _ _ _ _ _ induction => exact induction distinct.1
  | grouped _ _ _ _ _ _ induction => exact induction distinct.1
  | filtered _ _ _ _ induction => exact induction distinct
  | sorted _ _ _ _ induction => exact induction distinct
  | deduplicated _ _ induction => exact induction distinct
  | alreadyDistinct _ _ induction => exact induction distinct
  | limited count _ induction => exact induction distinct

/-- A name that is not visible is ambiguous where both sides of a join have it. -/
theorem missing_eq (drafted : Drafted dialect used plan draft) (distinct : plan.DistinctNames)
    (name : String) :
    draft.statement.missing name =
      if (draft.statement.source.sidesWith dialect name).length = 2 then
        .ambiguous name (draft.statement.source.sidesWith dialect name) .several
      else
        .unresolved name draft.statement.visibleNames .notVisible := by
  have scope := (List.forall_mem_cons.mp drafted.answered).1.scope
  rw [Clauses.missing, scope]
  cases joined : (draft.statement.source.scope dialect).isJoined with
  | true =>
      have tables := Source.tables_matching (drafted.distinctSides distinct) joined name
      have several : 1 < ((draft.statement.source.scope dialect).matching name).length ↔
          (draft.statement.source.sidesWith dialect name).length = 2 := by
        have atMost := draft.statement.source.length_sidesWith_le dialect name
        rw [← tables, List.length_map] at atMost ⊢
        omega
      simp only [several, tables, true_and]
  | false =>
      have sideless : draft.statement.source.sidesWith dialect name = [] := by
        cases source : draft.statement.source with
        | relation relation => rfl
        | join left leftName right rightName kind on =>
            rw [source] at joined
            cases joined
      rw [sideless]
      simp

theorem missing_unsealed (drafted : Drafted dialect used plan draft)
    (distinct : plan.DistinctNames) (name : String) :
    (draft.unsealed dialect).statement.missing name =
      if draft.statement.isSealed = false ∧
          (draft.statement.source.sidesWith dialect name).length = 2 then
        .ambiguous name (draft.statement.source.sidesWith dialect name) .several
      else
        .unresolved name draft.statement.visibleNames .notVisible := by
  rw [drafted.unsealed.missing_eq distinct]
  unfold Draft.unsealed
  cases isSealed : draft.statement.isSealed with
  | false => simp
  | true =>
      have visible := draft.nest_visibleNames dialect
      have sideless : (draft.nest dialect).statement.source.sidesWith dialect name = [] := by
        rw [Draft.nest_eq, Source.sidesWith]
      simp [visible, sideless]

end Drafted

/-! ## Steps -/

namespace Expr

/-- What is done with a result does not fail. -/
theorem failure?_map {ε α β : Type} (outcome : Except ε α) (finish : α → β) :
    failure? (outcome >>= fun value => pure (finish value)) = failure? outcome := by
  cases outcome <;> rfl

theorem failure?_eq_none {ε α : Type} {outcome : Except ε α} :
    failure? outcome = none ↔ ∃ value, outcome = .ok value := by
  cases outcome <;> simp [failure?]

theorem failure?_eq_some {ε α : Type} {outcome : Except ε α} {error : ε} :
    failure? outcome = some error ↔ outcome = .error error := by
  cases outcome <;> simp [failure?]

theorem failure?_mapM {ε α β : Type} (step : α → Except ε β) (items : List α) :
    failure? (items.mapM step) = items.findSome? fun item => failure? (step item) := by
  induction items with
  | nil => rfl
  | cons item items induction =>
      rw [List.mapM_cons, List.findSome?_cons]
      cases step item with
      | error error => rfl
      | ok value =>
          change failure? (items.mapM step >>= fun values => pure (value :: values)) = _
          rw [failure?_map, induction]
          rfl

end Expr

theorem Clauses.failure?_mapM_inlined (clauses : Clauses) (exprs : List Expr) :
    Expr.failure? (exprs.mapM clauses.inlined) =
      (Expr.refsOf exprs).findSome? clauses.refusal? := by
  rw [mapM_inlined_eq]
  cases (Expr.refsOf exprs).findSome? clauses.refusal? <;> rfl

/-- An ordering may read any output, so its statement is not nested for one. -/
theorem Draft.failure?_sort {dialect : Dialect} (draft : Draft) {keys : List SortKey}
    (scalar : ∀ key ∈ keys, key.expr.aggregate? = none) :
    Expr.failure? (draft.sort dialect keys) =
      (Expr.refsOf (keys.map (·.expr))).findSome?
        (draft.unsealed dialect).statement.refusal? := by
  have passes : keys.forM (fun key => key.expr.refuseAggregate dialect) = .ok () :=
    forM_eq_ok.mpr fun key member => Expr.refuseAggregate_eq_ok.mpr (scalar key member)
  rw [← Clauses.failure?_mapM_inlined, Expr.failure?_mapM, List.findSome?_map, Draft.sort, passes]
  change Expr.failure? (keys.mapM _ >>= fun orderBy => pure _) = _
  rw [Expr.failure?_map, Expr.failure?_mapM]
  simp only [Expr.failure?_map]
  rfl

namespace Drafted

variable {dialect : Dialect} {used : Nat} {plan : Plan} {draft : Draft}

/-- Names that are visible stay so when the statement is nested, so resolution
fails at the first one that is not. -/
theorem failure?_resolve (drafted : Drafted dialect used plan draft) {exprs : List Expr}
    (unqualified : ∀ ref ∈ Expr.refsOf exprs, ref.table = none) :
    Expr.failure? (draft.resolve dialect exprs) =
      (Expr.refsOf exprs).findSome? draft.statement.refusal? := by
  rw [Draft.resolve_eq]
  cases first : (Expr.refsOf exprs).findSome? draft.statement.refusal? with
  | some error => rfl
  | none =>
      have second : (Expr.refsOf exprs).findSome?
          (draft.settled dialect (Expr.refsOf exprs)).statement.refusal? = none := by
        rw [List.findSome?_eq_none_iff] at first ⊢
        intro ref member
        have bare := unqualified ref member
        have sees : draft.statement.Sees dialect ref.name :=
          (drafted.covered.refusal?_eq_none bare).mp (first ref member)
        unfold Draft.settled
        split
        · exact (drafted.nest.covered.refusal?_eq_none bare).mpr
            ((draft.sees_nest dialect ref.name).mpr sees)
        · exact first ref member
      rw [second]
      rfl

theorem failure?_filter (drafted : Drafted dialect used plan draft) {predicate : Expr}
    (unqualified : ∀ ref ∈ Expr.refsOf [predicate], ref.table = none)
    (scalar : predicate.aggregate? = none) :
    Expr.failure? (draft.filter dialect predicate) =
      (Expr.refsOf [predicate]).findSome? (draft.unsealed dialect).statement.refusal? := by
  rw [← drafted.unsealed.failure?_resolve unqualified, Draft.filter,
    Expr.refuseAggregate_eq_ok.mpr scalar]
  exact Expr.failure?_map _ _

theorem failure?_project (drafted : Drafted dialect used plan draft) {outputs : List Output}
    (unqualified : ∀ ref ∈ Output.refs outputs, ref.table = none)
    (scalar : ∀ output ∈ outputs, output.expr.aggregate? = none) :
    Expr.failure? (draft.project dialect outputs false) =
      (Output.refs outputs).findSome? (draft.unsealed dialect).statement.refusal? := by
  have passes : outputs.forM (fun output => output.expr.refuseAggregate dialect) = .ok () :=
    forM_eq_ok.mpr fun output member => Expr.refuseAggregate_eq_ok.mpr (scalar output member)
  rw [Output.refs, ← drafted.unsealed.failure?_resolve unqualified, Draft.project, passes]
  exact Expr.failure?_map _ _

end Drafted

namespace Plan

/-- The steps that read columns without a name of their own. -/
inductive Step where
  | filter (predicate : Expr)
  | sort (keys : List SortKey)
  | project (mapping : Record Expr)

namespace Step

/-- The plan with the step after it. -/
def after (plan : Plan) : Step → Except Error Plan
  | .filter predicate => .ok (plan.filter predicate)
  | .sort keys => plan.sort keys
  | .project mapping => plan.project mapping

def exprs : Step → List Expr
  | .filter predicate => [predicate]
  | .sort keys => keys.map (·.expr)
  | .project mapping => (Output.ofRecord mapping).map (·.expr)

/-- The references of a step, in order. -/
def refs (step : Step) : List ColumnRef := Expr.refsOf step.exprs

end Step

/-- A step fails where the statement refuses one of its references, and with
the error for the first one. -/
theorem failure?_step {dialect : Dialect} {used : Nat} {plan next : Plan} {draft : Draft}
    (distinct : plan.DistinctNames) (drafts : plan.draft dialect used = .ok draft) {step : Step}
    (taken : step.after plan = .ok next) (unqualified : ∀ ref ∈ step.refs, ref.table = none)
    (scalar : ∀ expr ∈ step.exprs, expr.aggregate? = none) :
    Expr.failure? (next.draft dialect used) =
      step.refs.findSome? (draft.unsealed dialect).statement.refusal? := by
  have drafted := Plan.drafted drafts
  cases step with
  | filter predicate =>
      cases taken
      rw [Plan.filter, Plan.draft, drafts]
      exact drafted.failure?_filter unqualified (scalar predicate (List.mem_singleton_self _))
  | sort keys =>
      have taken : Plan.sort plan keys = .ok next := taken
      unfold Plan.sort at taken
      split at taken
      · cases taken
      · cases taken
        rw [Plan.draft, drafts]
        exact draft.failure?_sort (List.forall_mem_map.mp scalar)
  | project mapping =>
      have projected := drafted.failure?_project unqualified (List.forall_mem_map.mp scalar)
      rcases project_eq_ok taken with rfl | ⟨input, earlier, merged, rfl, merges, rfl⟩
      · rw [Plan.draft, drafts]
        exact projected
      · have merges := merges_of_mergedOutputs? distinct.2.1 merges
        obtain ⟨current, currentOk, earlierOk⟩ := bind_eq_ok.mp drafts
        obtain ⟨result, laterOk⟩ :=
          merges.exists_project earlierOk (List.forall_mem_map.mp scalar)
        have mergedOk := merges.project_iff.mpr ⟨draft, earlierOk, laterOk⟩
        rw [laterOk] at projected
        rw [Plan.draft, currentOk]
        change Expr.failure? (current.project dialect merged false) = _
        rw [mergedOk]
        exact projected

/-- What the next step sees are the columns of the plan. -/
theorem columns_eq_ok {dialect : Dialect} {plan : Plan} {statement : Statement}
    {columns : Option (List String)} (planned : plan.statement dialect = .ok statement)
    (known : plan.columns dialect = .ok columns) :
    columns = if (statement.visibleScope dialect).isOpen then none
      else some statement.visibleNames := by
  rw [Plan.columns, planned] at known
  rw [← Clauses.names_visibleScope _ dialect]
  exact (pure_eq_ok.mp known).symm

theorem sees_iff_of_columns {dialect : Dialect} {plan : Plan} {statement : Statement}
    {columns : Option (List String)} (planned : plan.statement dialect = .ok statement)
    (known : plan.columns dialect = .ok columns) (name : String) :
    statement.Sees dialect name ↔ ∀ names ∈ columns, name ∈ names := by
  rw [columns_eq_ok planned known, Clauses.Sees]
  cases (statement.visibleScope dialect).isOpen <;> simp

/-- A plan accepts exactly the visible names.  A step that names columns without
qualifiers can be planned after it if and only if all of these come out of the
plan; otherwise the first one that does not is reported. -/
theorem step_accepts_visible_names {dialect : Dialect} {plan next : Plan} {statement : Statement}
    {columns : Option (List String)} (built : plan.Built)
    (planned : plan.statement dialect = .ok statement)
    (known : plan.columns dialect = .ok columns) {step : Step}
    (taken : step.after plan = .ok next) (unqualified : ∀ ref ∈ step.refs, ref.table = none)
    (scalar : ∀ expr ∈ step.exprs, expr.aggregate? = none) :
    ((∃ result, next.statement dialect = .ok result) ↔
        ∀ names ∈ columns, ∀ ref ∈ step.refs, ref.name ∈ names) ∧
      ∀ error, next.statement dialect = .error error →
        ∃ names ∈ columns, ∃ ref,
          step.refs.find? (fun ref => ref.name ∉ names) = some ref ∧
            error =
              if statement.isSealed = false ∧
                  (statement.source.sidesWith dialect ref.name).length = 2 then
                .ambiguous ref.name (statement.source.sidesWith dialect ref.name) .several
              else
                .unresolved ref.name names .notVisible := by
  have sees := sees_iff_of_columns planned known
  have columnsEq := columns_eq_ok planned known
  obtain ⟨draft, drafts, statementEq⟩ := bind_eq_ok.mp planned
  cases pure_eq_ok.mp statementEq
  have drafted := Plan.drafted drafts
  have covered := drafted.unsealed.covered
  have accepted (ref : ColumnRef) (member : ref ∈ step.refs) :
      (draft.unsealed dialect).statement.refusal? ref = none ↔
        ∀ names ∈ columns, ref.name ∈ names := by
    rw [covered.refusal?_eq_none (unqualified ref member), draft.sees_unsealed, sees]
  have failure : Expr.failure? (next.statement dialect) =
      step.refs.findSome? (draft.unsealed dialect).statement.refusal? := by
    rw [Plan.statement, Expr.failure?_map]
    exact failure?_step built.distinctNames drafts taken unqualified scalar
  constructor
  · rw [← Expr.failure?_eq_none, failure, List.findSome?_eq_none_iff]
    constructor
    · intro passes names isKnown ref member
      exact (accepted ref member).mp (passes ref member) names isKnown
    · intro visible ref member
      exact (accepted ref member).mpr fun names isKnown => visible names isKnown ref member
  · intro error fails
    rw [Expr.failure?_eq_some.mpr fails] at failure
    obtain ⟨before, ref, after, refsEq, refused, passed⟩ :=
      List.findSome?_eq_some_iff.mp failure.symm
    have member : ref ∈ step.refs := by simp [refsEq]
    obtain ⟨unseen, rfl⟩ := covered.refusal?_eq_some (unqualified ref member) refused
    rw [draft.sees_unsealed, Clauses.Sees, not_or] at unseen
    rw [if_neg unseen.1] at columnsEq
    subst columnsEq
    refine ⟨_, rfl, ref, ?_, drafted.missing_unsealed built.distinctNames ref.name⟩
    refine List.find?_eq_some_iff_append.mpr ⟨by simpa using unseen.2, before, after, refsEq, ?_⟩
    intro earlier earlierMember
    have isRef : earlier ∈ step.refs := by simp [refsEq, earlierMember]
    simpa using (accepted earlier isRef).mp (passed earlier earlierMember)

/-- Two tables that share a key and the name of another column. -/
def paired : Plan :=
  let side name := Plan.base { name, columns := some [⟨"id", none⟩, ⟨"a", none⟩] }
  .joined (side "t") (side "u") .inner
    (.equal (.column { table := some "t", name := "id" })
      (.column { table := some "u", name := "id" }))

theorem paired_built : paired.Built := by
  have left := Built.table (show Plan.table "t" none (some (.names ["id", "a"])) = .ok _ from rfl)
  have right := Built.table (show Plan.table "u" none (some (.names ["id", "a"])) = .ok _ from rfl)
  exact left.join right (show Plan.join _ _ .inner (.keys ["id"]) = .ok _ from rfl)

theorem step_accepts_visible_names_paired :
    let visible := Expr.unary .isNotNull (.named "t_a")
    let shared := Expr.unary .isNotNull (.named "a")
    paired.Built ∧ paired.columns .postgres = .ok (some ["id", "t_a", "u_a"]) ∧
      (∃ result, (paired.filter visible).statement .postgres = .ok result) ∧
      ∀ error, (paired.filter shared).statement .postgres = .error error →
        error = .ambiguous "a" ["t", "u"] .several := by
  intro visible shared
  have known : paired.columns .postgres = .ok (some ["id", "t_a", "u_a"]) := rfl
  obtain ⟨statement, planned⟩ : ∃ statement, paired.statement .postgres = .ok statement :=
    ⟨_, rfl⟩
  refine ⟨paired_built, known, ?_, ?_⟩
  · refine (step_accepts_visible_names paired_built planned known
      (show (Step.filter visible).after paired = .ok _ from rfl) (by decide) (by decide)).1.mpr ?_
    decide
  · intro error fails
    obtain ⟨names, isKnown, ref, found, errorEq⟩ := (step_accepts_visible_names paired_built
      planned known (show (Step.filter shared).after paired = .ok _ from rfl) (by decide)
      (by decide)).2 error fails
    cases isKnown
    cases found
    cases planned
    exact errorEq

end Plan

end SqlPlan
