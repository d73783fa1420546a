import SqlPlan.Proofs.Expr.Calls
import SqlPlan.Proofs.Grouping
import SqlPlan.Proofs.Parts
import SqlPlan.Proofs.Stepping

/-!
# Where aggregate calls stand

Conditions, group keys and join conditions hold no aggregate call, and neither
do the columns that an ungrouped statement shows.  An ordering may take a call
out of a grouped statement: a key that is no output, but reads only columns that
are, is written in the statement around it with its aggregate call.  Where no
grouped statement is ordered in this way, aggregate calls stand in the select
lists and orderings of grouped statements only.
-/

namespace SqlPlan

/-! ## Expressions without aggregate calls -/

namespace Clauses

variable {clauses : Clauses}

theorem aggregate?_mapColumns_sourceOf {exprs resolved : List Expr}
    (success : clauses.resolved? exprs = .ok (some resolved)) {expr : Expr}
    (member : expr ∈ exprs) (scalar : expr.aggregate? = none) :
    (expr.mapColumns .everywhere clauses.sourceOf).aggregate? = none := by
  refine Expr.aggregate?_mapColumns scalar fun ref refMember => ?_
  obtain ⟨_, column, isColumn⟩ := sourceOf_of_resolved? success member refMember
  rw [isColumn]
  rfl

theorem aggregate?_of_resolved? {exprs resolved : List Expr}
    (success : clauses.resolved? exprs = .ok (some resolved))
    (scalar : ∀ expr ∈ exprs, expr.aggregate? = none) :
    ∀ expr ∈ resolved, expr.aggregate? = none := by
  rw [resolved?_eq_map success, List.forall_mem_map]
  exact fun expr member => aggregate?_mapColumns_sourceOf success member (scalar expr member)

theorem aggregate?_of_locates {ref : ColumnRef} {expr : Expr} (locates : clauses.Locates ref expr)
    (visible : ∀ output ∈ clauses.visibleOutputs, output.expr.aggregate? = none) :
    expr.aggregate? = none := by
  cases locates with
  | output found => exact visible _ (List.mem_of_find?_eq_some found)
  | source _ _ => rfl

theorem aggregate?_of_inlined {expr source : Expr} (success : clauses.inlined expr = .ok source)
    (visible : ∀ output ∈ clauses.visibleOutputs, output.expr.aggregate? = none)
    (scalar : expr.aggregate? = none) : source.aggregate? = none := by
  rw [(inlined_eq_ok success).2]
  exact Expr.aggregate?_mapColumns scalar fun ref member =>
    aggregate?_of_locates (locates_of_inlined success member) visible

theorem exists_named_of_carriedRef? {ref : ColumnRef} {expr : Expr}
    (carried : clauses.carriedRef? ref = some expr) : ∃ name, expr = .named name := by
  unfold carriedRef? at carried
  split at carried
  · exact ⟨_, (Option.some.inj carried).symm⟩
  · split at carried
    · exact ⟨_, (Option.some.inj carried).symm⟩
    · cases carried

/-- An ordering key that takes an aggregate call outwards: the output does not
have the key, but all columns that it reads. -/
def Escapes (clauses : Clauses) (key : Expr) : Prop :=
  key.aggregate? ≠ none ∧ (∀ output ∈ clauses.visibleOutputs, output.expr.same key = false) ∧
    ∀ ref ∈ key.columnRefs, (clauses.carriedRef? ref).isSome = true

theorem aggregate?_of_carried? {key expr : Expr} (carried : clauses.carried? key = some expr)
    (confined : key.aggregate? = none ∨ clauses.select.isSome = true ∧ ¬ clauses.Escapes key) :
    expr.aggregate? = none := by
  unfold carried? at carried
  split at carried
  · rename_i whole
    cases carried
    rcases confined with scalar | ⟨listed, _⟩
    · exact scalar
    · simp [whole] at listed
  · split at carried
    · cases carried
      rfl
    · rename_i absent
      split at carried
      · rename_i allCarried
        cases carried
        rw [List.all_eq_true] at allCarried
        have scalar : key.aggregate? = none := by
          rcases confined with scalar | ⟨_, confined⟩
          · exact scalar
          · by_contra called
            refine confined ⟨called, fun output member => ?_, allCarried⟩
            simpa using List.find?_eq_none.mp absent output member
        refine Expr.aggregate?_mapColumns scalar fun ref _ => ?_
        cases found : clauses.carriedRef? ref with
        | none => rfl
        | some expr =>
            obtain ⟨name, rfl⟩ := exists_named_of_carriedRef? found
            rfl
      · cases carried

/-- A key that escapes is written with its aggregate call. -/
theorem Escapes.exists_carried? {key : Expr} (escapes : clauses.Escapes key)
    (listed : clauses.select.isSome = true) :
    ∃ expr, clauses.carried? key = some expr ∧ expr.aggregate? ≠ none := by
  obtain ⟨called, missing, carried⟩ := escapes
  obtain ⟨items, select⟩ := Option.isSome_iff_exists.mp listed
  have absent : clauses.visibleOutputs.find? (fun output => output.expr.same key) = none :=
    List.find?_eq_none.mpr fun output member => by simp [missing output member]
  refine ⟨key.mapColumns .everywhere fun ref => (clauses.carriedRef? ref).getD (.column ref), ?_,
    fun scalar => called (Expr.aggregate?_of_mapColumns scalar)⟩
  unfold carried?
  rw [select, absent]
  exact if_pos (List.all_eq_true.mpr carried)

end Clauses

theorem Statement.aggregate?_of_join {dialect : Dialect} {kind : JoinKind} {on : Expr}
    {left right : JoinInput} {statement : Statement}
    (success : Statement.join dialect kind on left right = .ok statement) :
    on.aggregate? = none := by
  unfold Statement.join at success
  obtain ⟨_, success⟩ := guarded_eq_ok success
  obtain ⟨_, refused, _⟩ := bind_eq_ok.mp success
  exact Expr.refuseAggregate_eq_ok.mp refused

theorem aggregate?_of_mem_joinSelect {kind : JoinKind} {on : Expr} {left right : JoinInput}
    {output : SelectOutput} (member : .output output ∈ joinSelect kind on left right) :
    output.expr.aggregate? = none := by
  rcases mem_joinSelect member with ⟨_, isStar⟩ | ⟨_, _, isColumn⟩ | ⟨_, isKey⟩
  · cases isStar
  · cases isColumn
    rfl
  · cases isKey
    cases kind <;> rfl

/-! ## Clauses that hold none -/

/-- No aggregate call stands in a condition, a group key or a join condition, nor in
a column that an ungrouped statement shows. -/
structure Statement.ScalarClauses (statement : Statement) : Prop where
  conditions : ∀ condition ∈ statement.conditions, condition.aggregate? = none
  grouping : ∀ key ∈ statement.grouping.getD [], key.aggregate? = none
  on : ∀ on ∈ statement.source.on?, on.aggregate? = none
  visible : statement.isGrouped = false →
    ∀ output ∈ statement.visibleOutputs, output.expr.aggregate? = none

/-- No aggregate call stands in the ordering of an ungrouped statement, nor in what it
selects for an ordering further out. -/
structure Statement.ScalarOrder (statement : Statement) : Prop where
  hidden : statement.isGrouped = false → ∀ output ∈ statement.outputs, output.hidden = true →
    output.expr.aggregate? = none
  orderBy : statement.isGrouped = false → ∀ key ∈ statement.orderBy, key.expr.aggregate? = none

theorem Output.exists_expr_of_item {outputs : List Output} {exprs : List Expr}
    {output : SelectOutput}
    (member : .output output ∈ (Output.withExprs outputs exprs).map Output.item) :
    output.expr ∈ exprs := by
  obtain ⟨source, sourceMember, equal⟩ := List.mem_map.mp member
  cases equal
  exact expr_mem_of_mem_withExprs sourceMember

namespace Statement.ScalarClauses

variable {statement : Statement}

theorem ofTable (table : TableRef) : (Statement.ofTable table).ScalarClauses where
  conditions := by simp [Statement.ofTable]
  grouping := by simp [Statement.ofTable]
  on := by simp [Statement.ofTable, Source.on?]
  visible := by simp [Statement.ofTable, Clauses.visibleOutputs, Clauses.outputs]

theorem withItems (head : statement.ScalarClauses) {items : List SelectItem}
    (scalar : statement.isGrouped = false → ∀ output, .output output ∈ items →
      output.expr.aggregate? = none) :
    Statement.ScalarClauses { statement with select := some items } where
  conditions := head.conditions
  grouping := head.grouping
  on := head.on
  visible ungrouped output member :=
    scalar ungrouped output (Clauses.mem_outputs.mp (List.mem_filter.mp member).1)

/-- Another ordering, a limit and the like do not matter. -/
theorem congr (head : statement.ScalarClauses) {next : Statement}
    (select : next.select = statement.select) (conditions : next.conditions = statement.conditions)
    (grouping : next.grouping = statement.grouping)
    (on : next.source.on? = statement.source.on?) : next.ScalarClauses where
  conditions := conditions ▸ head.conditions
  grouping := grouping ▸ head.grouping
  on := on ▸ head.on
  visible := by
    simp only [Clauses.isGrouped, Clauses.visibleOutputs, Clauses.outputs, select, grouping]
    exact head.visible

end Statement.ScalarClauses

theorem Draft.scalarClauses_nest (dialect : Dialect) (draft : Draft) :
    (draft.nest dialect).statement.ScalarClauses where
  conditions := by simp [Draft.nest]
  grouping := by simp [Draft.nest]
  on := by simp [Draft.nest, Source.on?]
  visible := by
    intro _ output member
    rw [draft.nest_eq dialect] at member
    have listed := Clauses.mem_outputs.mp (List.mem_filter.mp member).1
    dsimp only at listed
    split at listed
    · cases listed
    · obtain ⟨name, _, equal⟩ := List.mem_map.mp listed
      cases equal
      rfl

theorem Draft.visibleOutputs_inner (draft : Draft) :
    draft.inner.visibleOutputs = draft.statement.visibleOutputs :=
  Clauses.visibleOutputs_nested hoistedKeys_of_select_none draft.hoistedKeys_hidden

/-- No move puts an aggregate call where none may stand. -/
theorem Drafted.scalarClauses {dialect : Dialect} {used : Nat} {plan : Plan} {draft : Draft}
    (drafted : Drafted dialect used plan draft) : draft.statement.ScalarClauses := by
  induction drafted with
  | base table used => exact .ofTable table
  | @nest used plan draft _ _ => exact draft.scalarClauses_nest dialect
  | projected _ _ scalar resolved head =>
      refine head.withItems fun _ output member => ?_
      exact Clauses.aggregate?_of_resolved? resolved (List.forall_mem_map.mpr scalar) _
        (Output.exists_expr_of_item member)
  | extended _ _ scalar resolved itemsOk head =>
      refine head.withItems fun ungrouped output member => ?_
      rcases Clauses.mem_extendedSelect itemsOk _ member with ⟨old, unhidden⟩ | ⟨new, isNew, equal⟩
      · rcases Clauses.mem_of_mem_expandedSelect old unhidden with listed | ⟨_, _, isColumn⟩
        · exact head.visible ungrouped output listed
        · rw [isColumn]
          rfl
      · cases equal
        exact Clauses.aggregate?_of_resolved? resolved (List.forall_mem_map.mpr scalar) _
          (Output.expr_mem_of_mem_withExprs isNew)
  | filtered _ _ scalar resolved head =>
      refine ⟨List.forall_mem_append.mpr ⟨head.conditions, ?_⟩, head.grouping, head.on,
        head.visible⟩
      exact Clauses.aggregate?_of_resolved? resolved (List.forall_mem_singleton.mpr scalar)
  | grouped _ _ _ scalar _ resolved head =>
      refine ⟨head.conditions, ?_, head.on, nofun⟩
      dsimp only
      rw [Option.getD_some, Clauses.take_of_resolved resolved, List.forall_mem_map]
      intro key member
      exact Clauses.aggregate?_mapColumns_sourceOf resolved
        (List.mem_append_left _ (List.mem_map_of_mem member)) (scalar key member)
  | joined _ _ _ joined _ _ =>
      have scalar := Statement.aggregate?_of_join joined
      obtain ⟨_, resolved, resolvedOk, _, rfl⟩ := Statement.join_eq_ok joined
      refine ⟨by simp, by simp, ?_, fun _ output member => ?_⟩
      · intro on isOn
        cases Option.mem_some.mp isOn
        obtain ⟨substitution, replaced, rfl⟩ := Expr.tryMapColumns_ok resolvedOk
        refine Expr.aggregate?_mapColumns scalar fun ref member => ?_
        obtain ⟨column, _, isColumn⟩ := bind_eq_ok.mp (replaced ref member)
        rw [← pure_eq_ok.mp isColumn]
        rfl
      · exact aggregate?_of_mem_joinSelect (Clauses.mem_outputs.mp (List.mem_filter.mp member).1)
  | sorted _ _ _ _ head | deduplicated _ _ head | limited count _ head =>
      exact head.congr rfl rfl rfl rfl
  | alreadyDistinct _ _ head => exact head
  | aliased name _ head => exact head.congr rfl rfl rfl (Draft.named_on? name _)

theorem Drafted.scalarClauses_parts {dialect : Dialect} {used : Nat} {plan : Plan} {draft : Draft}
    (drafted : Drafted dialect used plan draft) :
    ∀ part ∈ draft.statement.parts, part.ScalarClauses := by
  refine Drafted.forall_parts (fun drafted => drafted.scalarClauses) (fun drafted => ?_)
    (fun drafted => ?_) (fun _ holds => holds) drafted
  · have head := drafted.scalarClauses
    refine ⟨head.conditions, head.grouping, head.on, fun ungrouped => ?_⟩
    dsimp only
    rw [Draft.visibleOutputs_inner]
    exact head.visible ungrouped
  · obtain ⟨orderBy, _, equal⟩ := Statement.unordered_toClauses _
    rw [equal]
    exact drafted.scalarClauses.congr rfl rfl rfl rfl

/-! ## Orderings -/

/-- The last step sets the ordering anew. -/
inductive Plan.Reorders : Plan → Prop where
  | sorted (input : Plan) (keys : List SortKey) : Reorders (.sorted input keys)
  | grouped (input : Plan) (groupKeys aggregates : List Output) :
      Reorders (.grouped input groupKeys aggregates)

/-- Where the last step makes a subquery of a grouped statement, the ordering that it
keeps takes no aggregate call outwards. -/
def Plan.Confines (dialect : Dialect) (plan : Plan) : Prop :=
  ∀ draft, plan.Nests dialect draft → ¬ plan.Reorders → draft.statement.isGrouped = true →
    ∀ key ∈ draft.statement.orderBy, ¬ draft.statement.Escapes key.expr

namespace Statement.ScalarOrder

variable {statement : Statement}

/-- Whatever happens to the other clauses, an ordering keeps what it holds. -/
theorem congr (head : statement.ScalarOrder) {next : Statement}
    (outputs : ∀ output ∈ next.outputs, output.hidden = true → output ∈ statement.outputs)
    (grouping : next.grouping = statement.grouping) (orderBy : next.orderBy ⊆ statement.orderBy) :
    next.ScalarOrder := by
  have grouped : next.isGrouped = statement.isGrouped := by simp only [Clauses.isGrouped, grouping]
  constructor
  · intro ungrouped output member hidden
    exact head.hidden (grouped ▸ ungrouped) output (outputs output member hidden) hidden
  · intro ungrouped key member
    exact head.orderBy (grouped ▸ ungrouped) key (orderBy member)

/-- A statement without hidden outputs only has to account for its keys. -/
theorem ofExposed {schema : Schema} (exposed : statement.Exposed schema)
    (orderBy : statement.isGrouped = false → ∀ key ∈ statement.orderBy,
      key.expr.aggregate? = none) : statement.ScalarOrder := by
  refine ⟨fun _ output member hidden => ?_, orderBy⟩
  have unhidden := exposed.unhidden _ (Clauses.mem_outputs.mp member)
  rw [SelectItem.isHidden, hidden] at unhidden
  cases unhidden

theorem inner {draft : Draft} (head : draft.statement.ScalarOrder) :
    Statement.ScalarOrder { toClauses := draft.inner, source := draft.statement.source } := by
  constructor
  · intro ungrouped output member hidden
    dsimp only at member
    rw [Draft.inner, Clauses.outputs_nested Draft.hoistedKeys_of_select_none] at member
    rcases List.mem_append.mp member with own | hoisted
    · exact head.hidden ungrouped output own hidden
    · obtain ⟨_, _, key, keyMember, isKey⟩ := Clauses.mem_hoisted hoisted
      rw [isKey]
      exact head.orderBy ungrouped key keyMember
  · intro ungrouped key member
    dsimp only [Draft.inner, Clauses.nested] at member
    split at member
    · exact head.orderBy ungrouped key member
    · cases member

end Statement.ScalarOrder

/-- Keys that escape aside, the statement around takes over no aggregate call. -/
theorem Drafted.scalarOrder_nest {dialect : Dialect} {used : Nat} {plan : Plan} {draft : Draft}
    (drafted : Drafted dialect used plan draft) (head : draft.statement.ScalarOrder)
    (confined : draft.statement.isGrouped = true → ∀ key ∈ draft.statement.orderBy,
      ¬ draft.statement.Escapes key.expr) :
    (draft.nest dialect).statement.ScalarOrder := by
  refine .ofExposed (drafted.nest.exposed Schema.ofDeclared) fun _ => ?_
  rw [draft.nest_eq dialect]
  intro carried member
  obtain ⟨key, keyMember, _, written | ⟨output, _, _, isName⟩⟩ := Clauses.mem_carriedKeys member
  · refine Clauses.aggregate?_of_carried? written ?_
    cases grouped : draft.statement.isGrouped with
    | false => exact .inl (head.orderBy grouped key keyMember)
    | true =>
        obtain ⟨items, select, _⟩ := drafted.listed_of_grouped grouped
        exact .inr ⟨by simp [select], confined grouped key keyMember⟩
  · rw [isName]
    rfl

namespace Plan

section Steps

variable {dialect : Dialect} {used : Nat} {plan input : Plan} {before current result : Draft}

/-- What lies below the draft that a step joins lay below the one before it, or was it. -/
theorem scalarOrder_step (opens : before.Opens dialect current)
    (parts : ∀ part ∈ before.statement.parts, part.ScalarOrder) {next : Statement}
    (source : next.source = current.statement.source) (head : next.ScalarOrder) :
    ∀ part ∈ next.parts, part.ScalarOrder :=
  opens.forall_parts parts (fun beforeHead => beforeHead.inner) source head

theorem Confines.scalarOrder_opens (confines : plan.Confines dialect) (keeps : ¬ plan.Reorders)
    (isInput : input ∈ plan.inputs) (beforeOk : input.draft dialect used = .ok before)
    (success : plan.draft dialect used = .ok result) (opens : before.Opens dialect current)
    (source : result.statement.source = current.statement.source)
    (head : before.statement.ScalarOrder) : current.statement.ScalarOrder := by
  rcases eq_or_nests isInput beforeOk success opens source with rfl | ⟨rfl, nests⟩
  · exact head
  · exact (Plan.drafted beforeOk).scalarOrder_nest head (confines before nests keeps)

/-- Where no key escapes, the orderings of ungrouped statements hold no aggregate call. -/
theorem scalarOrder (confines : ∀ stage ∈ plan.stages, stage.Confines dialect)
    (success : plan.draft dialect used = .ok result) :
    ∀ part ∈ result.statement.parts, part.ScalarOrder := by
  induction plan generalizing used result with
  | base table =>
      cases success
      refine List.forall_mem_cons.mpr ⟨.ofExposed (.ofTable .ofDeclared table) ?_, ?_⟩
      · simp [Statement.ofTable]
      · simp [Statement.ofTable, Source.statements, Relation.statements]
  | projected input outputs keep induction =>
      have isInput : input ∈ (projected input outputs keep).inputs := List.mem_singleton.mpr rfl
      have exposed := (Plan.drafted success).exposed Schema.ofDeclared
      obtain ⟨before, current, _, items, beforeOk, opens, _, _, _, _, rfl⟩ :=
        draft_projected success
      have parts := induction (forall_stages_input confines isInput) beforeOk
      have head := (confines _ (self_mem_stages _)).scalarOrder_opens (fun reorders => by
        cases reorders) isInput beforeOk success opens rfl (List.forall_mem_cons.mp parts).1
      exact scalarOrder_step opens parts rfl (.ofExposed exposed head.orderBy)
  | filtered input predicate induction =>
      have isInput : input ∈ (filtered input predicate).inputs := List.mem_singleton.mpr rfl
      obtain ⟨before, current, _, beforeOk, opens, _, _, _, rfl⟩ := draft_filtered success
      have parts := induction (forall_stages_input confines isInput) beforeOk
      have head := (confines _ (self_mem_stages _)).scalarOrder_opens (fun reorders => by
        cases reorders) isInput beforeOk success opens rfl (List.forall_mem_cons.mp parts).1
      exact scalarOrder_step opens parts rfl
        (head.congr (fun _ member _ => member) rfl (List.Subset.refl _))
  | sorted input keys induction =>
      have exposed := (Plan.drafted success).exposed Schema.ofDeclared
      obtain ⟨before, current, _, beforeOk, opens, _, scalar, ordered, rfl⟩ := draft_sorted success
      have parts := induction (forall_stages_input confines (List.mem_singleton.mpr rfl)) beforeOk
      have clauses := ((Plan.drafted beforeOk).opens opens).scalarClauses
      refine scalarOrder_step opens parts rfl (.ofExposed exposed ?_)
      intro ungrouped key member
      obtain ⟨source, sourceMember, inlined, _⟩ := exists_mem_of_forall₂ ordered member
      exact Clauses.aggregate?_of_inlined inlined (clauses.visible ungrouped)
        (scalar source sourceMember)
  | grouped input groupKeys aggregates induction =>
      have exposed := (Plan.drafted success).exposed Schema.ofDeclared
      obtain ⟨before, current, _, _, beforeOk, opens, _, _, _, _, _, rfl⟩ := draft_grouped success
      have parts := induction (forall_stages_input confines (List.mem_singleton.mpr rfl)) beforeOk
      exact scalarOrder_step opens parts rfl (.ofExposed exposed (by simp))
  | joined input other kind on inputInduction otherInduction =>
      have exposed := (Plan.drafted success).exposed Schema.ofDeclared
      obtain ⟨left, right, leftOk, rightOk, _, joined⟩ := draft_joined success
      refine Statement.forall_parts_join joined
        (inputInduction (forall_stages_input confines List.mem_cons_self) leftOk)
        (otherInduction (forall_stages_input confines (List.mem_cons_of_mem _ List.mem_cons_self))
          rightOk)
        ?_ (.ofExposed exposed ?_)
      · intro side head
        obtain ⟨orderBy, subset, equal⟩ := side.unordered_toClauses
        rw [equal]
        exact head.congr (fun _ member _ => member) rfl subset
      · obtain ⟨_, _, _, _, equal⟩ := Statement.join_eq_ok joined
        simp [equal]
  | deduplicated input induction =>
      have isInput : input ∈ (deduplicated input).inputs := List.mem_singleton.mpr rfl
      obtain ⟨before, current, beforeOk, opens, rfl | rfl⟩ := draft_deduplicated success
      all_goals
        have parts := induction (forall_stages_input confines isInput) beforeOk
        have head := (confines _ (self_mem_stages _)).scalarOrder_opens (fun reorders => by
          cases reorders) isInput beforeOk success opens rfl (List.forall_mem_cons.mp parts).1
      · exact scalarOrder_step opens parts rfl head
      · exact scalarOrder_step opens parts rfl
          (head.congr (fun _ member _ => member) rfl (Clauses.distinctOrder_subset _))
  | limited input count induction =>
      obtain ⟨before, beforeOk, success⟩ := bind_eq_ok.mp success
      cases pure_eq_ok.mp success
      have parts := induction (forall_stages_input confines (List.mem_singleton.mpr rfl)) beforeOk
      exact Statement.forall_parts_step parts rfl fun head =>
        head.congr (fun _ member _ => member) rfl (List.Subset.refl _)
  | aliased input name induction =>
      obtain ⟨before, beforeOk, success⟩ := bind_eq_ok.mp success
      cases pure_eq_ok.mp success
      have parts := induction (forall_stages_input confines (List.mem_singleton.mpr rfl)) beforeOk
      exact Draft.forall_parts_named name parts ((List.forall_mem_cons.mp parts).1.congr
        (fun _ member _ => member) rfl (List.Subset.refl _))

/-- A step that makes a subquery and does not set the ordering anew is ordered like the
statement around that subquery. -/
theorem orderBy_of_nest (keeps : ¬ plan.Reorders) (isInput : input ∈ plan.inputs)
    (beforeOk : input.draft dialect used = .ok before)
    (success : plan.draft dialect used = .ok result)
    (source : result.statement.source = (before.nest dialect).statement.source)
    (nothing : before.hoistedKeys = []) :
    result.statement.isGrouped = false ∧ result.statement.orderBy = before.outerKeys := by
  have nest := before.nest_eq dialect
  rw [nothing] at nest
  cases plan with
  | base table => cases isInput
  | sorted input keys => exact absurd (.sorted input keys) keeps
  | grouped input groupKeys aggregates => exact absurd (.grouped input groupKeys aggregates) keeps
  | projected input outputs keep =>
      cases List.mem_singleton.mp isInput
      obtain ⟨draft, current, _, items, draftOk, opens, _, _, _, _, rfl⟩ := draft_projected success
      cases beforeOk.symm.trans draftOk
      rw [opens.eq_nest source, nest]
      exact ⟨rfl, rfl⟩
  | filtered input predicate =>
      cases List.mem_singleton.mp isInput
      obtain ⟨draft, current, _, draftOk, opens, _, _, _, rfl⟩ := draft_filtered success
      cases beforeOk.symm.trans draftOk
      rw [opens.eq_nest source, nest]
      exact ⟨rfl, rfl⟩
  | deduplicated input =>
      cases List.mem_singleton.mp isInput
      obtain ⟨draft, current, draftOk, opens, after⟩ := draft_deduplicated success
      cases beforeOk.symm.trans draftOk
      -- Nothing is listed around the subquery, so that no key has to be an output.
      rcases after with rfl | rfl
      all_goals
        rw [opens.eq_nest source, nest]
        exact ⟨rfl, rfl⟩
  | joined left right kind on =>
      obtain ⟨_, _, _, _, _, joined⟩ := draft_joined success
      obtain ⟨_, _, _, _, equal⟩ := Statement.join_eq_ok joined
      rw [equal, nest] at source
      cases source
  | limited input count =>
      cases List.mem_singleton.mp isInput
      obtain ⟨draft, draftOk, success⟩ := bind_eq_ok.mp success
      cases pure_eq_ok.mp success
      cases beforeOk.symm.trans draftOk
      exact absurd source.symm (before.source_nest_ne dialect)
  | aliased input name =>
      cases List.mem_singleton.mp isInput
      obtain ⟨draft, draftOk, success⟩ := bind_eq_ok.mp success
      cases pure_eq_ok.mp success
      cases beforeOk.symm.trans draftOk
      rcases Statement.named_source name before with same | ⟨_, _, _, after⟩
      · exact absurd (source.symm.trans same) (before.source_nest_ne dialect)
      · rw [after, nest] at source
        cases source

/-- A step after which no ordering of an ungrouped statement holds an aggregate call
takes none outwards. -/
theorem confines_of_scalarOrder (holds : ∀ used result, plan.draft dialect used = .ok result →
    result.statement.ScalarOrder) : plan.Confines dialect := by
  intro before nests keeps grouped key isKey escapes
  obtain ⟨used, result, ⟨input, isInput, beforeOk⟩, success, source⟩ := nests
  obtain ⟨items, select, _⟩ := (Plan.drafted beforeOk).listed_of_grouped grouped
  have nothing : before.hoistedKeys = [] := Clauses.hoisted_of_fixed (by simp [grouped]) _ _
  obtain ⟨ungrouped, orderBy⟩ := orderBy_of_nest keeps isInput beforeOk success source nothing
  obtain ⟨expr, carried, called⟩ := escapes.exists_carried? (by simp [select])
  refine called ((holds used result success).orderBy ungrouped { key with expr } ?_)
  rw [orderBy]
  exact Clauses.mem_carriedKeys_of_carried? isKey carried

end Steps

end Plan

/-! ## Writing the clauses -/

namespace Clauses

/-- The clauses with aggregate calls allowed in the select list and the ordering. -/
def admitting (clauses : Clauses) : Clauses :=
  { clauses with grouping := some (clauses.grouping.getD []) }

variable {dialect : Dialect} {clauses : Clauses}

theorem admitting_of_grouped (grouped : clauses.isGrouped = true) :
    clauses.admitting = clauses := by
  obtain ⟨keys, grouping⟩ := Option.isSome_iff_exists.mp grouped
  rw [admitting, grouping, Option.getD_some, ← grouping]

theorem selectText_admitting (free : ∀ output ∈ clauses.outputs, output.expr.CallFree dialect) :
    clauses.admitting.selectText dialect = clauses.selectText dialect := by
  have item : ∀ item ∈ clauses.select.getD [],
      clauses.admitting.itemText dialect item = clauses.itemText dialect item := by
    intro item member
    cases item with
    | star table => cases table <;> rfl
    | output output =>
        have same : output.expr.sql (clauses.setting dialect) clauses.isGrouped =
            output.expr.sql (clauses.setting dialect) true :=
          Expr.sql_of_callFree (free output (mem_outputs.mpr member))
        rw [itemText, itemText, same]
        rfl
  have items : clauses.admitting.itemTexts dialect = clauses.itemTexts dialect := by
    cases select : clauses.select with
    | none => simp only [itemTexts, admitting, select]
    | some items =>
        rw [select, Option.getD_some] at item
        have kept : clauses.admitting.select = some items := select
        simp only [itemTexts, select, kept]
        exact mapM_congr item
  rw [selectText, selectText, items]
  rfl

/-- Qualifying the columns of a key adds no call. -/
theorem callFree_unshadowed {qualifier : Option String} {key : Expr}
    (free : key.CallFree dialect) : (clauses.unshadowed qualifier key).CallFree dialect := by
  refine free.mapColumns fun ref _ => ?_
  split <;> exact .column _

theorem tailLines_admitting {qualifier : Option String}
    (free : ∀ key ∈ clauses.orderBy, key.expr.CallFree dialect) :
    clauses.admitting.tailLines dialect qualifier = clauses.tailLines dialect qualifier := by
  have keys : clauses.orderBy.mapM (clauses.admitting.keyText dialect qualifier) =
      clauses.orderBy.mapM (clauses.keyText dialect qualifier) := by
    refine mapM_congr fun key member => ?_
    have same : (clauses.unshadowed qualifier key.expr).sql (clauses.setting dialect)
          clauses.isGrouped =
        (clauses.unshadowed qualifier key.expr).sql (clauses.setting dialect) true :=
      Expr.sql_of_callFree (callFree_unshadowed (free key member))
    rw [keyText, keyText, same]
    rfl
  rw [tailLines, tailLines, ← keys]
  rfl

end Clauses

/-- Where nothing but an aggregate call could be refused, a part of a statement is
written as if aggregate calls were allowed in it. -/
def Statement.WritesAll (dialect : Dialect) (statement : Statement) : Prop :=
  (∀ output ∈ statement.outputs, output.expr.PlainCalls dialect) →
  (∀ key ∈ statement.orderBy, key.expr.PlainCalls dialect) →
    statement.toClauses.admitting.selectText dialect = statement.selectText dialect ∧
      ∀ qualifier, statement.toClauses.admitting.tailLines dialect qualifier =
        statement.tailLines dialect qualifier

theorem Statement.ScalarOrder.writesAll {statement : Statement} (order : statement.ScalarOrder)
    (clauses : statement.ScalarClauses) (dialect : Dialect) : statement.WritesAll dialect := by
  intro plainOutputs plainKeys
  cases grouped : statement.isGrouped with
  | true =>
      rw [Clauses.admitting_of_grouped grouped]
      exact ⟨rfl, fun _ => rfl⟩
  | false =>
      have outputs : ∀ output ∈ statement.outputs, output.expr.CallFree dialect := by
        intro output member
        refine Expr.callFree_of_plainCalls ?_ (plainOutputs output member)
        cases hidden : output.hidden with
        | true => exact order.hidden grouped output member hidden
        | false =>
            exact clauses.visible grouped output (List.mem_filter.mpr ⟨member, by simp [hidden]⟩)
      refine ⟨Clauses.selectText_admitting outputs, fun _ => Clauses.tailLines_admitting ?_⟩
      intro key member
      exact Expr.callFree_of_plainCalls (order.orderBy grouped key member) (plainKeys key member)

namespace Plan

/-- No condition, group key or join condition of a planned statement holds an
aggregate call, at any depth, and neither does a column that an ungrouped part
shows.  Where no step makes a subquery of a grouped statement and keeps a key that
escapes from it, no other clause of an ungrouped part holds one either, and no part
is refused for an aggregate call.  No less will do for the statements of all the
plans that a plan is built from. -/
theorem aggregates_grouped {dialect : Dialect} {plan : Plan} {statement : Statement}
    (planned : plan.statement dialect = .ok statement) :
    (∀ part ∈ statement.parts, part.ScalarClauses) ∧
      ((∀ stage ∈ plan.stages, stage.Confines dialect) →
        ∀ part ∈ statement.parts, part.ScalarOrder ∧ part.WritesAll dialect) ∧
      ((∀ stage ∈ plan.stages, ∀ used result, stage.draft dialect used = .ok result →
          result.statement.ScalarOrder) →
        ∀ stage ∈ plan.stages, stage.Confines dialect) := by
  obtain ⟨draft, success, statementEq⟩ := bind_eq_ok.mp planned
  cases pure_eq_ok.mp statementEq
  have clauses := (Plan.drafted success).scalarClauses_parts
  refine ⟨clauses, fun confines part member => ?_,
    fun holds stage member => confines_of_scalarOrder (holds stage member)⟩
  have order := scalarOrder confines success part member
  exact ⟨order, order.writesAll (clauses part member) dialect⟩

/-- The first groups by an ordering of them. -/
def firstGroups (key : Expr) : Plan :=
  .filtered
    (.limited
      (.sorted
        (.grouped
          (.base { name := "t", columns := some [⟨"a", none⟩] })
          [{ name := "a", expr := .named "a" }]
          [{ name := "n", expr := .aggregate "count" none false }])
        [{ expr := key }])
      5)
    (.unary .isNotNull (.named "a"))

theorem aggregates_grouped_bySize :
    ∃ statement, (firstGroups (.named "n")).statement .postgres = .ok statement ∧
      (∀ stage ∈ (firstGroups (.named "n")).stages, stage.Confines .postgres) ∧
      ∀ part ∈ statement.parts,
        part.ScalarClauses ∧ part.ScalarOrder ∧ part.WritesAll .postgres := by
  obtain ⟨statement, planned⟩ :
      ∃ statement, (firstGroups (.named "n")).statement .postgres = .ok statement := ⟨_, rfl⟩
  have confines : ∀ stage ∈ (firstGroups (.named "n")).stages, stage.Confines .postgres := by
    rintro stage member draft ⟨used, result, ⟨input, isInput, success⟩, _⟩ _ grouped key isKey
    have isOutput : ∀ clauses : Clauses, (∃ output ∈ clauses.visibleOutputs,
        output.expr = .aggregate "count" none false) →
        ¬ clauses.Escapes (.aggregate "count" none false) := by
      rintro clauses ⟨output, shown, isCount⟩ ⟨_, missing, _⟩
      have different := missing output shown
      rw [isCount] at different
      cases different
    simp only [firstGroups, stages, List.mem_cons, List.not_mem_nil, or_false] at member
    rcases member with rfl | rfl | rfl | rfl | rfl
    · cases List.mem_singleton.mp isInput
      cases success
      cases List.mem_singleton.mp isKey
      exact isOutput _ ⟨_, List.mem_cons_of_mem _ List.mem_cons_self, rfl⟩
    · cases List.mem_singleton.mp isInput
      cases success
      cases List.mem_singleton.mp isKey
      exact isOutput _ ⟨_, List.mem_cons_of_mem _ List.mem_cons_self, rfl⟩
    · cases List.mem_singleton.mp isInput
      cases success
      cases isKey
    · cases List.mem_singleton.mp isInput
      cases success
      cases grouped
    · cases isInput
  obtain ⟨clauses, order, _⟩ := aggregates_grouped planned
  exact ⟨statement, planned, confines, fun part member =>
    ⟨clauses part member, order confines part member⟩⟩

/-- A group's size with its sign changed is no output, but reads no column: the
ordering takes the count out of the grouped statement, and no SQL comes out. -/
theorem firstGroups_escapes :
    ∃ statement, (firstGroups (.unary .negate (.named "n"))).statement .postgres = .ok statement ∧
      statement.isGrouped = false ∧ (∃ key ∈ statement.orderBy, key.expr.aggregate? ≠ none) ∧
      (firstGroups (.unary .negate (.named "n"))).compile .postgres =
        .error (.unsupported "count" "postgres" .aggregateOutside) :=
  ⟨_, rfl, rfl, ⟨_, List.mem_cons_self, nofun⟩, rfl⟩

end Plan

end SqlPlan
