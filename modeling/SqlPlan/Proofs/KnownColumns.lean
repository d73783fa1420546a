import SqlPlan.Proofs.Stepping
import SqlPlan.Proofs.Visibility

/-!
# Known columns beside undeclared ones

A statement over a table whose columns were never declared selects a star.  Some
of the columns behind the star may be known all the same, from the steps before
the statement was nested, but the statement does not list them.  So an output that
is added beside the star may repeat the name of one, and a key that was selected
for an ordering is shown.  In no other way does a known column come out twice, or
a hidden one at all.
-/

namespace SqlPlan

/-! ## Rows of columns -/

/-- No two columns of one name, and none that is hidden. -/
structure Cells.Proper (row : Cells Bool) : Prop where
  nodup : row.names.Nodup
  unhidden : ∀ cell ∈ row, cell.2 = false

namespace Cells.Proper

variable {row other : Cells Bool}

theorem perm (proper : Cells.Proper row) (same : row.Perm other) : Cells.Proper other where
  nodup := (same.map Prod.fst).nodup proper.nodup
  unhidden cell member := proper.unhidden cell (same.mem_iff.mpr member)

theorem ofNames {names : List String} (nodup : names.Nodup) :
    Cells.Proper (names.map fun name => (name, false)) where
  nodup := by simpa [Cells.names, Function.comp_def] using nodup
  unhidden := by simp

theorem append_iff :
    Cells.Proper (row ++ other) ↔ Cells.Proper row ∧ Cells.Proper other ∧
      ∀ name ∈ row.names, name ∉ Cells.names other := by
  have names : Cells.names (row ++ other) = row.names ++ other.names := List.map_append
  constructor
  · rintro ⟨nodup, unhidden⟩
    rw [names, List.nodup_append] at nodup
    obtain ⟨left, right, apart⟩ := nodup
    obtain ⟨inRow, inOther⟩ := List.forall_mem_append.mp unhidden
    exact ⟨⟨left, inRow⟩, ⟨right, inOther⟩,
      fun name member otherMember => apart name member name otherMember rfl⟩
  · rintro ⟨left, right, apart⟩
    refine ⟨?_, List.forall_mem_append.mpr ⟨left.unhidden, right.unhidden⟩⟩
    rw [names, List.nodup_append]
    refine ⟨left.nodup, right.nodup, fun name member second otherMember equal => ?_⟩
    exact apart name member (equal ▸ otherMember)

end Cells.Proper

/-! ## What is listed and what stands behind stars -/

theorem SelectItem.cells_perm {α : Type} (value : SelectOutput → α) (tuple : Tuple α)
    (items : List SelectItem) :
    (items.flatMap (SelectItem.cells value tuple)).Perm
      (((items.filterMap SelectItem.output?).map fun output => (output.name, value output)) ++
        (items.filterMap SelectItem.star?).flatMap fun side => Tuple.star side tuple) := by
  induction items with
  | nil => exact .nil
  | cons item items induction =>
      cases item with
      | output selected => exact induction.cons _
      | star side =>
          refine (induction.append_left _).trans ?_
          rw [← List.append_assoc]
          exact (List.perm_append_comm.append_right _).trans (by rw [List.append_assoc]; rfl)

namespace Statement

variable {statement : Statement}

/-- The columns that are known to come out of a statement, whatever undeclared
columns come with them. -/
def known (statement : Statement) : Cells Bool := statement.fields .ofDeclared

/-- The known columns behind the stars of a statement. -/
def behindStars (statement : Statement) : Cells Bool :=
  (statement.expandedSelect.filterMap SelectItem.star?).flatMap fun side =>
    Tuple.star side (statement.source.fields .ofDeclared)

/-- The columns that a statement lists. -/
def listed (statement : Statement) : Cells Bool :=
  statement.outputs.map fun output => (output.name, output.hidden)

theorem known_perm {items : List SelectItem} (select : statement.select = some items) :
    statement.known.Perm (statement.listed ++ statement.behindStars) := by
  simp only [known, fields, Clauses.selected, listed, behindStars, Clauses.outputs,
    Clauses.expandedSelect, select, Option.getD_some]
  exact SelectItem.cells_perm _ _ _

theorem known_of_whole (whole : statement.select = none) :
    statement.known = Tuple.row (statement.source.fields .ofDeclared) := by
  simp only [known, fields, Clauses.selected, whole]

/-- A list with a star has the known columns behind it. -/
theorem mem_known_of_star {items : List SelectItem} (select : statement.select = some items)
    {side : Option String} (star : .star side ∈ items) :
    ∀ cell ∈ Tuple.star side (statement.source.fields .ofDeclared), cell ∈ statement.known := by
  intro cell member
  simp only [known, fields, Clauses.selected, select]
  exact List.mem_flatMap.mpr ⟨_, star, member⟩

theorem names_listed (statement : Statement) :
    statement.listed.names = statement.outputs.map (·.name) := by
  simp [listed, Cells.names, Function.comp_def]

theorem proper_known_iff {items : List SelectItem} (select : statement.select = some items) :
    Cells.Proper statement.known ↔
      Cells.Proper statement.listed ∧ Cells.Proper statement.behindStars ∧
        ∀ output ∈ statement.outputs, output.name ∉ statement.behindStars.names := by
  have same := known_perm select
  have split : Cells.Proper statement.known ↔
      Cells.Proper (statement.listed ++ statement.behindStars) :=
    ⟨fun proper => proper.perm same, fun proper => proper.perm same.symm⟩
  rw [split, Cells.Proper.append_iff, names_listed, List.forall_mem_map]

/-- Whatever a statement selects, all that is known to stand behind a star comes out. -/
theorem proper_behindStars (proper : Cells.Proper statement.known) :
    Cells.Proper statement.behindStars := by
  cases select : statement.select with
  | some items => exact ((proper_known_iff select).mp proper).2.1
  | none =>
      rw [known_of_whole select] at proper
      unfold behindStars Clauses.expandedSelect
      rw [select]
      dsimp only
      split
      · simpa [SelectItem.star?, Tuple.star] using proper
      · simpa [SelectItem.star?, SelectItem.ofColumn, List.filterMap_map, Function.comp_def] using
          Cells.Proper.ofNames List.nodup_nil

theorem proper_listed {items : List SelectItem} (select : statement.select = some items)
    (nodup : (items.filterMap SelectItem.name?).Nodup)
    (unhidden : ∀ item ∈ items, item.isHidden = false) : Cells.Proper statement.listed := by
  constructor
  · rwa [names_listed, Clauses.names_outputs select]
  · refine List.forall_mem_map.mpr fun output member => ?_
    have listed := Clauses.mem_outputs.mp member
    rw [select] at listed
    exact unhidden _ listed

/-- Only the select list and the source matter. -/
theorem known_congr {next : Statement} (select : next.select = statement.select)
    (source : next.source.fields .ofDeclared = statement.source.fields .ofDeclared) :
    next.known = statement.known := by
  simp only [known, fields, Clauses.selected, select, source]

/-! ## Steps -/

/-- Outputs that are added stand beside what is known behind the stars. -/
theorem proper_extended {outputs : List Output} {items : List SelectItem}
    (itemsOk : statement.extendedSelect outputs = .ok items)
    (proper : Cells.Proper statement.known)
    (apart : ∀ output ∈ outputs, output.item ∈ items →
      output.name ∉ (behindStars { statement with select := some items }).names) :
    Cells.Proper (Statement.known { statement with select := some items }) := by
  have behind : behindStars { statement with select := some items } = statement.behindStars :=
    congrArg (List.flatMap _) (Clauses.stars_extendedSelect itemsOk)
  rw [behind] at apart
  rw [proper_known_iff rfl, behind]
  refine ⟨proper_listed rfl (Clauses.extendedSelect_eq_ok itemsOk).choose_spec.2 ?_,
    proper_behindStars proper, fun output member => ?_⟩
  · intro item member
    rcases Clauses.mem_extendedSelect itemsOk item member with ⟨_, unhidden⟩ | ⟨output, _, rfl⟩
    · exact unhidden
    · exact output.item_isHidden
  · have listed : .output output ∈ items := Clauses.mem_outputs.mp member
    rcases Clauses.mem_extendedSelect itemsOk _ listed with ⟨old, _⟩ | ⟨added, isAdded, equal⟩
    · cases select : statement.select with
      | some before =>
          refine ((proper_known_iff select).mp proper).2.2 output (Clauses.mem_outputs.mpr ?_)
          simpa [Clauses.expandedSelect, select] using old
      | none =>
          -- Either there is no output or, where all columns are known, no star.
          unfold behindStars
          unfold Clauses.expandedSelect at old ⊢
          rw [select] at old ⊢
          dsimp only at old ⊢
          split at old
          · cases List.mem_singleton.mp old
          · rename_i closed
            rw [if_neg closed]
            simp [List.filterMap_map, Function.comp_def, SelectItem.ofColumn, SelectItem.star?,
              Cells.names]
    · cases equal
      exact apart added isAdded listed

end Statement

theorem Tuple.star_append {α : Type} (side : Option String) (first second : Tuple α) :
    Tuple.star side (first ++ second) = Tuple.star side first ++ Tuple.star side second := by
  cases side <;> simp [Tuple.star, Tuple.row]

theorem Tuple.star_tagged {α : Type} (side other : String) (row : Cells α) :
    Tuple.star (some side) (Cells.tagged (some other) row) = if other = side then row else [] := by
  by_cases same : other = side <;>
    simp [Tuple.star, Tuple.row, Cells.tagged, List.filter_map, Function.comp_def, same]

/-- A join has a star for each side whose columns are not all known. -/
theorem stars_joinSelect {kind : JoinKind} {on : Expr} {left right : JoinInput} :
    (joinSelect kind on left right).filterMap SelectItem.star? =
      (if left.scope.isOpen then [some left.name] else []) ++
        if right.scope.isOpen then [some right.name] else [] := by
  have beside (side : JoinInput) : (joinItemsBesideOpen side).filterMap SelectItem.star? =
      if side.scope.isOpen then [some side.name] else [] := by
    unfold joinItemsBesideOpen
    split
    · rfl
    · simp [List.filterMap_map, Function.comp_def, JoinInput.prefixedItem, SelectItem.star?]
  unfold joinSelect
  split
  · rw [List.filterMap_append, beside, beside]
  · rename_i closed
    simp only [Bool.or_eq_true, not_or, Bool.not_eq_true] at closed
    have starless : ∀ item ∈ joinItems (on.equatedNames left.name right.name) left right
          (fun name => [.output { name, expr := joinKey kind left.name right.name name }]) ++
        joinItems (on.equatedNames left.name right.name) right left fun _ => [],
        item.star? = none := by
      intro item member
      rcases List.mem_append.mp member with inLeft | inRight
      · obtain ⟨name, _, ⟨_, isKey⟩ | ⟨_, _, rfl⟩ | ⟨_, _, rfl⟩⟩ := mem_joinItems inLeft
        · cases List.mem_singleton.mp isKey
          rfl
        · rfl
        · rfl
      · obtain ⟨name, _, ⟨_, isKey⟩ | ⟨_, _, rfl⟩ | ⟨_, _, rfl⟩⟩ := mem_joinItems inRight
        · cases isKey
        · rfl
        · rfl
    rw [List.filterMap_eq_nil_iff.mpr starless]
    simp [closed.1, closed.2]

/-- A star of a join stands for what is known of its side. -/
theorem Statement.proper_joined {dialect : Dialect} {kind : JoinKind} {on : Expr}
    {left right : JoinInput} {statement : Statement} (names : left.name ≠ right.name)
    (joined : Statement.join dialect kind on left right = .ok statement)
    (leftProper : Cells.Proper left.statement.known)
    (rightProper : Cells.Proper right.statement.known)
    (apart : ∀ output ∈ statement.outputs, output.name ∉ statement.behindStars.names) :
    Cells.Proper statement.known := by
  obtain ⟨oneClosed, resolved, _, nodup, rfl⟩ := Statement.join_eq_ok joined
  refine (proper_known_iff rfl).mpr ⟨proper_listed rfl nodup joinSelect_unhidden, ?_, apart⟩
  have nothing : Cells.Proper [] := Cells.Proper.ofNames List.nodup_nil
  rw [known, ← left.fields_relation] at leftProper
  rw [known, ← right.fields_relation] at rightProper
  simp only [behindStars, Clauses.expandedSelect, stars_joinSelect]
  cases leftOpen : left.scope.isOpen <;> cases rightOpen : right.scope.isOpen
  · exact nothing
  · simpa [Source.fields, Tuple.star_append, Tuple.star_tagged, names] using rightProper
  · simpa [Source.fields, Tuple.star_append, Tuple.star_tagged, Ne.symm names] using leftProper
  · simp [leftOpen, rightOpen] at oneClosed

theorem Draft.known_nest {dialect : Dialect} {draft : Draft} (nothing : draft.hoistedKeys = []) :
    (draft.nest dialect).statement.known = draft.statement.known := by
  have whole : (draft.nest dialect).statement.select = none := by
    rw [draft.nest_eq dialect, nothing]
    rfl
  rw [Statement.known_of_whole whole, draft.source_fields_nest, nothing, List.map_nil,
    List.append_nil]
  rfl

/-- Where all columns are known, each comes out once and none is hidden. -/
theorem Drafted.proper_of_open {dialect : Dialect} {used : Nat} {plan : Plan} {draft : Draft}
    (drafted : Drafted dialect used plan draft) (distinct : plan.DistinctNames)
    (proper : (draft.statement.visibleScope dialect).isOpen = true →
      Cells.Proper draft.statement.known) : Cells.Proper draft.statement.known := by
  cases shown : (draft.statement.visibleScope dialect).isOpen with
  | false =>
      rw [Statement.known, (drafted.exposed .ofDeclared).fields_eq shown]
      exact .ofNames (drafted.nodup_visibleNames distinct)
  | true => exact proper shown

/-! ## Plans -/

namespace Plan

/-- The last step may give a column this name beside a star. -/
inductive Adds : Plan → String → Prop where
  | output {input : Plan} {outputs : List Output} {keep : Bool} {output : Output} :
      output ∈ outputs → Adds (.projected input outputs keep) output.name
  | joined {input other : Plan} {kind : JoinKind} {on : Expr} (name : String) :
      Adds (.joined input other kind on) name

/-- The last step repeats no name that is known behind a star, and where its columns
are not all known, it makes a subquery only of a statement that is ordered by what
it shows. -/
structure Careful (dialect : Dialect) (plan : Plan) : Prop where
  apart : ∀ used result, plan.draft dialect used = .ok result →
    ∀ output ∈ result.statement.outputs, plan.Adds output.name →
      output.name ∉ result.statement.behindStars.names
  carried : ∀ used result, plan.draft dialect used = .ok result →
    (result.statement.visibleScope dialect).isOpen = true →
      ∀ input ∈ plan.inputs, ∀ before, input.draft dialect used = .ok before →
        result.statement.source = (before.nest dialect).statement.source →
          before.hoistedKeys = []

section Steps

variable {dialect : Dialect} {used : Nat} {plan input : Plan} {before current result : Draft}

/-- A step that joins a draft finds all that is known of it. -/
theorem Careful.proper_opens (careful : plan.Careful dialect)
    (success : plan.draft dialect used = .ok result)
    (shown : (result.statement.visibleScope dialect).isOpen = true) (isInput : input ∈ plan.inputs)
    (beforeOk : input.draft dialect used = .ok before) (opens : before.Opens dialect current)
    (source : result.statement.source = current.statement.source)
    (proper : Cells.Proper before.statement.known) : Cells.Proper current.statement.known := by
  cases opens with
  | kept => exact proper
  | nested =>
      have nothing : before.hoistedKeys = [] :=
        careful.carried used result success shown input isInput before beforeOk source
      rwa [Draft.known_nest nothing]

/-- A step that selects nothing else adds nothing. -/
theorem Careful.proper_kept (careful : plan.Careful dialect) (distinct : plan.DistinctNames)
    (success : plan.draft dialect used = .ok result) (isInput : input ∈ plan.inputs)
    (beforeOk : input.draft dialect used = .ok before) (opens : before.Opens dialect current)
    (select : result.statement.select = current.statement.select)
    (source : result.statement.source = current.statement.source)
    (proper : Cells.Proper before.statement.known) : Cells.Proper result.statement.known := by
  refine (Plan.drafted success).proper_of_open distinct fun shown => ?_
  rw [Statement.known_congr select (by rw [source])]
  exact careful.proper_opens success shown isInput beforeOk opens source proper

/-- Where no step repeats a name or takes a hidden key outwards, every known column
comes out once and none is hidden. -/
theorem proper_known (careful : ∀ stage ∈ plan.stages, stage.Careful dialect)
    (distinct : plan.DistinctNames) (success : plan.draft dialect used = .ok result) :
    Cells.Proper result.statement.known := by
  induction plan generalizing used result with
  | base table =>
      cases success
      rw [Statement.known_of_whole rfl, Statement.ofTable, Source.fields, Tuple.row_tagged,
        Relation.fields]
      exact .ofNames distinct
  | projected input outputs keep induction =>
      refine (Plan.drafted success).proper_of_open distinct fun shown => ?_
      have isInput : input ∈ (projected input outputs keep).inputs := List.mem_singleton.mpr rfl
      have here := careful _ (self_mem_stages _)
      obtain ⟨before, current, exprs, items, beforeOk, opens, _, _, resolved, itemsOk, rfl⟩ :=
        draft_projected success
      have beforeProper := induction (forall_stages_input careful isInput) distinct.1 beforeOk
      cases keep with
      | false =>
          cases itemsOk
          rw [Clauses.isOpen_of_items rfl] at shown
          cases shown
      | true =>
          have currentProper :=
            here.proper_opens success shown isInput beforeOk opens rfl beforeProper
          refine Statement.proper_extended itemsOk currentProper fun output member listed => ?_
          have length := (Clauses.resolved?_eq_some resolved).1.length_eq
          have named : output.name ∈ outputs.map (·.name) := by
            rw [← Output.names_withExprs (by simpa using length)]
            exact List.mem_map_of_mem member
          obtain ⟨source, isSource, sameName⟩ := List.mem_map.mp named
          refine here.apart used _ success _ (Clauses.mem_outputs.mpr listed) ?_
          rw [← sameName]
          exact .output isSource
  | grouped input groupKeys aggregates _ =>
      refine (Plan.drafted success).proper_of_open distinct fun shown => ?_
      obtain ⟨before, current, bound, exprs, _, _, _, _, _, _, _, rfl⟩ := draft_grouped success
      rw [Clauses.isOpen_of_items rfl] at shown
      cases shown
  | joined input other kind on leftInduction rightInduction =>
      obtain ⟨left, right, leftOk, rightOk, names, joined⟩ := draft_joined success
      refine Statement.proper_joined names joined ?_ ?_ fun output member =>
        (careful _ (self_mem_stages _)).apart used result success output member (.joined _)
      · exact leftInduction (forall_stages_input careful List.mem_cons_self) distinct.1 leftOk
      · have isOther : other ∈ (Plan.joined input other kind on).inputs :=
          List.mem_cons_of_mem _ List.mem_cons_self
        exact rightInduction (forall_stages_input careful isOther) distinct.2 rightOk
  | filtered input predicate induction =>
      have isInput : input ∈ (filtered input predicate).inputs := List.mem_singleton.mpr rfl
      obtain ⟨before, current, exprs, beforeOk, opens, _, _, _, rfl⟩ := draft_filtered success
      exact (careful _ (self_mem_stages _)).proper_kept distinct success isInput beforeOk opens
        rfl rfl (induction (forall_stages_input careful isInput) distinct beforeOk)
  | sorted input keys induction =>
      have isInput : input ∈ (sorted input keys).inputs := List.mem_singleton.mpr rfl
      obtain ⟨before, current, orderBy, beforeOk, opens, _, _, _, rfl⟩ := draft_sorted success
      exact (careful _ (self_mem_stages _)).proper_kept distinct success isInput beforeOk opens
        rfl rfl (induction (forall_stages_input careful isInput) distinct beforeOk)
  | deduplicated input induction =>
      have isInput : input ∈ (deduplicated input).inputs := List.mem_singleton.mpr rfl
      obtain ⟨before, current, beforeOk, opens, rfl | rfl⟩ := draft_deduplicated success
      all_goals
        exact (careful _ (self_mem_stages _)).proper_kept distinct success isInput beforeOk opens
          rfl rfl (induction (forall_stages_input careful isInput) distinct beforeOk)
  | limited input count induction =>
      obtain ⟨before, beforeOk, success⟩ := bind_eq_ok.mp success
      cases pure_eq_ok.mp success
      have carefulInput := forall_stages_input careful (List.mem_singleton.mpr rfl)
      have proper := induction carefulInput distinct beforeOk
      exact proper
  | aliased input name induction =>
      obtain ⟨before, beforeOk, success⟩ := bind_eq_ok.mp success
      cases pure_eq_ok.mp success
      have known : (before.named name).statement.known = before.statement.known :=
        Statement.known_congr rfl (Draft.named_fields .ofDeclared name before)
      rw [known]
      exact induction (forall_stages_input careful (List.mem_singleton.mpr rfl)) distinct beforeOk

/-- A step after which every known column comes out once is careful. -/
theorem careful_of_proper (proper : ∀ used result, plan.draft dialect used = .ok result →
    Cells.Proper result.statement.known) : plan.Careful dialect where
  apart used result success output member _ := by
    cases select : result.statement.select with
    | none => simp [Clauses.outputs, select] at member
    | some items =>
        have known := (Statement.proper_known_iff select).mp (proper used result success)
        exact known.2.2 output member
  carried used result success shown input isInput before beforeOk source := by
    have drafted := Plan.drafted success
    have single : result.statement.scope.isJoined = false := by
      rw [(drafted.answered _ List.mem_cons_self).scope, source, Draft.nest_eq]
      exact Source.isJoined_scope_relation _
    have whole : ∀ cell ∈ Tuple.row (result.statement.source.fields .ofDeclared),
        cell ∈ result.statement.known := by
      cases select : result.statement.select with
      | none =>
          rw [Statement.known_of_whole select]
          exact fun _ member => member
      | some items =>
          rw [Clauses.isOpen_visibleScope, select, Clauses.star?, select] at shown
          obtain ⟨item, member, isStar⟩ := List.findSome?_isSome_iff.mp shown
          cases item with
          | output selected => cases isStar
          | star side =>
              rcases drafted.covers_of_star (by rw [select]; exact member) with
                ⟨_, rfl⟩ | ⟨side, joined, rfl⟩
              · exact Statement.mem_known_of_star select member
              · simp [Scope.isJoined, joined] at single
    rw [source, before.source_fields_nest] at whole
    refine List.eq_nil_iff_forall_not_mem.mpr fun output member => ?_
    have exposed := (proper used result success).unhidden _
      (whole _ (List.mem_append_right _ (List.mem_map_of_mem member)))
    rw [before.hoistedKeys_hidden output member] at exposed
    cases exposed

end Steps

/-- Where every step is careful, a planned statement puts out every known column once
and none that is hidden, whether or not all columns are known.  No less will do for
the statements of all the plans that a plan is built from. -/
theorem known_columns_once {dialect : Dialect} {plan : Plan} {statement : Statement}
    (built : plan.Built) (planned : plan.statement dialect = .ok statement) :
    ((∀ stage ∈ plan.stages, stage.Careful dialect) → Cells.Proper statement.known) ∧
      ((∀ stage ∈ plan.stages, ∀ used result, stage.draft dialect used = .ok result →
          Cells.Proper result.statement.known) →
        ∀ stage ∈ plan.stages, stage.Careful dialect) := by
  obtain ⟨draft, success, statementEq⟩ := bind_eq_ok.mp planned
  cases pure_eq_ok.mp statementEq
  exact ⟨fun careful => proper_known careful built.distinctNames success,
    fun proper stage member => careful_of_proper (proper stage member)⟩

/-- The first rows of a table without declared columns, with one more column. -/
def firstRows (added : String) : Plan :=
  .limited
    (.projected
      (.sorted (.base { name := "t", columns := none }) [{ expr := .named "a" }])
      [{ name := added, expr := .named "c" }] true)
    2

theorem firstRows_built (added : String) : (firstRows added).Built := by
  have base := Built.table (show Plan.table "t" none none = .ok _ from rfl)
  have sorted := base.sort (show Plan.sort _ [{ expr := .named "a" }] = .ok _ from rfl)
  have extended := sorted.mutate ⟨[(added, .named "c")], by simp⟩
  exact extended.limit (show Plan.limit _ (.finite false 1024 0) = .ok _ from rfl)

theorem known_columns_once_firstRows :
    let plan := Plan.filtered (firstRows "x") (.unary .isNotNull (.named "b"))
    plan.Built ∧ plan.columns .postgres = .ok none ∧
      ∃ statement, plan.statement .postgres = .ok statement ∧
        statement.known = [("x", false)] ∧ Cells.Proper statement.known := by
  intro plan
  have built : plan.Built := (firstRows_built "x").filter _
  obtain ⟨statement, planned, known⟩ : ∃ statement, plan.statement .postgres = .ok statement ∧
      statement.known = [("x", false)] := ⟨_, rfl, rfl⟩
  refine ⟨built, rfl, statement, planned, known, (known_columns_once built planned).1 ?_⟩
  intro stage member
  simp only [plan, firstRows, stages, List.mem_cons, List.not_mem_nil, or_false] at member
  constructor
  · intro used result success output listed adds
    rcases member with rfl | rfl | rfl | rfl | rfl
    · cases adds
    · cases adds
    · cases success
      cases List.mem_singleton.mp listed
      exact List.not_mem_nil
    · cases adds
    · cases adds
  · intro used result success _ input isInput before beforeOk _
    rcases member with rfl | rfl | rfl | rfl | rfl
    case inr.inr.inr.inr => cases isInput
    all_goals
      cases List.mem_singleton.mp isInput
      cases beforeOk
      rfl

/-- Behind a star a column is not replaced by another of its name, and a key that is
selected for an ordering is shown. -/
theorem firstRows_shown :
    (∃ statement,
      (Plan.projected (firstRows "x") [{ name := "x", expr := .named "b" }] true).statement
        .postgres = .ok statement ∧
      (statement.visibleScope .postgres).isOpen = true ∧
      statement.known = [("x", false), ("x", false)]) ∧
    ∃ statement,
      (Plan.filtered (firstRows "a") (.unary .isNotNull (.named "b"))).statement
        .postgres = .ok statement ∧
      (statement.visibleScope .postgres).isOpen = true ∧
      statement.known = [("a", false), ("__order_1", true)] :=
  ⟨⟨_, rfl, rfl, rfl⟩, _, rfl, rfl, rfl⟩

end Plan

end SqlPlan
