import SqlPlan.Proofs.Grouping
import SqlPlan.Proofs.Parts
import SqlPlan.Proofs.Scoping

/-!
# The shape of nested statements

Statements are nested in two ways only: one is the subquery that another reads
from, or it is a side of a join.  Either way its rows are ordered only where a
limit needs it.  Keys that are selected for an ordering further out are selected
by subqueries alone, and each has a name of its own among all of them: they are
numbered one after another, on both sides of a join.
-/

namespace SqlPlan

/-- The names of the sides of a join. -/
def Source.sides? : Source → Option (String × String)
  | .relation _ => none
  | .join _ leftName _ rightName _ _ => some (leftName, rightName)

/-- The names under which a statement selects keys for the one around it. -/
def Clauses.hiddenNames (clauses : Clauses) : List String :=
  (clauses.outputs.filter fun output => output.hidden).map (·.name)

/-- What a part of a statement may be in its place. -/
structure Statement.ShapedAt (place : Place) (part : Statement) : Prop where
  /-- Inside another statement an ordering serves a limit. -/
  ordered : place ≠ .head → part.orderBy ≠ [] → part.limit.isSome = true
  /-- Keys are selected for the statement around a subquery, which lists the rows themselves. -/
  hidden : part.hiddenNames ≠ [] →
    place = .subquery ∧ part.distinct = false ∧ part.isGrouped = false
  /-- Groups and joins list their outputs. -/
  listed : part.isGrouped = true ∨ part.source.sides?.isSome = true → part.select.isSome = true
  /-- The sides of a join are told apart by their names. -/
  apart : ∀ sides ∈ part.source.sides?, sides.1 ≠ sides.2

namespace Clauses

variable {clauses : Clauses}

theorem hiddenNames_eq_nil (unhidden : ∀ item ∈ clauses.select.getD [], item.isHidden = false) :
    clauses.hiddenNames = [] := by
  rw [hiddenNames, List.map_eq_nil_iff, List.filter_eq_nil_iff]
  intro output member
  have visible : output.hidden = false := unhidden _ (mem_outputs.mp member)
  simp [visible]

end Clauses

namespace Draft

variable {draft : Draft}

/-- Of a draft without hidden outputs the subquery hides the keys that it selects. -/
theorem hiddenNames_inner (unhidden : draft.statement.hiddenNames = []) :
    draft.inner.hiddenNames = draft.hoistedKeys.map (·.name) := by
  have hoisted : draft.hoistedKeys.filter (fun output => output.hidden) = draft.hoistedKeys :=
    List.filter_eq_self.mpr draft.hoistedKeys_hidden
  rw [Clauses.hiddenNames, inner, Clauses.outputs_nested hoistedKeys_of_select_none,
    List.filter_append, List.map_append, ← Clauses.hiddenNames, unhidden, hoisted, List.nil_append]

/-- Keys are selected only where rows stay as they are. -/
theorem free_of_hoistedKeys (selects : draft.hoistedKeys ≠ []) :
    draft.statement.distinct = false ∧ draft.statement.isGrouped = false := by
  have free : (draft.statement.distinct || draft.statement.isGrouped) = false := by
    by_contra fixed
    exact selects (Clauses.hoisted_of_fixed (Bool.not_eq_false _ ▸ fixed) _ _)
  exact Bool.or_eq_false_iff.mp free

theorem select_inner (listed : draft.statement.select.isSome = true) :
    draft.inner.select.isSome = true := by
  unfold inner Clauses.nested
  dsimp only
  split
  · exact listed
  · rfl

end Draft

namespace Drafted

variable {dialect : Dialect} {used : Nat} {plan : Plan} {draft : Draft}

theorem hiddenNames_eq_nil (drafted : Drafted dialect used plan draft) :
    draft.statement.hiddenNames = [] :=
  Clauses.hiddenNames_eq_nil (drafted.exposed .ofDeclared).unhidden

theorem sides_apart (drafted : Drafted dialect used plan draft) :
    ∀ sides ∈ draft.statement.source.sides?, sides.1 ≠ sides.2 := by
  induction drafted with
  | base table used =>
      intro sides isSides
      cases isSides
  | nest _ _ =>
      intro sides isSides
      rw [Draft.nest_eq] at isSides
      cases isSides
  | joined _ _ refused joined _ _ =>
      obtain ⟨_, _, _, _, rfl⟩ := Statement.join_eq_ok joined
      rintro sides ⟨⟩
      exact refuseJoin_eq_ok refused
  | @aliased used input draft name _ induction =>
      rcases Statement.named_source name draft with same | ⟨ref, shownAs, _, after⟩
      · rw [same]
        exact induction
      · intro sides isSides
        rw [after] at isSides
        cases isSides
  | projected _ _ _ _ induction | extended _ _ _ _ _ induction | filtered _ _ _ _ induction
  | sorted _ _ _ _ induction | grouped _ _ _ _ _ _ induction | deduplicated _ _ induction
  | alreadyDistinct _ _ induction | limited _ _ induction => exact induction

theorem select_isSome (drafted : Drafted dialect used plan draft)
    (needed : draft.statement.isGrouped = true ∨ draft.statement.source.sides?.isSome = true) :
    draft.statement.select.isSome = true := by
  rcases needed with grouped | joined
  · exact (drafted.starless_of_grouped grouped).1
  · by_contra unlisted
    have single := drafted.single_of_whole (by simpa using unlisted)
    rw [(drafted.answered _ List.mem_cons_self).scope] at single
    cases source : draft.statement.source with
    | relation relation =>
        rw [source] at joined
        cases joined
    | join left leftName right rightName kind on =>
        rw [source] at single
        cases single

theorem shaped_head (drafted : Drafted dialect used plan draft) :
    draft.statement.ShapedAt .head where
  ordered isNested := absurd rfl isNested
  hidden selects := absurd drafted.hiddenNames_eq_nil selects
  listed := drafted.select_isSome
  apart := drafted.sides_apart

theorem shaped_inner (drafted : Drafted dialect used plan draft) :
    Statement.ShapedAt .subquery
      { toClauses := draft.inner, source := draft.statement.source } where
  ordered _ isOrdered := by
    by_contra unlimited
    exact isOrdered (if_neg unlimited)
  hidden selects := by
    refine ⟨rfl, Draft.free_of_hoistedKeys fun nothing => selects ?_⟩
    rw [Draft.hiddenNames_inner drafted.hiddenNames_eq_nil, nothing]
    rfl
  listed needed := Draft.select_inner (drafted.select_isSome needed)
  apart := drafted.sides_apart

theorem shaped_side (drafted : Drafted dialect used plan draft) :
    Statement.ShapedAt .side
      { toClauses := draft.statement.unordered.toClauses, source := draft.statement.source } := by
  have head := drafted.shaped_head
  unfold Statement.unordered
  split
  · exact ⟨fun _ isOrdered => absurd rfl isOrdered,
      fun selects => absurd drafted.hiddenNames_eq_nil selects, head.listed, head.apart⟩
  · rename_i limited
    exact ⟨fun _ _ => by simpa [Option.isSome_iff_ne_none] using limited,
      fun selects => absurd drafted.hiddenNames_eq_nil selects, head.listed, head.apart⟩

/-! ## Names for orderings -/

/-- A side of a join hides what its statement hides below. -/
theorem hiddenNames_relation {name : String} {scope : Scope}
    (drafted : Drafted dialect used plan draft) :
    (JoinInput.relation { statement := draft.statement, name, scope }).statements.flatMap
        (fun part => part.hiddenNames) =
      draft.statement.source.statements.flatMap fun part => part.hiddenNames := by
  rcases JoinInput.relation_cases { statement := draft.statement, name, scope } with
    ⟨ref, whole, relation⟩ | relation
  · obtain ⟨⟨shownAs, source⟩, _⟩ := Statement.wholeTable?_eq_some whole
    rw [Statement.unordered_source] at source
    rw [relation, source]
    rfl
  · obtain ⟨orderBy, _, clauses⟩ := draft.statement.unordered_toClauses
    have unhidden : draft.statement.unordered.hiddenNames = [] := by
      rw [clauses]
      exact drafted.hiddenNames_eq_nil
    rw [relation, Relation.statements, List.flatMap_cons, unhidden, List.nil_append]

/-- The keys that are selected for an ordering have consecutive numbers, each once. -/
theorem hiddenNames_perm (drafted : Drafted dialect used plan draft) :
    ∃ count, draft.hoisted = used + count ∧
      (draft.statement.source.statements.flatMap fun part => part.hiddenNames).Perm
        ((List.range' (used + 1) count).map Clauses.hoistedName) := by
  induction drafted with
  | base table used => exact ⟨0, rfl, .nil⟩
  | @nest used plan draft drafted induction =>
      obtain ⟨count, hoisted, perm⟩ := induction
      rw [Draft.nest_eq]
      refine ⟨count + draft.hoistedKeys.length, by dsimp only; omega, ?_⟩
      have names : draft.hoistedKeys.map (·.name) =
          (List.range' (draft.hoisted + 1) draft.hoistedKeys.length).map Clauses.hoistedName :=
        Clauses.names_hoisted _ _
      have start : draft.hoisted + 1 = used + 1 + count := by omega
      rw [Source.statements, Relation.statements, List.flatMap_cons,
        Draft.hiddenNames_inner drafted.hiddenNames_eq_nil, names, start, ← List.range'_append_1,
        List.map_append]
      exact (perm.append_left _).trans List.perm_append_comm
  | @joined used input other left right kind on statement leftDrafted rightDrafted _ joined
      leftInduction rightInduction =>
      obtain ⟨leftCount, leftHoisted, leftPerm⟩ := leftInduction
      obtain ⟨rightCount, rightHoisted, rightPerm⟩ := rightInduction
      obtain ⟨_, _, _, _, rfl⟩ := Statement.join_eq_ok joined
      refine ⟨leftCount + rightCount, by rw [rightHoisted, leftHoisted]; omega, ?_⟩
      have start : left.hoisted + 1 = used + 1 + leftCount := by omega
      rw [start] at rightPerm
      rw [Source.statements, List.flatMap_append, leftDrafted.hiddenNames_relation,
        rightDrafted.hiddenNames_relation, ← List.range'_append_1, List.map_append]
      exact leftPerm.append rightPerm
  | aliased name _ induction =>
      rw [Draft.named_statements]
      exact induction
  | projected _ _ _ _ induction | extended _ _ _ _ _ induction | filtered _ _ _ _ induction
  | sorted _ _ _ _ induction | grouped _ _ _ _ _ _ induction | deduplicated _ _ induction
  | alreadyDistinct _ _ induction | limited _ _ induction => exact induction

/-- The outermost part hides nothing, so that these are the hidden names of all parts. -/
theorem hiddenNames_parts (drafted : Drafted dialect used plan draft) :
    ∃ count, (draft.statement.parts.flatMap fun part => part.hiddenNames).Perm
      ((List.range' (used + 1) count).map Clauses.hoistedName) := by
  obtain ⟨count, _, perm⟩ := drafted.hiddenNames_perm
  rw [Statement.parts, List.flatMap_cons, drafted.hiddenNames_eq_nil, List.nil_append]
  exact ⟨count, perm⟩

theorem nodup_hiddenNames (drafted : Drafted dialect used plan draft) :
    (draft.statement.parts.flatMap fun part => part.hiddenNames).Nodup := by
  obtain ⟨count, perm⟩ := drafted.hiddenNames_parts
  exact perm.nodup_iff.mpr
    (List.Nodup.map (fun _ _ => Clauses.hoistedName_injective) List.nodup_range')

end Drafted

/-- Every part of a planned statement has the shape that its place allows, and no two
keys that are selected for an ordering, in the same part or in different ones, have one
name. -/
theorem Plan.parts_shaped {dialect : Dialect} {plan : Plan} {statement : Statement}
    (planned : plan.statement dialect = .ok statement) :
    (∀ part ∈ statement.placed, part.2.ShapedAt part.1) ∧
      (statement.parts.flatMap fun part => part.hiddenNames).Nodup := by
  obtain ⟨draft, success, statementEq⟩ := bind_eq_ok.mp planned
  cases pure_eq_ok.mp statementEq
  have drafted := Plan.drafted success
  refine ⟨?_, drafted.nodup_hiddenNames⟩
  exact @Drafted.forall_placed dialect (fun _ place part => part.ShapedAt place)
    Drafted.shaped_head Drafted.shaped_inner Drafted.shaped_side (fun _ shaped => shaped)
    0 plan draft drafted

/-- The first rows of a table that were narrowed before, joined to themselves. -/
def Plan.narrowedPairs : Plan :=
  .joined narrowedTwice (.aliased narrowedTwice "v") .inner
    (.equal (.column { table := some "t", name := "b" })
      (.column { table := some "v", name := "b" }))

theorem Plan.parts_shaped_narrowedPairs :
    ∃ statement, narrowedPairs.statement .postgres = .ok statement ∧
      (statement.placed.map Prod.fst =
        [.head, .side, .subquery, .subquery, .side, .subquery, .subquery]) ∧
      ((statement.parts.flatMap fun part => part.hiddenNames) =
        ["__order_2", "__order_1", "__order_4", "__order_3"]) ∧
      (∀ part ∈ statement.placed, part.2.ShapedAt part.1) ∧
      (statement.parts.flatMap fun part => part.hiddenNames).Nodup := by
  obtain ⟨statement, planned, places, names⟩ : ∃ statement,
      narrowedPairs.statement .postgres = .ok statement ∧
      statement.placed.map Prod.fst =
        [.head, .side, .subquery, .subquery, .side, .subquery, .subquery] ∧
      (statement.parts.flatMap fun part => part.hiddenNames) =
        ["__order_2", "__order_1", "__order_4", "__order_3"] :=
    ⟨_, rfl, by decide +kernel, by decide +kernel⟩
  exact ⟨statement, planned, places, names, parts_shaped planned⟩

end SqlPlan
