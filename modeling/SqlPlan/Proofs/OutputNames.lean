import SqlPlan.Proofs.Shape

/-!
# The names of outputs

No part of a statement shows two outputs of one name, and no two of its hidden
outputs share one: visible names are checked or given by the plan, hidden ones are
counted.  Nothing keeps the two apart, so a part repeats a name exactly where a
visible output is called like a hidden one.
-/

namespace SqlPlan

/-! ## Visible and hidden outputs -/

namespace Clauses

variable {clauses : Clauses}

/-- The names of all outputs are those of the visible and those of the hidden ones. -/
theorem names_outputs_perm (clauses : Clauses) :
    (clauses.visibleOutputs.map (·.name) ++ clauses.hiddenNames).Perm
      (clauses.outputs.map (·.name)) := by
  have split := List.filter_append_perm (fun output : SelectOutput => !output.hidden)
    clauses.outputs
  simpa only [visibleOutputs, hiddenNames, List.map_append, Bool.not_not] using
    split.map (·.name)

theorem nodup_names_outputs_iff (visible : (clauses.visibleOutputs.map (·.name)).Nodup)
    (hidden : clauses.hiddenNames.Nodup) :
    (clauses.outputs.map (·.name)).Nodup ↔
      ∀ output ∈ clauses.visibleOutputs, output.name ∉ clauses.hiddenNames := by
  rw [← clauses.names_outputs_perm.nodup_iff, List.nodup_append']
  simp [visible, hidden, List.Disjoint]

/-- Only what is listed is an output. -/
theorem names_visibleOutputs_sublist (clauses : Clauses) :
    (clauses.visibleOutputs.map (·.name)).Sublist clauses.visibleNames := by
  cases select : clauses.select with
  | none => simp [visibleOutputs, outputs, select]
  | some items =>
      simp only [visibleNames, select]
      exact List.Sublist.refl _

end Clauses

/-! ## Names in every part -/

/-- How a part of the statement of a plan names what it shows. -/
structure Statement.NamesOutputs (plan : Plan) (part : Statement) : Prop where
  distinct : (part.visibleOutputs.map (·.name)).Nodup
  shown : part.visibleOutputs.map (·.name) ⊆ plan.shownNames

namespace Plan

theorem DistinctNames.input {plan input : Plan} (distinct : plan.DistinctNames)
    (isInput : input ∈ plan.inputs) : input.DistinctNames := by
  cases plan with
  | base table => cases isInput
  | joined left right kind on =>
      rcases List.mem_cons.mp isInput with rfl | isRight
      · exact distinct.1
      · cases List.mem_singleton.mp isRight
        exact distinct.2
  | projected before outputs keep =>
      cases List.mem_singleton.mp isInput
      exact distinct.1
  | grouped before groupKeys aggregates =>
      cases List.mem_singleton.mp isInput
      exact distinct.1
  | _ =>
      cases List.mem_singleton.mp isInput
      exact distinct

theorem shownNames_subset_of_mem_inputs {plan input : Plan} (isInput : input ∈ plan.inputs) :
    input.shownNames ⊆ plan.shownNames := by
  cases plan with
  | base table => cases isInput
  | joined left right kind on =>
      rcases List.mem_cons.mp isInput with rfl | isRight
      · exact List.subset_append_of_subset_left _ (List.subset_append_left _ _)
      · cases List.mem_singleton.mp isRight
        exact List.subset_append_of_subset_right _ (List.subset_append_left _ _)
  | projected before outputs keep =>
      cases List.mem_singleton.mp isInput
      exact List.subset_append_left _ _
  | grouped before groupKeys aggregates =>
      cases List.mem_singleton.mp isInput
      exact List.subset_append_left _ _
  | _ =>
      cases List.mem_singleton.mp isInput
      exact List.Subset.refl _

end Plan

namespace Drafted

variable {dialect : Dialect} {used : Nat} {plan : Plan} {draft : Draft}

theorem namesOutputs_head (drafted : Drafted dialect used plan draft)
    (distinct : plan.DistinctNames) : draft.statement.NamesOutputs plan := by
  have visible := draft.statement.names_visibleOutputs_sublist
  exact ⟨(drafted.nodup_visibleNames distinct).sublist visible,
    List.Subset.trans visible.subset drafted.visibleNames_subset_shownNames⟩

/-- A subquery shows what the draft showed. -/
theorem namesOutputs_inner (drafted : Drafted dialect used plan draft)
    (distinct : plan.DistinctNames) :
    Statement.NamesOutputs plan
      { toClauses := draft.inner, source := draft.statement.source } := by
  have head := drafted.namesOutputs_head distinct
  have visible : draft.inner.visibleOutputs = draft.statement.visibleOutputs :=
    Clauses.visibleOutputs_nested Draft.hoistedKeys_of_select_none draft.hoistedKeys_hidden
  constructor <;> dsimp only <;> rw [visible]
  · exact head.distinct
  · exact head.shown

theorem namesOutputs_side (drafted : Drafted dialect used plan draft)
    (distinct : plan.DistinctNames) :
    Statement.NamesOutputs plan
      { toClauses := draft.statement.unordered.toClauses, source := draft.statement.source } := by
  obtain ⟨orderBy, _, clauses⟩ := draft.statement.unordered_toClauses
  have head := drafted.namesOutputs_head distinct
  rw [clauses]
  exact ⟨head.distinct, head.shown⟩

theorem namesOutputs (drafted : Drafted dialect used plan draft) (distinct : plan.DistinctNames) :
    ∀ part ∈ draft.statement.parts, part.NamesOutputs plan := by
  intro part member
  refine @Drafted.forall_parts dialect
    (fun plan part => plan.DistinctNames → part.NamesOutputs plan)
    namesOutputs_head namesOutputs_inner namesOutputs_side ?_ used plan draft drafted part member
    distinct
  intro plan input part isInput named distinct
  have named := named (distinct.input isInput)
  exact ⟨named.distinct,
    List.Subset.trans named.shown (Plan.shownNames_subset_of_mem_inputs isInput)⟩

/-- Hidden outputs are keys that are selected for an ordering. -/
theorem eq_hoistedName (drafted : Drafted dialect used plan draft) {part : Statement}
    (member : part ∈ draft.statement.parts) {name : String} (hidden : name ∈ part.hiddenNames) :
    ∃ count, name = Clauses.hoistedName count := by
  obtain ⟨_, perm⟩ := drafted.hiddenNames_parts
  have counted := perm.mem_iff.mp (List.mem_flatMap.mpr ⟨part, member, hidden⟩)
  obtain ⟨count, _, rfl⟩ := List.mem_map.mp counted
  exact ⟨count, rfl⟩

end Drafted

/-- In every part of the statement of a plan the visible outputs have different names, and
so have the hidden ones; all names are different exactly where no visible output is
called like a hidden one.  This is so in every part if the plan has no column called like
one of the keys that are selected for an ordering, declared, put out or made by a join. -/
theorem Plan.output_names_nodup {dialect : Dialect} {plan : Plan} {statement : Statement}
    (built : plan.Built) (planned : plan.statement dialect = .ok statement) :
    (∀ part ∈ statement.parts,
      (part.visibleOutputs.map (·.name)).Nodup ∧ part.hiddenNames.Nodup ∧
        ((part.outputs.map (·.name)).Nodup ↔
          ∀ output ∈ part.visibleOutputs, output.name ∉ part.hiddenNames)) ∧
      ((∀ count, Clauses.hoistedName count ∉ plan.shownNames) →
        ∀ part ∈ statement.parts, (part.outputs.map (·.name)).Nodup) := by
  obtain ⟨draft, success, statementEq⟩ := bind_eq_ok.mp planned
  cases pure_eq_ok.mp statementEq
  have drafted := Plan.drafted success
  have names := drafted.namesOutputs built.distinctNames
  have hidden := (List.nodup_flatMap.mp drafted.nodup_hiddenNames).1
  have distinct (part : Statement) (member : part ∈ draft.statement.parts) :=
    Clauses.nodup_names_outputs_iff (names part member).distinct (hidden part member)
  constructor
  · exact fun part member => ⟨(names part member).distinct, hidden part member,
      distinct part member⟩
  · intro ordinary part member
    refine (distinct part member).mpr fun output isOutput isHidden => ?_
    obtain ⟨count, counted⟩ := drafted.eq_hoistedName member isHidden
    exact ordinary count (counted ▸ (names part member).shown (List.mem_map_of_mem isOutput))

theorem Plan.narrowedPairs_built : narrowedPairs.Built := by
  have named := narrowedTwice_built.named (show Plan.named _ "v" = .ok _ from rfl)
  exact narrowedTwice_built.join named
    (show Plan.join _ _ .inner (.condition (.equal (.column { table := some "t", name := "b" })
      (.column { table := some "v", name := "b" }))) = .ok _ from rfl)

theorem Plan.output_names_nodup_narrowedPairs :
    narrowedPairs.Built ∧ (∀ count, Clauses.hoistedName count ∉ narrowedPairs.shownNames) ∧
      ∃ statement, narrowedPairs.statement .postgres = .ok statement ∧
        ∀ part ∈ statement.parts, (part.outputs.map (·.name)).Nodup := by
  have unreserved : ∀ name ∈ narrowedPairs.shownNames, ¬ Clauses.IsReserved name := by
    decide +kernel
  have ordinary (count : Nat) : Clauses.hoistedName count ∉ narrowedPairs.shownNames :=
    fun member => unreserved _ member (Clauses.isReserved_hoistedName count)
  obtain ⟨statement, planned⟩ : ∃ statement, narrowedPairs.statement .postgres = .ok statement :=
    ⟨_, rfl⟩
  exact ⟨narrowedPairs_built, ordinary, statement, planned,
    (output_names_nodup narrowedPairs_built planned).2 ordinary⟩

/-- The first rows by a column that is not shown, beside one that has the name which is
given to it. -/
def Plan.shadowedKey : Plan :=
  .filtered
    (.limited
      (.projected
        (.sorted
          (.base { name := "t", columns := some [⟨"a", none⟩, ⟨"b", none⟩, ⟨"__order_1", none⟩] })
          [{ expr := .named "a" }])
        [{ name := "b", expr := .named "b" },
          { name := "__order_1", expr := .named "__order_1" }] false)
      2)
    (.unary .isNotNull (.named "b"))

/-- A subquery may show a column under the name of the key that it selects for the
statement around it, whose ordering then names either. -/
theorem Plan.shadowedKey_name_twice :
    shadowedKey.Built ∧ ∃ statement, shadowedKey.statement .postgres = .ok statement ∧
      statement.orderBy.map (·.expr) = [.named "__order_1"] ∧
      ∃ part ∈ statement.parts, part.outputs.map (·.name) = ["b", "__order_1", "__order_1"] := by
  have base := Built.table
    (show Plan.table "t" none (some (.names ["a", "b", "__order_1"])) = .ok _ from rfl)
  have sorted := base.sort (show Plan.sort _ [{ expr := .named "a" }] = .ok _ from rfl)
  have projected := sorted.project
    (show Plan.project _ ⟨[("b", .named "b"), ("__order_1", .named "__order_1")], by simp⟩ = .ok _
      from rfl)
  have limited := projected.limit (show Plan.limit _ (.finite false 1024 0) = .ok _ from rfl)
  have built : shadowedKey.Built := limited.filter (.unary .isNotNull (.named "b"))
  exact ⟨built, _, rfl, rfl, _, List.mem_cons_of_mem _ List.mem_cons_self, rfl⟩

end SqlPlan
