import SqlPlan.Proofs.Columns
import SqlPlan.Proofs.Locating

/-!
# Merged projections

A plan keeps one projection in place of two where the later one reads only
columns that the earlier one passes on, and reads all of them.  The statement
is that of the two projections: both are read against one draft, and an output
that passes a column on stands for what the column stands for there.
-/

namespace SqlPlan

namespace Draft

variable {dialect : Dialect}

/-- The draft with the outputs, in terms of its source, for its selected items. -/
def selecting (draft : Draft) (outputs : List Output) : Draft :=
  { draft with statement := { draft.statement with
      select := some ((outputs.map fun output =>
        { output with
          expr := output.expr.mapColumns .everywhere draft.statement.sourceOf }).map
        Output.item) } }

/-- A projection selects its outputs in the draft that they are read against. -/
theorem project_eq_ok {draft result : Draft} {outputs : List Output} :
    draft.project dialect outputs false = .ok result ↔
      (∀ output ∈ outputs, output.expr.aggregate? = none) ∧
        (draft.unsealed dialect).Accepts dialect (Output.refs outputs) ∧
        result = ((draft.unsealed dialect).settled dialect
          (Output.refs outputs)).selecting outputs := by
  have items (current : Draft) :
      outputs.zipWith (fun output expr => { output with expr })
          ((outputs.map (·.expr)).map
            (Expr.mapColumns .everywhere current.statement.sourceOf)) =
        outputs.map fun output =>
          { output with
            expr := output.expr.mapColumns .everywhere current.statement.sourceOf } := by
    rw [List.map_map, List.zipWith_map_right, List.zipWith_self]
    rfl
  constructor
  · intro success
    obtain ⟨_, refused, success⟩ := bind_eq_ok.mp success
    obtain ⟨⟨current, exprs⟩, resolved, success⟩ := bind_eq_ok.mp success
    obtain ⟨accepts, rfl, rfl⟩ := resolve_eq_ok.mp resolved
    refine ⟨fun output member =>
      Expr.refuseAggregate_eq_ok.mp (forM_eq_ok.mp refused output member), accepts, ?_⟩
    cases success
    rw [selecting, ← items]
    rfl
  · rintro ⟨scalar, accepts, rfl⟩
    refine bind_eq_ok.mpr ⟨(), forM_eq_ok.mpr fun output member =>
      Expr.refuseAggregate_eq_ok.mpr (scalar output member), ?_⟩
    refine bind_eq_ok.mpr ⟨_, resolve_eq_ok.mpr ⟨accepts, rfl, rfl⟩, ?_⟩
    rw [selecting, ← items]
    rfl

/-- An output of a projection that passes a column on answers for its name. -/
theorem locate_selecting {draft : Draft} {outputs : List Output} {output : Output}
    {ref column source : ColumnRef} (unqualified : ref.table = none)
    (found : outputs.find? (fun output => output.name == ref.name) = some output)
    (passes : output.expr = .column column)
    (stands : draft.statement.sourceOf column = .column source) :
    (draft.selecting outputs).statement.locate ref = .ok (.source (.column source)) := by
  have answered : (draft.selecting outputs).statement.visibleOutputs.find?
      (fun output => output.name == ref.name) =
        some { name := output.name, expr := .column source } := by
    rw [Clauses.visibleOutputs_of_items rfl, List.map_map, List.find?_map]
    change Option.map _ (outputs.find? fun output => output.name == ref.name) = _
    rw [found, Option.map_some, Function.comp_apply, passes, Expr.mapColumns, stands]
  have located : (draft.selecting outputs).statement.locate ref =
      (draft.selecting outputs).statement.locateOutput ref := by
    unfold Clauses.locate
    rw [unqualified]
    rfl
  rw [located, Clauses.locateOutput, answered]

end Draft

namespace Plan

/-- The later of two projections that are merged reads what the earlier one
passes on, and the earlier one has no other outputs. -/
structure Merges (earlier later merged : List Output) : Prop where
  passed : ∀ ref ∈ Output.refs later, ∃ column,
    passedColumn? earlier ref = some column
  used : ∀ output ∈ earlier, ∃ ref ∈ Output.refs later, ∃ column,
    passedColumn? earlier ref = some column ∧ output.expr = .column column
  merged_eq : merged = later.map fun output =>
    { name := output.name
      expr := output.expr.mapColumns .everywhere fun ref =>
        .column ((passedColumn? earlier ref).getD ref) }

theorem passedColumn?_eq_some {earlier : List Output} {ref column : ColumnRef}
    (passes : passedColumn? earlier ref = some column) :
    ref.table = none ∧ ∃ output,
      earlier.find? (fun output => output.name == ref.name) = some output ∧
        output.expr = .column column := by
  unfold passedColumn? at passes
  split at passes
  · cases passes
  · rename_i unqualified
    obtain ⟨output, found, isColumn⟩ := Option.bind_eq_some_iff.mp passes
    refine ⟨unqualified, output, found, ?_⟩
    cases expr : output.expr with
    | column other =>
        rw [expr] at isColumn
        cases isColumn
        rfl
    | _ =>
        rw [expr] at isColumn
        cases isColumn

/-- Where names are distinct, the output of a name is the first one that has it. -/
theorem find?_name_of_mem {outputs : List Output} (distinct : (outputs.map (·.name)).Nodup)
    {output : Output} (member : output ∈ outputs) :
    outputs.find? (fun other => other.name == output.name) = some output := by
  cases found : outputs.find? (fun other => other.name == output.name) with
  | none =>
      have differs := List.find?_eq_none.mp found output member
      simp at differs
  | some other =>
      have named : other.name = output.name := by simpa using List.find?_some found
      exact congrArg some
        (List.inj_on_of_nodup_map distinct (List.mem_of_find?_eq_some found) member named)

theorem merges_of_mergedOutputs? {earlier later merged : List Output}
    (distinct : (earlier.map (·.name)).Nodup)
    (success : mergedOutputs? earlier later = some merged) : Merges earlier later merged := by
  have refsEq : later.flatMap (·.expr.columnRefs) = Output.refs later := by
    rw [Output.refs, Expr.refsOf, List.flatMap_map]
  unfold mergedOutputs? at success
  rw [refsEq] at success
  dsimp only at success
  split at success
  · rename_i suited
    cases success
    obtain ⟨allPassed, allUsed⟩ := Bool.and_eq_true_iff.mp suited
    have passed (ref : ColumnRef) (member : ref ∈ Output.refs later) :
        ∃ column, passedColumn? earlier ref = some column :=
      Option.isSome_iff_exists.mp (List.all_eq_true.mp allPassed ref member)
    refine ⟨passed, ?_, rfl⟩
    intro output outputMember
    have isUsed := List.all_eq_true.mp allUsed output outputMember
    obtain ⟨ref, member, sameName⟩ := List.any_eq_true.mp isUsed
    obtain ⟨column, passes⟩ := passed ref member
    obtain ⟨_, other, found, isColumn⟩ := passedColumn?_eq_some passes
    rw [eq_of_beq sameName, find?_name_of_mem distinct outputMember] at found
    cases found
    exact ⟨ref, member, column, passes, isColumn⟩
  · cases success

namespace Merges

variable {earlier later merged : List Output} (merges : Merges earlier later merged)

include merges

theorem isColumn {output : Output} (member : output ∈ earlier) :
    ∃ column, output.expr = .column column := by
  obtain ⟨_, _, column, _, isColumn⟩ := merges.used output member
  exact ⟨column, isColumn⟩

theorem mem_refs_earlier {ref : ColumnRef} :
    ref ∈ Output.refs earlier ↔ ∃ output ∈ earlier, output.expr = .column ref := by
  rw [Output.mem_refs]
  constructor
  · rintro ⟨output, member, reads⟩
    obtain ⟨column, isColumn⟩ := merges.isColumn member
    rw [isColumn] at reads
    cases List.mem_singleton.mp reads
    exact ⟨output, member, isColumn⟩
  · rintro ⟨output, member, isColumn⟩
    refine ⟨output, member, ?_⟩
    rw [isColumn]
    exact List.mem_singleton_self ref

/-- The merged projection reads the columns that the earlier one reads. -/
theorem mem_refs (ref : ColumnRef) :
    ref ∈ Output.refs merged ↔ ref ∈ Output.refs earlier := by
  rw [merges.mem_refs_earlier, merges.merged_eq, Output.mem_refs]
  constructor
  · rintro ⟨_, member, reads⟩
    obtain ⟨output, outputMember, rfl⟩ := List.mem_map.mp member
    rw [Expr.columnRefs_mapColumns] at reads
    obtain ⟨other, otherReads, isRef⟩ := List.mem_flatMap.mp reads
    obtain ⟨column, passes⟩ :=
      merges.passed other (Output.mem_refs.mpr ⟨output, outputMember, otherReads⟩)
    obtain ⟨_, source, found, isColumn⟩ := passedColumn?_eq_some passes
    rw [passes] at isRef
    cases List.mem_singleton.mp isRef
    exact ⟨source, List.mem_of_find?_eq_some found, isColumn⟩
  · rintro ⟨source, member, isColumn⟩
    obtain ⟨other, read, column, passes, sameColumn⟩ := merges.used source member
    rw [isColumn] at sameColumn
    cases sameColumn
    obtain ⟨output, outputMember, reads⟩ := Output.mem_refs.mp read
    refine ⟨_, List.mem_map_of_mem outputMember, ?_⟩
    rw [Expr.columnRefs_mapColumns]
    refine List.mem_flatMap.mpr ⟨other, reads, ?_⟩
    rw [passes]
    exact List.mem_singleton_self ref

theorem scalar_iff :
    (∀ output ∈ merged, output.expr.aggregate? = none) ↔
      ∀ output ∈ later, output.expr.aggregate? = none := by
  rw [merges.merged_eq]
  simp only [List.forall_mem_map]
  constructor
  · intro scalar output member
    exact Expr.aggregate?_of_mapColumns (scalar output member)
  · intro scalar output member
    exact Expr.aggregate?_mapColumns (scalar output member) fun _ _ => rfl

section Selected

variable {dialect : Dialect} {current : Draft}
  (stands : ∀ ref ∈ Output.refs earlier, ∃ column,
    current.statement.sourceOf ref = .column column)

include stands

/-- Once the earlier outputs are selected, a reference of the later projection
stands for what the column that is passed on stood for. -/
theorem locate_later {ref column : ColumnRef} (passes : passedColumn? earlier ref = some column) :
    (current.selecting earlier).statement.locate ref =
      .ok (.source (current.statement.sourceOf column)) := by
  obtain ⟨unqualified, output, found, isColumn⟩ := passedColumn?_eq_some passes
  have read := merges.mem_refs_earlier.mpr ⟨output, List.mem_of_find?_eq_some found, isColumn⟩
  obtain ⟨source, standsFor⟩ := stands column read
  rw [standsFor]
  exact Draft.locate_selecting unqualified found isColumn standsFor

theorem settled_later :
    (current.selecting earlier).settled dialect (Output.refs later) =
      current.selecting earlier := by
  have underived : (Output.refs later).any (current.selecting earlier).statement.isDerived =
      false := by
    rw [List.any_eq_false]
    intro ref member
    obtain ⟨column, passes⟩ := merges.passed ref member
    simp [Clauses.isDerived, merges.locate_later stands passes, Located.isDerived]
  rw [Draft.settled, underived]
  rfl

theorem accepts_later :
    (current.selecting earlier).Accepts dialect (Output.refs later) := by
  intro ref member
  obtain ⟨column, passes⟩ := merges.passed ref member
  have located := Clauses.refusal?_eq_none.mpr ⟨_, merges.locate_later stands passes⟩
  rw [merges.settled_later stands]
  exact ⟨located, located⟩

theorem selecting_later :
    (current.selecting earlier).selecting later = current.selecting merged := by
  have exprs (output : Output) (member : output ∈ later) :
      output.expr.mapColumns .everywhere (current.selecting earlier).statement.sourceOf =
        (output.expr.mapColumns .everywhere fun ref =>
          .column ((passedColumn? earlier ref).getD ref)).mapColumns .everywhere
            current.statement.sourceOf := by
    rw [Expr.mapColumns_mapColumns]
    apply Expr.mapColumns_congr
    intro ref reads
    obtain ⟨column, passes⟩ := merges.passed ref (Output.mem_refs.mpr ⟨output, member, reads⟩)
    rw [Clauses.sourceOf, merges.locate_later stands passes, passes]
    rfl
  have items : (later.map fun output =>
      { output with
        expr := output.expr.mapColumns .everywhere
          (current.selecting earlier).statement.sourceOf }).map Output.item =
      (merged.map fun output =>
        { output with
          expr := output.expr.mapColumns .everywhere current.statement.sourceOf }).map
        Output.item := by
    rw [merges.merged_eq, List.map_map, List.map_map, List.map_map]
    apply List.map_congr_left
    intro output member
    simp only [Function.comp_apply, Output.item, exprs output member]
  rw [Draft.selecting, items]
  rfl

end Selected

/-- Where the earlier projection is accepted, the later one is, and gives the
draft that the merged one gives. -/
theorem project_later {dialect : Dialect} {current result : Draft}
    (unsealed : current.statement.isSealed = false)
    (stands : ∀ ref ∈ Output.refs earlier, ∃ column,
      current.statement.sourceOf ref = .column column) :
    (current.selecting earlier).project dialect later false = .ok result ↔
      (∀ output ∈ later, output.expr.aggregate? = none) ∧ result = current.selecting merged := by
  have keeps : (current.selecting earlier).unsealed dialect = current.selecting earlier := by
    apply if_neg
    change ¬ current.statement.isSealed = true
    rw [unsealed]
    exact Bool.false_ne_true
  rw [Draft.project_eq_ok, keeps, merges.settled_later stands, merges.selecting_later stands]
  constructor
  · rintro ⟨scalar, _, same⟩
    exact ⟨scalar, same⟩
  · rintro ⟨scalar, same⟩
    exact ⟨scalar, merges.accepts_later stands, same⟩

/-- After an earlier projection the later one cannot fail for a name. -/
theorem exists_project {dialect : Dialect} {current draft : Draft}
    (earlierOk : current.project dialect earlier false = .ok draft)
    (scalar : ∀ output ∈ later, output.expr.aggregate? = none) :
    ∃ result, draft.project dialect later false = .ok result := by
  obtain ⟨_, accepts, rfl⟩ := Draft.project_eq_ok.mp earlierOk
  have unsealed : ((current.unsealed dialect).settled dialect
      (Output.refs earlier)).statement.isSealed = false :=
    Draft.isSealed_settled (current.unsealed_isSealed dialect) _
  exact ⟨_, (merges.project_later unsealed fun _ => Draft.exists_sourceOf_settled accepts).mpr
    ⟨scalar, rfl⟩⟩

/-- One projection in place of two gives the draft that the two give. -/
theorem project_iff {dialect : Dialect} {draft result : Draft} :
    draft.project dialect merged false = .ok result ↔
      ∃ middle, draft.project dialect earlier false = .ok middle ∧
        middle.project dialect later false = .ok result := by
  have unsealed : ((draft.unsealed dialect).settled dialect
      (Output.refs earlier)).statement.isSealed = false :=
    Draft.isSealed_settled (draft.unsealed_isSealed dialect) _
  rw [Draft.project_eq_ok, merges.scalar_iff, Draft.accepts_congr _ merges.mem_refs,
    Draft.settled_congr _ merges.mem_refs]
  constructor
  · rintro ⟨scalar, accepts, same⟩
    have columns : ∀ output ∈ earlier, output.expr.aggregate? = none := by
      intro output member
      obtain ⟨column, isColumn⟩ := merges.isColumn member
      rw [isColumn]
      rfl
    refine ⟨_, Draft.project_eq_ok.mpr ⟨columns, accepts, rfl⟩, ?_⟩
    exact (merges.project_later unsealed fun _ => Draft.exists_sourceOf_settled accepts).mpr
      ⟨scalar, same⟩
  · rintro ⟨middle, first, second⟩
    obtain ⟨_, accepts, rfl⟩ := Draft.project_eq_ok.mp first
    obtain ⟨scalar, same⟩ :=
      (merges.project_later unsealed fun _ => Draft.exists_sourceOf_settled accepts).mp second
    exact ⟨scalar, accepts, same⟩

end Merges

/-- Merging is invisible: a merged projection has a draft exactly where the two
projections have one, and it is the same. -/
theorem draft_projected_merged (input : Plan) {earlier later merged : List Output}
    (distinct : (earlier.map (·.name)).Nodup)
    (merges : mergedOutputs? earlier later = some merged) (dialect : Dialect) (used : Nat)
    (draft : Draft) :
    (Plan.projected input merged false).draft dialect used = .ok draft ↔
      (Plan.projected (.projected input earlier false) later false).draft dialect used =
        .ok draft := by
  have merges := merges_of_mergedOutputs? distinct merges
  simp only [Plan.draft, bind_eq_ok]
  constructor
  · rintro ⟨current, currentOk, success⟩
    obtain ⟨middle, first, second⟩ := merges.project_iff.mp success
    exact ⟨middle, ⟨current, currentOk, first⟩, second⟩
  · rintro ⟨middle, ⟨current, currentOk, first⟩, second⟩
    exact ⟨current, currentOk, merges.project_iff.mpr ⟨middle, first, second⟩⟩

/-- A key and a count swap their names and swap them back, over groups whose
count is derived. -/
theorem draft_projected_merged_swappedTwice :
    let groups := Plan.grouped
      (.base { name := "t", columns := some [⟨"a", none⟩, ⟨"b", none⟩] })
      [{ name := "b", expr := .named "b" }]
      [{ name := "n", expr := .aggregate "count" none false }]
    let swapped := [{ name := "b", expr := .named "n" }, { name := "n", expr := .named "b" }]
    let restored := [{ name := "b", expr := .named "b" }, { name := "n", expr := .named "n" }]
    mergedOutputs? swapped swapped = some restored ∧
      ∃ draft, (Plan.projected groups restored false).draft .postgres 0 = .ok draft ∧
        (Plan.projected (.projected groups swapped false) swapped false).draft .postgres 0 =
          .ok draft := by
  intro groups swapped restored
  refine ⟨rfl, _, rfl, ?_⟩
  exact (draft_projected_merged groups (by decide) rfl .postgres 0 _).mp rfl

end Plan

end SqlPlan
