import SqlPlan.Plan.Build
import SqlPlan.Proofs.Selecting

/-!
# Plans that are built by steps

Plans come about only by the steps of `Plan.Build`, which refuse some inputs.
In a plan that was built no step gives one name to two of its outputs, and no
two outputs take the place of one column.
-/

namespace SqlPlan

namespace Plan

inductive Built : Plan → Prop where
  | table {name : String} {schema : Option String} {declared : Option Declaration} {plan : Plan} :
      Plan.table name schema declared = .ok plan → Built plan
  | project {plan next : Plan} {mapping : Record Expr} :
      Built plan → plan.project mapping = .ok next → Built next
  | select {plan next : Plan} {names : List String} :
      Built plan → plan.select names = .ok next → Built next
  | mutate {plan : Plan} (mapping : Record Expr) : Built plan → Built (plan.mutate mapping)
  | rename {plan next : Plan} {mapping : Record String} :
      Built plan → plan.rename mapping = .ok next → Built next
  | filter {plan : Plan} (predicate : Expr) : Built plan → Built (plan.filter predicate)
  | sort {plan next : Plan} {keys : List SortKey} :
      Built plan → plan.sort keys = .ok next → Built next
  | aggregate {plan next : Plan} {keys : GroupKeys} {aggregates : Record Expr} :
      Built plan → plan.aggregate keys aggregates = .ok next → Built next
  | count {plan next : Plan} {keys : GroupKeys} {name : String} :
      Built plan → plan.count keys name = .ok next → Built next
  | join {plan other next : Plan} {kind : JoinKind} {on : JoinOn} :
      Built plan → Built other → plan.join other kind on = .ok next → Built next
  | distinct {plan : Plan} : Built plan → Built plan.distinct
  | limit {plan next : Plan} {count : Number} :
      Built plan → plan.limit count = .ok next → Built next
  | named {plan next : Plan} {name : String} :
      Built plan → plan.named name = .ok next → Built next

/-- No step of the plan names two outputs alike or puts two in one place. -/
def DistinctNames : Plan → Prop
  | .base table => ((table.columns.getD []).map (·.name)).Nodup
  | .projected input outputs _ =>
      input.DistinctNames ∧ (outputs.map (·.name)).Nodup ∧ (outputs.map Output.target).Nodup
  | .grouped input groupKeys aggregates =>
      input.DistinctNames ∧ ((groupKeys ++ aggregates).map (·.name)).Nodup
  | .joined input other _ _ => input.DistinctNames ∧ other.DistinctNames
  | .filtered input _ => input.DistinctNames
  | .sorted input _ => input.DistinctNames
  | .deduplicated input => input.DistinctNames
  | .limited input _ => input.DistinctNames
  | .aliased input _ => input.DistinctNames

theorem nodup_ofRecord (mapping : Record Expr) :
    ((Output.ofRecord mapping).map (·.name)).Nodup := by
  simpa [Output.ofRecord, Function.comp_def] using mapping.distinct

/-- Outputs that replace nothing take the places of their own names. -/
theorem nodup_target_of_name {outputs : List Output}
    (plain : ∀ output ∈ outputs, output.replaces = none)
    (distinct : (outputs.map (·.name)).Nodup) : (outputs.map Output.target).Nodup := by
  have same : outputs.map Output.target = outputs.map (·.name) :=
    List.map_congr_left fun output member => by simp [Output.target, plain output member]
  rwa [same]

theorem replaces_ofRecord (mapping : Record Expr) :
    ∀ output ∈ Output.ofRecord mapping, output.replaces = none := by
  intro output member
  obtain ⟨entry, _, rfl⟩ := List.mem_map.mp member
  rfl

theorem mergedOutputs?_eq_some {earlier later merged : List Output}
    (success : mergedOutputs? earlier later = some merged) :
    merged.map (·.name) = later.map (·.name) ∧ ∀ output ∈ merged, output.replaces = none := by
  unfold mergedOutputs? at success
  dsimp only at success
  split at success
  · cases success
    simp [Function.comp_def]
  · cases success

/-- A projection is added to the plan or merged into its last one. -/
theorem project_eq_ok {plan next : Plan} {mapping : Record Expr}
    (success : plan.project mapping = .ok next) :
    next = .projected plan (Output.ofRecord mapping) false ∨
      ∃ input earlier merged, plan = .projected input earlier false ∧
        mergedOutputs? earlier (Output.ofRecord mapping) = some merged ∧
        next = .projected input merged false := by
  unfold project at success
  dsimp only at success
  split at success
  · cases success
  · split at success
    · rename_i input earlier
      cases result : mergedOutputs? earlier (Output.ofRecord mapping) with
      | none =>
          rw [result] at success
          cases success
          exact .inl rfl
      | some merged =>
          rw [result] at success
          cases success
          exact .inr ⟨input, earlier, merged, rfl, result, rfl⟩
    · cases success
      exact .inl rfl

theorem DistinctNames.project {plan next : Plan} {mapping : Record Expr}
    (distinct : plan.DistinctNames) (success : plan.project mapping = .ok next) :
    next.DistinctNames := by
  rcases project_eq_ok success with rfl | ⟨input, earlier, merged, rfl, merges, rfl⟩
  · have names := nodup_ofRecord mapping
    exact ⟨distinct, names, nodup_target_of_name (replaces_ofRecord mapping) names⟩
  · obtain ⟨namesEq, plain⟩ := mergedOutputs?_eq_some merges
    have names : (merged.map (·.name)).Nodup := namesEq ▸ nodup_ofRecord mapping
    exact ⟨distinct.1, names, nodup_target_of_name plain names⟩

theorem DistinctNames.rename {plan next : Plan} {mapping : Record String}
    (distinct : plan.DistinctNames) (success : plan.rename mapping = .ok next) :
    next.DistinctNames := by
  unfold Plan.rename at success
  cases repeated : Names.firstRepeat? (mapping.entries.map Prod.snd) with
  | some column =>
      rw [repeated] at success
      cases success
  | none =>
      rw [repeated] at success
      cases success
      refine ⟨distinct, ?_, ?_⟩
      · simpa [Function.comp_def] using mapping.distinct
      · simpa [Function.comp_def, Output.target] using Names.firstRepeat?_eq_none.mp repeated

theorem DistinctNames.aggregate {plan next : Plan} {keys : GroupKeys} {aggregates : Record Expr}
    (distinct : plan.DistinctNames) (success : plan.aggregate keys aggregates = .ok next) :
    next.DistinctNames := by
  unfold Plan.aggregate at success
  dsimp only at success
  split at success
  · cases success
  · cases repeated : Names.firstRepeat?
        ((keys.outputs ++ Output.ofRecord aggregates).map (·.name)) with
    | some name =>
        rw [repeated] at success
        cases success
    | none =>
        rw [repeated] at success
        cases success
        exact ⟨distinct, Names.firstRepeat?_eq_none.mp repeated⟩

theorem distinctNames_table {name : String} {schema : Option String}
    {declared : Option Declaration} {plan : Plan}
    (success : Plan.table name schema declared = .ok plan) : plan.DistinctNames := by
  unfold Plan.table at success
  dsimp only at success
  split at success
  · cases success
  · cases repeated : Names.firstRepeat?
        (((declared.map Declaration.columns).getD []).map (·.name)) with
    | some column =>
        rw [repeated] at success
        cases success
    | none =>
        rw [repeated] at success
        cases success
        exact Names.firstRepeat?_eq_none.mp repeated

theorem Built.distinctNames {plan : Plan} (built : plan.Built) : plan.DistinctNames := by
  induction built with
  | table success => exact distinctNames_table success
  | project _ success induction => exact induction.project success
  | select _ success induction => exact induction.project success
  | mutate mapping _ induction =>
      have names := nodup_ofRecord mapping
      exact ⟨induction, names, nodup_target_of_name (replaces_ofRecord mapping) names⟩
  | rename _ success induction => exact induction.rename success
  | filter predicate _ induction => exact induction
  | sort _ success induction =>
      unfold Plan.sort at success
      split at success
      · cases success
      · cases success
        exact induction
  | aggregate _ success induction => exact induction.aggregate success
  | count _ success induction => exact induction.aggregate success
  | join _ _ success inputInduction otherInduction =>
      obtain ⟨condition, _, success⟩ := bind_eq_ok.mp success
      cases pure_eq_ok.mp success
      exact ⟨inputInduction, otherInduction⟩
  | distinct _ induction => exact induction
  | @limit plan next count _ success induction =>
      unfold Plan.limit at success
      cases rows : count.toNat? with
      | none =>
          rw [rows] at success
          cases success
      | some rows' =>
          rw [rows] at success
          cases success
          exact induction
  | named _ success induction =>
      unfold Plan.named at success
      split at success
      · cases success
      · cases success
        exact induction

/-- Two limits above a projection that drops the column the rows are ordered by. -/
def narrowedTwice : Plan :=
  let present := Expr.unary .isNotNull (.named "b")
  .filtered
    (.limited
      (.filtered
        (.limited
          (.projected
            (.sorted
              (.base { name := "t", columns := some [⟨"a", none⟩, ⟨"b", none⟩] })
              [{ expr := .named "a" }])
            [{ name := "b", expr := .named "b" }] false)
          2)
        present)
      1)
    present

theorem narrowedTwice_built : narrowedTwice.Built := by
  have base := Built.table (show Plan.table "t" none (some (.names ["a", "b"])) = .ok _ from rfl)
  have sorted := base.sort (show Plan.sort _ [{ expr := .named "a" }] = .ok _ from rfl)
  have projected := sorted.project
    (show Plan.project _ ⟨[("b", .named "b")], by simp⟩ = .ok _ from rfl)
  have first := projected.limit (show Plan.limit _ (.finite false 1024 0) = .ok _ from rfl)
  have filtered := first.filter (.unary .isNotNull (.named "b"))
  have second := filtered.limit (show Plan.limit _ (.finite false 1023 0) = .ok _ from rfl)
  exact second.filter (.unary .isNotNull (.named "b"))

end Plan

end SqlPlan
