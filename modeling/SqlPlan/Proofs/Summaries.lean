import Mathlib.Data.List.Permutation
import SqlPlan.Proofs.Meaning.Grouping

/-!
# Steps after a grouping

A statement that groups is open to further steps: a projection joins its select
list and a condition goes below the grouping.  This is right because a step
joins the statement only where it reads nothing but columns that are passed on,
and these are keys.  Without keys there is nothing to pass on, so every step
that reads a column goes into a statement around; one that reads no column joins
all the same.
-/

namespace SqlPlan

namespace Plan

/-- The plans that project and filter what a plan gives. -/
inductive Continues (start : Plan) : Plan → Prop where
  | start : Continues start start
  | projected {plan : Plan} {outputs : List Output} {keep : Bool} :
      Continues start plan → Continues start (.projected plan outputs keep)
  | filtered {plan : Plan} {predicate : Expr} :
      Continues start plan → Continues start (.filtered plan predicate)

theorem Continues.unjoined {start plan : Plan} (continues : start.Continues plan)
    (unjoined : start.IsUnjoined) : plan.IsUnjoined := by
  induction continues with
  | start => exact unjoined
  | projected _ induction => exact induction
  | filtered _ induction => exact induction

/-- Some step after the grouping reads a column. -/
def ReadsGroups : Plan → Prop
  | .projected input outputs _ =>
      input.ReadsGroups ∨ ∃ output ∈ outputs, output.expr.columnRefs ≠ []
  | .filtered input predicate => input.ReadsGroups ∨ predicate.columnRefs ≠ []
  | _ => False

/-- The aggregates of a grouping that no later step has replaced or left out. -/
def totals : Plan → List String
  | .grouped _ _ aggregates =>
      (aggregates.filter fun output => output.expr.aggregate?.isSome).map (·.name)
  | .projected input outputs true =>
      input.totals.filter fun name => !(outputs.map Output.target).contains name
  | .filtered input _ => input.totals
  | _ => []

/-- Steps on the one row of a grouping without keys that leave a single row in
sight: up to the first step that reads a column some aggregate has to stay, and
a condition that reads none has to hold. -/
def StaysTotal {V : Type} (meaning : Interpretation V) : Plan → Prop
  | .grouped input groupKeys aggregates => (Plan.grouped input groupKeys aggregates).totals ≠ []
  | .projected input outputs keep =>
      input.StaysTotal meaning ∧ ((Plan.projected input outputs keep).ReadsGroups ∨
        (Plan.projected input outputs keep).totals ≠ [])
  | .filtered input predicate =>
      input.StaysTotal meaning ∧ ((Plan.filtered input predicate).ReadsGroups ∨
        ∀ row : Cells V, meaning.isTrue (row.value meaning predicate) = true)
  | _ => False

theorem StaysTotal.reads_or_totals {V : Type} {meaning : Interpretation V} {plan : Plan}
    (stays : plan.StaysTotal meaning) : plan.ReadsGroups ∨ plan.totals ≠ [] := by
  induction plan with
  | grouped input groupKeys aggregates _ => exact .inr stays
  | projected input outputs keep _ => exact stays.2
  | filtered input predicate induction =>
      rcases induction stays.1 with reads | kept
      · exact .inl (.inl reads)
      · exact .inr kept
  | _ => exact stays.elim

end Plan

namespace Clauses.Summary

variable {clauses : Clauses} {keys : List Expr}

/-- An expression that resolves to a bare column resolves to a key. -/
theorem mem_keys_of_resolved (summary : clauses.Summary) (listed : clauses.Listed)
    (grouping : clauses.grouping = some keys) {exprs resolved : List Expr}
    (success : clauses.resolved? exprs = .ok (some resolved)) {expr : Expr}
    (member : expr ∈ exprs) {column : ColumnRef}
    (becomes : expr.mapColumns .everywhere clauses.sourceOf = .column column) :
    .column column ∈ keys := by
  obtain ⟨ref, rfl, replaced⟩ := Expr.mapColumns_eq_column becomes
  have locates := (Clauses.sourceOf_of_resolved? success member List.mem_cons_self).1
  rw [replaced] at locates
  exact summary.mem_keys listed grouping locates

/-- Without keys nothing that reads a column resolves. -/
theorem columnRefs_eq_nil (summary : clauses.Summary) (listed : clauses.Listed)
    (grouping : clauses.grouping = some []) {exprs resolved : List Expr}
    (success : clauses.resolved? exprs = .ok (some resolved)) {expr : Expr}
    (member : expr ∈ exprs) : expr.columnRefs = [] := by
  rw [List.eq_nil_iff_forall_not_mem]
  intro ref refMember
  obtain ⟨locates, column, passed⟩ := Clauses.sourceOf_of_resolved? success member refMember
  rw [passed] at locates
  cases summary.mem_keys listed grouping locates

end Clauses.Summary

/-- What the outputs of a projection become. -/
theorem Clauses.exists_output_of_resolved {clauses : Clauses} {outputs : List Output}
    {exprs : List Expr} (resolved : clauses.resolved? (outputs.map (·.expr)) = .ok (some exprs))
    {changed : Output} (member : changed ∈ Output.withExprs outputs exprs) :
    ∃ output ∈ outputs, output.expr.mapColumns .everywhere clauses.sourceOf = changed.expr := by
  have inlined := (Clauses.resolved?_eq_some resolved).1
  rw [List.forall₂_map_left_iff] at inlined
  obtain ⟨output, outputMember, success, _⟩ :=
    exists_mem_of_forall₂ (Output.forall₂_withExprs inlined) member
  exact ⟨output, outputMember, (Clauses.inlined_eq_ok success).2.symm⟩

/-- The outputs of a grouping are its keys and what its aggregates are bound to. -/
theorem Clauses.visibleOutputs_grouped {clauses next : Clauses} {groupKeys aggregates : List Output}
    {bound exprs : List Expr}
    (resolved : clauses.resolved? (groupKeys.map (·.expr) ++ bound) = .ok (some exprs))
    (select : next.select =
      some ((Output.withExprs (groupKeys ++ aggregates) exprs).map Output.item)) :
    next.visibleOutputs =
      ((groupKeys.map fun key =>
          { key with expr := key.expr.mapColumns .everywhere clauses.sourceOf : Output }) ++
        Output.withExprs aggregates
          (bound.map (Expr.mapColumns .everywhere clauses.sourceOf))).map fun output =>
            { name := output.name, expr := output.expr } := by
  rw [Clauses.visibleOutputs_of_items select, Clauses.resolved?_eq_map resolved, List.map_append,
    Output.withExprs, List.zipWith_append (by simp), List.map_map, List.zipWith_map_right,
    List.zipWith_self]
  rfl

/-- What the aggregates of a grouping become. -/
theorem Clauses.forall₂_bound {clauses : Clauses} {groupKeys aggregates : List Output}
    {bound : List Expr}
    (boundOk : List.Forall₂ (fun output expr => Draft.bindGroupKeys groupKeys output = .ok expr)
      aggregates bound) :
    List.Forall₂ (fun output changed =>
        (∃ expr, Draft.bindGroupKeys groupKeys output = .ok expr ∧
          expr.mapColumns .everywhere clauses.sourceOf = changed.expr) ∧
        changed = { output with expr := changed.expr })
      aggregates
      (Output.withExprs aggregates (bound.map (Expr.mapColumns .everywhere clauses.sourceOf))) := by
  have pairs : List.Forall₂ (fun output source =>
      ∃ expr, Draft.bindGroupKeys groupKeys output = .ok expr ∧
        expr.mapColumns .everywhere clauses.sourceOf = source)
      aggregates (bound.map (Expr.mapColumns .everywhere clauses.sourceOf)) := by
    rw [List.forall₂_map_right_iff]
    exact boundOk.imp fun _ expr success => ⟨expr, success, rfl⟩
  exact Output.forall₂_withExprs pairs

/-- An aggregate that is bound to a bare column is bound to a key. -/
theorem Draft.exists_key_of_bindGroupKeys {groupKeys : List Output} {output : Output}
    {column : ColumnRef} (success : Draft.bindGroupKeys groupKeys output = .ok (.column column)) :
    ∃ key ∈ groupKeys, key.expr = .column column := by
  obtain ⟨binding, becomes, binds⟩ := Draft.bindGroupKeys_eq_ok success
  obtain ⟨ref, isColumn, replaced⟩ := Expr.mapColumns_eq_column becomes.symm
  rw [← replaced]
  exact (binds ref (by simp [isColumn, Expr.refs])).exists_key

theorem Clauses.exists_of_resolved_singleton {clauses : Clauses} {expr : Expr}
    {resolved : List Expr} (success : clauses.resolved? [expr] = .ok (some resolved)) :
    ∃ source, resolved = [source] := by
  rw [Clauses.resolved?_eq_map success]
  exact ⟨_, rfl⟩

namespace Drafted

variable {dialect : Dialect} {used : Nat} {input plan : Plan} {draft : Draft}
  {groupKeys aggregates : List Output}

/-- Every draft of a grouping and the steps after it is open to further steps. -/
theorem summary (drafted : Drafted dialect used plan draft)
    (continues : (Plan.grouped input groupKeys aggregates).Continues plan)
    (unjoined : input.IsUnjoined) : draft.statement.Summary := by
  induction drafted with
  | nest _ induction => exact Draft.summary_nest (induction continues).unordered dialect
  | @projected _ _ _ _ _ drafted _ _ resolved induction =>
      cases continues with
      | projected continues =>
      have summary := induction continues
      have listed := drafted.listed (continues.unjoined unjoined)
      refine ⟨summary.unordered, summary.bag, summary.unlimited, fun _ => rfl, ?_⟩
      intro keys grouping selected member column isColumn
      rw [Clauses.visibleOutputs_of_items rfl] at member
      obtain ⟨changed, changedMember, rfl⟩ := List.mem_map.mp member
      obtain ⟨output, outputMember, becomes⟩ :=
        Clauses.exists_output_of_resolved resolved changedMember
      exact summary.mem_keys_of_resolved listed grouping resolved
        (List.mem_map_of_mem outputMember) (becomes.trans isColumn)
  | @extended _ _ current _ _ _ drafted _ _ resolved itemsOk induction =>
      cases continues with
      | projected continues =>
      have summary := induction continues
      have listed := drafted.listed (continues.unjoined unjoined)
      refine ⟨summary.unordered, summary.bag, summary.unlimited, fun _ => rfl, ?_⟩
      intro keys grouping selected member column isColumn
      obtain ⟨outputMember, visible⟩ := List.mem_filter.mp member
      rcases Clauses.mem_extendedSelect itemsOk _ (Clauses.mem_outputs.mp outputMember) with
        ⟨old, _⟩ | ⟨changed, changedMember, isChanged⟩
      · obtain ⟨items, select⟩ := Option.isSome_iff_exists.mp (summary.selects grouping)
        have oldMember : selected ∈ current.statement.visibleOutputs := by
          refine List.mem_filter.mpr ⟨Clauses.mem_outputs.mpr ?_, visible⟩
          simpa [Clauses.expandedSelect, select] using old
        exact summary.passesKeys grouping selected oldMember isColumn
      · cases isChanged
        obtain ⟨output, outputMember, becomes⟩ :=
          Clauses.exists_output_of_resolved resolved changedMember
        exact summary.mem_keys_of_resolved listed grouping resolved
          (List.mem_map_of_mem outputMember) (becomes.trans isColumn)
  | filtered _ _ _ _ induction =>
      cases continues with
      | filtered continues =>
      have summary := induction continues
      exact ⟨summary.unordered, summary.bag, summary.unlimited, summary.selects,
        summary.passesKeys⟩
  | @grouped _ _ current groupKeys aggregates bound exprs _ unsealed _ _ boundOk resolved _ =>
      have sealedParts := Bool.or_eq_false_iff.mp unsealed
      refine ⟨rfl, sealedParts.1, limit_of_unsealed unsealed, fun _ => rfl, ?_⟩
      intro keys grouping selected member column isColumn
      have keysEq := (Option.some.inj grouping).symm.trans (Clauses.take_of_resolved resolved)
      rw [Clauses.visibleOutputs_grouped resolved rfl, List.mem_map] at member
      obtain ⟨changed, changedMember, rfl⟩ := member
      rw [keysEq, ← isColumn]
      rcases List.mem_append.mp changedMember with isKey | isAggregate
      · obtain ⟨key, keyMember, rfl⟩ := List.mem_map.mp isKey
        exact List.mem_map_of_mem keyMember
      · obtain ⟨output, _, ⟨expr, exprOk, becomes⟩, _⟩ :=
          exists_mem_of_forall₂ (Clauses.forall₂_bound boundOk) isAggregate
        obtain ⟨ref, rfl, _⟩ := Expr.mapColumns_eq_column (becomes.trans isColumn)
        obtain ⟨key, keyMember, isRef⟩ := Draft.exists_key_of_bindGroupKeys exprOk
        exact List.mem_map.mpr ⟨key, keyMember, by rw [isRef]; exact becomes⟩
  | _ => cases continues

/-- As long as a statement groups, it has the keys of the grouping. -/
theorem length_keys (drafted : Drafted dialect used plan draft)
    (continues : (Plan.grouped input groupKeys aggregates).Continues plan) {keys : List Expr}
    (grouping : draft.statement.grouping = some keys) : keys.length = groupKeys.length := by
  induction drafted with
  | nest _ _ => cases grouping
  | projected _ _ _ _ induction =>
      cases continues with
      | projected continues => exact induction continues grouping
  | extended _ _ _ _ _ induction =>
      cases continues with
      | projected continues => exact induction continues grouping
  | filtered _ _ _ _ induction =>
      cases continues with
      | filtered continues => exact induction continues grouping
  | grouped _ _ _ _ _ resolved _ =>
      cases continues
      rw [← Option.some.inj grouping, Clauses.take_of_resolved resolved, List.length_map]
  | _ => cases continues

/-- Where something that reads a column joins a statement over a grouping without
keys, the statement does not group. -/
theorem ungrouped_of_resolved (drafted : Drafted dialect used plan draft)
    (continues : (Plan.grouped input [] aggregates).Continues plan)
    (unjoined : input.IsUnjoined) {exprs resolved : List Expr}
    (success : draft.statement.resolved? exprs = .ok (some resolved)) {expr : Expr}
    (member : expr ∈ exprs) (reads : expr.columnRefs ≠ []) :
    draft.statement.grouping = none := by
  cases grouping : draft.statement.grouping with
  | none => rfl
  | some keys =>
      have empty := List.eq_nil_of_length_eq_zero (drafted.length_keys continues grouping)
      rw [empty] at grouping
      exact absurd ((drafted.summary continues unjoined).columnRefs_eq_nil
        (drafted.listed (continues.unjoined unjoined)) grouping success member) reads

theorem ungrouped_of_reads (drafted : Drafted dialect used plan draft)
    (continues : (Plan.grouped input [] aggregates).Continues plan)
    (unjoined : input.IsUnjoined) (reads : plan.ReadsGroups) :
    draft.statement.grouping = none := by
  induction drafted with
  | nest _ _ => rfl
  | projected drafted _ _ resolved induction =>
      cases continues with
      | projected continues =>
      rcases reads with earlier | ⟨output, member, reading⟩
      · exact induction continues earlier
      · have ungrouped := drafted.ungrouped_of_resolved continues unjoined resolved
          (List.mem_map_of_mem member) reading
        exact ungrouped
  | extended drafted _ _ resolved _ induction =>
      cases continues with
      | projected continues =>
      rcases reads with earlier | ⟨output, member, reading⟩
      · exact induction continues earlier
      · have ungrouped := drafted.ungrouped_of_resolved continues unjoined resolved
          (List.mem_map_of_mem member) reading
        exact ungrouped
  | filtered drafted _ _ resolved induction =>
      cases continues with
      | filtered continues =>
      rcases reads with earlier | reading
      · exact induction continues earlier
      · have ungrouped := drafted.ungrouped_of_resolved continues unjoined resolved
          (List.mem_singleton_self _) reading
        exact ungrouped
  | grouped => exact reads.elim
  | _ => cases continues

/-- The aggregates that the steps left alone are still selected. -/
theorem exists_total (drafted : Drafted dialect used plan draft)
    (continues : (Plan.grouped input groupKeys aggregates).Continues plan)
    (unjoined : input.IsUnjoined) (distinct : plan.DistinctNames)
    (isGrouped : draft.statement.isGrouped = true) {name : String} (total : name ∈ plan.totals) :
    ∃ output ∈ draft.statement.visibleOutputs, output.name = name ∧
      output.expr.aggregate?.isSome = true := by
  induction drafted with
  | nest _ _ => cases isGrouped
  | projected => cases total
  | @extended _ _ current outputs exprs items drafted _ _ resolved itemsOk induction =>
      cases continues with
      | projected continues =>
      have summary := drafted.summary continues unjoined
      have listed := drafted.listed (continues.unjoined unjoined)
      obtain ⟨earlier, untouched⟩ := List.mem_filter.mp total
      obtain ⟨output, member, rfl, aggregated⟩ :=
        induction continues distinct.1 isGrouped earlier
      obtain ⟨keys, grouping⟩ := Option.isSome_iff_exists.mp isGrouped
      obtain ⟨shown, select⟩ := Option.isSome_iff_exists.mp (summary.selects grouping)
      have expanded : current.statement.expandedSelect =
          current.statement.visibleOutputs.map .output := by
        simp only [Clauses.expandedSelect, select]
        exact Clauses.select_eq_visibleOutputs select listed.starless
          (by simpa [select] using listed.unhidden)
      have length := (Clauses.resolved?_eq_some resolved).1.length_eq
      have targets := distinct.2.2
      rw [← Output.targets_withExprs (by simpa using length)] at untouched targets
      have kept := Clauses.mem_extendedSelect_of_untouched
        (drafted.nodup_visibleNames distinct.1) targets itemsOk expanded
        (fun output member => by simpa using (List.mem_filter.mp member).2)
        (by simp [Clauses.visibleNames, select]) member (by simpa using untouched)
      exact ⟨output, List.mem_filter.mpr ⟨Clauses.mem_outputs.mpr kept,
        (List.mem_filter.mp member).2⟩, rfl, aggregated⟩
  | filtered _ _ _ _ induction =>
      cases continues with
      | filtered continues => exact induction continues distinct isGrouped total
  | @grouped _ _ current groupKeys aggregates bound exprs _ unsealed _ _ boundOk resolved _ =>
      obtain ⟨output, member, rfl⟩ := List.mem_map.mp total
      obtain ⟨outputMember, aggregated⟩ := List.mem_filter.mp member
      obtain ⟨changed, changedMember, ⟨expr, exprOk, becomes⟩, changedEq⟩ :=
        exists_mem_of_forall₂_left (Clauses.forall₂_bound boundOk) outputMember
      rw [Clauses.visibleOutputs_grouped resolved rfl]
      refine ⟨_, List.mem_map_of_mem (List.mem_append_right _ changedMember), ?_, ?_⟩
      · change changed.name = output.name
        rw [changedEq]
      · obtain ⟨binding, rfl, _⟩ := Draft.bindGroupKeys_eq_ok exprOk
        rw [Option.isSome_iff_ne_none] at aggregated ⊢
        intro scalar
        rw [← becomes] at scalar
        exact aggregated (Expr.aggregate?_of_mapColumns (Expr.aggregate?_of_mapColumns scalar))
  | _ => cases continues

section

variable {V : Type} {meaning : Interpretation V}

/-- Without keys a statement still selects an aggregate, so it makes one group. -/
theorem makesGroups (drafted : Drafted dialect used plan draft)
    (continues : (Plan.grouped input groupKeys aggregates).Continues plan)
    (unjoined : input.IsUnjoined) (distinct : plan.DistinctNames)
    (sound : groupKeys ≠ [] ∨ plan.StaysTotal meaning) : draft.statement.MakesGroups := by
  intro grouping
  have empty : groupKeys = [] :=
    List.eq_nil_of_length_eq_zero (drafted.length_keys continues grouping).symm
  subst empty
  rcases sound with keyed | stays
  · exact absurd rfl keyed
  rcases stays.reads_or_totals with reads | kept
  · rw [drafted.ungrouped_of_reads continues unjoined reads] at grouping
    cases grouping
  · obtain ⟨name, total⟩ := List.exists_mem_of_ne_nil _ kept
    have isGrouped : draft.statement.isGrouped = true := by simp [Clauses.isGrouped, grouping]
    obtain ⟨output, member, _, aggregated⟩ :=
      drafted.exists_total continues unjoined distinct isGrouped total
    exact List.any_eq_true.mpr ⟨output, (List.mem_filter.mp member).1, aggregated⟩

variable [DecidableEq V] {database : Database V}

theorem fits_collected (drafted : Drafted dialect used plan draft)
    (listed : draft.statement.Listed) (summary : draft.statement.Summary) {group : Group V}
    (member : group ∈ draft.statement.collected meaning database) :
    draft.statement.Fits group.tuple := by
  cases grouping : draft.statement.grouping with
  | none =>
      rw [Statement.collected, Clauses.groups_of_ungrouped grouping] at member
      obtain ⟨tuple, kept, rfl⟩ := List.mem_map.mp member
      exact drafted.fits listed tuple (List.mem_filter.mp kept).1
  | some keys =>
      intro whole
      simpa [whole] using summary.selects grouping

/-- The rows of a draft are those that the grouping and the steps after it give. -/
theorem pending?_of_grouping (meaning : Interpretation V) (database : Database V)
    (drafted : Drafted dialect used plan draft)
    (continues : (Plan.grouped input groupKeys aggregates).Continues plan)
    (single : input.IsSingleTable) (distinct : plan.DistinctNames)
    (ordinary : ∀ name ∈ input.columnNames, ¬ Clauses.IsReserved name)
    (sound : groupKeys ≠ [] ∨ plan.StaysTotal meaning) :
    plan.pending? meaning database =
      some ((draft.statement.rows meaning database).map fun row => { row, keys := [] }) := by
  have unjoined := single.unjoined
  induction drafted with
  | nest drafted induction =>
      rw [Draft.rows_nest meaning database dialect (drafted.summary continues unjoined).unordered]
      exact induction continues distinct sound
  | @projected _ _ _ outputs _ drafted unsealed scalar resolved induction =>
      cases continues with
      | projected continues =>
      have earlier := sound.imp id And.left
      have listed := drafted.listed (continues.unjoined unjoined)
      have next := Drafted.projected drafted unsealed scalar resolved
      have rows := Statement.rows_select meaning database (Cells.project meaning outputs)
        (drafted.summary continues unjoined) (next.summary continues.projected unjoined)
        (drafted.makesGroups continues unjoined distinct.1 earlier)
        (next.makesGroups continues.projected unjoined distinct sound)
        (fun group _ => listed.row_projected scalar resolved rfl)
      rw [Plan.pending?, induction continues distinct.1 earlier]
      refine congrArg some (Eq.symm ?_)
      rw [rows, List.map_map, List.map_map]
      rfl
  | @extended _ _ _ outputs _ _ drafted unsealed scalar resolved itemsOk induction =>
      cases continues with
      | projected continues =>
      have earlier := sound.imp id And.left
      have listed := drafted.listed (continues.unjoined unjoined)
      have summary := drafted.summary continues unjoined
      have next := Drafted.extended drafted unsealed scalar resolved itemsOk
      have rows := Statement.rows_select meaning database (Cells.extend meaning outputs)
        summary (next.summary continues.projected unjoined)
        (drafted.makesGroups continues unjoined distinct.1 earlier)
        (next.makesGroups continues.projected unjoined distinct sound)
        (fun group member => listed.row_extended (drafted.nodup_visibleNames distinct.1) scalar
          distinct.2.2 resolved itemsOk rfl (drafted.fits_collected listed summary member))
      rw [Plan.pending?, induction continues distinct.1 earlier]
      refine congrArg some (Eq.symm ?_)
      rw [rows, List.map_map, List.map_map]
      rfl
  | @filtered _ _ current predicate exprs drafted unsealed scalar resolved induction =>
      cases continues with
      | filtered continues =>
      have earlier := sound.imp id And.left
      have summary := drafted.summary continues unjoined
      have next := Drafted.filtered drafted unsealed scalar resolved
      obtain ⟨condition, rfl⟩ := Clauses.exists_of_resolved_singleton resolved
      have always : current.statement.grouping = some [] →
          ∀ row : Cells V, meaning.isTrue (row.value meaning predicate) = true := by
        intro grouping
        have empty := List.eq_nil_of_length_eq_zero (drafted.length_keys continues grouping).symm
        subst empty
        rcases sound with keyed | ⟨_, reads | holds⟩
        · exact absurd rfl keyed
        · cases grouping.symm.trans (next.ungrouped_of_reads continues.filtered unjoined reads)
        · exact holds
      have collected := Statement.collected_filter meaning database summary
        (drafted.listed (continues.unjoined unjoined)) scalar resolved always
      rw [Plan.pending?, induction continues distinct earlier,
        Statement.rows_eq_map_collected summary,
        Statement.rows_eq_map_collected (next.summary continues.filtered unjoined), collected]
      refine congrArg some ?_
      rw [List.map_map, List.filter_map, List.map_map]
      rfl
  | @grouped _ _ current _ _ _ _ drafted unsealed ungrouped scalar boundOk resolved _ =>
      cases continues
      have next := Drafted.grouped drafted unsealed ungrouped scalar boundOk resolved
      rw [Plan.pending?, drafted.pending?_eq meaning database single distinct.1 ordinary,
        Statement.rows_grouped (drafted.listed unjoined) scalar boundOk resolved rfl
          (next.summary .start unjoined) (next.makesGroups .start unjoined distinct sound)]
      refine congrArg some ?_
      rw [List.map_map, Statement.pending,
        Clauses.survivors_of_unlimited (limit_of_unsealed unsealed), List.map_map]
      rfl
  | _ => cases continues

end

end Drafted

/-- A condition that goes below a grouping joins the statement that groups. -/
theorem Draft.filter_of_isGrouped {dialect : Dialect} {predicate : Expr} {draft result : Draft}
    (unsealed : draft.statement.isSealed = false)
    (success : draft.filter dialect predicate = .ok result)
    (isGrouped : result.statement.isGrouped = true) :
    ∃ condition, predicate.aggregate? = none ∧
      draft.statement.resolved? [predicate] = .ok (some [condition]) ∧
      result.statement =
        { draft.statement with conditions := draft.statement.conditions ++ [condition] } := by
  unfold Draft.filter at success
  obtain ⟨_, refused, success⟩ := bind_eq_ok.mp success
  obtain ⟨⟨current, exprs⟩, resolvedOk, success⟩ := bind_eq_ok.mp success
  cases pure_eq_ok.mp success
  rw [Draft.unsealed, unsealed, if_neg Bool.false_ne_true] at resolvedOk
  obtain ⟨first, firstOk, resolvedOk⟩ := bind_eq_ok.mp resolvedOk
  cases first with
  | some found =>
      cases pure_eq_ok.mp resolvedOk
      obtain ⟨condition, rfl⟩ := Clauses.exists_of_resolved_singleton firstOk
      exact ⟨condition, Expr.refuseAggregate_eq_ok.mp refused, firstOk, rfl⟩
  | none =>
      obtain ⟨second, secondOk, resolvedOk⟩ := bind_eq_ok.mp resolvedOk
      cases second with
      | some found =>
          cases pure_eq_ok.mp resolvedOk
          cases isGrouped
      | none => cases resolvedOk

namespace Plan

variable {V : Type} [DecidableEq V] {meaning : Interpretation V} {database : Database V}
  {dialect : Dialect} {input plan : Plan} {groupKeys aggregates : List Output}

/-- Rows without keys of their own come out as they are. -/
theorem result?_of_pending? {rows : List (Cells V)}
    (pending : plan.pending? meaning database = some (rows.map fun row => { row, keys := [] })) :
    plan.result? meaning database = some rows := by
  have sorted : Pending.sorted meaning (rows.map fun row => { row, keys := [] }) =
      rows.map fun row => { row, keys := [] } := by
    apply List.mergeSort_of_pairwise
    simp [List.pairwise_iff_getElem, Interpretation.leKeys]
  rw [result?, pending]
  refine congrArg some ?_
  rw [sorted, List.map_map]
  exact List.map_id' rows

/-- Steps after a grouping by keys mean what they say: the statement gives the
rows of the groups with the steps run on them one after another.  A condition
that joins the statement leaves the groups that it keeps as they were. -/
theorem result?_eq_rows_of_keys {statement : Statement} (built : plan.Built)
    (continues : (Plan.grouped input groupKeys aggregates).Continues plan)
    (single : input.IsSingleTable) (keyed : groupKeys ≠ [])
    (ordinary : ∀ name ∈ input.columnNames, ¬ Clauses.IsReserved name)
    (planned : plan.statement dialect = .ok statement) (meaning : Interpretation V)
    (database : Database V) :
    plan.result? meaning database = some (statement.rows meaning database) ∧
      ∀ {predicate : Expr} {merged : Statement},
        (Plan.filtered plan predicate).statement dialect = .ok merged →
        merged.isGrouped = true →
          (merged.collected meaning database).Sublist (statement.collected meaning database) := by
  obtain ⟨draft, success, statementEq⟩ := bind_eq_ok.mp planned
  cases pure_eq_ok.mp statementEq
  have drafted := Plan.drafted success
  constructor
  · exact result?_of_pending? (drafted.pending?_of_grouping meaning database continues single
      built.distinctNames ordinary (.inl keyed))
  · intro predicate merged filtered isGrouped
    have summary := drafted.summary continues single.unjoined
    obtain ⟨result, filterOk, mergedEq⟩ := bind_eq_ok.mp filtered
    cases pure_eq_ok.mp mergedEq
    obtain ⟨again, againOk, filterOk⟩ := bind_eq_ok.mp filterOk
    cases success.symm.trans againOk
    obtain ⟨condition, scalar, resolved, resultEq⟩ := Draft.filter_of_isGrouped
      (by simp [Clauses.isSealed, summary.bag, summary.unlimited]) filterOk isGrouped
    have always : draft.statement.grouping = some [] →
        ∀ row : Cells V, meaning.isTrue (row.value meaning predicate) = true := by
      intro grouping
      exact absurd (List.eq_nil_of_length_eq_zero
        (drafted.length_keys continues grouping).symm) keyed
    rw [resultEq, Statement.collected_filter meaning database summary
      (drafted.listed (continues.unjoined single.unjoined)) scalar resolved always]
    exact List.filter_sublist

/-- The first two rows counted for each value of a column, some of these groups,
and another name for their sizes. -/
def sizedGroups : Plan :=
  .filtered
    (.projected
      (.filtered
        (.grouped
          (.limited
            (.sorted
              (.base { name := "t", columns := some [⟨"a", none⟩, ⟨"b", none⟩] })
              [{ expr := .named "a" }])
            2)
          [{ name := "b", expr := .named "b" }]
          [{ name := "n", expr := .aggregate "count" none false }])
        (.unary .isNotNull (.named "b")))
      [{ name := "b", expr := .named "b" }, { name := "size", expr := .named "n" }] false)
    (.unary .isNotNull (.named "size"))

theorem sizedGroups_built : sizedGroups.Built := by
  have base := Built.table (show Plan.table "t" none (some (.names ["a", "b"])) = .ok _ from rfl)
  have sorted := base.sort (show Plan.sort _ [{ expr := .named "a" }] = .ok _ from rfl)
  have limited := sorted.limit (show Plan.limit _ (.finite false 1024 0) = .ok _ from rfl)
  have grouped := limited.count (show Plan.count _ (.names ["b"]) "n" = .ok _ from rfl)
  have kept := grouped.filter (.unary .isNotNull (.named "b"))
  have projected := kept.project
    (show Plan.project _ ⟨[("b", .named "b"), ("size", .named "n")], by simp⟩ = .ok _ from rfl)
  exact projected.filter (.unary .isNotNull (.named "size"))

theorem result?_eq_rows_of_keys_sizedGroups :
    sizedGroups.Built ∧ ∃ statement, sizedGroups.statement .postgres = .ok statement ∧
      ∀ database : Database Nat, sizedGroups.result? .numeric database =
        some (statement.rows .numeric database) := by
  obtain ⟨statement, planned⟩ : ∃ statement, sizedGroups.statement .postgres = .ok statement :=
    ⟨_, rfl⟩
  refine ⟨sizedGroups_built, statement, planned, fun database => ?_⟩
  exact (result?_eq_rows_of_keys sizedGroups_built (.filtered (.projected (.filtered .start))) rfl
    (List.cons_ne_nil _ _) (by decide) planned .numeric database).1

/-- The first of two rows, grouped.  The rows are sorted by a column that a
projection drops, so that their order depends on a hoisted key; another column
has the name that is given to it. -/
def firstOfTwo (again : List SortKey) : Plan :=
  let narrowed : Plan :=
    .filtered
      (.limited
        (.projected
          (.sorted
            (.base { name := "t", columns := some [⟨"a", none⟩, ⟨"b", none⟩, ⟨"__order_1", none⟩] })
            [{ expr := .named "a" }])
          [{ name := "b", expr := .named "b" },
            { name := "__order_1", expr := .named "__order_1" }] false)
        2)
      (.unary .isNotNull (.named "b"))
  .grouped
    (.limited (if again.isEmpty then narrowed else .sorted narrowed again) 1)
    [{ name := "b", expr := .named "b" }]
    [{ name := "n", expr := .aggregate "count" none false }]

theorem names_of_declared {table : TableRef} {declared : List ColumnSchema}
    (columns : table.columns = some declared) :
    (table.columns.getD []).map (·.name) = declared.map (·.name) := by
  rw [columns, Option.getD_some]

/-- Rows whose order by `a` is not their order by `__order_1`. -/
def crossedRows : Database Nat where
  columns table := (table.columns.getD []).map (·.name)
  declared := names_of_declared
  contents _ :=
    [fun name => if name = "a" then 1 else if name = "b" then 10 else 2,
      fun name => if name = "a" then 2 else if name = "b" then 20 else 1]

/-- Where a column has the name of a hoisted key, sorting by this column and not
sorting again give one statement, though they mean different rows. -/
theorem firstOfTwo_statement_shared :
    ∃ statement, (firstOfTwo []).statement .postgres = .ok statement ∧
      (firstOfTwo [{ expr := .named "__order_1" }]).statement .postgres = .ok statement ∧
      (firstOfTwo []).result? .numeric crossedRows = some [[("b", 10), ("n", 1)]] ∧
      (firstOfTwo [{ expr := .named "__order_1" }]).result? .numeric crossedRows =
        some [[("b", 20), ("n", 1)]] :=
  ⟨_, rfl, rfl, by cbv, by cbv⟩

/-! ## One row -/

/-- No step of the plan filters the groups. -/
def OnlyProjects : Plan → Prop
  | .projected input _ _ => input.OnlyProjects
  | .filtered _ _ => False
  | _ => True

/-- A grouping without keys and the steps after it leave one row, or none where a
condition is among them. -/
theorem Continues.length_pending
    (continues : (Plan.grouped input [] aggregates).Continues plan) {rows : List (Pending V)}
    (pending : plan.pending? meaning database = some rows) :
    rows.length ≤ 1 ∧ (plan.OnlyProjects → rows.length = 1) := by
  induction continues generalizing rows with
  | start =>
      obtain ⟨before, _, rowsEq⟩ := Option.bind_eq_some_iff.mp pending
      cases rowsEq
      simp
  | projected _ induction =>
      obtain ⟨before, beforeEq, rowsEq⟩ := Option.bind_eq_some_iff.mp pending
      cases rowsEq
      rw [List.length_map]
      exact induction beforeEq
  | filtered _ induction =>
      obtain ⟨before, beforeEq, rowsEq⟩ := Option.bind_eq_some_iff.mp pending
      cases rowsEq
      exact ⟨Nat.le_trans (List.length_filter_le _ _) (induction beforeEq).1, False.elim⟩

/-- A grouping without keys stays one row: the statement gives that row with the
later steps run on it, as long as these leave an aggregate in its select list. -/
theorem result?_eq_rows_of_total {statement : Statement} (built : plan.Built)
    (continues : (Plan.grouped input [] aggregates).Continues plan) (single : input.IsSingleTable)
    (ordinary : ∀ name ∈ input.columnNames, ¬ Clauses.IsReserved name)
    (planned : plan.statement dialect = .ok statement) (meaning : Interpretation V)
    (stays : plan.StaysTotal meaning) (database : Database V) :
    plan.result? meaning database = some (statement.rows meaning database) ∧
      (statement.rows meaning database).length ≤ 1 ∧
      (plan.OnlyProjects → (statement.rows meaning database).length = 1) := by
  obtain ⟨draft, success, statementEq⟩ := bind_eq_ok.mp planned
  cases pure_eq_ok.mp statementEq
  have pending := (Plan.drafted success).pending?_of_grouping meaning database continues single
    built.distinctNames ordinary (.inr stays)
  have lengths := continues.length_pending pending
  rw [List.length_map] at lengths
  exact ⟨result?_of_pending? pending, lengths⟩

/-- A count with a constant beside it, where the two of them differ. -/
def labelledCount : Plan :=
  .projected
    (.filtered
      (.projected
        (.grouped
          (.base { name := "t", columns := some [⟨"a", none⟩] }) []
          [{ name := "n", expr := .aggregate "count" none false }])
        [{ name := "label", expr := .literal { value := .boolean true } }] true)
      (.binary (.comparison .notEqual) (.named "n") (.named "label")))
    [{ name := "label", expr := .literal { value := .boolean true } }] false

theorem labelledCount_built : labelledCount.Built := by
  have base := Built.table (show Plan.table "t" none (some (.names ["a"])) = .ok _ from rfl)
  have counted := base.count (show Plan.count _ (.names []) "n" = .ok _ from rfl)
  have labelled := counted.mutate ⟨[("label", .literal { value := .boolean true })], by simp⟩
  have kept := labelled.filter
    (.binary (.comparison .notEqual) (.named "n") (.named "label"))
  exact kept.project
    (show Plan.project _ ⟨[("label", .literal { value := .boolean true })], by simp⟩ = .ok _ from
      rfl)

theorem result?_eq_rows_of_total_labelledCount :
    labelledCount.Built ∧ labelledCount.StaysTotal Interpretation.numeric ∧
      ∃ statement, labelledCount.statement .postgres = .ok statement ∧
        ∀ database : Database Nat, labelledCount.result? .numeric database =
          some (statement.rows .numeric database) := by
  have stays : labelledCount.StaysTotal Interpretation.numeric := by
    have counted : labelledCount.ReadsGroups := .inl (.inr (List.cons_ne_nil _ _))
    have kept : ["n"] ≠ [] := List.cons_ne_nil _ _
    exact ⟨⟨⟨kept, .inr kept⟩, .inl (.inr (List.cons_ne_nil _ _))⟩, .inl counted⟩
  obtain ⟨statement, planned⟩ : ∃ statement, labelledCount.statement .postgres = .ok statement :=
    ⟨_, rfl⟩
  refine ⟨labelledCount_built, stays, statement, planned, fun database => ?_⟩
  exact (result?_eq_rows_of_total labelledCount_built (.projected (.filtered (.projected .start)))
    rfl (by decide) planned .numeric stays database).1

/-- A constant in place of a count. -/
def constantForCount : Plan :=
  .projected
    (.grouped
      (.base { name := "t", columns := some [⟨"a", none⟩] }) []
      [{ name := "n", expr := .aggregate "count" none false }])
    [{ name := "c", expr := .literal { value := .boolean true } }] false

/-- A projection that reads no column joins the statement and takes the aggregate
away: a row comes out for each row of the table, not one. -/
theorem constantForCount_row_each :
    ∃ statement, constantForCount.statement .postgres = .ok statement ∧
      constantForCount.result? .numeric crossedRows = some [[("c", 1)]] ∧
      statement.rows .numeric crossedRows = [[("c", 1)], [("c", 1)]] := by
  have drafted := Plan.drafted (show constantForCount.draft .postgres 0 = .ok _ from rfl)
  refine ⟨_, rfl, by cbv, ?_⟩
  exact (Statement.rows_eq_map_collected (drafted.summary (.projected .start) rfl)).trans rfl

end Plan

end SqlPlan
