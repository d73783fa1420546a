import SqlPlan.Proofs.Selecting

/-!
# What a join is made of

A join reads from its two sides as relations: a side that does nothing to its
table is that table, and any other is a subquery whose ordering is dropped
unless a limit needs it.
-/

namespace SqlPlan

namespace Statement

theorem wholeTable?_eq_some {statement : Statement} {ref : TableRef}
    (whole : statement.wholeTable? = some ref) :
    (∃ shownAs, statement.source = .relation (.table ref shownAs)) ∧
      statement.select = none ∧ statement.conditions = [] ∧ statement.grouping = none ∧
      statement.orderBy = [] ∧ statement.distinct = false ∧ statement.limit = none := by
  unfold wholeTable? at whole
  split at whole
  · rename_i found shownAs source
    split at whole
    · rename_i trivial
      cases whole
      simp only [Bool.and_eq_true, Option.isNone_iff_eq_none, List.isEmpty_iff,
        Bool.not_eq_true', Clauses.isGrouped, Option.isSome_eq_false_iff] at trivial
      obtain ⟨⟨⟨⟨⟨select, conditions⟩, grouping⟩, orderBy⟩, distinct⟩, limit⟩ := trivial
      exact ⟨⟨shownAs, source⟩, select, conditions, grouping, orderBy, distinct, limit⟩
    · cases whole
  · cases whole

/-- Naming a statement changes its source only where that is a table, which is
then shown under the new name. -/
theorem named_source (name : String) (draft : Draft) :
    (draft.named name).statement.source = draft.statement.source ∨
      ∃ ref shownAs, draft.statement.source = .relation (.table ref shownAs) ∧
        (draft.named name).statement.source = .relation (.table ref (some name)) := by
  unfold Draft.named
  dsimp only
  split
  · rename_i ref whole
    obtain ⟨⟨shownAs, source⟩, _⟩ := wholeTable?_eq_some whole
    exact .inr ⟨ref, shownAs, source, rfl⟩
  · exact .inl rfl

/-- The statement without an ordering that no limit needs. -/
def unordered (statement : Statement) : Statement :=
  if statement.limit.isNone then { statement with orderBy := [] } else statement

theorem unordered_source (statement : Statement) :
    statement.unordered.source = statement.source := by
  unfold unordered
  split <;> rfl

/-- Dropping an ordering changes no other clause. -/
theorem unordered_toClauses (statement : Statement) :
    ∃ orderBy, orderBy ⊆ statement.orderBy ∧
      statement.unordered.toClauses = { statement.toClauses with orderBy } := by
  unfold unordered
  split
  · exact ⟨[], by simp, rfl⟩
  · exact ⟨statement.orderBy, List.Subset.refl _, rfl⟩

end Statement

theorem JoinInput.relation_cases (side : JoinInput) :
    (∃ ref, side.statement.unordered.wholeTable? = some ref ∧
      side.relation = .table ref (some side.name)) ∨
    side.relation = .subquery side.statement.source side.statement.unordered.toClauses := by
  rw [← side.statement.unordered_source]
  unfold relation
  rw [← Statement.unordered]
  dsimp only
  cases side.statement.unordered.wholeTable? with
  | some ref => exact .inl ⟨ref, rfl, rfl⟩
  | none => exact .inr rfl

/-- A condition that equates a name between two sides reads it on both. -/
theorem Expr.mem_columnRefs_of_mem_equatedNames {left right name : String} {on : Expr}
    (member : name ∈ on.equatedNames left right) :
    { table := some left, name } ∈ on.columnRefs ∧
      { table := some right, name } ∈ on.columnRefs := by
  fun_induction Expr.equatedNames left right on with
  | case1 first second firstInduction secondInduction =>
      simp only [columnRefs, refs, List.mem_append]
      rcases List.mem_append.mp member with inFirst | inSecond
      · exact ⟨.inl (firstInduction inFirst).1, .inl (firstInduction inFirst).2⟩
      · exact ⟨.inr (secondInduction inSecond).1, .inr (secondInduction inSecond).2⟩
  | case2 first second tables equated =>
      cases List.mem_singleton.mp member
      obtain ⟨sameName, hasLeft, hasRight⟩ := equated
      have listed : ∀ side, some side ∈ tables →
          { table := some side, name := first.name } ∈ [first, second] := by
        intro side sideMember
        obtain ⟨firstTable, firstName⟩ := first
        obtain ⟨secondTable, secondName⟩ := second
        cases sameName
        simpa [tables] using sideMember
      exact ⟨listed left hasLeft, listed right hasRight⟩
  | case3 => cases member
  | case4 => cases member

/-- The items of a column depend on whether it is a key and whether the other
side has its name. -/
theorem mem_joinItems {keys : List String} {side other : JoinInput}
    {keyItem : String → List SelectItem} {item : SelectItem}
    (member : item ∈ joinItems keys side other keyItem) :
    ∃ name ∈ side.scope.names,
      (name ∈ keys ∧ item ∈ keyItem name) ∨
      (name ∉ keys ∧ name ∈ other.scope.names ∧ item = side.prefixedItem name) ∨
      (name ∉ keys ∧ name ∉ other.scope.names ∧ item = .ofColumn name) := by
  obtain ⟨name, nameMember, member⟩ := List.mem_flatMap.mp member
  refine ⟨name, nameMember, ?_⟩
  simp only [List.contains_eq_mem, decide_eq_true_eq] at member
  split at member
  · rename_i isKey
    exact .inl ⟨isKey, member⟩
  · rename_i notKey
    split at member
    · rename_i shared
      exact .inr (.inl ⟨notKey, shared, List.mem_singleton.mp member⟩)
    · rename_i own
      exact .inr (.inr ⟨notKey, own, List.mem_singleton.mp member⟩)

theorem mem_joinItemsBesideOpen {side : JoinInput} {item : SelectItem}
    (member : item ∈ joinItemsBesideOpen side) :
    item = .star (some side.name) ∨ ∃ name ∈ side.scope.names, item = side.prefixedItem name := by
  unfold joinItemsBesideOpen at member
  split at member
  · exact .inl (List.mem_singleton.mp member)
  · obtain ⟨name, nameMember, rfl⟩ := List.mem_map.mp member
    exact .inr ⟨name, nameMember, rfl⟩

/-- A join selects one side as a whole, columns of its sides, and keys. -/
theorem mem_joinSelect {kind : JoinKind} {on : Expr} {left right : JoinInput} {item : SelectItem}
    (member : item ∈ joinSelect kind on left right) :
    (∃ side, item = .star (some side)) ∨
      (∃ name column, item = .output { name, expr := .column column }) ∨
      ∃ name, item = .output { name, expr := joinKey kind left.name right.name name } := by
  have beside : ∀ side : JoinInput, item ∈ joinItemsBesideOpen side →
      (∃ side, item = .star (some side)) ∨
        ∃ name column, item = .output { name, expr := .column column } := by
    intro side member
    rcases mem_joinItemsBesideOpen member with rfl | ⟨name, _, rfl⟩
    · exact .inl ⟨_, rfl⟩
    · exact .inr ⟨_, _, rfl⟩
  unfold joinSelect at member
  split at member
  · rw [← or_assoc]
    exact .inl ((List.mem_append.mp member).elim (beside left) (beside right))
  · refine .inr ?_
    rcases List.mem_append.mp member with inLeft | inRight
    · obtain ⟨name, _, ⟨_, isKey⟩ | ⟨_, _, rfl⟩ | ⟨_, _, rfl⟩⟩ := mem_joinItems inLeft
      · exact .inr ⟨name, List.mem_singleton.mp isKey⟩
      · exact .inl ⟨_, _, rfl⟩
      · exact .inl ⟨_, _, rfl⟩
    · obtain ⟨name, _, ⟨_, isKey⟩ | ⟨_, _, rfl⟩ | ⟨_, _, rfl⟩⟩ := mem_joinItems inRight
      · cases isKey
      · exact .inl ⟨_, _, rfl⟩
      · exact .inl ⟨_, _, rfl⟩

/-- The names that a join can give to the columns of one side. -/
def sideNames (side : String) (names : List String) : List String :=
  names ++ names.map fun name => side ++ "_" ++ name

theorem sideNames_subset (side : String) {names more : List String} (subset : names ⊆ more) :
    sideNames side names ⊆ sideNames side more :=
  List.append_subset.mpr ⟨List.subset_append_of_subset_left _ subset,
    List.subset_append_of_subset_right _ (List.map_subset _ subset)⟩

/-- A join names its columns after those of its sides. -/
theorem name_mem_of_mem_joinSelect {kind : JoinKind} {on : Expr} {left right : JoinInput}
    {output : SelectOutput} (member : .output output ∈ joinSelect kind on left right) :
    output.name ∈ sideNames left.name left.scope.names ++
      sideNames right.name right.scope.names := by
  have beside {side : JoinInput} (member : .output output ∈ joinItemsBesideOpen side) :
      output.name ∈ sideNames side.name side.scope.names := by
    rcases mem_joinItemsBesideOpen member with isStar | ⟨name, known, isItem⟩
    · cases isStar
    · cases isItem
      exact List.mem_append_right _ (List.mem_map_of_mem known)
  have listed {keys : List String} {side other : JoinInput} {keyItem : String → List SelectItem}
      (named : ∀ name, .output output ∈ keyItem name → output.name = name)
      (member : .output output ∈ joinItems keys side other keyItem) :
      output.name ∈ sideNames side.name side.scope.names := by
    obtain ⟨name, known, ⟨_, isKey⟩ | ⟨_, _, isItem⟩ | ⟨_, _, isItem⟩⟩ := mem_joinItems member
    · exact List.mem_append_left _ (named name isKey ▸ known)
    · cases isItem
      exact List.mem_append_right _ (List.mem_map_of_mem known)
    · cases isItem
      exact List.mem_append_left _ known
  rw [List.mem_append]
  unfold joinSelect at member
  split at member
  · exact (List.mem_append.mp member).imp beside beside
  · refine (List.mem_append.mp member).imp (listed fun name isKey => ?_)
      (listed fun name isKey => ?_)
    · cases List.mem_singleton.mp isKey
      rfl
    · cases isKey

theorem refuseJoin_eq_ok {dialect : Dialect} {kind : JoinKind} {left right : String}
    (success : refuseJoin dialect kind left right = .ok ()) : left ≠ right := by
  intro equal
  simp [refuseJoin, equal] at success

theorem Statement.join_eq_ok {dialect : Dialect} {kind : JoinKind} {on : Expr}
    {left right : JoinInput} {statement : Statement}
    (success : Statement.join dialect kind on left right = .ok statement) :
    (left.scope.isOpen && right.scope.isOpen) = false ∧ ∃ resolved,
      on.tryMapColumns .everywhere
        (fun ref => return .column (← (joinScope left right).resolve [] ref)) = .ok resolved ∧
      ((joinSelect kind resolved left right).filterMap SelectItem.name?).Nodup ∧
      statement =
        { source := .join left.relation left.name right.relation right.name kind resolved
          scope := joinScope left right
          qualifiers := []
          select := some (joinSelect kind resolved left right) } := by
  unfold Statement.join at success
  obtain ⟨oneClosed, success⟩ := guarded_eq_ok success
  obtain ⟨_, _, success⟩ := bind_eq_ok.mp success
  obtain ⟨resolved, resolvedOk, success⟩ := bind_eq_ok.mp success
  obtain ⟨_, success⟩ := guarded_eq_ok success
  obtain ⟨_, success⟩ := guarded_eq_ok success
  obtain ⟨_, distinct, success⟩ := bind_eq_ok.mp success
  cases pure_eq_ok.mp success
  refine ⟨?_, resolved, resolvedOk, SelectItem.requireDistinct_eq_ok.mp distinct, rfl⟩
  cases both : left.scope.isOpen && right.scope.isOpen with
  | false => rfl
  | true => cases oneClosed both

end SqlPlan
