import SqlPlan.Proofs.Columns
import SqlPlan.Proofs.Meaning.Join
import SqlPlan.Proofs.Meaning.Ordering

/-!
# Join steps are relational joins

Where the columns of both sides are known, the statement of a join gives, as a
bag, the rows of the relational join of what its two sides give.  A side may
have lost its ordering and may have become a bare table on the way.
-/

namespace SqlPlan

variable {V : Type}

/-! ## Rows without their order -/

theorem nodup_eraseDups {α : Type} [BEq α] [LawfulBEq α] (items : List α) :
    items.eraseDups.Nodup := by
  -- Each step removes all copies of the first item, so the induction is on the length.
  induction lengthEq : items.length using Nat.strongRecOn generalizing items with
  | ind length induction =>
      cases items with
      | nil => exact List.nodup_nil
      | cons item items =>
          have absent : item ∉ (items.filter fun other => !other == item).eraseDups := by
            simp [List.mem_eraseDups]
          have shorter : (items.filter fun other => !other == item).length < length := by
            have bound := List.length_filter_le (fun other => !other == item) items
            rw [List.length_cons] at lengthEq
            omega
          rw [List.eraseDups_cons]
          exact List.nodup_cons.mpr ⟨absent, induction _ shorter _ rfl⟩

section

variable [DecidableEq V] {meaning : Interpretation V} {database : Database V}

theorem Clauses.distinctRows_perm (clauses : Clauses) {rows rows' : List (Cells V)}
    (perm : rows.Perm rows') : (clauses.distinctRows rows).Perm (clauses.distinctRows rows') := by
  unfold Clauses.distinctRows
  split
  · rw [List.perm_ext_iff_of_nodup (nodup_eraseDups rows) (nodup_eraseDups rows')]
    intro row
    rw [List.mem_eraseDups, List.mem_eraseDups]
    exact perm.mem_iff
  · exact perm

/-- Without a limit the ordering decides nothing but the order. -/
theorem Statement.rows_unordered_perm (statement : Statement) :
    (statement.unordered.rows meaning database).Perm (statement.rows meaning database) := by
  unfold Statement.unordered
  split
  · rename_i unlimited
    have unlimited : statement.limit = none := by simpa using unlimited
    have ordered : ∀ (clauses : Clauses) (groups : List (Group V)),
        (clauses.ordered meaning groups).Perm groups := fun clauses groups =>
      List.mergeSort_perm _ _
    simp only [Statement.rows, Clauses.rows, Clauses.limited, unlimited]
    apply Clauses.distinctRows_perm
    exact ((ordered _ _).trans (ordered statement.toClauses _).symm).map _
  · exact .refl _

/-- A statement that only selects gives a row for each tuple of its source. -/
theorem Statement.rows_of_select {statement : Statement} (conditions : statement.conditions = [])
    (ungrouped : statement.grouping = none) (unordered : statement.orderBy = [])
    (bag : statement.distinct = false) (unlimited : statement.limit = none) :
    statement.rows meaning database =
      (statement.source.tuples meaning database).map fun tuple =>
        statement.row meaning (.single tuple) := by
  rw [Statement.rows, Clauses.rows_eq_map_survivors ungrouped bag,
    Clauses.orderedTuples_of_orderBy_nil unordered, Clauses.survivors_of_unlimited unlimited]
  simp [Clauses.kept, conditions]

namespace JoinInput

/-- A side of a join gives the rows of its statement in some order. -/
theorem rows_relation_perm (side : JoinInput) :
    (side.relation.rows meaning database).Perm (side.statement.rows meaning database) := by
  refine List.Perm.trans (List.Perm.of_eq ?_) side.statement.rows_unordered_perm
  rcases side.relation_cases with ⟨ref, whole, relation⟩ | relation
  · obtain ⟨⟨shownAs, source⟩, select, conditions, ungrouped, unordered, bag, unlimited⟩ :=
      Statement.wholeTable?_eq_some whole
    rw [Statement.rows_of_select conditions ungrouped unordered bag unlimited, relation, source,
      Source.tuples, List.map_map]
    simp [Relation.rows, Clauses.row, Clauses.selected, select, Group.single, Function.comp_def]
  · rw [relation, Relation.rows, Statement.rows, Statement.unordered_source]

/-- A side whose columns are known gives rows of the columns it shows. -/
theorem names_of_mem_rows {side : JoinInput} {dialect : Dialect}
    (exposed : side.statement.Exposed database.toSchema)
    (closed : (side.statement.visibleScope dialect).isOpen = false) {row : Cells V}
    (member : row ∈ side.relation.rows meaning database) :
    row.names = side.statement.visibleNames := by
  rw [Relation.names_of_mem_rows _ member, fields_relation, exposed.fields_eq closed]
  simp [Cells.names, Function.comp_def]

end JoinInput

end

theorem JoinInput.nulls_relation {meaning : Interpretation V} {schema : Schema} {side : JoinInput}
    {dialect : Dialect} (exposed : side.statement.Exposed schema)
    (closed : (side.statement.visibleScope dialect).isOpen = false) :
    Cells.nulls meaning (side.relation.fields schema) =
      Cells.blank meaning side.statement.visibleNames := by
  rw [JoinInput.fields_relation, exposed.fields_eq closed]
  simp [Cells.nulls, Cells.blank, Function.comp_def]

/-! ## The rows of the join -/

/-- The names and columns of the two sides of a join. -/
def JoinInput.sides (left right : JoinInput) (on : Expr) : JoinSides where
  left := left.name
  right := right.name
  leftNames := left.scope.names
  rightNames := right.scope.names
  keys := on.equatedNames left.name right.name

theorem Scope.resolveJoined_closed {scope : Scope} {ref resolved : ColumnRef}
    (success : scope.resolveJoined none ref = .ok resolved) : resolved = ref := by
  unfold Scope.resolveJoined at success
  split at success
  · split at success
    · cases success
      rfl
    · cases success
  · split at success
    · cases success
    · cases success
      rfl
    · rename_i impossible
      cases impossible
    · rename_i impossible
      cases impossible
    · cases success

/-- Where all columns are known, the condition of a join stays as it is. -/
theorem joinOn_closed {left right : JoinInput} {on resolved : Expr}
    (closed : (left.scope.isOpen || right.scope.isOpen) = false)
    (success : on.tryMapColumns .everywhere
      (fun ref => return .column (← (joinScope left right).resolve [] ref)) = .ok resolved) :
    resolved = on := by
  obtain ⟨leftClosed, rightClosed⟩ := Bool.or_eq_false_iff.mp closed
  have extent : (joinScope left right).extent = .joined none := by
    simp [joinScope, leftClosed, rightClosed]
  obtain ⟨substitution, replaced, rfl⟩ := Expr.tryMapColumns_ok success
  have same : ∀ ref ∈ on.columnRefs, substitution ref = .column ref := by
    intro ref member
    obtain ⟨column, columnOk, columnEq⟩ := bind_eq_ok.mp (replaced ref member)
    rw [Scope.resolve, extent] at columnOk
    rw [← pure_eq_ok.mp columnEq, Scope.resolveJoined_closed columnOk]
  rw [Expr.mapColumns_congr same, Expr.mapColumns_column]

/-- What is read off the columns of one side, by the kind of column. -/
theorem joinItems_flatMap {γ : Type} {keys : List String} {side other : JoinInput}
    {keyItem : String → List SelectItem} (read : SelectItem → List γ) (cells : String → List γ)
    (ofKey : ∀ name ∈ keys, (keyItem name).flatMap read = cells name)
    (ofShared : ∀ name, name ∉ keys → name ∈ other.scope.names →
      read (side.prefixedItem name) = cells name)
    (ofOwn : ∀ name, name ∉ keys → name ∉ other.scope.names →
      read (.ofColumn name) = cells name) :
    (joinItems keys side other keyItem).flatMap read = side.scope.names.flatMap cells := by
  rw [joinItems, List.flatMap_assoc]
  apply List.flatMap_congr
  intro name _
  simp only [List.contains_eq_mem, decide_eq_true_eq]
  split
  · rename_i isKey
    exact ofKey name isKey
  · rename_i notKey
    split
    · rename_i shared
      rw [List.flatMap_singleton, ofShared name notKey shared]
    · rename_i own
      rw [List.flatMap_singleton, ofOwn name notKey own]

theorem map_beside_keys {γ : Type} (keys names : List String) (cell : String → γ) :
    (names.filter (· ∉ keys)).map cell =
      names.flatMap fun name => if name ∈ keys then [] else [cell name] := by
  have listed := JoinKind.map_filter_eq_flatMap true (fun name => decide (name ∉ keys)) cell names
  simpa using listed

section Columns

variable {meaning : Interpretation V} {left right : JoinInput} {on : Expr} {first second : Cells V}

theorem joinSelect_closed (closed : (left.scope.isOpen || right.scope.isOpen) = false)
    (kind : JoinKind) :
    joinSelect kind on left right =
      joinItems (left.sides right on).keys left right (fun name =>
        [.output { name, expr := joinKey kind left.name right.name name }]) ++
      joinItems (left.sides right on).keys right left fun _ => [] := by
  rw [joinSelect, if_neg (by simp [closed])]
  rfl

variable [DecidableEq V]

/-- What is read off the select list of a join is the row of the join, when it
is so column by column. -/
theorem joinSelect_flatMap {γ : Type}
    (closed : (left.scope.isOpen || right.scope.isOpen) = false) {kind : JoinKind}
    (read : SelectItem → List γ) (view : String × V → γ)
    (ofKey : ∀ name ∈ (left.sides right on).keys,
      read (.output { name, expr := joinKey kind left.name right.name name }) =
        [view (name, meaning.coalesce (first.at meaning name) (second.at meaning name))])
    (ofLeft : ∀ name, read (left.prefixedItem name) =
      [view (left.name ++ "_" ++ name, first.at meaning name)])
    (ofRight : ∀ name, read (right.prefixedItem name) =
      [view (right.name ++ "_" ++ name, second.at meaning name)])
    (ofLeftOnly : ∀ name, name ∉ right.scope.names →
      read (.ofColumn name) = [view (name, first.at meaning name)])
    (ofRightOnly : ∀ name, name ∉ left.scope.names →
      read (.ofColumn name) = [view (name, second.at meaning name)]) :
    (joinSelect kind on left right).flatMap read =
      ((left.sides right on).row meaning first second).map view := by
  rw [joinSelect_closed closed, List.flatMap_append, JoinSides.row, List.map_append, List.map_map,
    List.map_map, List.map_eq_flatMap, map_beside_keys]
  congr 1
  · apply joinItems_flatMap
    · intro name isKey
      have cell : (left.sides right on).leftCell meaning first second name = _ :=
        JoinSides.leftCell_of_key isKey
      rw [List.flatMap_singleton, ofKey name isKey, Function.comp_apply, cell]
    · intro name notKey shared
      have cell : (left.sides right on).leftCell meaning first second name = _ :=
        JoinSides.leftCell_of_shared notKey shared
      rw [ofLeft, Function.comp_apply, cell]
      rfl
    · intro name notKey own
      have cell : (left.sides right on).leftCell meaning first second name = _ :=
        JoinSides.leftCell_of_own notKey own
      rw [ofLeftOnly name own, Function.comp_apply, cell]
  · apply joinItems_flatMap
    · intro name isKey
      rw [if_pos isKey]
      rfl
    · intro name notKey shared
      have cell : (left.sides right on).rightCell meaning second name = _ := if_pos shared
      rw [if_neg notKey, ofRight, Function.comp_apply, cell]
      rfl
    · intro name notKey own
      have cell : (left.sides right on).rightCell meaning second name = _ := if_neg own
      rw [if_neg notKey, ofRightOnly name own, Function.comp_apply, cell]

/-- The select list of a join makes a pair of rows the row of the join. -/
theorem row_join (closed : (left.scope.isOpen || right.scope.isOpen) = false)
    (different : left.name ≠ right.name) (firstNames : first.names = left.scope.names)
    (secondNames : second.names = right.scope.names) {kind : JoinKind}
    (keys : ∀ name ∈ (left.sides right on).keys,
      ((left.sides right on).tuple first second).value meaning
          (joinKey kind left.name right.name name) =
        meaning.coalesce (first.at meaning name) (second.at meaning name))
    {clauses : Clauses} (select : clauses.select = some (joinSelect kind on left right)) :
    clauses.row meaning (.single ((left.sides right on).tuple first second)) =
      (left.sides right on).row meaning first second := by
  simp only [Clauses.row, Clauses.selected, select]
  refine (joinSelect_flatMap closed _ id ?_ ?_ ?_ ?_ ?_).trans (List.map_id _)
  · intro name isKey
    exact congrArg (fun value => [(name, value)]) (keys name isKey)
  · intro name
    exact congrArg (fun value => [(left.name ++ "_" ++ name, value)])
      (JoinSides.value_left different)
  · intro name
    exact congrArg (fun value => [(right.name ++ "_" ++ name, value)])
      (JoinSides.value_right different)
  · intro name own
    exact congrArg (fun value => [(name, value)]) (JoinSides.value_bare_left (secondNames ▸ own))
  · intro name own
    exact congrArg (fun value => [(name, value)]) (JoinSides.value_bare_right (firstNames ▸ own))

/-- The names of the row of a join are those of the select list. -/
theorem names_join (closed : (left.scope.isOpen || right.scope.isOpen) = false)
    (kind : JoinKind) :
    ((left.sides right on).row meaning first second).names =
      (joinSelect kind on left right).filterMap SelectItem.name? := by
  rw [List.filterMap_eq_flatMap_toList, Cells.names]
  symm
  apply joinSelect_flatMap closed
  · exact fun _ _ => rfl
  · exact fun _ => rfl
  · exact fun _ => rfl
  · exact fun _ _ => rfl
  · exact fun _ _ => rfl

end Columns

section Join

variable [DecidableEq V] {meaning : Interpretation V} {database : Database V}
  {dialect : Dialect} {kind : JoinKind} {on : Expr} {left right : JoinInput}

/-- On the pairs of a join the keys have the values that either side has. -/
theorem value_key_of_found (joinable : meaning.Joinable) (different : left.name ≠ right.name)
    {lefts rights : List (Cells V)} {pair : Option (Cells V) × Option (Cells V)}
    (found : kind.Found (fun first second => meaning.isTrue
      (((left.sides right on).tuple first second).value meaning on)) lefts rights pair)
    (leftNames rightNames : List String) :
    ∀ name ∈ (left.sides right on).keys,
      ((left.sides right on).tuple (pair.1.getD (Cells.blank meaning leftNames))
          (pair.2.getD (Cells.blank meaning rightNames))).value meaning
          (joinKey kind left.name right.name name) =
        meaning.coalesce ((pair.1.getD (Cells.blank meaning leftNames)).at meaning name)
          ((pair.2.getD (Cells.blank meaning rightNames)).at meaning name) := by
  intro name isKey
  apply JoinSides.value_key joinable different
  cases found with
  | @both first second _ _ fitting =>
      left
      have agree := Expr.equal_of_mem_equatedNames joinable different fitting isKey
      have ofLeft : ((left.sides right on).tuple first second).value meaning
          (.column { table := some left.name, name }) = first.at meaning name :=
        JoinSides.value_left different
      have ofRight : ((left.sides right on).tuple first second).value meaning
          (.column { table := some right.name, name }) = second.at meaning name :=
        JoinSides.value_right different
      rw [Tuple.value, Expr.eval] at ofLeft ofRight
      rwa [ofLeft, ofRight] at agree
  | leftOnly keeps _ => exact .inr (.inl ⟨keeps, Cells.at_blank meaning rightNames name⟩)
  | rightOnly keeps _ => exact .inr (.inr ⟨keeps, Cells.at_blank meaning leftNames name⟩)

/-- The statement of a join gives the rows of the join of its sides. -/
theorem Statement.rows_join_perm {statement : Statement}
    (success : Statement.join dialect kind on left right = .ok statement)
    (different : left.name ≠ right.name)
    (leftScope : left.scope = left.statement.visibleScope dialect)
    (rightScope : right.scope = right.statement.visibleScope dialect)
    (leftClosed : left.scope.isOpen = false) (rightClosed : right.scope.isOpen = false)
    (leftExposed : left.statement.Exposed database.toSchema)
    (rightExposed : right.statement.Exposed database.toSchema) (joinable : meaning.Joinable) :
    (statement.rows meaning database).Perm
      (kind.outcome
        (fun first second => meaning.isTrue
          (((left.sides right on).tuple first second).value meaning on))
        ((left.sides right on).row meaning) (Cells.blank meaning left.scope.names)
        (Cells.blank meaning right.scope.names) (left.statement.rows meaning database)
        (right.statement.rows meaning database)) := by
  have closed : (left.scope.isOpen || right.scope.isOpen) = false := by
    rw [leftClosed, rightClosed]
    rfl
  obtain ⟨_, resolved, resolvedOk, _, rfl⟩ := Statement.join_eq_ok success
  cases joinOn_closed closed resolvedOk
  have leftNames : left.statement.visibleNames = left.scope.names := by
    rw [leftScope, Clauses.names_visibleScope]
  have rightNames : right.statement.visibleNames = right.scope.names := by
    rw [rightScope, Clauses.names_visibleScope]
  rw [leftScope] at leftClosed
  rw [rightScope] at rightClosed
  rw [Statement.rows_of_select rfl rfl rfl rfl rfl, Source.tuples, List.map_map,
    JoinInput.nulls_relation leftExposed leftClosed,
    JoinInput.nulls_relation rightExposed rightClosed, leftNames, rightNames]
  -- The relations of the sides give their rows in another order than the statements.
  refine List.Perm.trans ?_ (JoinKind.outcome_perm left.rows_relation_perm
    right.rows_relation_perm)
  refine List.Perm.trans (List.Perm.of_eq ?_) (JoinKind.pairs_perm_outcome _ _)
  apply List.map_congr_left
  intro pair member
  have found := JoinKind.found_of_mem_pairs member
  have keys := value_key_of_found joinable different found left.scope.names right.scope.names
  refine row_join closed different ?_ ?_ keys rfl
  · apply Cells.names_getD_blank
    intro row isFirst
    rw [JoinInput.names_of_mem_rows leftExposed leftClosed (found.mem.1 row isFirst), leftNames]
  · apply Cells.names_getD_blank
    intro row isSecond
    rw [JoinInput.names_of_mem_rows rightExposed rightClosed (found.mem.2 row isSecond),
      rightNames]

end Join

/-! ## Join steps -/

theorem Expr.equatedNames_chain (left right : String) (first second : Expr) (rest : List Expr) :
    (Expr.chain .and first second rest).equatedNames left right =
      (first :: second :: rest).flatMap (Expr.equatedNames left right) := by
  have folded : ∀ (rest : List Expr) (start : Expr),
      (rest.foldl (.binary (.logical .and)) start).equatedNames left right =
        start.equatedNames left right ++ rest.flatMap (Expr.equatedNames left right) := by
    intro rest
    induction rest with
    | nil => simp
    | cons next rest induction =>
        intro start
        rw [List.foldl_cons, induction, Expr.equatedNames, List.flatMap_cons, List.append_assoc]
  rw [Expr.chain, folded, Expr.equatedNames, List.flatMap_cons, List.flatMap_cons,
    List.append_assoc]

namespace Plan

/-- The condition that names keys equates exactly these. -/
theorem equatedNames_joinCondition {input other : Plan} {names : List String} {condition : Expr}
    (success : joinCondition input other (.keys names) = .ok condition) :
    condition.equatedNames input.refName other.refName = names := by
  have compared : ∀ name : String,
      (Expr.equal (.column { table := some input.refName, name })
        (.column { table := some other.refName, name })).equatedNames
          input.refName other.refName = [name] := by
    intro name
    simp [Expr.equal, Expr.equatedNames]
  cases names with
  | nil => cases success
  | cons first names =>
      cases names with
      | nil =>
          cases success
          exact compared first
      | cons second names =>
          cases success
          rw [Expr.equatedNames_chain]
          simp [List.flatMap_map, compared]

/-- A plan as one side of a join. -/
def joinInput (dialect : Dialect) (plan : Plan) (draft : Draft) : JoinInput where
  statement := draft.statement
  name := plan.refName
  scope := draft.statement.visibleScope dialect

/-- A join step whose sides have known columns gives the rows of the join of
its sides, in some order.  A row of the join has every column of the sides under
a name of its own; those that the condition equates are one column, which has
the value of whichever side has one. -/
theorem join_perm_outcome {V : Type} [DecidableEq V] {dialect : Dialect} {used : Nat}
    {input other plan : Plan} {kind : JoinKind} {on : JoinOn} {left right draft : Draft}
    (built : input.join other kind on = .ok plan)
    (leftDrafted : input.draft dialect used = .ok left)
    (rightDrafted : other.draft dialect left.hoisted = .ok right)
    (leftKnown : (left.statement.visibleScope dialect).isOpen = false)
    (rightKnown : (right.statement.visibleScope dialect).isOpen = false)
    (drafted : plan.draft dialect used = .ok draft) (meaning : Interpretation V)
    (joinable : meaning.Joinable) (database : Database V) :
    ∃ condition, joinCondition input other on = .ok condition ∧
      let sides := (input.joinInput dialect left).sides (other.joinInput dialect right) condition
      (draft.statement.rows meaning database).Perm
        (kind.outcome
          (fun first second => meaning.isTrue ((sides.tuple first second).value meaning condition))
          (sides.row meaning) (Cells.blank meaning sides.leftNames)
          (Cells.blank meaning sides.rightNames) (left.statement.rows meaning database)
          (right.statement.rows meaning database)) ∧
      (∀ first second, (sides.row meaning first second).names.Nodup) ∧
      ∀ names, on = .keys names → sides.keys = names := by
  obtain ⟨condition, conditionOk, built⟩ := bind_eq_ok.mp built
  cases pure_eq_ok.mp built
  refine ⟨condition, conditionOk, ?_⟩
  obtain ⟨_, leftAgain, drafted⟩ := bind_eq_ok.mp drafted
  cases leftDrafted.symm.trans leftAgain
  obtain ⟨_, allowed, drafted⟩ := bind_eq_ok.mp drafted
  obtain ⟨_, rightAgain, drafted⟩ := bind_eq_ok.mp drafted
  cases rightDrafted.symm.trans rightAgain
  obtain ⟨statement, joined, drafted⟩ := bind_eq_ok.mp drafted
  cases pure_eq_ok.mp drafted
  have different : input.refName ≠ other.refName := refuseJoin_eq_ok allowed
  refine ⟨?_, ?_, ?_⟩
  · exact Statement.rows_join_perm joined different rfl rfl leftKnown rightKnown
      ((Plan.drafted leftDrafted).exposed _) ((Plan.drafted rightDrafted).exposed _) joinable
  · intro first second
    have closed : ((input.joinInput dialect left).scope.isOpen ||
        (other.joinInput dialect right).scope.isOpen) = false := by
      simp [joinInput, leftKnown, rightKnown]
    obtain ⟨_, resolved, resolvedOk, distinct, _⟩ := Statement.join_eq_ok joined
    cases joinOn_closed closed resolvedOk
    rw [names_join closed kind]
    exact distinct
  · rintro names rfl
    exact equatedNames_joinCondition conditionOk

/-- A plan over a table with columns `id` and `a`. -/
def identified (name : String) : Plan :=
  .base { name, columns := some [⟨"id", none⟩, ⟨"a", none⟩] }

theorem join_perm_outcome_identified :
    ∃ plan left right draft,
      (identified "t").join (identified "u") .full (.keys ["id"]) = .ok plan ∧
      (identified "t").draft .postgres 0 = .ok left ∧
      (identified "u").draft .postgres left.hoisted = .ok right ∧
      (left.statement.visibleScope .postgres).isOpen = false ∧
      (right.statement.visibleScope .postgres).isOpen = false ∧
      plan.draft .postgres 0 = .ok draft ∧ Interpretation.numeric.Joinable ∧
      ∀ database : Database Nat,
        let sides : JoinSides :=
          { left := "t", right := "u", leftNames := ["id", "a"], rightNames := ["id", "a"]
            keys := ["id"] }
        (draft.statement.rows .numeric database).Perm
          (JoinKind.full.outcome
            (fun first second => Interpretation.numeric.isTrue ((sides.tuple first second).value
              .numeric (.equal (.column { table := some "t", name := "id" })
                (.column { table := some "u", name := "id" }))))
            (sides.row .numeric) (Cells.blank .numeric ["id", "a"])
            (Cells.blank .numeric ["id", "a"]) (left.statement.rows .numeric database)
            (right.statement.rows .numeric database)) := by
  refine ⟨_, _, _, _, rfl, rfl, rfl, rfl, rfl, rfl, Interpretation.numeric_joinable, ?_⟩
  intro database
  obtain ⟨condition, conditionOk, perm, _⟩ := join_perm_outcome
    (show (identified "t").join (identified "u") .full (.keys ["id"]) = .ok _ from rfl)
    (show draft .postgres 0 _ = .ok _ from rfl) rfl rfl rfl rfl .numeric
    Interpretation.numeric_joinable database
  cases conditionOk
  exact perm

end Plan

end SqlPlan
