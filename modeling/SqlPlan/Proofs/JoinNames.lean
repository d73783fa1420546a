import SqlPlan.Proofs.Stepping
import SqlPlan.Proofs.Visibility

/-!
# Names in the condition of a join and after it

The condition of a join reads a bare name from the scope of both sides, and a step
after the join reads it among the columns that the join shows.  Where the columns of
both sides are declared the two agree.  Beside a side that is not declared, the
condition takes the names that the other side declares from that side, while the join
shows them prefixed and leaves the bare names to the star.
-/

namespace SqlPlan

namespace Scope

variable {scope : Scope} {name side : String} {column : ScopeColumn}

theorem mem_matching :
    column ∈ scope.matching name ↔ column ∈ scope.columns ∧ column.name = name := by
  simp [matching]

theorem mem_tagged (member : column ∈ scope.tagged side) :
    column.table = some side ∧ column.name ∈ scope.names := by
  obtain ⟨own, ownMember, rfl⟩ := List.mem_map.mp member
  exact ⟨rfl, List.mem_map.mpr ⟨own, ownMember, rfl⟩⟩

theorem exists_tagged (known : name ∈ scope.names) (side : String) :
    ∃ column ∈ scope.tagged side, column.name = name := by
  obtain ⟨own, ownMember, rfl⟩ := List.mem_map.mp known
  exact ⟨_, List.mem_map_of_mem ownMember, rfl⟩

/-- A bare name of a join whose columns are all declared is that of a single column. -/
theorem resolve_bare_of_declared {ref : ColumnRef} (extent : scope.extent = .joined none)
    (success : scope.resolve [] { name } = .ok ref) :
    ref = { name } ∧ (scope.matching name).length = 1 := by
  simp only [resolve, extent, resolveJoined] at success
  split at success
  · cases success
  · rename_i single _
    cases success
    exact ⟨rfl, by rw [single]; rfl⟩
  · rename_i isOpen
    cases isOpen
  · rename_i isOpen
    cases isOpen
  · cases success

/-- A bare name beside a side that is not declared is that of a single declared
column, or else one of that side. -/
theorem resolve_bare_of_open {ref : ColumnRef} (extent : scope.extent = .joined (some side))
    (success : scope.resolve [] { name } = .ok ref) :
    (∃ column, scope.matching name = [column] ∧
        ref = { table := some (column.table.getD side), name }) ∨
      (scope.matching name = [] ∧ ref = { table := some side, name }) := by
  simp only [resolve, extent, resolveJoined] at success
  split at success
  · cases success
  · rename_i closed
    cases closed
  · rename_i column _ single isOpen
    cases isOpen
    cases success
    exact .inl ⟨column, single, rfl⟩
  · rename_i _ none isOpen
    cases isOpen
    cases success
    exact .inr ⟨none, rfl⟩
  · rename_i closed
    cases closed

end Scope

/-! ## Beside a side that is not declared -/

/-- One side of a join is declared and the other is not. -/
structure BesideOpen (left right declared undeclared : JoinInput) : Prop where
  sides : (left = declared ∧ right = undeclared) ∨ (left = undeclared ∧ right = declared)
  closed : declared.scope.isOpen = false
  isOpen : undeclared.scope.isOpen = true
  apart : declared.name ≠ undeclared.name

namespace BesideOpen

variable {left right declared undeclared : JoinInput}

theorem extent_joinScope (beside : BesideOpen left right declared undeclared) :
    (joinScope left right).extent = .joined (some undeclared.name) := by
  rcases beside.sides with ⟨rfl, rfl⟩ | ⟨rfl, rfl⟩ <;>
    simp [joinScope, beside.closed, beside.isOpen]

theorem mem_columns (beside : BesideOpen left right declared undeclared) {column : ScopeColumn} :
    column ∈ (joinScope left right).columns ↔
      column ∈ declared.scope.tagged declared.name ∨
        column ∈ undeclared.scope.tagged undeclared.name := by
  rcases beside.sides with ⟨rfl, rfl⟩ | ⟨rfl, rfl⟩
  · exact List.mem_append
  · exact List.mem_append.trans or_comm

theorem mem_joinSelect (beside : BesideOpen left right declared undeclared) {kind : JoinKind}
    {on : Expr} {item : SelectItem} :
    item ∈ joinSelect kind on left right ↔
      item = .star (some undeclared.name) ∨
        ∃ name ∈ declared.scope.names, declared.prefixedItem name = item := by
  have declaredItems : joinItemsBesideOpen declared =
      declared.scope.names.map declared.prefixedItem := by
    simp [joinItemsBesideOpen, beside.closed]
  have undeclaredItems : joinItemsBesideOpen undeclared = [.star (some undeclared.name)] := by
    simp [joinItemsBesideOpen, beside.isOpen]
  rcases beside.sides with ⟨rfl, rfl⟩ | ⟨rfl, rfl⟩ <;>
    simp [joinSelect, beside.isOpen, declaredItems, undeclaredItems, or_comm]

/-- The condition takes what the declared side declares from that side. -/
theorem resolve_bare (beside : BesideOpen left right declared undeclared) {name : String}
    {ref : ColumnRef} (success : (joinScope left right).resolve [] { name } = .ok ref) :
    (name ∈ declared.scope.names ∧ ref = { table := some declared.name, name }) ∨
      (name ∉ declared.scope.names ∧ ref = { table := some undeclared.name, name }) := by
  have matched : name ∈ declared.scope.names →
      ∃ column ∈ (joinScope left right).matching name, column.table = some declared.name := by
    intro known
    obtain ⟨column, member, named⟩ := Scope.exists_tagged known declared.name
    exact ⟨column, Scope.mem_matching.mpr ⟨beside.mem_columns.mpr (.inl member), named⟩,
      (Scope.mem_tagged member).1⟩
  rcases Scope.resolve_bare_of_open beside.extent_joinScope success with
    ⟨column, single, rfl⟩ | ⟨none, rfl⟩
  · rw [single] at matched
    by_cases known : name ∈ declared.scope.names
    · obtain ⟨found, member, side⟩ := matched known
      cases List.mem_singleton.mp member
      exact .inl ⟨known, by rw [side]; rfl⟩
    · have member : column ∈ (joinScope left right).matching name := by rw [single]; simp
      obtain ⟨columnMember, named⟩ := Scope.mem_matching.mp member
      rcases beside.mem_columns.mp columnMember with inDeclared | inUndeclared
      · exact absurd (named ▸ (Scope.mem_tagged inDeclared).2) known
      · exact .inr ⟨known, by rw [(Scope.mem_tagged inUndeclared).1]; rfl⟩
  · refine .inr ⟨fun known => ?_, rfl⟩
    obtain ⟨found, member, _⟩ := matched known
    rw [none] at member
    cases member

/-- After the join a name is that of a prefixed column, or one behind the star. -/
theorem locate_bare (beside : BesideOpen left right declared undeclared) {clauses : Clauses}
    {kind : JoinKind} {on : Expr} (select : clauses.select = some (joinSelect kind on left right))
    (scope : clauses.scope = joinScope left right) (name : String) :
    (∃ column ∈ declared.scope.names, name = declared.name ++ "_" ++ column ∧
        clauses.locate { name } =
          .ok (.source (.column { table := some declared.name, name := column }))) ∨
      ((∀ column ∈ declared.scope.names, name ≠ declared.name ++ "_" ++ column) ∧
        clauses.locate { name } =
          .ok (.source (.column { table := some undeclared.name, name }))) := by
  have shown : ∀ output, output ∈ clauses.visibleOutputs ↔ ∃ column ∈ declared.scope.names,
      output = { name := declared.name ++ "_" ++ column
                 expr := .column { table := some declared.name, name := column } } := by
    intro output
    rw [Clauses.visibleOutputs, List.mem_filter, Clauses.mem_outputs, select, Option.getD_some,
      beside.mem_joinSelect]
    constructor
    · rintro ⟨isStar | ⟨column, known, isItem⟩, _⟩
      · cases isStar
      · cases isItem
        exact ⟨column, known, rfl⟩
    · rintro ⟨column, known, rfl⟩
      exact ⟨.inr ⟨column, known, rfl⟩, rfl⟩
  have star : clauses.star? = some (some undeclared.name) := by
    rw [Clauses.star?, select, Option.getD_some]
    rcases found : (joinSelect kind on left right).findSome? SelectItem.star? with _ | star
    · have starred := List.findSome?_eq_none_iff.mp found _ (beside.mem_joinSelect.mpr (.inl rfl))
      cases starred
    · obtain ⟨item, member, isStar⟩ := List.exists_of_findSome?_eq_some found
      rcases beside.mem_joinSelect.mp member with rfl | ⟨column, _, rfl⟩
      · exact isStar.symm
      · cases isStar
  rw [Clauses.locate_of_select_some select rfl, Clauses.locateOutput]
  cases found : clauses.visibleOutputs.find? fun output => output.name == name with
  | some output =>
      obtain ⟨column, known, rfl⟩ := (shown output).mp (List.mem_of_find?_eq_some found)
      have named := List.find?_some found
      exact .inl ⟨column, known, (beq_iff_eq.mp named).symm, rfl⟩
  | none =>
      refine .inr ⟨fun column known named => ?_, ?_⟩
      · have absent := List.find?_eq_none.mp found _ ((shown _).mpr ⟨column, known, rfl⟩)
        exact absent (beq_iff_eq.mpr named.symm)
      · rw [star]
        simp [Clauses.locateInSource, Scope.resolve, scope, beside.extent_joinScope,
          Scope.resolveJoined]

end BesideOpen

/-! ## Beside another declared side -/

section Declared

variable {left right : JoinInput} {name : String}

/-- A key that the condition equates is a column of both sides. -/
theorem shared_of_mem_equatedNames {on : Expr} (apart : left.name ≠ right.name)
    (extent : (joinScope left right).extent = .joined none)
    (resolves : on.ResolvesIn (joinScope left right))
    (equated : name ∈ on.equatedNames left.name right.name) :
    name ∈ left.scope.names ∧ name ∈ right.scope.names := by
  have shown {side : String} (read : { table := some side, name } ∈ on.columnRefs) :
      ∃ column, (column ∈ left.scope.tagged left.name ∨ column ∈ right.scope.tagged right.name) ∧
        column.table = some side ∧ column.name = name := by
    have known := resolves _ read
    simp only [Scope.Resolves, extent] at known
    obtain ⟨column, member, isColumn⟩ := List.mem_map.mp (known.resolve_right (by simp))
    exact ⟨column, List.mem_append.mp member, congrArg ColumnRef.table isColumn,
      congrArg ColumnRef.name isColumn⟩
  obtain ⟨readLeft, readRight⟩ := Expr.mem_columnRefs_of_mem_equatedNames equated
  constructor
  · obtain ⟨column, inLeft | inRight, side, rfl⟩ := shown readLeft
    · exact (Scope.mem_tagged inLeft).2
    · rw [(Scope.mem_tagged inRight).1] at side
      exact absurd (Option.some.inj side).symm apart
  · obtain ⟨column, inLeft | inRight, side, rfl⟩ := shown readRight
    · rw [(Scope.mem_tagged inLeft).1] at side
      exact absurd (Option.some.inj side) apart
    · exact (Scope.mem_tagged inRight).2

theorem ofColumn_mem_joinItems {keys : List String} {side other : JoinInput}
    {keyItem : String → List SelectItem} (known : name ∈ side.scope.names) (notKey : name ∉ keys)
    (own : name ∉ other.scope.names) :
    .ofColumn name ∈ joinItems keys side other keyItem := by
  refine List.mem_flatMap.mpr ⟨name, known, ?_⟩
  rw [if_neg (by simpa using notKey), if_neg (by simpa using own)]
  exact List.mem_singleton.mpr rfl

/-- A name that only one side has is shown as it is. -/
theorem ofColumn_mem_joinSelect {kind : JoinKind} {on : Expr} (apart : left.name ≠ right.name)
    (closed : (left.scope.isOpen || right.scope.isOpen) = false)
    (resolves : on.ResolvesIn (joinScope left right))
    (once : left.scope.names.count name + right.scope.names.count name = 1) :
    .ofColumn name ∈ joinSelect kind on left right := by
  have extent : (joinScope left right).extent = .joined none := by
    obtain ⟨leftClosed, rightClosed⟩ := Bool.or_eq_false_iff.mp closed
    simp [joinScope, leftClosed, rightClosed]
  have notBoth : ¬ (name ∈ left.scope.names ∧ name ∈ right.scope.names) := by
    rintro ⟨inLeft, inRight⟩
    have leftCount := List.count_pos_iff.mpr inLeft
    have rightCount := List.count_pos_iff.mpr inRight
    omega
  have notKey : name ∉ on.equatedNames left.name right.name :=
    fun equated => notBoth (shared_of_mem_equatedNames apart extent resolves equated)
  rw [joinSelect, closed, if_neg Bool.false_ne_true]
  by_cases inLeft : name ∈ left.scope.names
  · exact List.mem_append_left _
      (ofColumn_mem_joinItems inLeft notKey fun inRight => notBoth ⟨inLeft, inRight⟩)
  · have inRight : name ∈ right.scope.names := by
      rw [← List.count_pos_iff]
      have absent := List.count_eq_zero_of_not_mem inLeft
      omega
    exact List.mem_append_right _ (ofColumn_mem_joinItems inRight notKey inLeft)

end Declared

/-- A column that is shown under its own name is what the name stands for. -/
theorem Clauses.locate_of_ofColumn {clauses : Clauses} {items : List SelectItem} {name : String}
    (select : clauses.select = some items) (distinct : (items.filterMap SelectItem.name?).Nodup)
    (listed : .ofColumn name ∈ items) :
    clauses.locate { name } = .ok (.source (.named name)) := by
  have shown : { name, expr := .named name } ∈ clauses.visibleOutputs := by
    rw [visibleOutputs, List.mem_filter, mem_outputs, select]
    exact ⟨listed, rfl⟩
  have names : (clauses.visibleOutputs.map (·.name)).Nodup := by
    have sublist := visibleNames_sublist select
    simp only [visibleNames, select] at sublist
    exact distinct.sublist sublist
  rw [locate_of_select_some select rfl, locateOutput]
  cases found : clauses.visibleOutputs.find? fun output => output.name == name with
  | none => exact absurd (List.find?_eq_none.mp found _ shown) (by simp)
  | some output =>
      have named : output.name = name := by simpa using List.find?_some found
      rw [List.inj_on_of_nodup_map names (List.mem_of_find?_eq_some found) shown named]

/-! ## The two readings -/

/-- The names that read another column in the condition of a join than after it: the
names of its declared side beside an undeclared one, and those that the join shows
them under. -/
def Source.namesBesideOpen (dialect : Dialect) : Source → List String
  | .relation _ => []
  | .join left leftName right rightName _ _ =>
      (if (left.scope dialect).isOpen then sideNames rightName (right.scope dialect).names
        else []) ++
      if (right.scope dialect).isOpen then sideNames leftName (left.scope dialect).names else []

/-- The condition of the join is the expression, read against the columns of both sides. -/
def Statement.JoinsOn (statement : Statement) (on : Expr) : Prop :=
  ∃ reading : ColumnRef → ColumnRef,
    (∀ ref ∈ on.columnRefs, statement.scope.resolve [] ref = .ok (reading ref)) ∧
      statement.source.on? = some (on.mapColumns .everywhere fun ref => .column (reading ref))

theorem Statement.joinsOn_join {dialect : Dialect} {kind : JoinKind} {on : Expr}
    {left right : JoinInput} {statement : Statement}
    (joined : Statement.join dialect kind on left right = .ok statement) :
    statement.JoinsOn on := by
  obtain ⟨_, resolved, resolvedOk, _, rfl⟩ := Statement.join_eq_ok joined
  obtain ⟨substitution, replaced, rfl⟩ := Expr.tryMapColumns_ok resolvedOk
  have column : ∀ ref ∈ on.columnRefs, ∃ column,
      (joinScope left right).resolve [] ref = .ok column ∧ .column column = substitution ref := by
    intro ref member
    obtain ⟨column, columnOk, isColumn⟩ := bind_eq_ok.mp (replaced ref member)
    exact ⟨column, columnOk, pure_eq_ok.mp isColumn⟩
  refine ⟨fun ref => ((joinScope left right).resolve [] ref).toOption.getD ref, ?_, ?_⟩
  · intro ref member
    obtain ⟨column, columnOk, _⟩ := column ref member
    simp [columnOk, Except.toOption]
  · refine congrArg some (Expr.mapColumns_congr fun ref member => ?_)
    obtain ⟨column, columnOk, isColumn⟩ := column ref member
    simp [columnOk, Except.toOption, ← isColumn]

theorem BesideOpen.locate_eq_iff {left right declared undeclared : JoinInput}
    (beside : BesideOpen left right declared undeclared) {clauses : Clauses}
    {kind : JoinKind} {on : Expr} (select : clauses.select = some (joinSelect kind on left right))
    (scope : clauses.scope = joinScope left right) {name : String} {inCondition : ColumnRef}
    (reads : clauses.scope.resolve [] { name } = .ok inCondition) :
    ∃ afterwards, clauses.locate { name } = .ok (.source (.column afterwards)) ∧
      (inCondition = afterwards ↔ name ∉ sideNames declared.name declared.scope.names) := by
  rw [scope] at reads
  have condition := beside.resolve_bare reads
  have named : inCondition.name = name := by
    rcases condition with ⟨_, rfl⟩ | ⟨_, rfl⟩ <;> rfl
  rcases beside.locate_bare select scope name with
    ⟨column, known, prefixed, located⟩ | ⟨unprefixed, located⟩
  · -- A prefixed name is longer than the name of the column behind it.
    refine ⟨_, located, iff_of_false ?_ ?_⟩
    · rintro rfl
      have length := congrArg String.length (named.trans prefixed)
      have mark : "_".length = 1 := rfl
      simp only [String.length_append, mark] at length
      omega
    · exact not_not_intro (List.mem_append_right _ (List.mem_map.mpr ⟨column, known, prefixed.symm⟩))
  · refine ⟨_, located, ?_⟩
    rcases condition with ⟨known, rfl⟩ | ⟨unknown, rfl⟩
    · refine iff_of_false ?_ (not_not_intro (List.mem_append_left _ known))
      intro equal
      exact beside.apart (Option.some.inj (congrArg ColumnRef.table equal))
    · refine iff_of_true rfl fun member => ?_
      rcases List.mem_append.mp member with own | asPrefixed
      · exact unknown own
      · obtain ⟨column, known, rfl⟩ := List.mem_map.mp asPrefixed
        exact unprefixed column known rfl

/-- A condition on one name that stands for a column of the source is added as it is. -/
theorem Draft.filter_of_located {dialect : Dialect} {draft : Draft} {name : String}
    {column : ColumnRef} (unsealed : draft.statement.isSealed = false)
    (located : draft.statement.locate { name } = .ok (.source (.column column)))
    {predicate : Expr} (plain : predicate.aggregate? = none)
    (reads : ∀ ref ∈ predicate.columnRefs, ref = { name }) :
    draft.filter dialect predicate =
      .ok { draft with statement := { draft.statement with
        conditions := draft.statement.conditions ++
          [predicate.mapColumns .everywhere fun _ => .column column] } } := by
  have current : draft.unsealed dialect = draft := by simp [Draft.unsealed, unsealed]
  have settled : draft.settled dialect predicate.columnRefs = draft := by
    apply settled_of_located
    intro ref member
    rw [reads ref member]
    exact ⟨_, located⟩
  have replaced : predicate.mapColumns .everywhere draft.statement.sourceOf =
      predicate.mapColumns .everywhere fun _ => .column column := by
    refine Expr.mapColumns_congr fun ref member => ?_
    rw [reads ref member]
    simp [Clauses.sourceOf, located, Located.inlined]
  rw [filter_eq_ok, current, settled, restricted, replaced]
  refine ⟨plain, fun ref member => ?_, rfl⟩
  rw [settled, reads ref member]
  exact ⟨Clauses.refusal?_eq_none.mpr ⟨_, located⟩, Clauses.refusal?_eq_none.mpr ⟨_, located⟩⟩

theorem Statement.locate_join {dialect : Dialect} {kind : JoinKind} {on : Expr}
    {left right : JoinInput} {statement : Statement}
    (joined : Statement.join dialect kind on left right = .ok statement)
    (answered : statement.Answered dialect) (apart : left.name ≠ right.name)
    (leftScope : left.relation.scope dialect = left.scope)
    (rightScope : right.relation.scope dialect = right.scope) {name : String}
    {inCondition : ColumnRef} (reads : statement.scope.resolve [] { name } = .ok inCondition) :
    ∃ afterwards, statement.locate { name } = .ok (.source (.column afterwards)) ∧
      (inCondition = afterwards ↔ name ∉ statement.source.namesBesideOpen dialect) := by
  obtain ⟨oneClosed, resolved, _, distinct, rfl⟩ := Statement.join_eq_ok joined
  have onResolves := answered.on resolved rfl
  rw [Source.namesBesideOpen, leftScope, rightScope]
  cases leftOpen : left.scope.isOpen with
  | true =>
      have rightClosed : right.scope.isOpen = false := by simpa [leftOpen] using oneClosed
      have beside : BesideOpen left right right left :=
        ⟨.inr ⟨rfl, rfl⟩, rightClosed, leftOpen, apart.symm⟩
      simpa [rightClosed] using beside.locate_eq_iff rfl rfl reads
  | false =>
      cases rightOpen : right.scope.isOpen with
      | true =>
          have beside : BesideOpen left right left right :=
            ⟨.inl ⟨rfl, rfl⟩, leftOpen, rightOpen, apart⟩
          simpa using beside.locate_eq_iff rfl rfl reads
      | false =>
          have closed : (left.scope.isOpen || right.scope.isOpen) = false := by
            rw [leftOpen, rightOpen]
            rfl
          have extent : (joinScope left right).extent = .joined none := by
            simp [joinScope, leftOpen, rightOpen]
          obtain ⟨rfl, once⟩ := Scope.resolve_bare_of_declared extent reads
          rw [length_matching_joinScope] at once
          have listed : .ofColumn name ∈ joinSelect kind resolved left right :=
            ofColumn_mem_joinSelect apart closed onResolves once
          exact ⟨_, Clauses.locate_of_ofColumn rfl distinct listed, by simp⟩

namespace Plan

variable {dialect : Dialect} {input other : Plan} {kind : JoinKind} {on : Expr}

/-- Where the condition of a join accepts a bare name, a filter after the join reads it as a
column of a side too.  It is the same column, but for the names of a side that is declared
beside one that is not: as they are, and as the join shows them. -/
theorem bare_name_reads_alike_iff {statement : Statement}
    (planned : (Plan.joined input other kind on).statement dialect = .ok statement)
    {name : String} {inCondition : ColumnRef}
    (reads : statement.scope.resolve [] { name } = .ok inCondition) :
    statement.JoinsOn on ∧ ∃ afterwards,
      (∀ predicate : Expr, predicate.aggregate? = none →
        (∀ ref ∈ predicate.columnRefs, ref = { name }) →
        (Plan.filtered (.joined input other kind on) predicate).statement dialect =
          .ok { statement with
            conditions := [predicate.mapColumns .everywhere fun _ => .column afterwards] }) ∧
      (inCondition = afterwards ↔ name ∉ statement.source.namesBesideOpen dialect) := by
  obtain ⟨draft, drafted, isStatement⟩ := bind_eq_ok.mp planned
  cases pure_eq_ok.mp isStatement
  obtain ⟨left, right, leftOk, rightOk, apart, joined⟩ := draft_joined drafted
  have answered {plan : Plan} {used : Nat} {draft : Draft}
      (success : plan.draft dialect used = .ok draft) : draft.statement.Answered dialect :=
    (List.forall_mem_cons.mp (Plan.drafted success).answered).1
  obtain ⟨afterwards, located, alike⟩ := Statement.locate_join joined (answered drafted) apart
    (JoinInput.scope_relation (answered leftOk)) (JoinInput.scope_relation (answered rightOk)) reads
  refine ⟨Statement.joinsOn_join joined, afterwards, fun predicate plain reads => ?_, alike⟩
  have bare : draft.statement.isSealed = false ∧ draft.statement.conditions = [] := by
    obtain ⟨_, _, _, _, isJoin⟩ := Statement.join_eq_ok joined
    rw [isJoin]
    exact ⟨rfl, rfl⟩
  have filtered : draft.filter dialect predicate = .ok _ :=
    Draft.filter_of_located bare.1 located plain reads
  rw [bare.2] at filtered
  exact bind_eq_ok.mpr ⟨_, bind_eq_ok.mpr ⟨draft, drafted, filtered⟩, rfl⟩

/-- Pairs joined with a table whose columns are not declared. -/
def pairsBesideOpen : Plan :=
  .joined (.base { name := "t", columns := some [⟨"a", none⟩, ⟨"b", none⟩] })
    (.base { name := "u" }) .inner
    (.binary (.comparison .equal) (.named "a") (.column { table := some "u", name := "k" }))

theorem bare_name_reads_alike_iff_pairsBesideOpen :
    ∃ statement, pairsBesideOpen.statement .postgres = .ok statement ∧
      statement.scope.resolve [] { name := "k" } = .ok { table := some "u", name := "k" } ∧
      (Plan.filtered pairsBesideOpen (.unary .isNotNull (.named "k"))).statement .postgres =
        .ok { statement with
          conditions := [.unary .isNotNull (.column { table := some "u", name := "k" })] } := by
  obtain ⟨statement, planned, reads, unlisted⟩ : ∃ statement,
      pairsBesideOpen.statement .postgres = .ok statement ∧
        statement.scope.resolve [] { name := "k" } = .ok { table := some "u", name := "k" } ∧
        "k" ∉ statement.source.namesBesideOpen .postgres :=
    ⟨_, rfl, rfl, by decide +kernel⟩
  obtain ⟨_, afterwards, filtered, alike⟩ := bare_name_reads_alike_iff planned reads
  cases alike.mpr unlisted
  exact ⟨statement, planned, reads, filtered _ rfl (List.forall_mem_singleton.mpr rfl)⟩

/-- The condition reads the declared column, and a filter after the join one that only the
undeclared side may have. -/
theorem pairsBesideOpen_reads_another :
    ∃ statement, pairsBesideOpen.statement .postgres = .ok statement ∧
      statement.source.on? = some (.binary (.comparison .equal)
        (.column { table := some "t", name := "a" }) (.column { table := some "u", name := "k" })) ∧
      (Plan.filtered pairsBesideOpen (.unary .isNotNull (.named "a"))).statement .postgres =
        .ok { statement with
          conditions := [.unary .isNotNull (.column { table := some "u", name := "a" })] } :=
  ⟨_, rfl, rfl, rfl⟩

end Plan

end SqlPlan
