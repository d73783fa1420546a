import SqlPlan.Proofs.Scoping

/-!
# Names in orderings

In an ordering SQL takes a bare name for the output of that name, and for a
column of the source only if there is no such output.  A key is written by the
name of an output that it equals, or with its columns; among these the ones that
an output would be taken for are qualified.  Either way what is written reads as
the key that was planned.
-/

namespace SqlPlan

/-! ## Reading -/

/-- The name by which a statement calls its only relation, after `used` numbered subqueries.
The sides of a join go by their own names. -/
def Source.fromName? (used : Nat) : Source → Option String
  | .relation (.table ref shownAs) => some (shownAs.getD ref.name)
  | .relation (.subquery _ _) => some (subqueryName (used + 1))
  | .join _ _ _ _ _ _ => none

/-- A side of a join that goes by the name and shows the column. -/
def Source.SideShows (dialect : Dialect) (side column : String) : Source → Prop
  | .relation _ => False
  | .join left leftName right rightName _ _ =>
      side = leftName ∧ column ∈ (left.scope dialect).names ∨
        side = rightName ∧ column ∈ (right.scope dialect).names

/-- The first side of a join that has a column of the name. -/
def Scope.sourceSide? (scope : Scope) (name : String) : Option String :=
  (scope.columns.find? fun column => column.name == name).bind (·.table)

/-- A reference with the side of a join that has its column. -/
def Scope.pinned (scope : Scope) (ref : ColumnRef) : ColumnRef :=
  { ref with table := ref.table.or (scope.sourceSide? ref.name) }

namespace Statement

/-- What a reference in an ordering stands for: a bare one for the output of its name if there
is one, and any other for a column of the source. -/
def orderReads (used : Nat) (part : Statement) (written : ColumnRef) : Expr :=
  if written.table = none then
    ((part.outputs.find? fun output => output.name == written.name).map (·.expr)).getD
      (.column written)
  else if written.table = part.source.fromName? used then .column { name := written.name }
  else .column written

/-- How a reference is written so that it reads as the column that was planned. -/
structure WritesRef (dialect : Dialect) (used : Nat) (part : Statement)
    (ref written : ColumnRef) : Prop where
  reads : (part.orderReads used written).mapColumns .everywhere
    (fun column => .column (part.scope.pinned column)) = .column (part.scope.pinned ref)
  /-- A name that is left bare is no output's, or that of an output which is this column. -/
  bare : written.table = none → written = ref ∧
    ∀ output ∈ part.outputs, output.name = ref.name →
      ∃ column, output.expr = .column column ∧ part.scope.pinned column = part.scope.pinned ref
  /-- A name that is qualified is so by what the source is called. -/
  qualified : written ≠ ref → ref.table = none ∧
    ∃ name, written = { table := some name, name := ref.name } ∧
      (part.source.fromName? used = some name ∨ part.source.SideShows dialect name ref.name)

/-- How a key is written so that it reads as it was planned. -/
inductive WritesKey (dialect : Dialect) (used : Nat) (part : Statement) (key : Expr) :
    Expr → Prop where
  | alias {output : SelectOutput} (selected : output ∈ part.outputs)
      (same : output.expr.same key = true)
      (reads : part.orderReads used { name := output.name } = output.expr) :
      WritesKey dialect used part key (.named output.name)
  | spelled {write : ColumnRef → ColumnRef}
      (each : ∀ ref ∈ key.columnRefs, part.WritesRef dialect used ref (write ref)) :
      WritesKey dialect used part key (key.mapColumns .everywhere fun ref => .column (write ref))

end Statement

/-! ## Writing -/

def Direction.marked (text : String) : Direction → String
  | .ascending => text
  | .descending => text ++ " DESC"

namespace Clauses

variable (clauses : Clauses)

/-- The derived output that a key goes by. -/
def aliased? (key : Expr) : Option SelectOutput :=
  clauses.outputs.find? fun output => output.expr.column?.isNone && output.expr.same key

/-- A reference of a key as it is written. -/
def writtenRef (qualifier : Option String) (ref : ColumnRef) : ColumnRef :=
  if ref.table.isNone && clauses.shadowedNames.contains ref.name then
    { ref with table := clauses.sourceQualifier? qualifier ref.name }
  else
    ref

/-- A key as it is written. -/
def writtenKey (qualifier : Option String) (key : Expr) : Expr :=
  ((clauses.aliased? key).map fun output => .named output.name).getD
    (key.mapColumns .everywhere fun ref => .column (clauses.writtenRef qualifier ref))

theorem unshadowed_eq (qualifier : Option String) (key : Expr) :
    clauses.unshadowed qualifier key =
      key.mapColumns .everywhere fun ref => .column (clauses.writtenRef qualifier ref) := by
  apply Expr.mapColumns_congr
  intro ref _
  unfold writtenRef
  split <;> rfl

theorem keyText_eq (dialect : Dialect) (qualifier : Option String) (key : SortKey) :
    clauses.keyText dialect qualifier key =
      ((clauses.writtenKey qualifier key.expr).sql (clauses.setting dialect)
        clauses.isGrouped).map key.direction.marked := by
  unfold keyText writtenKey
  rw [← aliased?, unshadowed_eq]
  cases clauses.aliased? key.expr with
  | some output => cases direction : key.direction <;> rfl
  | none =>
      dsimp only [Option.map_none, Option.getD_none]
      cases Expr.sql (clauses.setting dialect) clauses.isGrouped _ with
      | error cause => rfl
      | ok text => cases direction : key.direction <;> rfl

end Clauses

/-- A table that is shown under its own name is not renamed. -/
theorem TableRef.text_eq (dialect : Dialect) (shownAs : Option String) (table : TableRef) :
    table.text dialect shownAs = table.text dialect (some (shownAs.getD table.name)) := by
  cases shownAs with
  | none => simp [TableRef.text]
  | some name => rfl

/-- The text of a source in which its only relation goes by the name that `fromName?` gives,
and the sides of a join by their own. -/
inductive Source.ShownAs (dialect : Dialect) (used : Nat) : Source → String → Prop where
  | relation {relation : Relation} {name shown : String} {below : Nat}
      (called : (Source.relation relation).fromName? used = some name)
      (written : relation.text dialect name below = .ok shown) :
      ShownAs dialect used (.relation relation) shown
  | join {left right : Relation} {leftName rightName leftShown rightShown condition : String}
      {kind : JoinKind} {on : Expr} {below : Nat}
      (leftWritten : left.text dialect leftName used = .ok leftShown)
      (rightWritten : right.text dialect rightName below = .ok rightShown) :
      ShownAs dialect used (.join left leftName right rightName kind on)
        (leftShown ++ "\n" ++ kind.keyword ++ " " ++ rightShown ++ " ON " ++ condition)

/-- The text of a statement shows its source under the names that qualify the columns of its
ordering. -/
def Statement.WritesFrom (dialect : Dialect) (used : Nat) (part : Statement) : Prop :=
  ∀ text, part.source.text dialect used part.toClauses = .ok text →
    ∃ select shown lines, text = Clauses.statementText select shown lines ∧
      part.tailLines dialect (part.source.fromName? used) = .ok lines ∧
      part.source.ShownAs dialect used shown

theorem Statement.writesFrom (dialect : Dialect) (used : Nat) (part : Statement) :
    part.WritesFrom dialect used := by
  intro text written
  obtain ⟨clauses, source⟩ := part
  dsimp only at written ⊢
  cases source with
  | relation relation =>
      cases relation with
      | table ref shownAs =>
          rw [Source.text] at written
          obtain ⟨select, _, written⟩ := bind_eq_ok.mp written
          obtain ⟨lines, linesOk, written⟩ := bind_eq_ok.mp written
          have shown : (Relation.table ref shownAs).text dialect (shownAs.getD ref.name) used =
              .ok (ref.text dialect shownAs) := by
            rw [Relation.text, ← TableRef.text_eq]
          exact ⟨select, _, lines, (pure_eq_ok.mp written).symm, linesOk, .relation rfl shown⟩
      | subquery source inner =>
          rw [Source.text] at written
          obtain ⟨select, _, written⟩ := bind_eq_ok.mp written
          obtain ⟨nested, nestedOk, written⟩ := bind_eq_ok.mp written
          obtain ⟨lines, linesOk, written⟩ := bind_eq_ok.mp written
          have shown : (Relation.subquery source inner).text dialect (subqueryName (used + 1))
              (used + 1) = .ok (subqueryText dialect (subqueryName (used + 1)) nested) := by
            rw [Relation.text, nestedOk]
            rfl
          exact ⟨select, _, lines, (pure_eq_ok.mp written).symm, linesOk, .relation rfl shown⟩
  | join left leftName right rightName kind on =>
      rw [Source.text] at written
      obtain ⟨select, _, written⟩ := bind_eq_ok.mp written
      obtain ⟨leftText, leftOk, written⟩ := bind_eq_ok.mp written
      obtain ⟨rightText, rightOk, written⟩ := bind_eq_ok.mp written
      obtain ⟨onText, _, written⟩ := bind_eq_ok.mp written
      obtain ⟨lines, linesOk, written⟩ := bind_eq_ok.mp written
      exact ⟨select, _, lines, (pure_eq_ok.mp written).symm, linesOk, .join leftOk rightOk⟩

/-! ## Columns -/

/-- An output that no source column has to be told from is a column of its name. -/
theorem Clauses.exists_column_of_not_shadowed {clauses : Clauses} {output : SelectOutput}
    (member : output ∈ clauses.outputs) (free : output.name ∉ clauses.shadowedNames) :
    ∃ column, output.expr = .column column ∧ column.name = output.name := by
  have isColumn : (output.expr.column?.any fun ref => ref.name == output.name) = true := by
    by_contra derived
    refine free (List.mem_map_of_mem (List.mem_filter.mpr ⟨member, ?_⟩))
    simpa using derived
  cases expr : output.expr with
  | column column =>
      rw [expr] at isColumn
      exact ⟨column, rfl, eq_of_beq isColumn⟩
  | _ =>
      rw [expr] at isColumn
      cases isColumn

theorem Scope.pinned_of_qualified (scope : Scope) {ref : ColumnRef}
    (qualified : ref.table.isSome = true) : scope.pinned ref = ref := by
  obtain ⟨table, some⟩ := Option.isSome_iff_exists.mp qualified
  rw [pinned, some, Option.some_or, ← some]

namespace Statement.WritesRef

variable {dialect : Dialect} {used : Nat} {part : Statement} {ref : ColumnRef}

/-- A bare name stays if only its own column goes by it. -/
theorem keptBare (bare : ref.table = none)
    (own : ∀ output ∈ part.outputs, output.name = ref.name →
      ∃ column, output.expr = .column column ∧
        part.scope.pinned column = part.scope.pinned ref) :
    part.WritesRef dialect used ref ref := by
  refine ⟨?_, fun _ => ⟨rfl, own⟩, fun differs => absurd rfl differs⟩
  rw [orderReads, if_pos bare]
  cases found : part.outputs.find? fun output => output.name == ref.name with
  | none => rfl
  | some output =>
      have named : output.name = ref.name := by simpa using List.find?_some found
      obtain ⟨column, isColumn, same⟩ := own output (List.mem_of_find?_eq_some found) named
      rw [Option.map_some, Option.getD_some, isColumn, Expr.mapColumns, same]

/-- What names a side of a join stays. -/
theorem keptQualified (qualified : ref.table.isSome = true)
    (joined : part.source.fromName? used = none) : part.WritesRef dialect used ref ref := by
  have some : ref.table ≠ none := Option.isSome_iff_ne_none.mp qualified
  refine ⟨?_, fun bare => absurd bare some, fun differs => absurd rfl differs⟩
  rw [orderReads, if_neg some, joined, if_neg some]
  rfl

theorem qualifiedBy {name : String} (bare : ref.table = none)
    (called : part.source.fromName? used = some name ∨
      part.source.fromName? used = none ∧ part.source.SideShows dialect name ref.name ∧
        part.scope.pinned ref = { table := some name, name := ref.name }) :
    part.WritesRef dialect used ref { table := some name, name := ref.name } := by
  refine ⟨?_, fun none => absurd none (Option.some_ne_none name), fun _ =>
    ⟨bare, name, rfl, called.imp_right fun joined => joined.2.1⟩⟩
  rw [orderReads, if_neg (Option.some_ne_none name)]
  rcases called with only | ⟨joined, _, side⟩
  · have same : ({ name := ref.name } : ColumnRef) = ref := by
      rw [← bare]
    rw [only, if_pos rfl, same]
    rfl
  · rw [joined, if_neg (Option.some_ne_none name), side]
    exact congrArg Expr.column (part.scope.pinned_of_qualified rfl)

end Statement.WritesRef

theorem Relation.exists_extent_scope (dialect : Dialect) (relation : Relation) :
    ∃ isOpen, (relation.scope dialect).extent = .single isOpen := by
  cases relation with
  | table ref shownAs =>
      rw [Relation.scope, TableRef.scope]
      split <;> exact ⟨_, rfl⟩
  | subquery source clauses => exact ⟨_, clauses.extent_visibleScope dialect⟩

theorem Relation.table_of_mem_scope (dialect : Dialect) (relation : Relation) :
    ∀ column ∈ (relation.scope dialect).columns, column.table = none := by
  intro column member
  cases relation with
  | table ref shownAs =>
      rw [Relation.scope, TableRef.scope] at member
      split at member
      · cases member
      · obtain ⟨declared, _, rfl⟩ := List.mem_map.mp member
        rfl
  | subquery source clauses =>
      rw [Relation.scope, Clauses.visibleScope] at member
      split at member
      · obtain ⟨inner, _, rfl⟩ := List.mem_map.mp member
        rfl
      · obtain ⟨output, _, rfl⟩ := List.mem_map.mp member
        rfl

/-- A join answers only with columns that it shows. -/
theorem Statement.Reads.resolvesIn {part : Statement} {expr : Expr} (reads : part.Reads expr)
    {used : Nat} (joined : part.source.fromName? used = none) : expr.ResolvesIn part.scope := by
  intro ref isRef
  rcases reads ref isRef with resolves | ⟨_, hidden⟩
  · exact resolves
  · cases source : part.source with
    | relation relation =>
        rw [source] at joined
        cases relation <;> cases joined
    | join left leftName right rightName kind on =>
        rw [source] at hidden
        cases hidden

/-- The columns of a join carry their side. -/
theorem Source.exists_side_of_joined (dialect : Dialect) {source : Source} {used : Nat}
    (joined : source.fromName? used = none) :
    (∃ openSide, (source.scope dialect).extent = .joined openSide) ∧
      ∀ column ∈ (source.scope dialect).columns, ∃ side, column.table = some side ∧
        source.SideShows dialect side column.name := by
  cases source with
  | relation relation => cases relation <;> cases joined
  | join left leftName right rightName kind on =>
      refine ⟨⟨_, rfl⟩, List.forall_mem_append.mpr ⟨?_, ?_⟩⟩
      · exact List.forall_mem_map.mpr fun column member =>
          ⟨leftName, rfl, .inl ⟨rfl, List.mem_map.mpr ⟨column, member, rfl⟩⟩⟩
      · exact List.forall_mem_map.mpr fun column member =>
          ⟨rightName, rfl, .inr ⟨rfl, List.mem_map.mpr ⟨column, member, rfl⟩⟩⟩

namespace Statement.Answered

variable {dialect : Dialect} {part : Statement} (answered : part.Answered dialect)

include answered

theorem reads_output {output : SelectOutput} (member : output ∈ part.outputs) :
    part.Reads output.expr := by
  cases hidden : output.hidden with
  | true => exact answered.hidden output member hidden
  | false =>
      have visible : output ∈ part.visibleOutputs :=
        List.mem_filter.mpr ⟨member, by simp [hidden]⟩
      exact fun ref isRef => .inl (answered.visible output visible ref isRef)

theorem exists_column_of_not_shadowed {output : SelectOutput} (member : output ∈ part.outputs)
    (free : output.name ∉ part.shadowedNames) :
    ∃ column, output.expr = .column column ∧ column.name = output.name ∧
      part.Reads (.column column) := by
  obtain ⟨column, isColumn, named⟩ := Clauses.exists_column_of_not_shadowed member free
  exact ⟨column, isColumn, named, isColumn ▸ answered.reads_output member⟩

section Single

variable {relation : Relation} (source : part.source = .relation relation)

include source

/-- The only relation of a statement needs no qualifier. -/
theorem table_of_relation {expr : Expr} (reads : part.Reads expr) {ref : ColumnRef}
    (isRef : ref ∈ expr.columnRefs) : ref.table = none := by
  rcases reads ref isRef with resolves | hidden
  · obtain ⟨isOpen, single⟩ := relation.exists_extent_scope dialect
    rw [answered.scope, source, Source.scope] at resolves
    simp only [Scope.Resolves, single] at resolves
    exact resolves.1
  · exact hidden.1

theorem pinned_of_relation (ref : ColumnRef) : part.scope.pinned ref = ref := by
  have nowhere : part.scope.sourceSide? ref.name = none := by
    rw [Scope.sourceSide?, Option.bind_eq_none_iff]
    intro column found
    rw [answered.scope, source] at found
    exact relation.table_of_mem_scope dialect column (List.mem_of_find?_eq_some found)
  rw [Scope.pinned, nowhere, Option.or_none]

/-- Where the only relation answers, every shadowed name is qualified by what it is called. -/
theorem writesRef_of_relation {used : Nat} {expr : Expr} (reads : part.Reads expr)
    {ref : ColumnRef} (isRef : ref ∈ expr.columnRefs) :
    part.WritesRef dialect used ref (part.writtenRef (part.source.fromName? used) ref) := by
  have pinned := answered.pinned_of_relation source
  have bareRef := answered.table_of_relation source reads isRef
  obtain ⟨name, called⟩ : ∃ name, part.source.fromName? used = some name := by
    rw [source]
    cases relation <;> exact ⟨_, rfl⟩
  unfold Clauses.writtenRef
  split
  · have qualified : part.sourceQualifier? (part.source.fromName? used) ref.name = some name := by
      simp [Clauses.sourceQualifier?, called]
    rw [qualified]
    exact .qualifiedBy bareRef (.inl called)
  · rename_i free
    simp only [bareRef, Option.isNone_none, Bool.true_and, List.contains_iff_mem] at free
    refine .keptBare bareRef fun output member named => ?_
    obtain ⟨column, isColumn, sameName, reads⟩ :=
      answered.exists_column_of_not_shadowed member (named ▸ free)
    have bareColumn := answered.table_of_relation source reads (List.mem_singleton.mpr rfl)
    refine ⟨column, isColumn, congrArg part.scope.pinned ?_⟩
    rw [ColumnRef.mk.injEq, bareColumn, bareRef]
    exact ⟨rfl, sameName.trans named⟩

end Single

section Joined

variable {used : Nat} (joined : part.source.fromName? used = none)

include joined

/-- A bare name in a join is that of a single column, and no undeclared one can have it. -/
theorem exists_side {ref : ColumnRef} (resolves : part.scope.Resolves ref)
    (bare : ref.table = none) :
    ∃ column side, part.scope.matching ref.name = [column] ∧ column.table = some side ∧
      part.scope.sourceSide? ref.name = some side ∧
      part.source.SideShows dialect side ref.name ∧ part.scope.extent = .joined none := by
  obtain ⟨⟨openSide, extent⟩, sides⟩ := Source.exists_side_of_joined dialect joined
  rw [← answered.scope] at extent sides
  simp only [Scope.Resolves, extent, bare] at resolves
  obtain ⟨single, closed⟩ := resolves
  obtain ⟨column, only⟩ := List.length_eq_one_iff.mp single
  have member : column ∈ part.scope.matching ref.name := by
    rw [only]
    exact List.mem_singleton.mpr rfl
  obtain ⟨isColumn, named⟩ := List.mem_filter.mp member
  obtain ⟨side, tagged, shows⟩ := sides column isColumn
  rw [eq_of_beq named] at shows
  refine ⟨column, side, only, tagged, ?_, shows, by rw [extent, closed]⟩
  rw [Scope.sourceSide?, ← List.head?_filter, ← Scope.matching, only]
  exact tagged

/-- Where a bare name stands for a column, so does every other reference of the name. -/
theorem pinned_eq {ref other : ColumnRef} (resolves : part.scope.Resolves ref)
    (bare : ref.table = none) (otherResolves : part.scope.Resolves other)
    (named : other.name = ref.name) : part.scope.pinned other = part.scope.pinned ref := by
  obtain ⟨column, side, only, tagged, first, _, extent⟩ := answered.exists_side joined resolves bare
  rw [Scope.pinned, Scope.pinned, named, bare, first]
  cases table : other.table with
  | none => rfl
  | some otherSide =>
      simp only [Scope.Resolves, extent, table, reduceCtorEq, or_false] at otherResolves
      obtain ⟨found, member, rfl⟩ := List.mem_map.mp otherResolves
      have listed : found ∈ part.scope.matching ref.name :=
        List.mem_filter.mpr ⟨member, beq_iff_eq.mpr named⟩
      rw [only, List.mem_singleton] at listed
      subst listed
      rw [ScopeColumn.ref, tagged] at table
      cases table
      rfl

/-- In a join every shadowed name is qualified by the side that has the column. -/
theorem writesRef_of_joined {expr : Expr} (reads : part.Reads expr) {ref : ColumnRef}
    (isRef : ref ∈ expr.columnRefs) :
    part.WritesRef dialect used ref (part.writtenRef (part.source.fromName? used) ref) := by
  have resolves := Reads.resolvesIn reads joined ref isRef
  unfold Clauses.writtenRef
  cases table : ref.table with
  | some side =>
      have qualified : ref.table.isSome = true := by rw [table]; rfl
      exact .keptQualified qualified joined
  | none =>
      split
      · obtain ⟨_, side, _, _, first, shows, _⟩ := answered.exists_side joined resolves table
        have qualified : part.sourceQualifier? (part.source.fromName? used) ref.name =
            some side := by
          rw [Clauses.sourceQualifier?, joined, Option.none_or, ← Scope.sourceSide?, first]
          rfl
        rw [qualified]
        refine .qualifiedBy table (.inr ⟨joined, shows, ?_⟩)
        rw [Scope.pinned, table, first, Option.none_or]
      · rename_i free
        simp only [Option.isNone_none, Bool.true_and, List.contains_iff_mem] at free
        refine .keptBare table fun output member named => ?_
        obtain ⟨column, isColumn, sameName, reads⟩ :=
          answered.exists_column_of_not_shadowed member (named ▸ free)
        exact ⟨column, isColumn, answered.pinned_eq joined resolves table
          (Reads.resolvesIn reads joined column (List.mem_singleton.mpr rfl))
          (sameName.trans named)⟩

end Joined

theorem writesRef {used : Nat} {expr : Expr} (reads : part.Reads expr) {ref : ColumnRef}
    (isRef : ref ∈ expr.columnRefs) :
    part.WritesRef dialect used ref (part.writtenRef (part.source.fromName? used) ref) := by
  cases source : part.source with
  | relation relation => exact source ▸ answered.writesRef_of_relation source reads isRef
  | join left leftName right rightName kind on =>
      have joined : part.source.fromName? used = none := by
        rw [source]
        rfl
      exact source ▸ answered.writesRef_of_joined joined reads isRef

/-- A key goes by the only output of a name, or all its references read as planned. -/
theorem writesKey {used : Nat} (distinct : (part.outputs.map (·.name)).Nodup) {key : Expr}
    (reads : part.Reads key) :
    part.WritesKey dialect used key (part.writtenKey (part.source.fromName? used) key) := by
  unfold Clauses.writtenKey
  cases found : part.aliased? key with
  | none => exact .spelled fun ref isRef => answered.writesRef reads isRef
  | some output =>
      have member : output ∈ part.outputs := List.mem_of_find?_eq_some found
      have equal := List.find?_some found
      simp only [Bool.and_eq_true] at equal
      refine .alias member equal.2 ?_
      rw [orderReads, if_pos rfl]
      cases first : part.outputs.find? fun other => other.name == output.name with
      | none => exact absurd (beq_self_eq_true _) (List.find?_eq_none.mp first output member)
      | some other =>
          have named : other.name = output.name := by simpa using List.find?_some first
          rw [List.inj_on_of_nodup_map distinct (List.mem_of_find?_eq_some first) member named]
          rfl

end Statement.Answered

/-- In every part of a planned statement, at any depth and with any source, whose outputs have
different names, the ordering is written so that it reads as planned: a key goes by the name
of an output that equals it, or else each of its columns is written bare where no other output
goes by the name, and behind the name of its relation or of its side of a join where one does.
That name is the one by which the text calls the relation. -/
theorem Plan.order_names_read_as_keys {dialect : Dialect} {plan : Plan} {statement : Statement}
    (planned : plan.statement dialect = .ok statement) {part : Statement}
    (member : part ∈ statement.parts) (distinct : (part.outputs.map (·.name)).Nodup)
    (used : Nat) :
    part.WritesFrom dialect used ∧
      ∀ key ∈ part.orderBy, ∃ written, part.WritesKey dialect used key.expr written ∧
        part.keyText dialect (part.source.fromName? used) key =
          (written.sql (part.setting dialect) part.isGrouped).map key.direction.marked := by
  obtain ⟨draft, success, statementEq⟩ := bind_eq_ok.mp planned
  cases pure_eq_ok.mp statementEq
  have answered := (Plan.drafted success).answered part member
  refine ⟨part.writesFrom dialect used, fun key isKey => ?_⟩
  exact ⟨_, answered.writesKey distinct (answered.orderBy key isKey),
    part.keyText_eq dialect _ key⟩

/-- Rows by a column whose name another one takes, and by a sum that is put out. -/
def Plan.renamedBehindKeys : Plan :=
  .projected
    (.sorted (.base { name := "t", columns := some [⟨"a", none⟩, ⟨"b", none⟩] })
      [{ expr := .named "a" },
        { expr := .binary (.arithmetic .add) (.named "a") (.named "b"), direction := .descending }])
    [{ name := "a", expr := .named "b" },
      { name := "c", expr := .binary (.arithmetic .add) (.named "a") (.named "b") }] false

theorem Plan.order_names_read_as_keys_renamed :
    ∃ statement, renamedBehindKeys.statement .postgres = .ok statement ∧
      (statement.outputs.map (·.name)).Nodup ∧ statement.orderBy.length = 2 ∧
      statement.WritesFrom .postgres 0 ∧
      ∀ key ∈ statement.orderBy, ∃ written, statement.WritesKey .postgres 0 key.expr written ∧
        statement.keyText .postgres (statement.source.fromName? 0) key =
          (written.sql (statement.setting .postgres) statement.isGrouped).map
            key.direction.marked := by
  obtain ⟨statement, planned, distinct, two⟩ : ∃ statement,
      renamedBehindKeys.statement .postgres = .ok statement ∧
        (statement.outputs.map (·.name)).Nodup ∧ statement.orderBy.length = 2 :=
    ⟨_, rfl, by decide +kernel, rfl⟩
  exact ⟨statement, planned, distinct, two,
    order_names_read_as_keys planned List.mem_cons_self distinct 0⟩

end SqlPlan
