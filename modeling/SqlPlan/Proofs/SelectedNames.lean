import SqlPlan.Proofs.Aliasing

/-!
# The columns that a selection keeps

A selection takes its names through a record whose keys are their column parts.
So it gives the columns it was asked for, in that order, where a record holds the
parts in that order: none twice, and no array index behind a larger one or behind
another name.  Otherwise it drops or reorders columns.  A name reads the column
that it refers to, unless the selection nests the statement of a join and what is
read from outside is another column of that name.
-/

namespace SqlPlan

/-! ## Keys in the order of a record -/

namespace Record

variable {α : Type}

theorem precedes_eq_true {new old : String} :
    precedes new old = true ↔
      ∃ index, index? new = some index ∧ ∀ other, index? old = some other → index < other := by
  unfold precedes
  cases index? new <;> cases index? old <;> simp

theorem precedes_trans {first second third : String} (before : precedes first second = true)
    (after : precedes second third = true) : precedes first third = true := by
  obtain ⟨index, isFirst, below⟩ := precedes_eq_true.mp before
  obtain ⟨middle, isSecond, belowThird⟩ := precedes_eq_true.mp after
  refine precedes_eq_true.mpr ⟨index, isFirst, fun other isThird => ?_⟩
  exact Nat.lt_trans (below middle isSecond) (belowThird other isThird)

theorem precedes_asymm {first second : String} (before : precedes first second = true) :
    precedes second first = false := by
  rw [Bool.eq_false_iff]
  intro after
  obtain ⟨index, isFirst, below⟩ := precedes_eq_true.mp (precedes_trans before after)
  exact Nat.lt_irrefl index (below index isFirst)

/-- Keys as a record holds them. -/
def InOrder (keys : List String) : Prop :=
  keys.Pairwise fun earlier later => earlier ≠ later ∧ precedes later earlier = false

theorem insertEntry_of_last {key : String} {value : α} {entries : List (String × α)}
    (last : ∀ old ∈ entries.map Prod.fst, old ≠ key ∧ precedes key old = false) :
    insertEntry key value entries = entries ++ [(key, value)] := by
  induction entries with
  | nil => rfl
  | cons entry rest induction =>
      obtain ⟨old, held⟩ := entry
      obtain ⟨⟨different, behind⟩, last⟩ := List.forall_mem_cons.mp last
      rw [insertEntry, if_neg (Ne.symm different), if_neg (by simp [behind]), induction last]
      rfl

theorem inOrder_insertEntry (key : String) (value : α) {entries : List (String × α)}
    (ordered : InOrder (entries.map Prod.fst)) :
    InOrder ((insertEntry key value entries).map Prod.fst) := by
  induction entries with
  | nil => exact List.pairwise_singleton _ _
  | cons entry rest induction =>
      obtain ⟨old, held⟩ := entry
      obtain ⟨first, ordered⟩ := List.pairwise_cons.mp ordered
      rw [insertEntry]
      split
      · exact List.pairwise_cons.mpr ⟨first, ordered⟩
      · rename_i different
        split
        · rename_i placed
          refine List.pairwise_cons.mpr ⟨?_, List.pairwise_cons.mpr ⟨first, ordered⟩⟩
          intro later member
          rcases List.mem_cons.mp member with rfl | member
          · exact ⟨different, precedes_asymm placed.1⟩
          · refine ⟨?_, ?_⟩
            · rintro rfl
              exact placed.2 member
            -- A key before this one would be before the old one too.
            rw [Bool.eq_false_iff]
            intro before
            have earlier := precedes_trans before placed.1
            rw [(first later member).2] at earlier
            cases earlier
        · rename_i kept
          refine List.pairwise_cons.mpr ⟨?_, induction ordered⟩
          intro later member
          rcases (mem_keys_insertEntry key value rest later).mp member with rfl | member
          · by_cases known : later ∈ rest.map Prod.fst
            · exact first later known
            · exact ⟨Ne.symm different,
                Bool.eq_false_iff.mpr fun before => kept ⟨before, known⟩⟩
          · exact first later member

theorem inOrder_keys_ofList (pairs : List (String × α)) : InOrder (ofList pairs).keys := by
  unfold ofList
  refine List.foldlRecOn (motive := fun record : Record α => InOrder record.keys) pairs _
    List.Pairwise.nil ?_
  intro record ordered pair _
  exact inOrder_insertEntry pair.1 pair.2 ordered

theorem entries_foldl_insert (record : Record α) {pairs : List (String × α)}
    (ordered : InOrder (record.keys ++ pairs.map Prod.fst)) :
    (pairs.foldl (fun record (key, value) => record.insert key value) record).entries =
      record.entries ++ pairs := by
  induction pairs generalizing record with
  | nil => exact (List.append_nil _).symm
  | cons pair rest induction =>
      obtain ⟨_, _, across⟩ := List.pairwise_append.mp ordered
      have appended : (record.insert pair.1 pair.2).entries = record.entries ++ [pair] :=
        insertEntry_of_last fun old member => across old member pair.1 List.mem_cons_self
      have still : InOrder ((record.insert pair.1 pair.2).keys ++ rest.map Prod.fst) := by
        rw [keys, appended, List.map_append, List.append_assoc]
        exact ordered
      rw [List.foldl_cons, induction _ still, appended, List.append_assoc, List.singleton_append]

theorem entries_ofList {pairs : List (String × α)} (ordered : InOrder (pairs.map Prod.fst)) :
    (ofList pairs).entries = pairs := entries_foldl_insert empty ordered

/-- A record holds keys in the order in which they are given if and only if they are in order. -/
theorem keys_ofList_eq_iff {pairs : List (String × α)} :
    (ofList pairs).keys = pairs.map Prod.fst ↔ InOrder (pairs.map Prod.fst) := by
  constructor
  · intro same
    rw [← same]
    exact inOrder_keys_ofList pairs
  · intro ordered
    rw [keys, entries_ofList ordered]

end Record

/-! ## What a name refers to -/

namespace Clauses

variable {clauses : Clauses} {ref : ColumnRef} {located : Located}

/-- Over a single relation a name stands for the same behind a qualifier or without one. -/
theorem locate_unqualified (single : clauses.scope.isJoined = false)
    (found : clauses.locate ref = .ok located) :
    clauses.locate { name := ref.name } = .ok located := by
  obtain ⟨table, name⟩ := ref
  cases table with
  | none => exact found
  | some table =>
      by_cases named : table ∈ clauses.qualifiers
      · rw [← found]
        exact (locate_qualified single named rfl).symm
      · have unknown : clauses.qualifiers.contains table = false := by simpa using named
        have extent := Scope.extent_of_single single
        cases select : clauses.select with
        | none =>
            rw [locate_of_select_none select, locateInSource] at found
            simp only [Scope.resolve, extent, Scope.resolveSingle, unknown] at found
            cases found
        | some items =>
            simp only [locate, select, single, unknown] at found
            cases found

theorem locate_ofColumns {names : List String}
    (select : clauses.select = some (names.map SelectItem.ofColumn)) {name : String}
    (found : clauses.locate { name } = .ok located) : located = .source (.named name) := by
  rw [locate_of_select_some select rfl, locateOutput, visibleOutputs_ofColumn select,
    star?_ofColumn select] at found
  split at found
  · rename_i output isOutput
    obtain ⟨listed, _, rfl⟩ := List.mem_map.mp (List.mem_of_find?_eq_some isOutput)
    have named : listed = name := by simpa using List.find?_some isOutput
    cases found
    rw [named]
  · dsimp only at found
    split at found <;> cases found

end Clauses

namespace Draft

variable {dialect : Dialect} {draft : Draft} {ref : ColumnRef}

/-- What a later statement reads is what the reference stands for in the draft: it
reads the same source, or it reads the draft as a subquery, by a name that stands for
the same there. -/
inductive Refers (dialect : Dialect) (draft : Draft) (ref : ColumnRef) (later : Statement) :
    Expr → Prop where
  | here {expr : Expr} :
      later.source = draft.statement.source → draft.statement.locate ref = .ok (.source expr) →
        Refers dialect draft ref later expr
  | around {name : String} {located : Located} :
      later.source = (draft.nest dialect).statement.source →
        draft.statement.locate ref = .ok located →
        draft.statement.locate { name } = .ok located →
        Refers dialect draft ref later (.named name)

/-- The statement around a draft reads its columns by their bare names. -/
theorem sourceOf_nest {located : Located}
    (found : (draft.nest dialect).statement.locate ref = .ok located) :
    (draft.nest dialect).statement.sourceOf ref = .named ref.name := by
  have single := draft.single_nest dialect
  have bare := Clauses.locate_unqualified single found
  have isName : located = .source (.named ref.name) := by
    by_cases whole : (draft.nest dialect).statement.select = none
    · rw [Clauses.locate_of_select_none whole, Clauses.locateInSource,
        Scope.resolve_of_single single rfl] at bare
      split at bare <;> cases bare
      rfl
    · have select : (draft.nest dialect).statement.select =
          some (draft.statement.visibleNames.map SelectItem.ofColumn) := by
        rw [draft.nest_eq dialect] at whole ⊢
        exact if_neg fun isNone => whole (if_pos isNone)
      exact Clauses.locate_ofColumns select bare
  rw [Clauses.sourceOf, found, isName]
  rfl

/-- A reference that is accepted reads what it stands for, unless the draft is nested and
its bare name stands for something else. -/
theorem refers_settled_iff {refs : List ColumnRef} (accepts : draft.Accepts dialect refs)
    (member : ref ∈ refs) {later : Statement}
    (reads : later.source = (draft.settled dialect refs).statement.source) :
    draft.Refers dialect ref later ((draft.settled dialect refs).statement.sourceOf ref) ↔
      later.source = draft.statement.source ∨
        draft.statement.locate ref = draft.statement.locate { name := ref.name } := by
  obtain ⟨located, found⟩ := Clauses.refusal?_eq_none.mp (accepts ref member).1
  obtain ⟨outer, outerFound⟩ := Clauses.refusal?_eq_none.mp (accepts ref member).2
  by_cases derived : refs.any draft.statement.isDerived = true
  · have nested : draft.settled dialect refs = draft.nest dialect := if_pos derived
    rw [nested] at reads outerFound ⊢
    have apart : later.source ≠ draft.statement.source := reads ▸ draft.source_nest_ne dialect
    rw [sourceOf_nest outerFound, or_iff_right apart]
    constructor
    · intro refers
      generalize named : Expr.named ref.name = expr at refers
      cases refers with
      | here same _ => exact absurd same apart
      | around _ here bare =>
          cases named
          rw [here, bare]
    · intro alike
      exact .around reads found (alike ▸ found)
  · have kept : draft.settled dialect refs = draft := if_neg derived
    rw [kept] at reads ⊢
    refine iff_of_true ?_ (.inl reads)
    have underived : draft.statement.isDerived ref = false := by
      simp only [List.any_eq_true, not_exists, not_and, Bool.not_eq_true] at derived
      exact derived ref member
    refine .here reads ?_
    rw [Clauses.sourceOf, found]
    cases located with
    | source expr => rfl
    | derived output => simp [Clauses.isDerived, found, Located.isDerived] at underived

end Draft

/-! ## Selections -/

/-- The column parts of names. -/
def Names.columnParts (names : List String) : List String :=
  names.map fun name => (Expr.splitDotted name).name

/-- What a selection asks for, as a record. -/
def Record.ofNames (names : List String) : Record Expr :=
  .ofList (names.map fun name => ((Expr.splitDotted name).name, .column (Expr.splitDotted name)))

namespace Record

theorem keys_ofNames_eq_iff {names : List String} :
    (ofNames names).keys = Names.columnParts names ↔ InOrder (Names.columnParts names) := by
  have parts : (names.map fun name => ((Expr.splitDotted name).name,
      Expr.column (Expr.splitDotted name))).map Prod.fst = Names.columnParts names := by
    rw [List.map_map]
    rfl
  rw [← parts]
  exact keys_ofList_eq_iff

theorem outputs_ofNames {names : List String} (ordered : InOrder (Names.columnParts names)) :
    Output.ofRecord (ofNames names) = names.map fun name =>
      { name := (Expr.splitDotted name).name, expr := .column (Expr.splitDotted name) } := by
  have entries : (ofNames names).entries = names.map fun name =>
      ((Expr.splitDotted name).name, .column (Expr.splitDotted name)) := by
    refine entries_ofList ?_
    rw [List.map_map]
    exact ordered
  rw [Output.ofRecord, entries, List.map_map]
  rfl

end Record

namespace Draft

/-- The outputs are the named columns in the order of the names, each under its column
part, and each reads what its name stands for in the draft. -/
def Selects (dialect : Dialect) (draft : Draft) (names : List String) (later : Statement)
    (outputs : List Output) : Prop :=
  List.Forall₂ (fun name output => output.name = (Expr.splitDotted name).name ∧
    draft.Refers dialect (Expr.splitDotted name) later output.expr) names outputs

theorem Selects.names_eq {dialect : Dialect} {draft : Draft} {names : List String}
    {later : Statement} {outputs : List Output}
    (selects : draft.Selects dialect names later outputs) :
    outputs.map (·.name) = Names.columnParts names := by
  unfold Selects at selects
  induction selects with
  | nil => rfl
  | cons head _ induction =>
      rw [List.map_cons, head.1, induction]
      rfl

/-- No name is read from outside of the draft where its bare part stands for something else. -/
def Keeps (draft : Draft) (names : List String) (later : Statement) : Prop :=
  later.source = draft.statement.source ∨ ∀ name ∈ names,
    draft.statement.locate (Expr.splitDotted name) =
      draft.statement.locate { name := (Expr.splitDotted name).name }

/-- The outputs in terms of what a statement reads. -/
def readOutputs (draft : Draft) (outputs : List Output) : List Output :=
  outputs.map fun output =>
    { output with expr := output.expr.mapColumns .everywhere draft.statement.sourceOf }

theorem names_readOutputs (draft : Draft) (mapping : Record Expr) :
    (draft.readOutputs (Output.ofRecord mapping)).map (·.name) = mapping.keys := by
  rw [readOutputs, Output.ofRecord, List.map_map, List.map_map]
  rfl

theorem selects_iff_keeps {dialect : Dialect} {draft : Draft} {names : List String}
    {refs : List ColumnRef} {later : Statement} (accepts : draft.Accepts dialect refs)
    (reads : later.source = (draft.settled dialect refs).statement.source)
    (asked : refs = Output.refs (Output.ofRecord (.ofNames names)))
    (ordered : Record.InOrder (Names.columnParts names)) :
    draft.Selects dialect names later
        ((draft.settled dialect refs).readOutputs (Output.ofRecord (.ofNames names))) ↔
      draft.Keeps names later := by
  have listed : ∀ name ∈ names, Expr.splitDotted name ∈ refs := by
    intro name member
    rw [asked, Record.outputs_ofNames ordered]
    exact Output.mem_refs.mpr ⟨_, List.mem_map_of_mem member, List.mem_singleton_self _⟩
  have each : draft.Selects dialect names later
      ((draft.settled dialect refs).readOutputs (Output.ofRecord (.ofNames names))) ↔
        ∀ name ∈ names, later.source = draft.statement.source ∨
          draft.statement.locate (Expr.splitDotted name) =
            draft.statement.locate { name := (Expr.splitDotted name).name } := by
    rw [Selects, readOutputs, Record.outputs_ofNames ordered, List.map_map,
      List.forall₂_map_right_iff, List.forall₂_same]
    refine forall₂_congr fun name member => ?_
    exact (and_iff_right rfl).trans (refers_settled_iff accepts (listed name member) reads)
  rw [each, Keeps]
  by_cases same : later.source = draft.statement.source
  · simp [same]
  · simp [same]

theorem selects_iff {dialect : Dialect} {draft result : Draft} {names : List String}
    (success : draft.project dialect (Output.ofRecord (.ofNames names)) false = .ok result) :
    ∃ outputs, result.statement.select = some (outputs.map Output.item) ∧
      outputs.map (·.name) = (Record.ofNames names).keys ∧
      ((draft.unsealed dialect).Selects dialect names result.statement outputs ↔
        Record.InOrder (Names.columnParts names) ∧
          (draft.unsealed dialect).Keeps names result.statement) := by
  obtain ⟨_, accepts, rfl⟩ := project_eq_ok.mp success
  let refs := Output.refs (Output.ofRecord (.ofNames names))
  have named := ((draft.unsealed dialect).settled dialect refs).names_readOutputs (.ofNames names)
  have reads : (((draft.unsealed dialect).settled dialect refs).selecting
      (Output.ofRecord (.ofNames names))).statement.source =
        ((draft.unsealed dialect).settled dialect refs).statement.source := rfl
  refine ⟨_, rfl, named, ?_⟩
  constructor
  · intro selects
    have ordered := Record.keys_ofNames_eq_iff.mp (named.symm.trans selects.names_eq)
    exact ⟨ordered, (selects_iff_keeps accepts reads rfl ordered).mp selects⟩
  · rintro ⟨ordered, keeps⟩
    exact (selects_iff_keeps accepts reads rfl ordered).mpr keeps

end Draft

namespace Plan

/-- A projection, merged or not, is one of the draft before it. -/
theorem exists_project_of_draft {dialect : Dialect} {used : Nat} {plan next : Plan}
    {mapping : Record Expr} {result : Draft} (distinct : plan.DistinctNames)
    (projected : plan.project mapping = .ok next) (drafted : next.draft dialect used = .ok result) :
    ∃ draft, plan.draft dialect used = .ok draft ∧
      draft.project dialect (Output.ofRecord mapping) false = .ok result := by
  rcases project_eq_ok projected with rfl | ⟨input, earlier, merged, rfl, merges, rfl⟩
  · exact bind_eq_ok.mp drafted
  · obtain ⟨draft, inputDrafted, success⟩ := bind_eq_ok.mp drafted
    have merges := merges_of_mergedOutputs? distinct.2.1 merges
    obtain ⟨middle, earlierOk, laterOk⟩ := merges.project_iff.mp success
    exact ⟨middle, bind_eq_ok.mpr ⟨draft, inputDrafted, earlierOk⟩, laterOk⟩

/-- A selection puts out its names in the order of a record.  They are what was asked for
if and only if they were given in that order and none of them is read from outside of a
statement in which its bare name stands for something else. -/
theorem select_keeps_names_iff {dialect : Dialect} {plan next : Plan} {names : List String}
    {statement : Statement} (built : plan.Built) (selected : plan.select names = .ok next)
    (planned : next.statement dialect = .ok statement) :
    ∃ draft outputs, plan.draft dialect 0 = .ok draft ∧
      statement.select = some (outputs.map Output.item) ∧
      outputs.map (·.name) = (Record.ofNames names).keys ∧
      next.columns dialect = .ok (some (Record.ofNames names).keys) ∧
      ((draft.unsealed dialect).Selects dialect names statement outputs ↔
        Record.InOrder (Names.columnParts names) ∧
          (draft.unsealed dialect).Keeps names statement) := by
  obtain ⟨result, drafted, same⟩ := bind_eq_ok.mp planned
  cases same
  obtain ⟨draft, planDrafted, success⟩ :=
    exists_project_of_draft built.distinctNames selected drafted
  obtain ⟨outputs, select, keys, iff⟩ := Draft.selects_iff success
  refine ⟨draft, outputs, planDrafted, select, keys, ?_, iff⟩
  rw [Plan.columns, planned, ← keys, ← Clauses.visibleNames_of_items select,
    ← Clauses.names_visibleScope _ dialect]
  change Except.ok (if _ then none else _) = _
  rw [Clauses.isOpen_of_items select]
  rfl

theorem select_keeps_names_iff_paired :
    ∃ next statement draft outputs, paired.select ["u.a", "t.id"] = .ok next ∧
      next.statement .postgres = .ok statement ∧ paired.draft .postgres 0 = .ok draft ∧
      statement.select = some (outputs.map Output.item) ∧
      (draft.unsealed .postgres).Selects .postgres ["u.a", "t.id"] statement outputs := by
  obtain ⟨next, statement, draft, selected, planned, drafted, same⟩ : ∃ next statement draft,
      paired.select ["u.a", "t.id"] = .ok next ∧ next.statement .postgres = .ok statement ∧
        paired.draft .postgres 0 = .ok draft ∧
        statement.source = (draft.unsealed .postgres).statement.source :=
    ⟨_, _, _, rfl, rfl, rfl, rfl⟩
  obtain ⟨other, outputs, otherDrafted, select, _, _, iff⟩ :=
    select_keeps_names_iff paired_built selected planned
  cases drafted.symm.trans otherDrafted
  have ordered : Record.InOrder (Names.columnParts ["u.a", "t.id"]) := by
    unfold Record.InOrder
    decide +kernel
  exact ⟨next, statement, draft, outputs, selected, planned, drafted, select,
    iff.mpr ⟨ordered, .inl same⟩⟩

/-- Two columns whose names are array indices. -/
def numbered : Plan := .base { name := "t", columns := some [⟨"1", none⟩, ⟨"2", none⟩] }

/-- Array indices come out in their own order, and of two columns of one name from the two
sides of a join only the last comes out. -/
theorem select_reorders_and_drops :
    (∃ next, numbered.select ["2", "1"] = .ok next ∧
      next.columns .postgres = .ok (some ["1", "2"])) ∧
    ∃ next, paired.select ["t.a", "u.a"] = .ok next ∧
      next.columns .postgres = .ok (some ["a"]) :=
  ⟨⟨_, rfl, rfl⟩, ⟨_, rfl, rfl⟩⟩

end Plan

end SqlPlan
