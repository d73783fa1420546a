import Mathlib.Data.List.MinMax
import SqlPlan.Proofs.Meaning.Steps
import SqlPlan.Proofs.RowSteps

/-!
# Renaming columns

A renaming looks for the place of a column under the name as it is written, and
for its value under the name that the written one refers to.  The two agree for
a bare name: its column gives its place to the new one.  What is written behind
a qualifier is no column's own name, so that the column stays where it is and
the new name comes to the end.
-/

namespace SqlPlan

/-! ## Written names -/

namespace Expr

/-- A name that is written without a qualifier. -/
def isBare (name : String) : Bool := (splitDotted name).table.isNone

/-- A written name refers to itself, or to a shorter one behind a qualifier. -/
theorem splitDotted_cases (name : String) :
    splitDotted name = { name } ∨
      ∃ table rest, splitDotted name = { table := some table, name := rest } ∧
        rest.length < name.length := by
  have length : (name.toList.takeWhile (· ≠ '.')).length +
      (name.toList.dropWhile (· ≠ '.')).length = name.length := by
    rw [← List.length_append, List.takeWhile_append_dropWhile, String.length_toList]
  unfold splitDotted
  dsimp only
  split
  · rename_i dot rest after
    split
    · exact .inl rfl
    · refine .inr ⟨_, _, rfl, ?_⟩
      rw [after, List.length_cons] at length
      rw [String.length_ofList]
      omega
  · exact .inl rfl

theorem splitDotted_of_isBare {name : String} (bare : isBare name = true) :
    splitDotted name = { name } := by
  rcases splitDotted_cases name with same | ⟨table, rest, split, _⟩
  · exact same
  · rw [isBare, split] at bare
    cases bare

theorem length_splitDotted_lt {name : String} (qualified : isBare name = false) :
    (splitDotted name).name.length < name.length := by
  rcases splitDotted_cases name with same | ⟨table, rest, split, shorter⟩
  · rw [isBare, same] at qualified
    cases qualified
  · rw [split]
    exact shorter

end Expr

/-! ## Outputs beside columns -/

/-- The name in the place of a column; each pair holds a column and the name that takes its
place. -/
def Names.replacement (pairs : List (String × String)) (name : String) : String :=
  ((pairs.find? fun pair => pair.1 == name).map Prod.snd).getD name

/-- Columns after names take the places of theirs; those without a column come to the end. -/
def Names.replaced (pairs : List (String × String)) (names : List String) : List String :=
  names.map (replacement pairs) ++
    (pairs.filter fun pair => !names.contains pair.1).map Prod.snd

/-- The columns whose places outputs take, with the names of the outputs. -/
def Output.places (outputs : List Output) : List (String × String) :=
  outputs.map fun output => (output.target, output.name)

theorem SelectItem.name?_replacedBy (outputs : List Output) (selected : SelectOutput) :
    (replacedBy outputs selected.name (.output selected)).name? =
      some (Names.replacement (Output.places outputs) selected.name) := by
  simp only [replacedBy, Names.replacement, Output.places, List.find?_map, Function.comp_def]
  cases outputs.find? fun output => output.target == selected.name <;> rfl

namespace Clauses

variable {clauses : Clauses} {dialect : Dialect}

/-- Where all columns are known, the items written out are visible outputs. -/
theorem exists_shown (closed : (clauses.visibleScope dialect).isOpen = false)
    (unhidden : ∀ item ∈ clauses.select.getD [], item.isHidden = false) :
    ∃ shown : List SelectOutput, clauses.expandedSelect = shown.map .output ∧
      (∀ output ∈ shown, output.hidden = false) ∧
      clauses.visibleNames = shown.map (·.name) := by
  rw [isOpen_visibleScope] at closed
  cases select : clauses.select with
  | none =>
      rw [select] at closed
      refine ⟨clauses.scope.names.map fun name => { name, expr := .named name }, ?_, ?_, ?_⟩
      · simp [expandedSelect, select, closed, SelectItem.ofColumn, Function.comp_def]
      · simp
      · simp [visibleNames, select, Function.comp_def]
  | some items =>
      rw [select] at closed unhidden
      have starless : clauses.star? = none := by simpa using closed
      refine ⟨clauses.visibleOutputs, ?_, ?_, ?_⟩
      · simpa [expandedSelect, select] using select_eq_visibleOutputs select starless unhidden
      · intro output member
        simpa using (List.mem_filter.mp member).2
      · simp [visibleNames, select]

/-- Outputs that join the select list of a statement whose columns are known stand beside
these, and all columns stay known. -/
theorem visibleNames_extended (closed : (clauses.visibleScope dialect).isOpen = false)
    (unhidden : ∀ item ∈ clauses.select.getD [], item.isHidden = false)
    (distinct : clauses.visibleNames.Nodup) {outputs : List Output} {items : List SelectItem}
    (targets : (outputs.map Output.target).Nodup)
    (extended : clauses.extendedSelect outputs = .ok items) {next : Clauses}
    (select : next.select = some items) :
    next.visibleNames = Names.replaced (Output.places outputs) clauses.visibleNames ∧
      (next.visibleScope dialect).isOpen = false := by
  obtain ⟨shown, expanded, visible, names⟩ := exists_shown closed unhidden
  have placed := extendedSelect_eq distinct targets extended expanded visible names
  have starless : next.star? = none := by
    have stars := stars_extendedSelect extended
    have none : (shown.map SelectItem.output).filterMap SelectItem.star? = [] := by
      rw [List.filterMap_map]
      exact List.filterMap_eq_nil_iff.mpr fun _ _ => rfl
    rw [expanded, none, List.filterMap_eq_nil_iff] at stars
    rw [star?, select, Option.getD_some]
    exact List.findSome?_eq_none_iff.mpr stars
  have nextUnhidden : ∀ item ∈ items, item.isHidden = false := by
    intro item member
    rcases mem_extendedSelect extended item member with ⟨_, visible⟩ | ⟨output, _, rfl⟩
    · exact visible
    · rfl
  constructor
  · have listed : next.visibleNames = items.filterMap SelectItem.name? := by
      rw [select_eq_visibleOutputs select starless nextUnhidden, List.filterMap_map]
      simp only [visibleNames, select]
      exact (congrFun (List.filterMap_eq_map (f := fun output : SelectOutput => output.name))
        _).symm
    rw [listed, placed, List.filterMap_append, List.filterMap_map, List.filterMap_map, names,
      Names.replaced, List.map_map]
    congr 1
    · refine (List.filterMap_congr fun selected _ =>
        SelectItem.name?_replacedBy outputs selected).trans ?_
      exact congrFun List.filterMap_eq_map shown
    · rw [Output.places, List.filter_map, List.map_map]
      exact congrFun List.filterMap_eq_map _
  · rw [isOpen_visibleScope, select]
    simp [starless]

end Clauses

/-- A step that adds outputs to a plan whose columns are known puts them beside these, and
reads no bare name but theirs. -/
theorem Plan.columns_extended {dialect : Dialect} {plan : Plan} {outputs : List Output}
    {names : List String} {statement : Statement}
    (distinct : (Plan.projected plan outputs true).DistinctNames)
    (known : plan.columns dialect = .ok (some names))
    (planned : (Plan.projected plan outputs true).statement dialect = .ok statement) :
    (Plan.projected plan outputs true).columns dialect =
        .ok (some (Names.replaced (Output.places outputs) names)) ∧
      names.Nodup ∧ (Names.replaced (Output.places outputs) names).Nodup ∧
      ∀ ref ∈ Output.refs outputs, ref.table = none → ref.name ∈ names := by
  obtain ⟨result, success, statementEq⟩ := bind_eq_ok.mp planned
  cases pure_eq_ok.mp statementEq
  obtain ⟨before, current, exprs, items, beforeOk, opens, _, _, resolved, extended, rfl⟩ :=
    draft_projected success
  rw [if_pos rfl] at extended
  have drafted := Plan.drafted beforeOk
  have beforeDistinct := drafted.nodup_visibleNames distinct.1
  have currentDrafted := drafted.opens opens
  -- Whether it is nested or not, the statement that the step joins shows what the plan shows.
  have shows : (current.statement.visibleScope dialect).isOpen = false ∧
      current.statement.visibleNames = names := by
    have beforePlanned : plan.statement dialect = .ok before.statement := by
      rw [Plan.statement, beforeOk]
      rfl
    have shown := columns_eq_ok beforePlanned known
    have kept := (opens.keepsColumns beforeDistinct).scope
    rw [← Clauses.names_visibleScope _ dialect, ← kept] at shown
    rw [← Clauses.names_visibleScope _ dialect]
    split at shown
    · cases shown
    · rename_i closed
      exact ⟨by simpa using closed, (Option.some.inj shown).symm⟩
  obtain ⟨closed, rfl⟩ := shows
  have length : outputs.length = exprs.length := by
    simpa using (Clauses.resolved?_eq_some resolved).1.length_eq
  have places : Output.places (Output.withExprs outputs exprs) = Output.places outputs :=
    Output.map_withExprs (fun _ _ => rfl) length
  have targets : ((Output.withExprs outputs exprs).map Output.target).Nodup := by
    rw [Output.targets_withExprs length]
    exact distinct.2.2
  obtain ⟨visible, nextClosed⟩ := @Clauses.visibleNames_extended _ dialect closed
    (currentDrafted.exposed .ofDeclared).unhidden (currentDrafted.nodup_visibleNames distinct.1)
    _ _ targets extended { current.statement.toClauses with select := some items } rfl
  rw [places] at visible
  refine ⟨?_, currentDrafted.nodup_visibleNames distinct.1, ?_, ?_⟩
  · rw [Plan.columns, planned]
    simp only [bind, Except.bind, nextClosed, Clauses.names_visibleScope, visible]
    rfl
  · rw [← visible]
    exact (Plan.drafted success).nodup_visibleNames distinct
  · intro ref member bare
    obtain ⟨output, isOutput, isRef⟩ := Output.mem_refs.mp member
    obtain ⟨source, _, inlined⟩ := exists_mem_of_forall₂_left
      (Clauses.resolved?_eq_some resolved).1 (List.mem_map_of_mem isOutput)
    have accepted := Clauses.refusal?_eq_none.mpr ((Clauses.inlined_eq_ok inlined).1 ref isRef)
    rcases (currentDrafted.covered.refusal?_eq_none bare).mp accepted with isOpen | visible
    · rw [closed] at isOpen
      cases isOpen
    · exact visible

/-! ## Renaming -/

namespace Record

/-- The old names as they are written, each with the new one. -/
def renamings (mapping : Record String) : List (String × String) :=
  mapping.entries.map fun entry => (entry.2, entry.1)

/-- Every column that an old name refers to is called by the new one in its place, and all
others are called as before. -/
structure RenamesInPlace (mapping : Record String) (names after : List String) : Prop where
  length : after.length = names.length
  replaced : ∀ entry ∈ mapping.entries, ∃ place : Nat,
    names[place]? = some (Expr.splitDotted entry.2).name ∧ after[place]? = some entry.1
  kept : ∀ (place : Nat) (name : String), names[place]? = some name →
    (∀ entry ∈ mapping.entries, (Expr.splitDotted entry.2).name ≠ name) →
    after[place]? = some name

section Places

variable {mapping : Record String} {names : List String}

theorem replacement_of_mem (olds : (mapping.entries.map Prod.snd).Nodup) {entry : String × String}
    (member : entry ∈ mapping.entries) :
    Names.replacement mapping.renamings entry.2 = entry.1 := by
  rw [Names.replacement, renamings, List.find?_map]
  cases found : mapping.entries.find? ((fun pair => pair.1 == entry.2) ∘ fun entry =>
      (entry.2, entry.1)) with
  | none => exact absurd (beq_self_eq_true _) (List.find?_eq_none.mp found entry member)
  | some other =>
      have same : other.2 = entry.2 := by simpa using List.find?_some found
      rw [List.inj_on_of_nodup_map olds (List.mem_of_find?_eq_some found) member same]
      rfl

theorem replacement_of_absent {name : String}
    (absent : ∀ entry ∈ mapping.entries, entry.2 ≠ name) :
    Names.replacement mapping.renamings name = name := by
  have missing : mapping.renamings.find? (fun pair => pair.1 == name) = none := by
    rw [List.find?_eq_none, renamings, List.forall_mem_map]
    intro entry member
    simpa using absent entry member
  rw [Names.replacement, missing]
  rfl

/-- Nothing comes to the end where every old name is a column's own as it is written. -/
theorem replaced_eq_map (known : ∀ entry ∈ mapping.entries, entry.2 ∈ names) :
    Names.replaced mapping.renamings names =
      names.map (Names.replacement mapping.renamings) := by
  have nothing : mapping.renamings.filter (fun pair => !names.contains pair.1) = [] := by
    rw [List.filter_eq_nil_iff, renamings, List.forall_mem_map]
    intro entry member
    simp [known entry member]
  rw [Names.replaced, nothing, List.map_nil, List.append_nil]

theorem known_of_length
    (length : (Names.replaced mapping.renamings names).length = names.length) :
    ∀ entry ∈ mapping.entries, entry.2 ∈ names := by
  intro entry member
  have nothing : mapping.renamings.filter (fun pair => !names.contains pair.1) = [] := by
    rw [Names.replaced, List.length_append, List.length_map, List.length_map] at length
    exact List.eq_nil_of_length_eq_zero (by omega)
  rw [List.filter_eq_nil_iff] at nothing
  simpa using nothing _ (List.mem_map_of_mem member)

/-- Bare names are renamed in place. -/
theorem renamesInPlace_of_bare (olds : (mapping.entries.map Prod.snd).Nodup)
    (bare : ∀ entry ∈ mapping.entries, Expr.isBare entry.2 = true)
    (known : ∀ entry ∈ mapping.entries, entry.2 ∈ names) :
    mapping.RenamesInPlace names (Names.replaced mapping.renamings names) := by
  have own (entry : String × String) (member : entry ∈ mapping.entries) :
      (Expr.splitDotted entry.2).name = entry.2 := by
    rw [Expr.splitDotted_of_isBare (bare entry member)]
  rw [replaced_eq_map known]
  refine ⟨List.length_map _, fun entry member => ?_, fun place name found untouched => ?_⟩
  · obtain ⟨place, found⟩ := List.mem_iff_getElem?.mp (known entry member)
    refine ⟨place, (own entry member).symm ▸ found, ?_⟩
    rw [List.getElem?_map, found, Option.map_some, replacement_of_mem olds member]
  · rw [List.getElem?_map, found, Option.map_some, replacement_of_absent]
    exact fun entry member => own entry member ▸ untouched entry member

/-- A name that is written behind a qualifier is never renamed in place. -/
theorem bare_of_renamesInPlace (olds : (mapping.entries.map Prod.snd).Nodup)
    (after : (Names.replaced mapping.renamings names).Nodup)
    (inPlace : mapping.RenamesInPlace names (Names.replaced mapping.renamings names)) :
    ∀ entry ∈ mapping.entries, Expr.isBare entry.2 = true := by
  have known := known_of_length inPlace.length
  -- Of the names behind a qualifier the longest is none that another one refers to.
  cases longest : (mapping.entries.filter fun entry => !Expr.isBare entry.2).argmax
      fun entry => entry.2.length with
  | none =>
      rw [List.argmax_eq_none, List.filter_eq_nil_iff] at longest
      intro entry member
      simpa using longest entry member
  | some entry =>
      obtain ⟨member, dotted⟩ := List.mem_filter.mp (List.argmax_mem longest)
      have qualified : Expr.isBare entry.2 = false := by simpa using dotted
      have shorter := Expr.length_splitDotted_lt qualified
      have unread : ∀ other ∈ mapping.entries, (Expr.splitDotted other.2).name ≠ entry.2 := by
        intro other isOther refers
        cases otherBare : Expr.isBare other.2 with
        | true =>
            rw [Expr.splitDotted_of_isBare otherBare] at refers
            rw [← refers, otherBare] at qualified
            cases qualified
        | false =>
            have isDotted : other ∈ mapping.entries.filter fun entry => !Expr.isBare entry.2 :=
              List.mem_filter.mpr ⟨isOther, by simp [otherBare]⟩
            have most := List.le_of_mem_argmax isDotted longest
            have longer := Expr.length_splitDotted_lt otherBare
            rw [refers] at longer
            omega
      obtain ⟨place, found⟩ := List.mem_iff_getElem?.mp (known entry member)
      have stays := inPlace.kept place entry.2 found unread
      obtain ⟨moved, refers, called⟩ := inPlace.replaced entry member
      have same : entry.1 = entry.2 := by
        rw [replaced_eq_map known, List.getElem?_map, found, Option.map_some,
          replacement_of_mem olds member] at stays
        exact Option.some.inj stays
      have bound : place < (Names.replaced mapping.renamings names).length :=
        (List.getElem?_eq_some_iff.mp stays).1
      have onePlace : place = moved :=
        (List.getElem?_inj bound after).mp (by rw [stays, called, same])
      rw [onePlace, refers] at found
      rw [Option.some.inj found] at shorter
      exact absurd shorter (Nat.lt_irrefl _)

end Places

end Record

namespace Plan

theorem rename_eq_ok {plan next : Plan} {mapping : Record String}
    (success : plan.rename mapping = .ok next) :
    (mapping.entries.map Prod.snd).Nodup ∧ ∃ outputs, next = .projected plan outputs true ∧
      Output.places outputs = mapping.renamings ∧
      Output.refs outputs = mapping.entries.map fun entry => Expr.splitDotted entry.2 := by
  unfold rename at success
  cases repeated : Names.firstRepeat? (mapping.entries.map Prod.snd) with
  | some column =>
      rw [repeated] at success
      cases success
  | none =>
      rw [repeated] at success
      cases success
      refine ⟨Names.firstRepeat?_eq_none.mp repeated, _, rfl, ?_, ?_⟩
      · rw [Output.places, List.map_map]
        rfl
      · rw [Output.refs, Expr.refsOf, List.map_map, List.flatMap_map]
        exact List.map_eq_flatMap.symm

/-- The columns of a renamed plan are those of the plan: an old name that is a column's own as
it is written gives its place to the new one, and any other new name comes to the end.  So
columns are renamed in place, each under the name that its old one refers to, exactly where
no old name is written behind a qualifier. -/
theorem rename_in_place_iff_bare {dialect : Dialect} {plan next : Plan} {mapping : Record String}
    {names : List String} {statement : Statement} (built : plan.Built)
    (known : plan.columns dialect = .ok (some names)) (renames : plan.rename mapping = .ok next)
    (planned : next.statement dialect = .ok statement) :
    ∃ after, next.columns dialect = .ok (some after) ∧
      after = Names.replaced mapping.renamings names ∧
      (mapping.RenamesInPlace names after ↔
        ∀ entry ∈ mapping.entries, Expr.isBare entry.2 = true) := by
  have distinct := (built.rename renames).distinctNames
  obtain ⟨olds, outputs, rfl, places, refs⟩ := rename_eq_ok renames
  obtain ⟨columns, _, after, visible⟩ := columns_extended distinct known planned
  rw [places] at columns after
  rw [refs, List.forall_mem_map] at visible
  refine ⟨_, columns, rfl, Record.bare_of_renamesInPlace olds after, fun bare => ?_⟩
  refine Record.renamesInPlace_of_bare olds bare fun entry member => ?_
  have own := Expr.splitDotted_of_isBare (bare entry member)
  simpa [own] using visible entry member (by rw [own])

/-- The first rows of a table with two columns. -/
def firstPairs : Plan :=
  .limited (.base { name := "t", columns := some [⟨"a", none⟩, ⟨"b", none⟩] }) 2

theorem firstPairs_built : firstPairs.Built :=
  (Built.table (show Plan.table "t" none (some (.names ["a", "b"])) = .ok _ from rfl)).limit
    (show Plan.limit _ (.finite false 1024 0) = .ok _ from rfl)

theorem rename_in_place_iff_bare_firstPairs :
    firstPairs.Built ∧ firstPairs.columns .postgres = .ok (some ["a", "b"]) ∧
      ∃ next statement,
        firstPairs.rename (.ofList [("a", "b"), ("b", "a")]) = .ok next ∧
        next.statement .postgres = .ok statement ∧
        next.columns .postgres = .ok (some ["b", "a"]) ∧
        (Record.ofList [("a", "b"), ("b", "a")]).RenamesInPlace ["a", "b"] ["b", "a"] := by
  have known : firstPairs.columns .postgres = .ok (some ["a", "b"]) := rfl
  obtain ⟨next, statement, renames, planned⟩ : ∃ next statement,
      firstPairs.rename (.ofList [("a", "b"), ("b", "a")]) = .ok next ∧
        next.statement .postgres = .ok statement := ⟨_, _, rfl, rfl⟩
  obtain ⟨after, columns, rfl, inPlace⟩ :=
    rename_in_place_iff_bare firstPairs_built known renames planned
  exact ⟨firstPairs_built, known, next, statement, renames, planned, columns,
    inPlace.mpr (by decide +kernel)⟩

/-- What is renamed behind the name of its table stays, and comes once more at the end. -/
theorem firstPairs_renamed_twice :
    firstPairs.Built ∧ firstPairs.columns .postgres = .ok (some ["a", "b"]) ∧
      ∃ next statement,
        firstPairs.rename (.ofList [("x", "t.a")]) = .ok next ∧
        next.statement .postgres = .ok statement ∧
        next.columns .postgres = .ok (some ["a", "b", "x"]) ∧
        ¬ (Record.ofList [("x", "t.a")]).RenamesInPlace ["a", "b"] ["a", "b", "x"] :=
  ⟨firstPairs_built, rfl, _, _, rfl, rfl, rfl, fun inPlace => by cases inPlace.length⟩

end Plan

end SqlPlan
