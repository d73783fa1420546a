import SqlPlan.Compile
import SqlPlan.Proofs.Joining

/-!
# The tables of a statement

Planning moves the base tables of a plan into subqueries and join sides and names
them anew, but keeps each of them, and their order.  A statement is written from
left to right, so that a table which is recorded where its text is made comes in
that order too.  The tables of a statement are therefore those of its plan from
left to right, each name and schema once.
-/

namespace SqlPlan

/-! ## Tables without repetitions -/

namespace TableRef

/-- Tables with every later one of the same name and schema removed. -/
def withoutRepeats : List TableRef → List TableRef
  | [] => []
  | table :: rest => table :: (withoutRepeats rest).filter fun later => !later.isNamesake table

theorem firsts_eq_filter (seen tables : List TableRef) :
    firsts seen tables =
      (withoutRepeats tables).filter fun table => !seen.any table.isNamesake := by
  induction tables generalizing seen with
  | nil => rfl
  | cons table rest induction =>
      -- What is removed after this table and what was seen before it are removed together.
      have both (later : TableRef) : (!(table :: seen).any later.isNamesake) =
          (!seen.any later.isNamesake && !later.isNamesake table) := by
        rw [List.any_cons, Bool.not_or, Bool.and_comm]
      rw [firsts, withoutRepeats, List.filter_cons, List.filter_filter]
      cases known : seen.any table.isNamesake with
      | true =>
          have absorbed (later : TableRef) :
              (!seen.any later.isNamesake) =
                (!seen.any later.isNamesake && !later.isNamesake table) := by
            cases same : later.isNamesake table with
            | false => simp
            | true =>
                have alike : later.isNamesake = table.isNamesake := by
                  funext other
                  simp only [isNamesake, Bool.and_eq_true, beq_iff_eq] at same
                  simp only [isNamesake, same.1, same.2]
                rw [alike, known]
                rfl
          rw [if_pos rfl, induction]
          simp only [Bool.not_true, Bool.false_eq_true, if_false]
          exact List.filter_congr fun later _ => absorbed later
      | false =>
          rw [if_neg Bool.false_ne_true, induction]
          simp only [Bool.not_false, if_true]
          exact congrArg _ (List.filter_congr fun later _ => both later)

/-- A table is kept unless one of its name and schema is kept already. -/
def keep (kept : List TableRef) (table : TableRef) : List TableRef :=
  if kept.any table.isNamesake then kept else kept ++ [table]

theorem foldl_keep (kept tables : List TableRef) :
    tables.foldl keep kept = kept ++ firsts kept tables := by
  induction tables generalizing kept with
  | nil => exact (List.append_nil kept).symm
  | cons table rest induction =>
      rw [List.foldl_cons, induction, firsts, keep]
      split
      · rfl
      · have swapped : firsts (kept ++ [table]) rest = firsts (table :: kept) rest := by
          simp only [firsts_eq_filter, List.any_append, List.any_cons, List.any_nil,
            Bool.or_false]
          simp only [Bool.or_comm]
        rw [swapped, List.append_assoc, List.singleton_append]

end TableRef

theorem Statement.tables_eq (statement : Statement) :
    statement.tables = TableRef.withoutRepeats statement.source.tables := by
  rw [tables, TableRef.firsts_eq_filter]
  exact List.filter_eq_self.mpr fun _ _ => rfl

/-! ## Tables of a plan -/

/-- The base tables of a plan from left to right, the input of a join before its other side. -/
def Plan.baseTables : Plan → List TableRef
  | .base table => [table]
  | .projected input _ _ => input.baseTables
  | .filtered input _ => input.baseTables
  | .sorted input _ => input.baseTables
  | .grouped input _ _ => input.baseTables
  | .joined input other _ _ => input.baseTables ++ other.baseTables
  | .deduplicated input => input.baseTables
  | .limited input _ => input.baseTables
  | .aliased input _ => input.baseTables

theorem Draft.tables_named (name : String) (draft : Draft) :
    (draft.named name).statement.source.tables = draft.statement.source.tables := by
  rcases Statement.named_source name draft with same | ⟨ref, shownAs, before, after⟩
  · rw [same]
  · rw [before, after]
    rfl

theorem JoinInput.tables_relation (side : JoinInput) :
    side.relation.tables = side.statement.source.tables := by
  rcases side.relation_cases with ⟨ref, whole, relation⟩ | relation
  · obtain ⟨⟨shownAs, source⟩, _⟩ := Statement.wholeTable?_eq_some whole
    rw [Statement.unordered_source] at source
    rw [relation, source]
    rfl
  · rw [relation]
    rfl

/-- No step loses, repeats or moves a table. -/
theorem Drafted.tables_eq {dialect : Dialect} {used : Nat} {plan : Plan} {draft : Draft}
    (drafted : Drafted dialect used plan draft) :
    draft.statement.source.tables = plan.baseTables := by
  induction drafted with
  | base table used => rfl
  | nest _ induction => exact induction
  | projected _ _ _ _ induction => exact induction
  | extended _ _ _ _ _ induction => exact induction
  | filtered _ _ _ _ induction => exact induction
  | sorted _ _ _ _ induction => exact induction
  | grouped _ _ _ _ _ _ induction => exact induction
  | joined _ _ _ joined leftInduction rightInduction =>
      obtain ⟨_, _, _, _, rfl⟩ := Statement.join_eq_ok joined
      rw [Source.tables, JoinInput.tables_relation, JoinInput.tables_relation, Plan.baseTables,
        leftInduction, rightInduction]
  | deduplicated _ _ induction => exact induction
  | alreadyDistinct _ _ induction => exact induction
  | limited count _ induction => exact induction
  | aliased name _ induction =>
      rw [Draft.tables_named]
      exact induction

/-! ## Recording tables while writing -/

/-- What is kept beside the text that is being written: how many subqueries have a
number, and the tables so far. -/
structure Ledger where
  numbered : Nat
  tables : List TableRef

namespace Ledger

def empty : Ledger := { numbered := 0, tables := [] }

def record (ledger : Ledger) (table : TableRef) : Ledger :=
  { ledger with tables := TableRef.keep ledger.tables table }

/-- The ledger after more subqueries with a number and more tables. -/
def after (ledger : Ledger) (count : Nat) (tables : List TableRef) : Ledger :=
  { numbered := ledger.numbered + count, tables := tables.foldl TableRef.keep ledger.tables }

/-- The number of one more subquery. -/
def number : StateT Ledger (Except Error) Nat :=
  modifyGet fun ledger => (ledger.numbered + 1, ledger.after 1 [])

end Ledger

mutual

/-- The text of a relation, with its tables recorded where they are named. -/
def Relation.write (dialect : Dialect) (name : String) :
    Relation → StateT Ledger (Except Error) String
  | .table ref _ => do
      modify (·.record ref)
      return ref.text dialect (some name)
  | .subquery source clauses => do
      return subqueryText dialect name (← source.write dialect clauses)

/-- The text of a statement, with its tables recorded where they are named. -/
def Source.write (dialect : Dialect) (clauses : Clauses) :
    Source → StateT Ledger (Except Error) String
  | .relation (.table ref shownAs) => do
      let select ← clauses.selectText dialect
      modify (·.record ref)
      let tail ← clauses.tailLines dialect (some (shownAs.getD ref.name))
      return Clauses.statementText select (ref.text dialect shownAs) tail
  | .relation (.subquery source inner) => do
      let select ← clauses.selectText dialect
      let name := subqueryName (← Ledger.number)
      let relation := subqueryText dialect name (← source.write dialect inner)
      let tail ← clauses.tailLines dialect (some name)
      return Clauses.statementText select relation tail
  | .join left leftName right rightName kind on => do
      let select ← clauses.selectText dialect
      let leftText ← left.write dialect leftName
      let rightText ← right.write dialect rightName
      let onText ← on.sql (clauses.setting dialect) false
      let joined :=
        leftText ++ "\n" ++ kind.keyword ++ " " ++ rightText ++ " ON " ++ on.groupedText onText
      let tail ← clauses.tailLines dialect none
      return Clauses.statementText select joined tail

end

/-- An action that gives what `text` gives after the subqueries that have a number,
numbers `count` more, and records `tables`. -/
def Ledger.Records (action : StateT Ledger (Except Error) α) (text : Nat → Except Error α)
    (count : Nat) (tables : List TableRef) : Prop :=
  ∀ ledger, action.run ledger =
    (text ledger.numbered).map fun result => (result, ledger.after count tables)

namespace Ledger.Records

theorem of_eq {action : StateT Ledger (Except Error) α} {text : Nat → Except Error α}
    {count otherCount : Nat} {tables otherTables : List TableRef}
    (records : Records action text count tables) (counts : count = otherCount)
    (same : tables = otherTables) : Records action text otherCount otherTables :=
  counts ▸ same ▸ records

theorem lift (result : Except Error α) : Records (liftM result) (fun _ => result) 0 [] := by
  intro ledger
  cases result with
  | error error => rfl
  | ok value => rfl

theorem record (table : TableRef) :
    Records (modify (·.record table)) (fun _ => .ok ()) 0 [table] :=
  fun _ => rfl

theorem number : Records Ledger.number (fun used => .ok (used + 1)) 1 [] :=
  fun _ => rfl

theorem bind {first : StateT Ledger (Except Error) α} {next : α → StateT Ledger (Except Error) β}
    {firstText : Nat → Except Error α} {nextText : α → Nat → Except Error β}
    {firstCount nextCount : Nat} {firstTables nextTables : List TableRef}
    (before : Records first firstText firstCount firstTables)
    (after : ∀ value, Records (next value) (nextText value) nextCount nextTables) :
    Records (first >>= next)
      (fun used => firstText used >>= fun value => nextText value (used + firstCount))
      (firstCount + nextCount) (firstTables ++ nextTables) := by
  intro ledger
  rw [StateT.run_bind, before ledger]
  dsimp only
  cases firstText ledger.numbered with
  | error error => rfl
  | ok value =>
      refine (after value _).trans ?_
      simp only [Ledger.after, List.foldl_append, Nat.add_assoc]
      rfl

end Ledger.Records

mutual

theorem Relation.records_write (dialect : Dialect) (name : String) (relation : Relation) :
    Ledger.Records (relation.write dialect name) (relation.text dialect name ·)
      relation.numbered relation.tables := by
  cases relation with
  | table ref shownAs =>
      exact (Ledger.Records.record ref).bind fun _ => .lift (.ok (ref.text dialect (some name)))
  | subquery source clauses =>
      rw [Relation.write]
      have inner := Source.records_write dialect clauses source
      have whole := inner.bind fun text =>
        Ledger.Records.lift (.ok (subqueryText dialect name text))
      exact whole.of_eq (Nat.add_zero _) (List.append_nil _)

theorem Source.records_write (dialect : Dialect) (clauses : Clauses) (source : Source) :
    Ledger.Records (source.write dialect clauses) (source.text dialect · clauses)
      source.numbered source.tables := by
  cases source with
  | relation relation =>
      cases relation with
      | table ref shownAs =>
          exact (Ledger.Records.lift (clauses.selectText dialect)).bind fun select =>
            (Ledger.Records.record ref).bind fun _ =>
            (Ledger.Records.lift (clauses.tailLines dialect (some (shownAs.getD ref.name)))).bind
              fun tail => .lift (.ok (Clauses.statementText select (ref.text dialect shownAs) tail))
      | subquery source inner =>
          have below := Source.records_write dialect inner source
          have whole := (Ledger.Records.lift (clauses.selectText dialect)).bind fun select =>
            Ledger.Records.number.bind fun count => below.bind fun text =>
            (Ledger.Records.lift (clauses.tailLines dialect (some (subqueryName count)))).bind
              fun tail => .lift (.ok (Clauses.statementText select
                (subqueryText dialect (subqueryName count) text) tail))
          exact whole.of_eq (by rw [Source.numbered]; omega)
            (by simp [Source.tables, Relation.tables])
  | join left leftName right rightName kind on =>
      have leftBelow := Relation.records_write dialect leftName left
      have rightBelow := Relation.records_write dialect rightName right
      have whole := (Ledger.Records.lift (clauses.selectText dialect)).bind fun select =>
        leftBelow.bind fun leftText => rightBelow.bind fun rightText =>
        (Ledger.Records.lift (on.sql (clauses.setting dialect) false)).bind fun onText =>
        (Ledger.Records.lift (clauses.tailLines dialect none)).bind fun tail =>
          .lift (.ok (Clauses.statementText select
            (leftText ++ "\n" ++ kind.keyword ++ " " ++ rightText ++ " ON " ++
              on.groupedText onText) tail))
      exact whole.of_eq (by rw [Source.numbered]; omega) (by simp [Source.tables])

end

/-- The tables of a compiled plan are those of the plan from left to right, each name
and schema once; they are also what is recorded while the text is written. -/
theorem Plan.tables_of_compile {dialect : Dialect} {plan : Plan} {compiled : Compiled}
    (written : plan.compile dialect = .ok compiled) :
    compiled.tables = TableRef.withoutRepeats plan.baseTables ∧
      ∃ statement, plan.statement dialect = .ok statement ∧
        (statement.source.write dialect statement.toClauses).run .empty =
          .ok (compiled.sql,
            { numbered := statement.source.numbered, tables := compiled.tables }) := by
  obtain ⟨statement, planned, written⟩ := bind_eq_ok.mp written
  obtain ⟨sql, text, same⟩ := bind_eq_ok.mp written
  cases same
  obtain ⟨draft, drafting, same⟩ := bind_eq_ok.mp planned
  cases same
  constructor
  · rw [Statement.tables_eq, (Plan.drafted drafting).tables_eq]
  · refine ⟨draft.statement, planned, ?_⟩
    rw [Source.records_write dialect draft.statement.toClauses draft.statement.source]
    change Except.map _ (draft.statement.sql dialect) = _
    rw [text, Ledger.after, Ledger.empty, TableRef.foldl_keep]
    simp only [Except.map, Nat.zero_add, List.nil_append]
    rfl

/-- The first items beside the people who keep some of all items. -/
def Plan.keptItems : Plan :=
  .joined
    (.limited (.base { name := "items", columns := some [⟨"id", none⟩, ⟨"keeper", none⟩] }) 3)
    (.aliased
      (.joined (.base { name := "people", columns := some [⟨"person", none⟩] })
        (.aliased (.base { name := "items" }) "kept") .inner
        (.binary (.comparison .equal) (.column { table := some "people", name := "person" })
          (.column { table := some "kept", name := "keeper" })))
      "keepers")
    .left
    (.binary (.comparison .equal) (.column { table := some "items", name := "keeper" })
      (.column { table := some "keepers", name := "person" }))

theorem Plan.tables_of_compile_keptItems :
    ∃ compiled, Plan.keptItems.compile .postgres = .ok compiled ∧
      compiled.tables.map (·.name) = ["items", "people"] := by
  have written : Plan.keptItems.compile .postgres = .ok _ := rfl
  refine ⟨_, written, ?_⟩
  rw [(Plan.tables_of_compile written).1]
  decide

end SqlPlan
