import SqlPlan.Proofs.Expr.Calls
import SqlPlan.Proofs.Scoping.Resolving

/-!
# Aggregate calls in written statements

Writing a statement writes the expressions of all its parts.  So aggregates are
called only in the select lists and orderings of grouped parts, and never in the
argument of an aggregate call.
-/

namespace SqlPlan

/-- The expressions in which no aggregates are allowed. -/
def Statement.strictExprs (statement : Statement) : List Expr :=
  statement.conditions ++ statement.grouping.getD [] ++ statement.source.on?.toList

/-- The expressions in which aggregates are allowed where the statement is grouped. -/
def Clauses.offeredExprs (clauses : Clauses) : List Expr :=
  clauses.outputs.map (·.expr) ++ clauses.orderBy.map (·.expr)

/-- Aggregates are called only where a part of a statement may call them. -/
structure Statement.CallsAllowed (dialect : Dialect) (statement : Statement) : Prop where
  strict : ∀ expr ∈ statement.strictExprs, expr.CallFree dialect
  ungrouped : statement.isGrouped = false → ∀ expr ∈ statement.offeredExprs, expr.CallFree dialect
  arguments : ∀ expr ∈ statement.offeredExprs, expr.ArgumentsFree dialect

namespace Expr

variable {setting : Setting} {aggregates : Bool} {text : String} {expr : Expr}

theorem callFree_of_sql (written : expr.sql setting false = .ok text) :
    expr.CallFree setting.dialect := by
  obtain ⟨_, written, _⟩ := bind_eq_ok.mp written
  exact callFree_of_fragment written

theorem argumentsFree_of_sql (written : expr.sql setting aggregates = .ok text) :
    expr.ArgumentsFree setting.dialect := by
  obtain ⟨_, written, _⟩ := bind_eq_ok.mp written
  exact argumentsFree_of_fragment written

end Expr

namespace Clauses

variable {dialect : Dialect} {clauses : Clauses}

theorem exists_sql_of_selectText {text : String} (written : clauses.selectText dialect = .ok text) :
    ∀ output ∈ clauses.outputs, ∃ text,
      output.expr.sql (clauses.setting dialect) clauses.isGrouped = .ok text := by
  intro output member
  obtain ⟨texts, itemsWritten, _⟩ := bind_eq_ok.mp written
  have listed := mem_outputs.mp member
  unfold itemTexts at itemsWritten
  split at itemsWritten
  · rename_i whole
    simp [whole] at listed
  · rename_i items select
    rw [select, Option.getD_some] at listed
    obtain ⟨_, _, itemWritten⟩ := exists_mem_of_forall₂_left (mapM_eq_ok.mp itemsWritten) listed
    obtain ⟨text, written, _⟩ := bind_eq_ok.mp itemWritten
    exact ⟨text, written⟩

/-- A key is written, or it goes by the name of an output that equals it. -/
theorem exists_sql_of_keyText {qualifier : Option String} {key : SortKey} {text : String}
    (written : clauses.keyText dialect qualifier key = .ok text) :
    (∃ output ∈ clauses.outputs, output.expr.same key.expr = true) ∨
      ∃ text, (clauses.unshadowed qualifier key.expr).sql (clauses.setting dialect)
        clauses.isGrouped = .ok text := by
  rw [keyText] at written
  split at written
  · rename_i output found
    refine .inl ⟨output, List.mem_of_find?_eq_some found, ?_⟩
    have equal := List.find?_some found
    simp only [Bool.and_eq_true] at equal
    exact equal.2
  · obtain ⟨text, written, _⟩ := bind_eq_ok.mp written
    exact .inr ⟨text, written⟩

theorem tailLines_eq_ok {qualifier : Option String} {lines : List String}
    (written : clauses.tailLines dialect qualifier = .ok lines) :
    (∀ condition ∈ clauses.conditions, ∃ text,
        condition.sql (clauses.setting dialect) false = .ok text) ∧
      (∀ key ∈ clauses.grouping.getD [], ∃ text,
        key.sql (clauses.setting dialect) false = .ok text) ∧
      ∀ key ∈ clauses.orderBy, ∃ text, clauses.keyText dialect qualifier key = .ok text := by
  obtain ⟨_, conditions, written⟩ := bind_eq_ok.mp written
  obtain ⟨_, groups, written⟩ := bind_eq_ok.mp written
  obtain ⟨_, keys, _⟩ := bind_eq_ok.mp written
  refine ⟨fun condition member => ?_, fun key member => ?_, fun key member => ?_⟩
  · obtain ⟨_, _, written⟩ := exists_mem_of_forall₂_left (mapM_eq_ok.mp conditions) member
    obtain ⟨text, written, _⟩ := bind_eq_ok.mp written
    exact ⟨text, written⟩
  · obtain ⟨text, _, written⟩ := exists_mem_of_forall₂_left (mapM_eq_ok.mp groups) member
    exact ⟨text, written⟩
  · obtain ⟨text, _, written⟩ := exists_mem_of_forall₂_left (mapM_eq_ok.mp keys) member
    exact ⟨text, written⟩

/-- What the select list and the ordering call is allowed where both are written. -/
theorem offered_of_written {select : String} {lines : List String} {qualifier : Option String}
    (selectWritten : clauses.selectText dialect = .ok select)
    (tailWritten : clauses.tailLines dialect qualifier = .ok lines) :
    ∀ expr ∈ clauses.offeredExprs, expr.ArgumentsFree dialect ∧
      (clauses.isGrouped = false → expr.CallFree dialect) := by
  have outputs : ∀ output ∈ clauses.outputs, output.expr.ArgumentsFree dialect ∧
      (clauses.isGrouped = false → output.expr.CallFree dialect) := by
    intro output member
    obtain ⟨text, written⟩ := exists_sql_of_selectText selectWritten output member
    refine ⟨Expr.argumentsFree_of_sql written, fun ungrouped => ?_⟩
    rw [ungrouped] at written
    exact Expr.callFree_of_sql written
  refine List.forall_mem_append.mpr
    ⟨List.forall_mem_map.mpr outputs, List.forall_mem_map.mpr fun key member => ?_⟩
  obtain ⟨text, keyWritten⟩ := (tailLines_eq_ok tailWritten).2.2 key member
  rcases exists_sql_of_keyText keyWritten with ⟨output, isOutput, equal⟩ | ⟨text, written⟩
  · obtain ⟨arguments, free⟩ := outputs output isOutput
    exact ⟨arguments.ofSame equal, fun ungrouped => (free ungrouped).ofSame equal⟩
  · refine ⟨(Expr.argumentsFree_of_sql written).ofMapColumns, fun ungrouped => ?_⟩
    rw [ungrouped] at written
    exact (Expr.callFree_of_sql written).ofMapColumns

end Clauses

/-! ## All parts -/

section Parts

variable {dialect : Dialect}

mutual

theorem Relation.written_parts : ∀ (relation : Relation) {name : String} {used : Nat}
    {text : String}, relation.text dialect name used = .ok text →
      ∀ part ∈ relation.statements, ∃ used text,
        part.source.text dialect used part.toClauses = .ok text
  | .table ref shownAs, name, used, text, written => by
      simp [Relation.statements]
  | .subquery source clauses, name, used, text, written => by
      rw [Relation.text] at written
      obtain ⟨inner, innerWritten, _⟩ := bind_eq_ok.mp written
      rw [Relation.statements]
      exact source.written_parts innerWritten

/-- Writing a statement writes all its parts. -/
theorem Source.written_parts : ∀ (source : Source) {used : Nat} {clauses : Clauses}
    {text : String}, source.text dialect used clauses = .ok text →
      ∀ part ∈ Statement.parts { toClauses := clauses, source }, ∃ used text,
        part.source.text dialect used part.toClauses = .ok text
  | .relation (.table ref shownAs), used, clauses, text, written => by
      refine List.forall_mem_cons.mpr ⟨⟨used, text, written⟩, ?_⟩
      simp [Source.statements, Relation.statements]
  | .relation (.subquery source inner), used, clauses, text, written => by
      refine List.forall_mem_cons.mpr ⟨⟨used, text, written⟩, ?_⟩
      rw [Source.text] at written
      obtain ⟨_, _, written⟩ := bind_eq_ok.mp written
      obtain ⟨_, innerWritten, _⟩ := bind_eq_ok.mp written
      rw [Source.statements, Relation.statements]
      exact source.written_parts innerWritten
  | .join left leftName right rightName kind on, used, clauses, text, written => by
      refine List.forall_mem_cons.mpr ⟨⟨used, text, written⟩, ?_⟩
      rw [Source.text] at written
      obtain ⟨_, _, written⟩ := bind_eq_ok.mp written
      obtain ⟨_, leftWritten, written⟩ := bind_eq_ok.mp written
      obtain ⟨_, rightWritten, _⟩ := bind_eq_ok.mp written
      rw [Source.statements]
      exact List.forall_mem_append.mpr
        ⟨left.written_parts leftWritten, right.written_parts rightWritten⟩

end

/-- A statement is written clause by clause. -/
theorem Source.text_eq_ok {source : Source} {used : Nat} {clauses : Clauses} {text : String}
    (written : source.text dialect used clauses = .ok text) :
    ∃ select qualifier lines, clauses.selectText dialect = .ok select ∧
      clauses.tailLines dialect qualifier = .ok lines ∧
      ∀ on ∈ source.on?, ∃ text, on.sql (clauses.setting dialect) false = .ok text := by
  cases source with
  | relation relation =>
      cases relation with
      | table ref shownAs =>
          rw [Source.text] at written
          obtain ⟨select, selectWritten, written⟩ := bind_eq_ok.mp written
          obtain ⟨lines, tailWritten, _⟩ := bind_eq_ok.mp written
          exact ⟨select, _, lines, selectWritten, tailWritten, by simp [Source.on?]⟩
      | subquery source inner =>
          rw [Source.text] at written
          obtain ⟨select, selectWritten, written⟩ := bind_eq_ok.mp written
          obtain ⟨_, _, written⟩ := bind_eq_ok.mp written
          obtain ⟨lines, tailWritten, _⟩ := bind_eq_ok.mp written
          exact ⟨select, _, lines, selectWritten, tailWritten, by simp [Source.on?]⟩
  | join left leftName right rightName kind on =>
      rw [Source.text] at written
      obtain ⟨select, selectWritten, written⟩ := bind_eq_ok.mp written
      obtain ⟨_, _, written⟩ := bind_eq_ok.mp written
      obtain ⟨_, _, written⟩ := bind_eq_ok.mp written
      obtain ⟨onText, onWritten, written⟩ := bind_eq_ok.mp written
      obtain ⟨lines, tailWritten, _⟩ := bind_eq_ok.mp written
      refine ⟨select, _, lines, selectWritten, tailWritten, ?_⟩
      rintro _ ⟨⟩
      exact ⟨onText, onWritten⟩

theorem Statement.callsAllowed_of_written {statement : Statement} {used : Nat} {text : String}
    (written : statement.source.text dialect used statement.toClauses = .ok text) :
    statement.CallsAllowed dialect := by
  obtain ⟨select, qualifier, lines, selectWritten, tailWritten, on⟩ := Source.text_eq_ok written
  obtain ⟨conditions, grouping, _⟩ := Clauses.tailLines_eq_ok tailWritten
  have offered := Clauses.offered_of_written selectWritten tailWritten
  refine ⟨?_, fun ungrouped expr member => (offered expr member).2 ungrouped,
    fun expr member => (offered expr member).1⟩
  refine List.forall_mem_append.mpr ⟨List.forall_mem_append.mpr ⟨?_, ?_⟩, ?_⟩
  · intro condition member
    obtain ⟨_, written⟩ := conditions condition member
    exact Expr.callFree_of_sql written
  · intro key member
    obtain ⟨_, written⟩ := grouping key member
    exact Expr.callFree_of_sql written
  · intro condition member
    obtain ⟨_, written⟩ := on condition (Option.mem_toList.mp member)
    exact Expr.callFree_of_sql written

/-- Every part of a statement that is written calls aggregates only where it may. -/
theorem Source.callsAllowed (source : Source) {used : Nat} {clauses : Clauses} {text : String}
    (written : source.text dialect used clauses = .ok text) :
    ∀ part ∈ Statement.parts { toClauses := clauses, source }, part.CallsAllowed dialect := by
  intro part member
  obtain ⟨_, _, partWritten⟩ := source.written_parts written part member
  exact Statement.callsAllowed_of_written partWritten

end Parts

end SqlPlan
