import SqlPlan.Proofs.Nesting

/-!
# When expressions resolve

Whether expressions resolve against a statement, and how they fail to, depends
only on the references in them: the first reference that the statement refuses
decides.  A statement around another derives nothing, so that expressions which
read a derived output resolve once the statement is nested.
-/

namespace SqlPlan

theorem Expr.tryMapColumns_eq {ε : Type} (reach : Reach) (replace : ColumnRef → Except ε Expr)
    (expr : Expr) :
    expr.tryMapColumns reach replace =
      ((expr.refs reach).findSome? fun ref => failure? (replace ref)).elim
        (.ok (expr.mapColumns reach fun ref => (replace ref).toOption.getD (.column ref)))
        .error := by
  unfold tryMapColumns
  cases (expr.refs reach).findSome? fun ref => failure? (replace ref) <;> rfl

/-- The references of several expressions, in order. -/
def Expr.refsOf (exprs : List Expr) : List ColumnRef := exprs.flatMap (·.columnRefs)

theorem Expr.refsOf_cons (expr : Expr) (exprs : List Expr) :
    refsOf (expr :: exprs) = expr.columnRefs ++ refsOf exprs := List.flatMap_cons

/-- The references of several outputs. -/
def Output.refs (outputs : List Output) : List ColumnRef := Expr.refsOf (outputs.map (·.expr))

theorem Output.mem_refs {outputs : List Output} {ref : ColumnRef} :
    ref ∈ refs outputs ↔ ∃ output ∈ outputs, ref ∈ output.expr.columnRefs := by
  rw [refs, Expr.refsOf, List.flatMap_map, List.mem_flatMap]

namespace Clauses

variable (clauses : Clauses)

/-- Why a reference stands for nothing. -/
def refusal? (ref : ColumnRef) : Option Error := Expr.failure? (clauses.locate ref)

theorem refusal?_eq_none {clauses : Clauses} {ref : ColumnRef} :
    clauses.refusal? ref = none ↔ ∃ located, clauses.locate ref = .ok located := by
  unfold refusal?
  cases clauses.locate ref <;> simp [Expr.failure?]

theorem inlined_eq (expr : Expr) :
    clauses.inlined expr =
      (expr.columnRefs.findSome? clauses.refusal?).elim
        (.ok (expr.mapColumns .everywhere clauses.sourceOf)) .error := by
  have refused (ref : ColumnRef) :
      Expr.failure? (do return (← clauses.locate ref).inlined) = clauses.refusal? ref := by
    unfold refusal?
    cases clauses.locate ref <;> rfl
  have replaced (ref : ColumnRef) :
      (do return (← clauses.locate ref).inlined : Except Error Expr).toOption.getD (.column ref) =
        clauses.sourceOf ref := by
    unfold sourceOf
    cases clauses.locate ref <;> rfl
  rw [inlined, Expr.tryMapColumns_eq]
  simp only [refused, replaced]

theorem mapM_inlined_eq (exprs : List Expr) :
    exprs.mapM clauses.inlined =
      ((Expr.refsOf exprs).findSome? clauses.refusal?).elim
        (.ok (exprs.map (Expr.mapColumns .everywhere clauses.sourceOf))) .error := by
  induction exprs with
  | nil => rfl
  | cons expr exprs induction =>
      rw [List.mapM_cons, induction, inlined_eq, Expr.refsOf_cons, List.findSome?_append]
      cases expr.columnRefs.findSome? clauses.refusal? with
      | some error => rfl
      | none =>
          rw [Option.none_or]
          cases (Expr.refsOf exprs).findSome? clauses.refusal? <;> rfl

theorem resolved?_eq (exprs : List Expr) :
    clauses.resolved? exprs =
      ((Expr.refsOf exprs).findSome? clauses.refusal?).elim
        (.ok (if (Expr.refsOf exprs).any clauses.isDerived then none
          else some (exprs.map (Expr.mapColumns .everywhere clauses.sourceOf)))) .error := by
  rw [resolved?, mapM_inlined_eq, Expr.refsOf, List.any_flatMap, ← Expr.refsOf]
  cases (Expr.refsOf exprs).findSome? clauses.refusal? with
  | some error => rfl
  | none =>
      simp only [Option.elim_none]
      cases exprs.any fun expr => expr.columnRefs.any clauses.isDerived <;> rfl

variable {clauses}

/-- Only an output that is not a bare column is derived. -/
theorem mem_of_locate_derived {ref : ColumnRef} {output : SelectOutput}
    (located : clauses.locate ref = .ok (.derived output)) :
    output ∈ clauses.visibleOutputs ∧ output.expr.column? = none := by
  have inSource {other : ColumnRef} :
      clauses.locateInSource other ≠ .ok (.derived output) := by
    intro success
    obtain ⟨column, _, success⟩ := bind_eq_ok.mp success
    cases success
  have inOutput (success : clauses.locateOutput ref = .ok (.derived output)) :
      output ∈ clauses.visibleOutputs ∧ output.expr.column? = none := by
    unfold locateOutput at success
    split at success
    · rename_i selected found
      split at success
      · cases success
      · rename_i noColumn
        cases success
        refine ⟨List.mem_of_find?_eq_some found, ?_⟩
        cases expr : output.expr with
        | column column => exact absurd expr (noColumn column)
        | _ => rfl
    · split at success
      · exact absurd success inSource
      · dsimp only at success
        split at success <;> cases success
  unfold locate at located
  split at located
  · exact absurd located inSource
  · exact inOutput located
  · split at located
    · exact absurd located inSource
    · split at located
      · exact inOutput located
      · cases located

theorem isDerived_eq_false (columns : ∀ output ∈ clauses.visibleOutputs,
    output.expr.column?.isSome = true) (ref : ColumnRef) : clauses.isDerived ref = false := by
  unfold isDerived
  cases located : clauses.locate ref with
  | error error => rfl
  | ok found =>
      cases found with
      | source expr => rfl
      | derived output =>
          obtain ⟨member, noColumn⟩ := mem_of_locate_derived located
          have isColumn := columns output member
          rw [noColumn] at isColumn
          cases isColumn

end Clauses

namespace Draft

variable {dialect : Dialect}

/-- A statement around another derives nothing. -/
theorem isDerived_nest (draft : Draft) (ref : ColumnRef) :
    (draft.nest dialect).statement.isDerived ref = false := by
  apply Clauses.isDerived_eq_false
  rw [draft.nest_eq dialect]
  intro output member
  have listed := (List.mem_filter.mp member).1
  simp only [Clauses.outputs] at listed
  obtain ⟨item, itemMember, isOutput⟩ := List.mem_filterMap.mp listed
  split at itemMember
  · cases itemMember
  · obtain ⟨name, _, rfl⟩ := List.mem_map.mp itemMember
    cases isOutput
    rfl

/-- The draft that references are read against: one around it where some of them
are derived. -/
def settled (dialect : Dialect) (draft : Draft) (refs : List ColumnRef) : Draft :=
  if refs.any draft.statement.isDerived then draft.nest dialect else draft

theorem isSealed_settled {draft : Draft} (unsealed : draft.statement.isSealed = false)
    (refs : List ColumnRef) : (draft.settled dialect refs).statement.isSealed = false := by
  unfold settled
  split
  · rfl
  · exact unsealed

theorem isDerived_settled (draft : Draft) {refs : List ColumnRef} {ref : ColumnRef}
    (member : ref ∈ refs) : (draft.settled dialect refs).statement.isDerived ref = false := by
  unfold settled
  split
  · exact draft.isDerived_nest ref
  · rename_i none
    simp only [List.any_eq_true, not_exists, not_and, Bool.not_eq_true] at none
    exact none ref member

/-- Nothing is nested for references to columns of the source. -/
theorem settled_of_located {draft : Draft} {refs : List ColumnRef}
    (located : ∀ ref ∈ refs, ∃ expr, draft.statement.locate ref = .ok (.source expr)) :
    draft.settled dialect refs = draft := by
  apply if_neg
  rw [List.any_eq_true]
  rintro ⟨ref, member, derived⟩
  obtain ⟨expr, found⟩ := located ref member
  simp [Clauses.isDerived, found, Located.isDerived] at derived

/-- Resolution fails at the first reference that is refused, by the draft or else
by the one around it. -/
theorem resolve_eq (draft : Draft) (exprs : List Expr) :
    draft.resolve dialect exprs =
      ((Expr.refsOf exprs).findSome? draft.statement.refusal?).elim
        (((Expr.refsOf exprs).findSome?
            (draft.settled dialect (Expr.refsOf exprs)).statement.refusal?).elim
          (.ok (draft.settled dialect (Expr.refsOf exprs), exprs.map
            (Expr.mapColumns .everywhere
              (draft.settled dialect (Expr.refsOf exprs)).statement.sourceOf)))
          .error)
        .error := by
  have nested : (Expr.refsOf exprs).any (draft.nest dialect).statement.isDerived = false := by
    simp [isDerived_nest]
  rw [resolve]
  simp only [Clauses.resolved?_eq, nested, settled, Bool.false_eq_true, if_false]
  cases refused : (Expr.refsOf exprs).findSome? draft.statement.refusal? with
  | some error => rfl
  | none =>
      cases derived : (Expr.refsOf exprs).any draft.statement.isDerived with
      | false =>
          simp only [Bool.false_eq_true, if_false, refused]
          rfl
      | true =>
          simp only [if_true]
          cases (Expr.refsOf exprs).findSome? (draft.nest dialect).statement.refusal? <;> rfl

/-- References that neither the draft nor the one they are read against refuses. -/
def Accepts (dialect : Dialect) (draft : Draft) (refs : List ColumnRef) : Prop :=
  ∀ ref ∈ refs, draft.statement.refusal? ref = none ∧
    (draft.settled dialect refs).statement.refusal? ref = none

/-- A reference that is accepted stands for a column of the source. -/
theorem exists_sourceOf_settled {draft : Draft} {refs : List ColumnRef}
    (accepts : draft.Accepts dialect refs) {ref : ColumnRef} (member : ref ∈ refs) :
    ∃ column, (draft.settled dialect refs).statement.sourceOf ref = .column column := by
  obtain ⟨located, locatedOk⟩ := Clauses.refusal?_eq_none.mp (accepts ref member).2
  have passed : located.isDerived = false := by
    have settled : (draft.settled dialect refs).statement.isDerived ref = false :=
      draft.isDerived_settled member
    simpa only [Clauses.isDerived, locatedOk] using settled
  simpa only [Clauses.sourceOf, locatedOk] using Clauses.exists_column_of_locate locatedOk passed

theorem resolve_eq_ok {draft current : Draft} {exprs resolved : List Expr} :
    draft.resolve dialect exprs = .ok (current, resolved) ↔
      draft.Accepts dialect (Expr.refsOf exprs) ∧
        current = draft.settled dialect (Expr.refsOf exprs) ∧
        resolved = exprs.map (Expr.mapColumns .everywhere current.statement.sourceOf) := by
  rw [resolve_eq]
  constructor
  · intro success
    cases first : (Expr.refsOf exprs).findSome? draft.statement.refusal? with
    | some error =>
        rw [first] at success
        cases success
    | none =>
        cases second : (Expr.refsOf exprs).findSome?
            (draft.settled dialect (Expr.refsOf exprs)).statement.refusal? with
        | some error =>
            rw [first, second] at success
            cases success
        | none =>
            rw [first, second] at success
            cases success
            rw [List.findSome?_eq_none_iff] at first second
            exact ⟨fun ref member => ⟨first ref member, second ref member⟩, rfl, rfl⟩
  · rintro ⟨accepts, rfl, rfl⟩
    have first := List.findSome?_eq_none_iff.mpr fun ref member => (accepts ref member).1
    have second := List.findSome?_eq_none_iff.mpr fun ref member => (accepts ref member).2
    rw [first, second]
    rfl

/-- What references are read against depends only on which references there are. -/
theorem settled_congr (draft : Draft) {refs others : List ColumnRef}
    (same : ∀ ref, ref ∈ refs ↔ ref ∈ others) :
    draft.settled dialect refs = draft.settled dialect others := by
  have derived : refs.any draft.statement.isDerived = others.any draft.statement.isDerived := by
    rw [Bool.eq_iff_iff, List.any_eq_true, List.any_eq_true]
    simp only [same]
  rw [settled, settled, derived]

theorem accepts_congr (draft : Draft) {refs others : List ColumnRef}
    (same : ∀ ref, ref ∈ refs ↔ ref ∈ others) :
    draft.Accepts dialect refs ↔ draft.Accepts dialect others := by
  unfold Accepts
  simp only [settled_congr draft same, same]

/-! ## Conditions -/

/-- The draft with one more condition, in terms of its source. -/
def restricted (draft : Draft) (predicate : Expr) : Draft :=
  { draft with statement := { draft.statement with
    conditions := draft.statement.conditions ++
      [predicate.mapColumns .everywhere draft.statement.sourceOf] } }

theorem filter_eq_ok {draft result : Draft} {predicate : Expr} :
    draft.filter dialect predicate = .ok result ↔
      predicate.aggregate? = none ∧
        (draft.unsealed dialect).Accepts dialect predicate.columnRefs ∧
        result = ((draft.unsealed dialect).settled dialect predicate.columnRefs).restricted
          predicate := by
  have refs : Expr.refsOf [predicate] = predicate.columnRefs := by simp [Expr.refsOf]
  unfold filter
  constructor
  · intro success
    obtain ⟨_, refused, success⟩ := bind_eq_ok.mp success
    obtain ⟨⟨current, exprs⟩, resolvedOk, success⟩ := bind_eq_ok.mp success
    rw [resolve_eq_ok, refs] at resolvedOk
    obtain ⟨accepts, rfl, rfl⟩ := resolvedOk
    exact ⟨Expr.refuseAggregate_eq_ok.mp refused, accepts, (pure_eq_ok.mp success).symm⟩
  · rintro ⟨plain, accepts, rfl⟩
    rw [← refs] at accepts
    rw [Expr.refuseAggregate_eq_ok.mpr plain, resolve_eq_ok.mpr ⟨accepts, rfl, rfl⟩, refs]
    rfl

end Draft

end SqlPlan
