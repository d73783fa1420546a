import SqlPlan.Proofs.Scoping.Resolving
import SqlPlan.Proofs.Stepping

/-!
# The parts of a statement under construction

What holds of all parts of a statement has to be shown again only for those that
a move changes: a step changes the outermost part, a nesting adds one, and a join
takes over the parts of both sides.  Every part was outermost once, so that what
holds of all outermost parts, nested or not, holds of all parts.
-/

namespace SqlPlan

variable {holds : Statement → Prop}

/-- A step that keeps the source has to account for the outermost part only. -/
theorem Statement.forall_parts_step {statement next : Statement}
    (parts : ∀ part ∈ statement.parts, holds part) (source : next.source = statement.source)
    (step : holds statement → holds next) : ∀ part ∈ next.parts, holds part := by
  obtain ⟨head, nested⟩ := List.forall_mem_cons.mp parts
  refine List.forall_mem_cons.mpr ⟨step head, ?_⟩
  rw [source]
  exact nested

/-- A step that joins a draft has to account for the outermost part, and for the one
before it if that became a subquery. -/
theorem Draft.Opens.forall_parts {dialect : Dialect} {before current : Draft}
    (opens : before.Opens dialect current) (parts : ∀ part ∈ before.statement.parts, holds part)
    (inner : holds before.statement →
      holds { toClauses := before.inner, source := before.statement.source })
    {next : Statement} (source : next.source = current.statement.source) (head : holds next) :
    ∀ part ∈ next.parts, holds part := by
  obtain ⟨beforeHead, nested⟩ := List.forall_mem_cons.mp parts
  refine List.forall_mem_cons.mpr ⟨head, ?_⟩
  rw [source]
  cases opens with
  | kept => exact nested
  | nested =>
      rw [Draft.nest_eq, Source.statements, Relation.statements]
      exact List.forall_mem_cons.mpr ⟨inner beforeHead, nested⟩

theorem Draft.named_statements (name : String) (draft : Draft) :
    (draft.named name).statement.source.statements = draft.statement.source.statements := by
  rcases Statement.named_source name draft with same | ⟨ref, shownAs, before, after⟩
  · rw [same]
  · rw [before, after]
    rfl

theorem Draft.named_on? (name : String) (draft : Draft) :
    (draft.named name).statement.source.on? = draft.statement.source.on? := by
  rcases Statement.named_source name draft with same | ⟨ref, shownAs, before, after⟩
  · rw [same]
  · rw [before, after]
    rfl

theorem Draft.forall_parts_named {draft : Draft} (name : String)
    (parts : ∀ part ∈ draft.statement.parts, holds part)
    (head : holds (draft.named name).statement) :
    ∀ part ∈ (draft.named name).statement.parts, holds part := by
  refine List.forall_mem_cons.mpr ⟨head, ?_⟩
  rw [draft.named_statements name]
  exact (List.forall_mem_cons.mp parts).2

/-- A side of a join is a table or the statement without its ordering. -/
theorem JoinInput.forall_statements {side : JoinInput}
    (parts : ∀ part ∈ side.statement.parts, holds part)
    (unordered : holds side.statement →
      holds { toClauses := side.statement.unordered.toClauses, source := side.statement.source }) :
    ∀ part ∈ side.relation.statements, holds part := by
  obtain ⟨head, nested⟩ := List.forall_mem_cons.mp parts
  rcases side.relation_cases with ⟨ref, _, relation⟩ | relation
  · simp [relation, Relation.statements]
  · rw [relation, Relation.statements]
    exact List.forall_mem_cons.mpr ⟨unordered head, nested⟩

theorem Statement.forall_parts_join {dialect : Dialect} {kind : JoinKind} {on : Expr}
    {left right : JoinInput} {statement : Statement}
    (success : Statement.join dialect kind on left right = .ok statement)
    (leftParts : ∀ part ∈ left.statement.parts, holds part)
    (rightParts : ∀ part ∈ right.statement.parts, holds part)
    (unordered : ∀ side : Statement, holds side →
      holds { toClauses := side.unordered.toClauses, source := side.source })
    (head : holds statement) : ∀ part ∈ statement.parts, holds part := by
  refine List.forall_mem_cons.mpr ⟨head, ?_⟩
  obtain ⟨_, resolved, _, _, rfl⟩ := Statement.join_eq_ok success
  rw [Source.statements]
  exact List.forall_mem_append.mpr ⟨JoinInput.forall_statements leftParts (unordered _),
    JoinInput.forall_statements rightParts (unordered _)⟩

/-! ## Parts in their places -/

/-- Where a part of a statement stands: outermost, as the subquery that another part
reads from, or as a side of a join. -/
inductive Place where
  | head
  | subquery
  | side
deriving DecidableEq

mutual

/-- The statements nested in a relation, each with its place; that of the outermost is given. -/
def Relation.placed (place : Place) : Relation → List (Place × Statement)
  | .table _ _ => []
  | .subquery source clauses => (place, { toClauses := clauses, source }) :: source.placed

def Source.placed : Source → List (Place × Statement)
  | .relation relation => relation.placed .subquery
  | .join left _ right _ _ _ => left.placed .side ++ right.placed .side

end

/-- The parts of a statement, each with its place. -/
def Statement.placed (statement : Statement) : List (Place × Statement) :=
  (.head, statement) :: statement.source.placed

mutual

theorem Relation.map_snd_placed (place : Place) (relation : Relation) :
    (relation.placed place).map Prod.snd = relation.statements := by
  cases relation with
  | table ref shownAs => simp [Relation.placed, Relation.statements]
  | subquery source clauses =>
      have nested := Source.map_snd_placed source
      simp [Relation.placed, Relation.statements, nested]

theorem Source.map_snd_placed (source : Source) :
    source.placed.map Prod.snd = source.statements := by
  cases source with
  | relation relation =>
      have placed := Relation.map_snd_placed .subquery relation
      simp [Source.placed, Source.statements, placed]
  | join left leftName right rightName kind on =>
      have leftPlaced := Relation.map_snd_placed .side left
      have rightPlaced := Relation.map_snd_placed .side right
      simp [Source.placed, Source.statements, leftPlaced, rightPlaced]

end

theorem Statement.map_snd_placed (statement : Statement) :
    statement.placed.map Prod.snd = statement.parts :=
  congrArg (statement :: ·) statement.source.map_snd_placed

theorem Draft.named_placed (name : String) (draft : Draft) :
    (draft.named name).statement.source.placed = draft.statement.source.placed := by
  rcases Statement.named_source name draft with same | ⟨ref, shownAs, before, after⟩
  · rw [same]
  · rw [before, after]
    rfl

/-- What holds of the outermost part of every draft, and of what becomes of it as a
subquery or as a side of a join, holds of all parts of a statement in their places. -/
theorem Drafted.forall_placed {dialect : Dialect} {holds : Plan → Place → Statement → Prop}
    (head : ∀ {used plan draft}, Drafted dialect used plan draft → holds plan .head draft.statement)
    (inner : ∀ {used plan draft}, Drafted dialect used plan draft →
      holds plan .subquery { toClauses := draft.inner, source := draft.statement.source })
    (unordered : ∀ {used plan draft}, Drafted dialect used plan draft →
      holds plan .side
        { toClauses := draft.statement.unordered.toClauses, source := draft.statement.source })
    (mono : ∀ {plan input place part}, input ∈ plan.inputs → holds input place part →
      holds plan place part)
    {used : Nat} {plan : Plan} {draft : Draft} (drafted : Drafted dialect used plan draft) :
    ∀ part ∈ draft.statement.placed, holds plan part.1 part.2 := by
  have side {used : Nat} {plan input : Plan} {draft : Draft} {name : String} {scope : Scope}
      (isInput : input ∈ plan.inputs) (drafted : Drafted dialect used input draft)
      (nested : ∀ part ∈ draft.statement.source.placed, holds input part.1 part.2) :
      ∀ part ∈ (JoinInput.relation { statement := draft.statement, name, scope }).placed .side,
        holds plan part.1 part.2 := by
    intro part member
    rcases JoinInput.relation_cases { statement := draft.statement, name, scope } with
      ⟨ref, _, relation⟩ | relation
    · rw [relation] at member
      cases member
    · rw [relation, Relation.placed] at member
      rcases List.mem_cons.mp member with rfl | deeper
      · exact mono isInput (unordered drafted)
      · exact mono isInput (nested part deeper)
  refine List.forall_mem_cons.mpr ⟨head drafted, ?_⟩
  induction drafted with
  | base table used => simp [Statement.ofTable, Source.placed, Relation.placed]
  | nest drafted induction =>
      rw [Draft.nest_eq, Source.placed, Relation.placed]
      exact List.forall_mem_cons.mpr ⟨inner drafted, induction⟩
  | joined left right _ joined leftInduction rightInduction =>
      obtain ⟨_, _, _, _, rfl⟩ := Statement.join_eq_ok joined
      exact List.forall_mem_append.mpr ⟨side List.mem_cons_self left leftInduction,
        side (List.mem_cons_of_mem _ List.mem_cons_self) right rightInduction⟩
  | aliased name _ induction =>
      rw [Draft.named_placed]
      exact fun part member => mono (List.mem_singleton.mpr rfl) (induction part member)
  | projected _ _ _ _ induction | extended _ _ _ _ _ induction | filtered _ _ _ _ induction
  | sorted _ _ _ _ induction | grouped _ _ _ _ _ _ induction | deduplicated _ _ induction
  | alreadyDistinct _ _ induction | limited count _ induction =>
      exact fun part member => mono (List.mem_singleton.mpr rfl) (induction part member)

/-- What holds of the outermost part of every draft, and of what becomes of it in a
subquery, holds of all parts of a statement. -/
theorem Drafted.forall_parts {dialect : Dialect} {holds : Plan → Statement → Prop}
    (head : ∀ {used plan draft}, Drafted dialect used plan draft → holds plan draft.statement)
    (inner : ∀ {used plan draft}, Drafted dialect used plan draft →
      holds plan { toClauses := draft.inner, source := draft.statement.source })
    (unordered : ∀ {used plan draft}, Drafted dialect used plan draft →
      holds plan
        { toClauses := draft.statement.unordered.toClauses, source := draft.statement.source })
    (mono : ∀ {plan input part}, input ∈ plan.inputs → holds input part → holds plan part)
    {used : Nat} {plan : Plan} {draft : Draft} (drafted : Drafted dialect used plan draft) :
    ∀ part ∈ draft.statement.parts, holds plan part := by
  have placed : ∀ part ∈ draft.statement.placed, holds plan part.2 :=
    @Drafted.forall_placed dialect (fun plan _ part => holds plan part) head inner unordered mono
      used plan draft drafted
  rw [← Statement.map_snd_placed]
  exact List.forall_mem_map.mpr placed

end SqlPlan
