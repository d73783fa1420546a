import SqlPlan.Proofs.Summarizing
import SqlPlan.Proofs.Writing

/-!
# Where aggregate calls come from

Every aggregate call of a written statement arises from a call in an output of an
aggregation, or from a function that is marked as an aggregate and is called in a
projection or an ordering after an aggregation.  Calls are nested only by such
functions.
-/

namespace SqlPlan

namespace Expr

/-- The expression is another one with its columns replaced. -/
def ArisesFrom (expr origin : Expr) : Prop :=
  ∃ binding columns, expr =
    (origin.mapColumns .outsideAggregates binding).mapColumns .everywhere columns

theorem arisesFrom_mapColumns (origin : Expr) (replace : ColumnRef → Expr) :
    (origin.mapColumns .everywhere replace).ArisesFrom origin :=
  ⟨.column, replace, by rw [mapColumns_column]⟩

/-- An aggregate call in one of the expressions, from which the given call arises. -/
structure Origin (dialect : Dialect) (exprs : List Expr) (call origin : Expr) : Prop where
  within : ∃ expr ∈ exprs, origin.Within expr
  isCall : origin.isAggregateCall dialect = true
  arises : call.ArisesFrom origin

variable {dialect : Dialect} {plan : Plan} {joined : Bool} {keys : List Expr} {expr call : Expr}

/-- An aggregate call over groups arises from an output of an aggregation and nests
no call that the output does not nest, or it is a function of a later step. -/
theorem OverGroups.origin (formed : expr.OverGroups plan joined keys)
    (free : ∀ key ∈ keys, key.CallFree dialect) (within : call.Within expr)
    (isCall : call.isAggregateCall dialect = true) :
    (∃ origin, Origin dialect plan.aggregateExprs call origin ∧
        (origin.Unnested dialect → call.Unnested dialect)) ∨
      call.isAggregate = false ∧ ∃ origin, Origin dialect plan.lateExprs call origin := by
  have absent {other : Expr} (otherFree : other.CallFree dialect) : ¬ call.Within other :=
    fun within => by simp [otherFree call within] at isCall
  induction formed with
  | key member => exact absurd within (absent (free _ member))
  | stray _ _ _ _ => exact absurd within (absent (.column _))
  | @output expr binding columns member bound isColumn =>
      have columnsFree : ∀ ref ∈ (expr.mapColumns .outsideAggregates binding).columnRefs,
          (columns ref).CallFree dialect := by
        intro ref read
        obtain ⟨column, equal⟩ := isColumn ref read
        rw [equal]
        exact .column column
      rcases within_mapColumns within with ⟨part, partWithin, compound, rfl⟩ | ⟨ref, read, within⟩
      · rw [isAggregateCall_mapColumns compound] at isCall
        have partFree : part.Unnested dialect →
            (part.mapColumns .everywhere columns).Unnested dialect := fun unnested =>
          unnested.mapColumns compound fun ref read =>
            columnsFree ref (partWithin.columnRefs_subset read)
        rcases within_mapColumns_outside partWithin with
          ⟨origin, originWithin, originCompound, outside, rfl⟩ | same | ⟨ref, outside, withinKey⟩
        · rw [isAggregateCall_mapColumns originCompound] at isCall
          refine .inl ⟨origin, ⟨⟨expr, member, originWithin⟩, isCall, binding, columns, rfl⟩, ?_⟩
          intro unnested
          refine partFree (unnested.mapColumns_outside originCompound fun ref read => ?_)
          exact (free _ (bound ref (outside read))).ofMapColumns
        · exact .inl ⟨part, ⟨⟨expr, member, same⟩, isCall, arisesFrom_mapColumns part columns⟩,
            partFree⟩
        · exact absurd withinKey.mapColumns (absent (free _ (bound ref outside)))
      · exact absurd within (absent (columnsFree ref read))
  | @late expr replace member scalar _ induction =>
      rcases within_mapColumns within with
        ⟨origin, originWithin, compound, rfl⟩ | ⟨ref, read, within⟩
      · rw [isAggregateCall_mapColumns compound] at isCall
        refine .inr ⟨?_, origin, ⟨expr, member, originWithin⟩, isCall,
          arisesFrom_mapColumns origin replace⟩
        rw [isAggregate_mapColumns compound]
        exact (aggregate?_eq_none_iff.mp (aggregate?_of_within originWithin scalar)).1
      · exact induction ref read within

end Expr

namespace Plan

/-- In every part of a statement that is written, aggregates are called only in the
select list and the ordering, and only over groups.  Such a call arises from one in
an output of an aggregation, and calls no aggregate in its arguments.  Only a
function that is marked as an aggregate may call one there, where its origin does
so, and only such a function may arise from a projection or an ordering after an
aggregation instead. -/
theorem aggregate_calls_originate {dialect : Dialect} {plan : Plan} {statement : Statement}
    {text : String} (planned : plan.statement dialect = .ok statement)
    (written : statement.sql dialect = .ok text) :
    ∀ part ∈ statement.parts,
      (∀ expr ∈ part.strictExprs, expr.CallFree dialect) ∧
      ∀ expr ∈ part.offeredExprs, ∀ call : Expr, call.Within expr →
        call.isAggregateCall dialect = true →
          part.isGrouped = true ∧
          ((∃ origin, Expr.Origin dialect plan.aggregateExprs call origin ∧
              (call.Unnested dialect ∨
                call.isAggregate = false ∧ ¬ origin.Unnested dialect)) ∨
            call.isAggregate = false ∧
              ∃ origin, Expr.Origin dialect plan.lateExprs call origin) := by
  obtain ⟨draft, drafted, statementEq⟩ := bind_eq_ok.mp planned
  cases pure_eq_ok.mp statementEq
  intro part isPart
  have allowed := draft.statement.source.callsAllowed written part isPart
  refine ⟨allowed.strict, fun expr member call within isCall => ?_⟩
  cases grouping : part.grouping with
  | none =>
      have free := allowed.ungrouped (by simp [Clauses.isGrouped, grouping]) expr member call within
      simp [free] at isCall
  | some keys =>
      obtain ⟨_, _, formed⟩ := (Plan.drafted drafted).summarized_parts part isPart keys grouping
      have keysFree : ∀ key ∈ keys, key.CallFree dialect := by
        intro key isKey
        refine allowed.strict key (List.mem_append_left _ (List.mem_append_right _ ?_))
        simpa [grouping] using isKey
      have exprOver : expr.OverGroups plan part.scope.isJoined keys := by
        rcases List.mem_append.mp member with isOutput | isOrder
        · obtain ⟨output, outputMember, rfl⟩ := List.mem_map.mp isOutput
          exact formed.outputs output outputMember
        · obtain ⟨key, keyMember, rfl⟩ := List.mem_map.mp isOrder
          exact formed.orderBy key keyMember
      refine ⟨by simp [Clauses.isGrouped, grouping], ?_⟩
      rcases exprOver.origin keysFree within isCall with ⟨origin, arises, unnested⟩ | late
      · refine .inl ⟨origin, arises, ?_⟩
        cases isAggregate : call.isAggregate with
        | true => exact .inl (allowed.arguments expr member call within isAggregate)
        | false =>
            by_cases flat : origin.Unnested dialect
            · exact .inl (unnested flat)
            · exact .inr ⟨rfl, flat⟩
      · exact .inr late

/-- One aggregate of each group, with one more column. -/
def groupedValues (aggregated added : Expr) : Plan :=
  .projected
    (.grouped
      (.base { name := "t", columns := some [⟨"a", none⟩, ⟨"b", none⟩] })
      [{ name := "a", expr := .named "a" }]
      [{ name := "v", expr := aggregated }])
    [{ name := "c", expr := added }] true

theorem aggregate_calls_originate_medians :
    ∃ statement : Statement,
      (groupedValues (.call "median" [.named "a"]) (.unary .negate (.named "a"))).statement
        .postgres = .ok statement ∧
      (∃ text, statement.sql .postgres = .ok text) ∧
      ∀ part ∈ statement.parts, ∀ expr ∈ part.offeredExprs, ∀ call : Expr, call.Within expr →
        call.isAggregateCall .postgres = true →
          (∃ origin, Expr.Origin .postgres [.call "median" [.named "a"]] call origin) ∧
            call.Unnested .postgres := by
  have columnOnly {inner : Expr} {name : String} (within : inner.Within (.named name)) :
      inner = .named name := by
    cases within with
    | self => rfl
    | deeper member _ => cases member
  obtain ⟨statement, planned, text, written⟩ : ∃ statement : Statement,
      (groupedValues (.call "median" [.named "a"]) (.unary .negate (.named "a"))).statement
        .postgres = .ok statement ∧ ∃ text, statement.sql .postgres = .ok text :=
    ⟨_, rfl, _, rfl⟩
  refine ⟨statement, planned, ⟨text, written⟩, fun part isPart expr member call within isCall => ?_⟩
  obtain ⟨_, ⟨origin, arises, flat⟩ | ⟨_, origin, ⟨late, isLate, within⟩, isOrigin, _⟩⟩ :=
    (aggregate_calls_originate planned written part isPart).2 expr member call within isCall
  · refine ⟨⟨origin, arises⟩, flat.elim id ?_⟩
    rintro ⟨_, nested⟩
    refine absurd ?_ nested
    obtain ⟨source, isSource, within⟩ := arises.within
    cases List.mem_singleton.mp isSource
    intro child isChild
    cases within with
    | self =>
        cases List.mem_singleton.mp isChild
        exact .column _
    | deeper isArg within =>
        cases List.mem_singleton.mp isArg
        rw [columnOnly within] at isChild
        cases isChild
  · cases List.mem_singleton.mp isLate
    cases within with
    | self => cases isOrigin
    | deeper isArg within =>
        cases List.mem_singleton.mp isArg
        rw [columnOnly within] at isOrigin
        cases isOrigin

/-- A function that is marked as an aggregate is refused neither after an aggregation
nor around an aggregate call. -/
theorem groupedValues_marked :
    (∃ statement : Statement,
      (groupedValues (.aggregate "count" none false) (.call "median" [.named "a"])).statement
        .postgres = .ok statement ∧
      (∃ text, statement.sql .postgres = .ok text) ∧
      ∃ expr ∈ statement.offeredExprs, expr.isAggregateCall .postgres = true ∧
        ¬ ∃ origin, Expr.Origin .postgres [.aggregate "count" none false] expr origin) ∧
    ∃ statement : Statement,
      (groupedValues (.call "median" [.aggregate "count" none false]) (.named "a")).statement
        .postgres = .ok statement ∧
      (∃ text, statement.sql .postgres = .ok text) ∧
      ∃ expr ∈ statement.offeredExprs, expr.isAggregateCall .postgres = true ∧
        ¬ expr.Unnested .postgres := by
  constructor
  · refine ⟨_, rfl, ⟨_, rfl⟩, .call "median" [.named "a"], ?_, by decide +kernel, ?_⟩
    · exact List.mem_cons_of_mem _ (List.mem_cons_of_mem _ List.mem_cons_self)
    · rintro ⟨origin, ⟨expr, isExpr, within⟩, _, binding, columns, equal⟩
      cases List.mem_singleton.mp isExpr
      cases within with
      | self => cases equal
      | deeper isArg _ => cases isArg
  · refine ⟨_, rfl, ⟨_, rfl⟩, .call "median" [.aggregate "count" none false], ?_,
      by decide +kernel, ?_⟩
    · exact List.mem_cons_of_mem _ List.mem_cons_self
    · intro flat
      cases flat _ List.mem_cons_self _ .self

end Plan

end SqlPlan
