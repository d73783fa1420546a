import Mathlib.Data.List.Forall2
import SqlPlan.Expr.Columns
import SqlPlan.Expr.Equality

/-!
# Traversing expressions

Expressions hold lists of expressions, so induction on them has to reach into
those lists.  `Expr.inductionOn` does this once; below, the companions for
lists and branches are ordinary list functions, and replacing columns obeys
the laws of a substitution.
-/

namespace SqlPlan.Expr

/-- Structural induction in which a call, a case distinction and an aggregate
call may assume the statement for each of their parts. -/
@[elab_as_elim, induction_eliminator]
theorem inductionOn {motive : Expr → Prop}
    (column : ∀ ref, motive (.column ref))
    (literal : ∀ constant, motive (.literal constant))
    (unary : ∀ op arg, motive arg → motive (.unary op arg))
    (binary : ∀ op left right, motive left → motive right →
      motive (.binary op left right))
    (member : ∀ arg values negated, motive arg →
      motive (.member arg values negated))
    (call : ∀ name args, (∀ arg ∈ args, motive arg) → motive (.call name args))
    (case : ∀ branches otherwise,
      (∀ branch ∈ branches, motive branch.1 ∧ motive branch.2) →
      (∀ other ∈ otherwise, motive other) → motive (.case branches otherwise))
    (cast : ∀ arg type, motive arg → motive (.cast arg type))
    (aggregate : ∀ name arg distinct, (∀ inner ∈ arg, motive inner) →
      motive (.aggregate name arg distinct))
    (expr : Expr) : motive expr := by
  refine @Expr.rec motive (fun args => ∀ arg ∈ args, motive arg)
    (fun branches => ∀ branch ∈ branches, motive branch.1 ∧ motive branch.2)
    (fun otherwise => ∀ other ∈ otherwise, motive other)
    (fun branch => motive branch.1 ∧ motive branch.2)
    column literal unary binary member call case cast aggregate
    ?_ ?_ ?_ ?_ ?_ ?_ ?_ expr
  · simp
  · intro head tail first rest
    exact List.forall_mem_cons.mpr ⟨first, rest⟩
  · simp
  · intro head tail first rest
    exact List.forall_mem_cons.mpr ⟨first, rest⟩
  · simp
  · intro inner holds
    simpa using holds
  · intro condition result first second
    exact ⟨first, second⟩

/-! ## References -/

section

attribute [local simp] refs refsList refsBranches

theorem refsList_eq_flatMap (reach : Reach) (args : List Expr) :
    refsList reach args = args.flatMap (refs reach) := by
  induction args with
  | nil => rfl
  | cons arg args induction => simp [induction]

theorem refsBranches_eq_flatMap (reach : Reach) (branches : List (Expr × Expr)) :
    refsBranches reach branches =
      branches.flatMap fun branch => branch.1.refs reach ++ branch.2.refs reach := by
  induction branches with
  | nil => rfl
  | cons branch branches induction => simp [induction]

@[simp] theorem refs_call (reach : Reach) (name : String) (args : List Expr) :
    (Expr.call name args).refs reach = args.flatMap (refs reach) := by
  rw [refs, refsList_eq_flatMap]

@[simp] theorem refs_case (reach : Reach) (branches : List (Expr × Expr))
    (otherwise : Option Expr) :
    (Expr.case branches otherwise).refs reach =
      (branches.flatMap fun branch => branch.1.refs reach ++ branch.2.refs reach) ++
        otherwise.toList.flatMap (refs reach) := by
  cases otherwise <;> simp [refsBranches_eq_flatMap]

@[simp] theorem columnRefs_aggregate (name : String) (arg : Option Expr) (distinct : Bool) :
    (Expr.aggregate name arg distinct).columnRefs = arg.toList.flatMap columnRefs := by
  cases arg <;> simp [columnRefs]

end

/-- A traversal that goes nowhere into aggregate calls finds fewer references. -/
theorem mem_columnRefs_of_outside {expr : Expr} {ref : ColumnRef}
    (outside : ref ∈ expr.refs .outsideAggregates) : ref ∈ expr.columnRefs := by
  induction expr with
  | column other => exact outside
  | literal constant => exact outside
  | unary op arg induction => exact induction outside
  | binary op left right leftInduction rightInduction =>
      rcases List.mem_append.mp outside with inLeft | inRight
      · exact List.mem_append_left _ (leftInduction inLeft)
      · exact List.mem_append_right _ (rightInduction inRight)
  | member arg values negated induction => exact induction outside
  | call name args induction =>
      simp only [columnRefs, refs_call, List.mem_flatMap] at outside induction ⊢
      obtain ⟨arg, member, found⟩ := outside
      exact ⟨arg, member, induction arg member found⟩
  | case branches otherwise branchInduction otherInduction =>
      simp only [columnRefs, refs_case, List.mem_append, List.mem_flatMap, Option.mem_toList]
        at outside branchInduction otherInduction ⊢
      rcases outside with ⟨branch, member, inCondition | inResult⟩ | ⟨other, member, found⟩
      · exact .inl ⟨branch, member, .inl ((branchInduction branch member).1 inCondition)⟩
      · exact .inl ⟨branch, member, .inr ((branchInduction branch member).2 inResult)⟩
      · exact .inr ⟨other, member, otherInduction other member found⟩
  | cast arg type induction => exact induction outside
  | aggregate name arg distinct induction => cases arg <;> cases outside

/-! ## Replacing columns -/

section

attribute [local simp] mapColumns mapColumnsList mapColumnsBranches

theorem mapColumnsList_eq_map (reach : Reach) (replace : ColumnRef → Expr) (args : List Expr) :
    mapColumnsList reach replace args = args.map (mapColumns reach replace) := by
  induction args with
  | nil => rfl
  | cons arg args induction => simp [induction]

theorem mapColumnsBranches_eq_map (reach : Reach) (replace : ColumnRef → Expr)
    (branches : List (Expr × Expr)) :
    mapColumnsBranches reach replace branches =
      branches.map fun branch =>
        (branch.1.mapColumns reach replace, branch.2.mapColumns reach replace) := by
  induction branches with
  | nil => rfl
  | cons branch branches induction => simp [induction]

@[simp] theorem mapColumns_call (reach : Reach) (replace : ColumnRef → Expr) (name : String)
    (args : List Expr) :
    (Expr.call name args).mapColumns reach replace =
      .call name (args.map (mapColumns reach replace)) := by
  rw [mapColumns, mapColumnsList_eq_map]

@[simp] theorem mapColumns_case (reach : Reach) (replace : ColumnRef → Expr)
    (branches : List (Expr × Expr)) (otherwise : Option Expr) :
    (Expr.case branches otherwise).mapColumns reach replace =
      .case (branches.map fun branch =>
          (branch.1.mapColumns reach replace, branch.2.mapColumns reach replace))
        (otherwise.map (mapColumns reach replace)) := by
  cases otherwise <;> simp [mapColumnsBranches_eq_map]

@[simp] theorem mapColumns_aggregate_everywhere (replace : ColumnRef → Expr) (name : String)
    (arg : Option Expr) (distinct : Bool) :
    (Expr.aggregate name arg distinct).mapColumns .everywhere replace =
      .aggregate name (arg.map (mapColumns .everywhere replace)) distinct := by
  cases arg <;> simp

end

/-- The references of a substituted expression are those of the replacements,
in order. -/
theorem columnRefs_mapColumns (replace : ColumnRef → Expr) (expr : Expr) :
    (expr.mapColumns .everywhere replace).columnRefs =
      expr.columnRefs.flatMap fun ref => (replace ref).columnRefs := by
  induction expr with
  | column ref => simp [mapColumns, columnRefs, refs]
  | literal constant => simp [mapColumns, columnRefs, refs]
  | unary op arg induction => simpa [mapColumns, columnRefs, refs] using induction
  | binary op left right leftInduction rightInduction =>
      simp only [columnRefs] at leftInduction rightInduction
      simp [mapColumns, columnRefs, refs, leftInduction, rightInduction]
  | member arg values negated induction =>
      simpa [mapColumns, columnRefs, refs] using induction
  | call name args induction =>
      simp only [columnRefs, mapColumns_call, refs_call, List.flatMap_map, List.flatMap_assoc]
      exact List.flatMap_congr fun arg member => induction arg member
  | case branches otherwise branchInduction otherInduction =>
      simp only [columnRefs, mapColumns_case, refs_case, List.flatMap_append,
        List.flatMap_map, List.flatMap_assoc]
      congr 1
      · apply List.flatMap_congr
        intro branch member
        have holds := branchInduction branch member
        simp only [columnRefs] at holds
        rw [holds.1, holds.2]
      · cases otherwise with
        | none => rfl
        | some other => simpa using otherInduction other rfl
  | cast arg type induction => simpa [mapColumns, columnRefs, refs] using induction
  | aggregate name arg distinct induction =>
      cases arg with
      | none => simp
      | some inner => simpa using induction inner rfl

theorem mapColumns_congr {reach : Reach} {first second : ColumnRef → Expr} {expr : Expr}
    (agree : ∀ ref ∈ expr.refs reach, first ref = second ref) :
    expr.mapColumns reach first = expr.mapColumns reach second := by
  induction expr with
  | column ref => exact agree ref (by simp [refs])
  | literal constant => rfl
  | unary op arg induction =>
      simp only [mapColumns]
      rw [induction (by simpa [refs] using agree)]
  | binary op left right leftInduction rightInduction =>
      simp only [refs, List.mem_append] at agree
      simp only [mapColumns]
      rw [leftInduction fun ref member => agree ref (.inl member),
        rightInduction fun ref member => agree ref (.inr member)]
  | member arg values negated induction =>
      simp only [mapColumns]
      rw [induction (by simpa [refs] using agree)]
  | call name args induction =>
      simp only [refs_call, List.mem_flatMap] at agree
      simp only [mapColumns_call]
      congr 1
      apply List.map_congr_left
      intro arg member
      exact induction arg member fun ref refMember => agree ref ⟨arg, member, refMember⟩
  | case branches otherwise branchInduction otherInduction =>
      simp only [refs_case, List.mem_append, List.mem_flatMap] at agree
      simp only [mapColumns_case]
      congr 1
      · apply List.map_congr_left
        intro branch member
        have holds := branchInduction branch member
        rw [holds.1 fun ref refMember => agree ref (.inl ⟨branch, member, .inl refMember⟩),
          holds.2 fun ref refMember => agree ref (.inl ⟨branch, member, .inr refMember⟩)]
      · cases otherwise with
        | none => rfl
        | some other =>
            have holds := otherInduction other rfl fun ref refMember =>
              agree ref (.inr ⟨other, by simp, refMember⟩)
            simp [holds]
  | cast arg type induction =>
      simp only [mapColumns]
      rw [induction (by simpa [refs] using agree)]
  | aggregate name arg distinct induction =>
      cases arg with
      | none => rfl
      | some inner =>
          cases reach with
          | outsideAggregates => rfl
          | everywhere =>
              simp only [mapColumns]
              rw [induction inner rfl (by simpa [refs] using agree)]

theorem mapColumns_column (reach : Reach) (expr : Expr) :
    expr.mapColumns reach .column = expr := by
  induction expr with
  | column ref => rfl
  | literal constant => rfl
  | unary op arg induction => simp [mapColumns, induction]
  | binary op left right leftInduction rightInduction =>
      simp [mapColumns, leftInduction, rightInduction]
  | member arg values negated induction => simp [mapColumns, induction]
  | call name args induction =>
      simp only [mapColumns_call]
      rw [List.map_congr_left induction, List.map_id']
  | case branches otherwise branchInduction otherInduction =>
      simp only [mapColumns_case]
      have same : branches.map (fun branch =>
          (branch.1.mapColumns reach .column, branch.2.mapColumns reach .column)) =
            branches.map id :=
        List.map_congr_left fun branch member =>
          Prod.ext (branchInduction branch member).1 (branchInduction branch member).2
      rw [same, List.map_id]
      cases otherwise with
      | none => rfl
      | some other => simp [otherInduction other rfl]
  | cast arg type induction => simp [mapColumns, induction]
  | aggregate name arg distinct induction =>
      cases arg with
      | none => rfl
      | some inner =>
          cases reach with
          | outsideAggregates => rfl
          | everywhere => simp [mapColumns, induction inner rfl]

/-- Replacing twice replaces by what is replaced. -/
theorem mapColumns_mapColumns (reach : Reach) (first second : ColumnRef → Expr) (expr : Expr) :
    (expr.mapColumns reach first).mapColumns reach second =
      expr.mapColumns reach fun ref => (first ref).mapColumns reach second := by
  induction expr with
  | column ref => rfl
  | literal constant => rfl
  | unary op arg induction => simp [mapColumns, induction]
  | binary op left right leftInduction rightInduction =>
      simp [mapColumns, leftInduction, rightInduction]
  | member arg values negated induction => simp [mapColumns, induction]
  | call name args induction =>
      simp only [mapColumns_call, List.map_map]
      congr 1
      exact List.map_congr_left induction
  | case branches otherwise branchInduction otherInduction =>
      simp only [mapColumns_case, List.map_map]
      congr 1
      · apply List.map_congr_left
        intro branch member
        exact Prod.ext (branchInduction branch member).1 (branchInduction branch member).2
      · cases otherwise with
        | none => rfl
        | some other => exact congrArg some (otherInduction other rfl)
  | cast arg type induction => simp [mapColumns, induction]
  | aggregate name arg distinct induction =>
      cases arg with
      | none => rfl
      | some inner =>
          cases reach with
          | outsideAggregates => rfl
          | everywhere => simp [mapColumns, induction inner rfl]

/-- Only a column that is replaced by a column becomes one. -/
theorem mapColumns_eq_column {reach : Reach} {replace : ColumnRef → Expr} {expr : Expr}
    {column : ColumnRef} (becomes : expr.mapColumns reach replace = .column column) :
    ∃ ref, expr = .column ref ∧ replace ref = .column column := by
  cases expr with
  | column ref => exact ⟨ref, rfl, becomes⟩
  | case branches otherwise => cases otherwise <;> cases becomes
  | aggregate name arg distinct => cases arg <;> cases reach <;> cases becomes
  | _ => cases becomes

/-- A replacement that fails nowhere is a substitution. -/
theorem tryMapColumns_ok {ε : Type} {reach : Reach} {replace : ColumnRef → Except ε Expr}
    {expr result : Expr} (success : expr.tryMapColumns reach replace = .ok result) :
    ∃ substitution : ColumnRef → Expr,
      (∀ ref ∈ expr.refs reach, replace ref = .ok (substitution ref)) ∧
        result = expr.mapColumns reach substitution := by
  unfold tryMapColumns at success
  split at success
  · cases success
  · rename_i unfailing
    cases success
    refine ⟨_, ?_, rfl⟩
    intro ref member
    have succeeds := List.findSome?_eq_none_iff.mp unfailing ref member
    cases replaced : replace ref with
    | error failure => simp [failure?, replaced] at succeeds
    | ok expr => rfl

/-! ## Aggregate calls -/

theorem aggregateList?_eq_none {args : List Expr} :
    aggregateList? args = none ↔ ∀ arg ∈ args, arg.aggregate? = none := by
  induction args with
  | nil => simp [aggregateList?]
  | cons arg args induction => simp [aggregateList?, induction]

theorem aggregateBranches?_eq_none {branches : List (Expr × Expr)} :
    aggregateBranches? branches = none ↔
      ∀ branch ∈ branches, branch.1.aggregate? = none ∧ branch.2.aggregate? = none := by
  induction branches with
  | nil => simp [aggregateBranches?]
  | cons branch branches induction => simp [aggregateBranches?, induction, and_assoc]

theorem aggregate?_case_eq_none {branches : List (Expr × Expr)} {otherwise : Option Expr} :
    (Expr.case branches otherwise).aggregate? = none ↔
      (∀ branch ∈ branches, branch.1.aggregate? = none ∧ branch.2.aggregate? = none) ∧
        ∀ other ∈ otherwise, other.aggregate? = none := by
  cases otherwise <;> simp [aggregate?, aggregateBranches?_eq_none]

/-- Replacing columns removes no aggregate call. -/
theorem aggregate?_of_mapColumns {reach : Reach} {replace : ColumnRef → Expr} {expr : Expr}
    (scalar : (expr.mapColumns reach replace).aggregate? = none) : expr.aggregate? = none := by
  induction expr with
  | column ref => rfl
  | literal constant => rfl
  | unary op arg induction => exact induction scalar
  | binary op left right leftInduction rightInduction =>
      simp only [mapColumns, aggregate?, Option.or_eq_none_iff] at scalar ⊢
      exact ⟨leftInduction scalar.1, rightInduction scalar.2⟩
  | member arg values negated induction => exact induction scalar
  | call name args induction =>
      simp only [mapColumns_call, aggregate?, aggregateList?_eq_none, List.forall_mem_map]
        at scalar ⊢
      exact fun arg member => induction arg member (scalar arg member)
  | case branches otherwise branchInduction otherInduction =>
      simp only [mapColumns_case, aggregate?_case_eq_none, List.forall_mem_map] at scalar ⊢
      refine ⟨fun branch member => ?_, fun other member => ?_⟩
      · have holds := branchInduction branch member
        have scalars := scalar.1 branch member
        exact ⟨holds.1 scalars.1, holds.2 scalars.2⟩
      · exact otherInduction other member (scalar.2 _ (Option.mem_map_of_mem _ member))
  | cast arg type induction => exact induction scalar
  | aggregate name arg distinct induction =>
      cases arg <;> cases reach <;> cases scalar

/-- Replacing columns by expressions without aggregate calls adds none. -/
theorem aggregate?_mapColumns {reach : Reach} {replace : ColumnRef → Expr} {expr : Expr}
    (scalar : expr.aggregate? = none)
    (scalars : ∀ ref ∈ expr.refs reach, (replace ref).aggregate? = none) :
    (expr.mapColumns reach replace).aggregate? = none := by
  induction expr with
  | column ref => exact scalars ref (List.mem_singleton.mpr rfl)
  | literal constant => rfl
  | unary op arg induction => exact induction scalar scalars
  | binary op left right leftInduction rightInduction =>
      simp only [mapColumns, aggregate?, Option.or_eq_none_iff, refs, List.forall_mem_append]
        at scalar scalars ⊢
      exact ⟨leftInduction scalar.1 scalars.1, rightInduction scalar.2 scalars.2⟩
  | member arg values negated induction => exact induction scalar scalars
  | call name args induction =>
      simp only [mapColumns_call, aggregate?, aggregateList?_eq_none, List.forall_mem_map,
        refs_call, List.mem_flatMap] at scalar scalars ⊢
      exact fun arg member => induction arg member (scalar arg member)
        fun ref found => scalars ref ⟨arg, member, found⟩
  | case branches otherwise branchInduction otherInduction =>
      simp only [mapColumns_case, aggregate?_case_eq_none, List.forall_mem_map, refs_case,
        List.mem_append, List.mem_flatMap, Option.mem_toList] at scalar scalars ⊢
      refine ⟨fun branch member => ?_, fun other member => ?_⟩
      · have holds := branchInduction branch member
        have parts := scalar.1 branch member
        exact ⟨holds.1 parts.1 fun ref found => scalars ref (.inl ⟨branch, member, .inl found⟩),
          holds.2 parts.2 fun ref found => scalars ref (.inl ⟨branch, member, .inr found⟩)⟩
      · obtain ⟨inner, innerMember, rfl⟩ := Option.map_eq_some_iff.mp member
        exact otherInduction inner innerMember (scalar.2 inner innerMember)
          fun ref found => scalars ref (.inr ⟨inner, innerMember, found⟩)
  | cast arg type induction => exact induction scalar scalars
  | aggregate name arg distinct induction => cases scalar

/-! ## Equality -/

theorem sameList_iff_forall₂ {lefts rights : List Expr} :
    sameList lefts rights ↔ List.Forall₂ (fun left right => left.same right) lefts rights := by
  induction lefts generalizing rights with
  | nil => cases rights <;> simp [sameList]
  | cons left lefts induction =>
      cases rights with
      | nil => simp [sameList]
      | cons right rights => simp [sameList, induction]

theorem sameBranches_iff_forall₂ {lefts rights : List (Expr × Expr)} :
    sameBranches lefts rights ↔
      List.Forall₂ (fun left right => left.1.same right.1 ∧ left.2.same right.2) lefts rights := by
  induction lefts generalizing rights with
  | nil => cases rights <;> simp [sameBranches]
  | cons left lefts induction =>
      cases rights with
      | nil => simp [sameBranches]
      | cons right rights => simp [sameBranches, induction, and_assoc]

theorem sameLiterals_iff_forall₂ {lefts rights : List Literal} :
    sameLiterals lefts rights ↔
      List.Forall₂ (fun left right => left.same right) lefts rights := by
  induction lefts generalizing rights with
  | nil => cases rights <;> simp [sameLiterals]
  | cons left lefts induction =>
      cases rights with
      | nil => simp [sameLiterals]
      | cons right rights => simp [sameLiterals, induction]

theorem same_case_iff {branches branches' : List (Expr × Expr)}
    {otherwise otherwise' : Option Expr} :
    (Expr.case branches otherwise).same (.case branches' otherwise') ↔
      sameBranches branches branches' ∧
        Option.Rel (fun left right => left.same right) otherwise otherwise' := by
  cases otherwise <;> cases otherwise' <;> simp [same]

theorem same_aggregate_iff {name name' : String} {arg arg' : Option Expr}
    {distinct distinct' : Bool} :
    (Expr.aggregate name arg distinct).same (.aggregate name' arg' distinct') ↔
      name = name' ∧ distinct = distinct' ∧
        Option.Rel (fun left right => left.same right) arg arg' := by
  cases arg <;> cases arg' <;> simp [same, and_assoc]

/-- Only a column itself equals a column. -/
theorem same_column_iff {expr : Expr} {ref : ColumnRef} :
    expr.same (.column ref) ↔ expr = .column ref := by
  cases expr <;> simp [same]

/-- Induction on equal expressions: they are built alike from parts that are equal and of which
the statement may be assumed. -/
@[elab_as_elim]
theorem inductionOnSame {motive : Expr → Expr → Prop}
    (column : ∀ ref, motive (.column ref) (.column ref))
    (literal : ∀ constant other, constant.same other → motive (.literal constant) (.literal other))
    (unary : ∀ op arg other, arg.same other → motive arg other →
      motive (.unary op arg) (.unary op other))
    (binary : ∀ op first second otherFirst otherSecond,
      first.same otherFirst ∧ motive first otherFirst →
      second.same otherSecond ∧ motive second otherSecond →
      motive (.binary op first second) (.binary op otherFirst otherSecond))
    (member : ∀ arg other values others negated, arg.same other → motive arg other →
      List.Forall₂ (fun left right => left.same right) values others →
      motive (.member arg values negated) (.member other others negated))
    (call : ∀ name args others,
      List.Forall₂ (fun left right => left.same right ∧ motive left right) args others →
      motive (.call name args) (.call name others))
    (case : ∀ branches others otherwise other,
      List.Forall₂ (fun left right => (left.1.same right.1 ∧ motive left.1 right.1) ∧
        left.2.same right.2 ∧ motive left.2 right.2) branches others →
      Option.Rel (fun left right => left.same right ∧ motive left right) otherwise other →
      motive (.case branches otherwise) (.case others other))
    (cast : ∀ arg other type, arg.same other → motive arg other →
      motive (.cast arg type) (.cast other type))
    (aggregate : ∀ name arg other distinct,
      Option.Rel (fun left right => left.same right ∧ motive left right) arg other →
      motive (.aggregate name arg distinct) (.aggregate name other distinct))
    {left right : Expr} (equal : left.same right) : motive left right := by
  have options {first second : Option Expr}
      (holds : ∀ inner ∈ first, ∀ {right : Expr}, inner.same right → motive inner right)
      (related : Option.Rel (fun left right => left.same right) first second) :
      Option.Rel (fun left right => left.same right ∧ motive left right) first second := by
    cases related with
    | none => exact .none
    | some equal => exact .some ⟨equal, holds _ rfl equal⟩
  induction left generalizing right with
  | column ref =>
      cases right <;> simp only [same, Bool.false_eq_true, beq_iff_eq] at equal
      subst equal
      exact column ref
  | literal constant =>
      cases right <;> simp only [same, Bool.false_eq_true] at equal
      exact literal _ _ equal
  | unary op arg induction =>
      cases right <;> simp only [same, Bool.false_eq_true, Bool.and_eq_true, beq_iff_eq] at equal
      obtain ⟨rfl, argEqual⟩ := equal
      exact unary op _ _ argEqual (induction argEqual)
  | binary op first second firstInduction secondInduction =>
      cases right <;> simp only [same, Bool.false_eq_true, Bool.and_eq_true, beq_iff_eq] at equal
      obtain ⟨⟨rfl, firstEqual⟩, secondEqual⟩ := equal
      exact binary op _ _ _ _ ⟨firstEqual, firstInduction firstEqual⟩
        ⟨secondEqual, secondInduction secondEqual⟩
  | member arg values negated induction =>
      cases right <;> simp only [same, Bool.false_eq_true, Bool.and_eq_true, beq_iff_eq] at equal
      obtain ⟨⟨rfl, argEqual⟩, valuesEqual⟩ := equal
      exact member _ _ _ _ _ argEqual (induction argEqual) (sameLiterals_iff_forall₂.mp valuesEqual)
  | call name args induction =>
      cases right <;> simp only [same, Bool.false_eq_true, Bool.and_eq_true, beq_iff_eq] at equal
      obtain ⟨rfl, argsEqual⟩ := equal
      apply call
      refine ((List.forall₂_and_left _ _).mpr
        ⟨induction, sameList_iff_forall₂.mp argsEqual⟩).imp ?_
      rintro left right ⟨holds, equal⟩
      exact ⟨equal, holds equal⟩
  | case branches otherwise branchInduction otherInduction =>
      cases right with
      | case branches' otherwise' =>
          obtain ⟨branchesEqual, otherEqual⟩ := same_case_iff.mp equal
          refine case _ _ _ _ ?_ (options otherInduction otherEqual)
          refine ((List.forall₂_and_left _ _).mpr
            ⟨branchInduction, sameBranches_iff_forall₂.mp branchesEqual⟩).imp ?_
          rintro left right ⟨holds, condition, result⟩
          exact ⟨⟨condition, holds.1 condition⟩, result, holds.2 result⟩
      | _ => simp [same] at equal
  | cast arg type induction =>
      cases right <;> simp only [same, Bool.false_eq_true, Bool.and_eq_true, beq_iff_eq] at equal
      obtain ⟨rfl, argEqual⟩ := equal
      exact cast _ _ _ argEqual (induction argEqual)
  | aggregate name arg distinct induction =>
      cases right with
      | aggregate name' arg' distinct' =>
          obtain ⟨rfl, rfl, argEqual⟩ := same_aggregate_iff.mp equal
          exact aggregate _ _ _ _ (options induction argEqual)
      | _ => simp [same] at equal

end SqlPlan.Expr
