import SqlPlan.Proofs.Expr.Fragment
import SqlPlan.Proofs.Expr.Parts

/-!
# Where aggregates are called

An aggregate is called as such, or as a function that the dialect marks as an
aggregate.  Neither is written where no aggregates are allowed, and none are
allowed in the argument of an aggregate call; elsewhere it makes no difference
whether they are allowed.
-/

namespace SqlPlan.Expr

def isAggregateCall (dialect : Dialect) : Expr → Bool
  | .aggregate _ _ _ => true
  | .call name _ => (dialect.function? name).any (·.isAggregate)
  | _ => false

/-- No aggregate is called, at any depth. -/
def CallFree (dialect : Dialect) (expr : Expr) : Prop :=
  ∀ inner : Expr, inner.Within expr → inner.isAggregateCall dialect = false

variable {dialect : Dialect}

theorem callFree_iff {expr : Expr} :
    expr.CallFree dialect ↔
      expr.isAggregateCall dialect = false ∧ ∀ child ∈ expr.children, child.CallFree dialect := by
  constructor
  · intro free
    exact ⟨free expr .self, fun child member inner within => free inner (.deeper member within)⟩
  · rintro ⟨here, below⟩ inner within
    cases within with
    | self => exact here
    | deeper member within => exact below _ member inner within

theorem CallFree.within {inner outer : Expr} (free : outer.CallFree dialect)
    (within : inner.Within outer) : inner.CallFree dialect :=
  fun _ deeper => free _ (deeper.trans within)

theorem CallFree.column (ref : ColumnRef) : (Expr.column ref).CallFree dialect :=
  callFree_iff.mpr ⟨rfl, by simp [children]⟩

theorem callFree_of_isNullLiteral {expr : Expr} (null : expr.isNullLiteral = true) :
    expr.CallFree dialect := by
  cases expr with
  | literal constant => exact callFree_iff.mpr ⟨rfl, by simp [children]⟩
  | _ => cases null

theorem isAggregateCall_mapColumns {reach : Reach} {replace : ColumnRef → Expr} {expr : Expr}
    (compound : expr.column? = none) :
    (expr.mapColumns reach replace).isAggregateCall dialect = expr.isAggregateCall dialect := by
  cases expr with
  | column ref => cases compound
  | case branches otherwise => cases otherwise <;> rfl
  | aggregate name arg distinct => cases arg <;> cases reach <;> rfl
  | _ => rfl

theorem CallFree.mapColumns {replace : ColumnRef → Expr} {expr : Expr}
    (free : expr.CallFree dialect)
    (replaced : ∀ ref ∈ expr.columnRefs, (replace ref).CallFree dialect) :
    (expr.mapColumns .everywhere replace).CallFree dialect := by
  intro inner within
  rcases within_mapColumns within with ⟨part, partWithin, compound, rfl⟩ | ⟨ref, member, within⟩
  · rw [isAggregateCall_mapColumns compound]
    exact free part partWithin
  · exact replaced ref member inner within

theorem CallFree.mapColumns_outside {replace : ColumnRef → Expr} {expr : Expr}
    (free : expr.CallFree dialect)
    (replaced : ∀ ref ∈ expr.refs .outsideAggregates, (replace ref).CallFree dialect) :
    (expr.mapColumns .outsideAggregates replace).CallFree dialect := by
  intro inner within
  rcases within_mapColumns_outside within with
    ⟨part, partWithin, compound, _, rfl⟩ | same | ⟨ref, outside, within⟩
  · rw [isAggregateCall_mapColumns compound]
    exact free part partWithin
  · exact free inner same
  · exact replaced ref outside inner within

/-- No function that is marked as an aggregate is called. -/
def PlainCalls (dialect : Dialect) (expr : Expr) : Prop :=
  ∀ name args, (Expr.call name args).Within expr →
    (dialect.function? name).any (·.isAggregate) = false

theorem callFree_of_plainCalls {expr : Expr} (scalar : expr.aggregate? = none)
    (plain : expr.PlainCalls dialect) : expr.CallFree dialect := by
  intro inner within
  cases inner with
  | call name args => exact plain name args within
  | aggregate name arg distinct => cases aggregate?_of_within within scalar
  | _ => rfl

theorem CallFree.ofMapColumns {replace : ColumnRef → Expr} {expr : Expr}
    (free : (expr.mapColumns .everywhere replace).CallFree dialect) : expr.CallFree dialect := by
  intro inner within
  cases compound : inner.column? with
  | some ref =>
      rw [eq_column_of_column? compound]
      rfl
  | none =>
      rw [← isAggregateCall_mapColumns compound]
      exact free _ within.mapColumns

/-- No aggregate is called in the arguments of a call. -/
def Unnested (dialect : Dialect) (call : Expr) : Prop :=
  ∀ child ∈ call.children, child.CallFree dialect

theorem Unnested.mapColumns {replace : ColumnRef → Expr} {call : Expr}
    (unnested : call.Unnested dialect) (compound : call.column? = none)
    (replaced : ∀ ref ∈ call.columnRefs, (replace ref).CallFree dialect) :
    (call.mapColumns .everywhere replace).Unnested dialect := by
  unfold Unnested
  rw [children_mapColumns compound (.inl rfl), List.forall_mem_map]
  intro child member
  refine (unnested child member).mapColumns fun ref read => replaced ref ?_
  exact refs_subset_of_mem_children member (.inl rfl) read

theorem Unnested.mapColumns_outside {replace : ColumnRef → Expr} {call : Expr}
    (unnested : call.Unnested dialect) (compound : call.column? = none)
    (replaced : ∀ ref ∈ call.refs .outsideAggregates, (replace ref).CallFree dialect) :
    (call.mapColumns .outsideAggregates replace).Unnested dialect := by
  cases isAggregate : call.isAggregate with
  | true => rwa [mapColumns_of_out_of_reach isAggregate]
  | false =>
      unfold Unnested
      rw [children_mapColumns compound (.inr isAggregate), List.forall_mem_map]
      intro child member
      refine (unnested child member).mapColumns_outside fun ref outside => replaced ref ?_
      exact refs_subset_of_mem_children member (.inr isAggregate) outside

/-- No aggregate is called in the argument of an aggregate call. -/
def ArgumentsFree (dialect : Dialect) (expr : Expr) : Prop :=
  ∀ call : Expr, call.Within expr → call.isAggregate = true → call.Unnested dialect

theorem ArgumentsFree.ofMapColumns {replace : ColumnRef → Expr} {expr : Expr}
    (free : (expr.mapColumns .everywhere replace).ArgumentsFree dialect) :
    expr.ArgumentsFree dialect := by
  intro call within isCall child member
  have compound : call.column? = none := by
    cases call with
    | column ref => cases isCall
    | _ => rfl
  have mapped : (child.mapColumns .everywhere replace).CallFree dialect := by
    refine free _ within.mapColumns ?_ _ ?_
    · rw [isAggregate_mapColumns compound, isCall]
    · rw [children_mapColumns compound (.inl rfl)]
      exact List.mem_map_of_mem member
  exact mapped.ofMapColumns

/-! ### Equal expressions -/

theorem isAggregateCall_of_same {left right : Expr} (same : left.same right = true) :
    left.isAggregateCall dialect = right.isAggregateCall dialect := by
  cases left with
  | call name args =>
      cases right with
      | call name' args' =>
          have names : name = name' := by
            simp only [Expr.same, Bool.and_eq_true, beq_iff_eq] at same
            exact same.1
          rw [isAggregateCall, isAggregateCall, names]
      | _ => simp [Expr.same] at same
  | aggregate name arg distinct =>
      cases right with
      | aggregate name' arg' distinct' => rfl
      | _ => simp [Expr.same] at same
  | _ =>
      cases right with
      | call name' args' => simp [Expr.same] at same
      | aggregate name' arg' distinct' => simp [Expr.same] at same
      | _ => rfl

theorem CallFree.ofSame {left right : Expr} (free : left.CallFree dialect)
    (same : left.same right = true) : right.CallFree dialect := by
  intro inner within
  obtain ⟨other, otherWithin, equal⟩ := exists_within_of_same same within
  rw [← isAggregateCall_of_same equal]
  exact free other otherWithin

theorem ArgumentsFree.ofSame {left right : Expr} (free : left.ArgumentsFree dialect)
    (same : left.same right = true) : right.ArgumentsFree dialect := by
  intro call within isCall child member
  obtain ⟨other, otherWithin, equal⟩ := exists_within_of_same same within
  obtain ⟨otherChild, otherMember, childEqual⟩ :=
    exists_mem_of_forall₂ (forall₂_children_of_same equal) member
  have otherCall : other.isAggregate = true := (isAggregate_of_same equal).trans isCall
  exact (free other otherWithin otherCall otherChild otherMember).ofSame childEqual

/-! ## What is written -/

section Written

variable {setting : Setting} {aggregates : Bool} {fragment : Fragment}

theorem exists_of_mem_args {args : List Expr} {texts : List String}
    (written : Expr.texts setting aggregates args = .ok texts) {arg : Expr} (member : arg ∈ args) :
    ∃ fragment, arg.fragment setting aggregates = .ok fragment := by
  induction args generalizing texts with
  | nil => cases member
  | cons first args induction =>
      rw [Expr.texts] at written
      obtain ⟨fragment, firstWritten, written⟩ := bind_eq_ok.mp written
      obtain ⟨rest, restWritten, _⟩ := bind_eq_ok.mp written
      rcases List.mem_cons.mp member with rfl | later
      · exact ⟨fragment, firstWritten⟩
      · exact induction restWritten later

theorem exists_of_mem_branches {branches : List (Expr × Expr)} {texts : List String}
    (written : branchTexts setting aggregates branches = .ok texts) {branch : Expr × Expr}
    (member : branch ∈ branches) :
    (∃ fragment, branch.1.fragment setting aggregates = .ok fragment) ∧
      ∃ fragment, branch.2.fragment setting aggregates = .ok fragment := by
  induction branches generalizing texts with
  | nil => cases member
  | cons first branches induction =>
      obtain ⟨condition, result⟩ := first
      rw [branchTexts] at written
      obtain ⟨conditionFragment, conditionWritten, written⟩ := bind_eq_ok.mp written
      obtain ⟨resultFragment, resultWritten, written⟩ := bind_eq_ok.mp written
      obtain ⟨rest, restWritten, _⟩ := bind_eq_ok.mp written
      rcases List.mem_cons.mp member with rfl | later
      · exact ⟨⟨_, conditionWritten⟩, _, resultWritten⟩
      · exact induction restWritten later

theorem fragment_branches {branches : List (Expr × Expr)} {otherwise : Option Expr}
    (written : (Expr.case branches otherwise).fragment setting aggregates = .ok fragment) :
    ∃ texts, branchTexts setting aggregates branches = .ok texts ∧
      ∀ other ∈ otherwise, ∃ otherFragment,
        other.fragment setting aggregates = .ok otherFragment := by
  cases otherwise with
  | none =>
      rw [Expr.fragment] at written
      obtain ⟨texts, textsWritten, _⟩ := bind_eq_ok.mp written
      exact ⟨texts, textsWritten, by simp⟩
  | some other =>
      rw [Expr.fragment] at written
      obtain ⟨texts, textsWritten, written⟩ := bind_eq_ok.mp written
      obtain ⟨otherFragment, otherWritten, _⟩ := bind_eq_ok.mp written
      exact ⟨texts, textsWritten, by simp [otherWritten]⟩

theorem isNullLiteral_of_nullSide (op : ComparisonOp) (left right : Expr) :
    (nullSide op left right = .both ∨ nullSide op left right = .left →
        left.isNullLiteral = true) ∧
      (nullSide op left right = .both ∨ nullSide op left right = .right →
        right.isNullLiteral = true) := by
  unfold nullSide
  by_cases tests : op = .equal ∨ op = .notEqual
  · cases left.isNullLiteral <;> cases right.isNullLiteral <;> simp [tests]
  · simp [tests]

/-- Every child is written, but for a null that a comparison tests for.  In the
argument of an aggregate call no aggregates are allowed. -/
theorem fragment_children {expr : Expr}
    (written : expr.fragment setting aggregates = .ok fragment) :
    ∀ child ∈ expr.children, child.isNullLiteral = true ∨ ∃ childFragment,
      child.fragment setting (aggregates && !expr.isAggregate) = .ok childFragment := by
  cases expr with
  | column ref => simp [children]
  | literal constant => simp [children]
  | unary op arg =>
      obtain ⟨argFragment, argWritten, _⟩ := fragment_unary written
      simp [children, isAggregate, argWritten]
  | binary op left right =>
      cases op with
      | logical op =>
          obtain ⟨_, _, leftWritten, rightWritten, _⟩ := fragment_logical written
          simp [children, isAggregate, leftWritten, rightWritten]
      | arithmetic op =>
          obtain ⟨_, _, leftWritten, rightWritten, _⟩ := fragment_arithmetic written
          simp [children, isAggregate, leftWritten, rightWritten]
      | comparison op =>
          obtain ⟨leftNull, rightNull⟩ := isNullLiteral_of_nullSide op left right
          rcases fragment_comparison written with
            ⟨side, _⟩ | ⟨side, _, leftWritten, _⟩ | ⟨side, _, rightWritten, _⟩ |
            ⟨_, _, _, leftWritten, rightWritten, _⟩
          · simp [children, leftNull (.inl side), rightNull (.inl side)]
          · simp [children, isAggregate, leftWritten, rightNull (.inr side)]
          · simp [children, isAggregate, rightWritten, leftNull (.inr side)]
          · simp [children, isAggregate, leftWritten, rightWritten]
  | member arg values negated =>
      obtain ⟨argFragment, _, argWritten, _⟩ := fragment_member written
      simp [children, isAggregate, argWritten]
  | call name args =>
      rw [Expr.fragment] at written
      obtain ⟨_, _, written⟩ := bind_eq_ok.mp written
      obtain ⟨texts, textsWritten, _⟩ := bind_eq_ok.mp written
      intro child member
      simpa [isAggregate] using .inr (exists_of_mem_args textsWritten member)
  | case branches otherwise =>
      obtain ⟨texts, textsWritten, otherWritten⟩ := fragment_branches written
      intro child member
      simp only [isAggregate, Bool.not_false, Bool.and_true]
      rcases mem_children_case.mp member with ⟨branch, branchMember, rfl | rfl⟩ | isOther
      · exact .inr (exists_of_mem_branches textsWritten branchMember).1
      · exact .inr (exists_of_mem_branches textsWritten branchMember).2
      · exact .inr (otherWritten child isOther)
  | cast arg type =>
      obtain ⟨argFragment, argWritten, _⟩ := fragment_cast written
      simp [children, isAggregate, argWritten]
  | aggregate name arg distinct =>
      intro child member
      cases Option.mem_toList.mp member
      rw [Expr.fragment] at written
      split at written
      · obtain ⟨argFragment, argWritten, _⟩ := bind_eq_ok.mp written
        exact .inr ⟨argFragment, by simpa [isAggregate] using argWritten⟩
      · cases written

theorem isAggregateCall_of_fragment {expr : Expr}
    (written : expr.fragment setting false = .ok fragment) :
    expr.isAggregateCall setting.dialect = false := by
  cases expr with
  | call name args =>
      rw [Expr.fragment] at written
      obtain ⟨entry, found, _⟩ := bind_eq_ok.mp written
      unfold lookupFunction at found
      split at found
      · cases found
      · rename_i other known
        split at found
        · cases found
        · rename_i plain
          simpa [isAggregateCall, known] using plain
  | aggregate name arg distinct => cases arg <;> (rw [Expr.fragment] at written; cases written)
  | _ => rfl

/-- What is written where no aggregates are allowed calls none. -/
theorem callFree_of_fragment {expr : Expr}
    (written : expr.fragment setting false = .ok fragment) : expr.CallFree setting.dialect := by
  induction expr using inductionOnChildren generalizing fragment with
  | step expr induction =>
      refine callFree_iff.mpr ⟨isAggregateCall_of_fragment written, fun child member => ?_⟩
      rcases fragment_children written child member with null | ⟨childFragment, childWritten⟩
      · exact callFree_of_isNullLiteral null
      · exact induction child member childWritten

/-- What is written has no aggregate in the argument of an aggregate call. -/
theorem argumentsFree_of_fragment {expr : Expr}
    (written : expr.fragment setting aggregates = .ok fragment) :
    expr.ArgumentsFree setting.dialect := by
  intro call within isCall
  induction within generalizing aggregates fragment with
  | self =>
      intro child member
      rcases fragment_children written child member with null | ⟨childFragment, childWritten⟩
      · exact callFree_of_isNullLiteral null
      · rw [isCall, Bool.not_true, Bool.and_false] at childWritten
        exact callFree_of_fragment childWritten
  | @deeper child outer member within induction =>
      rcases fragment_children written child member with null | ⟨childFragment, childWritten⟩
      · have free : call.CallFree setting.dialect :=
          (callFree_of_isNullLiteral null).within within
        exact (callFree_iff.mp free).2
      · exact induction childWritten

/-! ### Where it makes no difference -/

theorem texts_congr {args : List Expr}
    (agree : ∀ arg ∈ args, arg.fragment setting aggregates = arg.fragment setting true) :
    Expr.texts setting aggregates args = Expr.texts setting true args := by
  induction args with
  | nil => rfl
  | cons arg args induction =>
      obtain ⟨here, rest⟩ := List.forall_mem_cons.mp agree
      rw [Expr.texts, Expr.texts, here, induction rest]

theorem branchTexts_congr {branches : List (Expr × Expr)}
    (agree : ∀ branch ∈ branches,
      branch.1.fragment setting aggregates = branch.1.fragment setting true ∧
        branch.2.fragment setting aggregates = branch.2.fragment setting true) :
    branchTexts setting aggregates branches = branchTexts setting true branches := by
  induction branches with
  | nil => rfl
  | cons branch branches induction =>
      obtain ⟨⟨condition, result⟩, rest⟩ := List.forall_mem_cons.mp agree
      rw [branchTexts, branchTexts, condition, result, induction rest]

theorem lookupFunction_of_plain {name : String}
    (plain : (dialect.function? name).any (·.isAggregate) = false) :
    lookupFunction dialect aggregates name = lookupFunction dialect true name := by
  unfold lookupFunction
  split
  · rfl
  · rename_i entry known
    have unmarked : entry.isAggregate = false := by simpa [known] using plain
    simp [unmarked]

/-- An expression that calls no aggregate is written alike wherever it stands. -/
theorem fragment_of_callFree {expr : Expr} (free : expr.CallFree setting.dialect) :
    expr.fragment setting aggregates = expr.fragment setting true := by
  induction expr with
  | column ref => rfl
  | literal constant => rfl
  | unary op arg induction =>
      obtain ⟨_, below⟩ := callFree_iff.mp free
      rw [Expr.fragment, Expr.fragment, induction (below arg (by simp [children]))]
  | binary op left right leftInduction rightInduction =>
      obtain ⟨_, below⟩ := callFree_iff.mp free
      have leftSame := leftInduction (below left (by simp [children]))
      have rightSame := rightInduction (below right (by simp [children]))
      cases op <;> rw [Expr.fragment, Expr.fragment, leftSame, rightSame]
  | member arg values negated induction =>
      obtain ⟨_, below⟩ := callFree_iff.mp free
      rw [Expr.fragment, Expr.fragment, induction (below arg (by simp [children]))]
  | call name args induction =>
      obtain ⟨here, below⟩ := callFree_iff.mp free
      rw [Expr.fragment, Expr.fragment, lookupFunction_of_plain here,
        texts_congr fun arg member => induction arg member (below arg member)]
  | case branches otherwise branchInduction otherInduction =>
      obtain ⟨_, below⟩ := callFree_iff.mp free
      have branchesSame : branchTexts setting aggregates branches =
          branchTexts setting true branches := by
        refine branchTexts_congr fun branch member => ?_
        have holds := branchInduction branch member
        exact ⟨holds.1 (below _ (mem_children_case.mpr (.inl ⟨branch, member, .inl rfl⟩))),
          holds.2 (below _ (mem_children_case.mpr (.inl ⟨branch, member, .inr rfl⟩)))⟩
      cases otherwise with
      | none => rw [Expr.fragment, Expr.fragment, branchesSame]
      | some other =>
          have otherSame := otherInduction other rfl
            (below other (mem_children_case.mpr (.inr rfl)))
          rw [Expr.fragment, Expr.fragment, branchesSame, otherSame]
  | cast arg type induction =>
      obtain ⟨_, below⟩ := callFree_iff.mp free
      rw [Expr.fragment, Expr.fragment, induction (below arg (by simp [children]))]
  | aggregate name arg distinct _ => cases (callFree_iff.mp free).1

theorem sql_of_callFree {expr : Expr} (free : expr.CallFree setting.dialect) :
    expr.sql setting aggregates = expr.sql setting true := by
  rw [sql, sql, fragment_of_callFree free]

end Written

end SqlPlan.Expr
