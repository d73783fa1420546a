import SqlPlan.Proofs.Expr.Traversal

/-!
# Values of expressions

An interpretation gives a meaning to literals, operators, functions and
aggregates over values of any kind, together with the order in which values
are sorted.  Nothing is assumed of the operators; literals that are equal, the
two zeros among them, have one value.  An expression has a value for a row of
its source and, where it calls aggregates, for the rows of a group.
-/

namespace SqlPlan

structure Interpretation (V : Type) where
  null : V
  isTrue : V → Bool
  literal : Literal → V
  unary : UnaryOp → V → V
  binary : BinaryOp → V → V → V
  member : V → List V → Bool → V
  call : String → List V → V
  case : List (V × V) → Option V → V
  cast : DataType → V → V
  /-- The arguments in all rows of a group, or as many times none. -/
  aggregate : String → Bool → List (Option V) → V
  le : V → V → Bool
  literal_same : ∀ {left right : Literal}, left.same right → literal left = literal right
  le_total : ∀ left right, le left right || le right left
  le_trans : ∀ first second third, le first second → le second third → le first third

/-- An interpretation over the natural numbers: zero is null and not true,
comparisons and connectives give one or null. -/
def Interpretation.numeric : Interpretation Nat where
  null := 0
  isTrue value := value != 0
  literal constant := if constant.isNull then 0 else 1
  unary op value :=
    match op with
    | .not | .isNull => if value = 0 then 1 else 0
    | .isNotNull => if value = 0 then 0 else 1
    | .negate => value
  binary op left right :=
    match op with
    | .arithmetic _ => left + right
    | .comparison _ => if left = right ∧ left ≠ 0 then 1 else 0
    | .logical .and => if left ≠ 0 ∧ right ≠ 0 then 1 else 0
    | .logical .or => if left ≠ 0 ∨ right ≠ 0 then 1 else 0
  member value values negated := if values.contains value = negated then 0 else 1
  call _ args := (args.find? fun value => value != 0).getD 0
  case branches otherwise :=
    ((branches.find? fun branch => branch.1 != 0).map Prod.snd).getD (otherwise.getD 0)
  cast _ value := value
  aggregate _ _ args := args.length
  le left right := left ≤ right
  literal_same := by
    rintro ⟨left, leftMark⟩ ⟨right, rightMark⟩ same
    cases left <;> cases right <;> simp_all [Literal.same, Scalar.same, Literal.isNull]
  le_total left right := by simpa using Nat.le_total left right
  le_trans first second third := by simpa using Nat.le_trans

/-- The value of each column in one row. -/
abbrev Env (V : Type) := ColumnRef → V

namespace Expr

variable {V : Type}

mutual

/-- The value of an expression in a row.  Aggregate calls range over `group`. -/
def eval (meaning : Interpretation V) (group : List (Env V)) (env : Env V) : Expr → V
  | .column ref => env ref
  | .literal constant => meaning.literal constant
  | .unary op arg => meaning.unary op (arg.eval meaning group env)
  | .binary op left right =>
      meaning.binary op (left.eval meaning group env) (right.eval meaning group env)
  | .member arg values negated =>
      meaning.member (arg.eval meaning group env) (values.map meaning.literal) negated
  | .call name args => meaning.call name (evalList meaning group env args)
  | .case branches none => meaning.case (evalBranches meaning group env branches) none
  | .case branches (some otherwise) =>
      meaning.case (evalBranches meaning group env branches)
        (some (otherwise.eval meaning group env))
  | .cast arg type => meaning.cast type (arg.eval meaning group env)
  | .aggregate name none distinct =>
      meaning.aggregate name distinct (group.map fun _ => none)
  | .aggregate name (some arg) distinct =>
      meaning.aggregate name distinct (group.map fun row => some (arg.eval meaning [] row))

def evalList (meaning : Interpretation V) (group : List (Env V)) (env : Env V) :
    List Expr → List V
  | [] => []
  | expr :: rest => expr.eval meaning group env :: evalList meaning group env rest

def evalBranches (meaning : Interpretation V) (group : List (Env V)) (env : Env V) :
    List (Expr × Expr) → List (V × V)
  | [] => []
  | (condition, result) :: rest =>
      (condition.eval meaning group env, result.eval meaning group env) ::
        evalBranches meaning group env rest

end

variable {meaning : Interpretation V} {group : List (Env V)} {env : Env V}

section

attribute [local simp] eval evalList evalBranches

theorem evalList_eq_map (args : List Expr) :
    evalList meaning group env args = args.map (eval meaning group env) := by
  induction args with
  | nil => rfl
  | cons arg args induction => simp [induction]

theorem evalBranches_eq_map (branches : List (Expr × Expr)) :
    evalBranches meaning group env branches =
      branches.map fun branch =>
        (branch.1.eval meaning group env, branch.2.eval meaning group env) := by
  induction branches with
  | nil => rfl
  | cons branch branches induction => simp [induction]

@[simp] theorem eval_call (name : String) (args : List Expr) :
    (Expr.call name args).eval meaning group env =
      meaning.call name (args.map (eval meaning group env)) := by
  rw [eval, evalList_eq_map]

@[simp] theorem eval_case (branches : List (Expr × Expr)) (otherwise : Option Expr) :
    (Expr.case branches otherwise).eval meaning group env =
      meaning.case
        (branches.map fun branch =>
          (branch.1.eval meaning group env, branch.2.eval meaning group env))
        (otherwise.map (eval meaning group env)) := by
  cases otherwise <;> simp [evalBranches_eq_map]

@[simp] theorem eval_aggregate (name : String) (arg : Option Expr) (distinct : Bool) :
    (Expr.aggregate name arg distinct).eval meaning group env =
      meaning.aggregate name distinct
        (group.map fun row => arg.map (eval meaning [] row)) := by
  cases arg <;> simp

end

/-- Evaluating a substituted expression is evaluating the expression with the
values of the replacements. -/
theorem eval_mapColumns (replace : ColumnRef → Expr) (expr : Expr) :
    (expr.mapColumns .everywhere replace).eval meaning group env =
      expr.eval meaning (group.map fun row ref => (replace ref).eval meaning [] row)
        (fun ref => (replace ref).eval meaning group env) := by
  induction expr generalizing group env with
  | column ref => rfl
  | literal constant => rfl
  | unary op arg induction => simp [mapColumns, eval, induction]
  | binary op left right leftInduction rightInduction =>
      simp [mapColumns, eval, leftInduction, rightInduction]
  | member arg values negated induction => simp [mapColumns, eval, induction]
  | call name args induction =>
      simp only [mapColumns_call, eval_call, List.map_map]
      congr 1
      exact List.map_congr_left fun arg member => induction arg member
  | case branches otherwise branchInduction otherInduction =>
      simp only [mapColumns_case, eval_case, List.map_map, Option.map_map]
      congr 1
      · apply List.map_congr_left
        intro branch member
        exact Prod.ext (branchInduction branch member).1 (branchInduction branch member).2
      · cases otherwise with
        | none => rfl
        | some other => simp [otherInduction other rfl]
  | cast arg type induction => simp [mapColumns, eval, induction]
  | aggregate name arg distinct induction =>
      simp only [mapColumns_aggregate_everywhere, eval_aggregate, List.map_map]
      congr 1
      apply List.map_congr_left
      intro row _
      cases arg with
      | none => rfl
      | some inner => simp [induction inner rfl]

/-- Of the row that is spoken of only the columns outside aggregate calls matter. -/
theorem eval_congr_outside {env env' : Env V} {expr : Expr}
    (agree : ∀ ref ∈ expr.refs .outsideAggregates, env ref = env' ref) :
    expr.eval meaning group env = expr.eval meaning group env' := by
  induction expr with
  | column ref => exact agree ref (by simp [refs])
  | literal constant => rfl
  | unary op arg induction =>
      simp only [eval]
      rw [induction (by simpa [refs] using agree)]
  | binary op left right leftInduction rightInduction =>
      simp only [refs, List.mem_append] at agree
      simp only [eval]
      rw [leftInduction fun ref member => agree ref (.inl member),
        rightInduction fun ref member => agree ref (.inr member)]
  | member arg values negated induction =>
      simp only [eval]
      rw [induction (by simpa [refs] using agree)]
  | call name args induction =>
      simp only [refs_call, List.mem_flatMap] at agree
      simp only [eval_call]
      congr 1
      apply List.map_congr_left
      intro arg member
      exact induction arg member fun ref refMember => agree ref ⟨arg, member, refMember⟩
  | case branches otherwise branchInduction otherInduction =>
      simp only [refs_case, List.mem_append, List.mem_flatMap] at agree
      simp only [eval_case]
      congr 1
      · apply List.map_congr_left
        intro branch member
        have holds := branchInduction branch member
        rw [holds.1 fun ref refMember => agree ref (.inl ⟨branch, member, .inl refMember⟩),
          holds.2 fun ref refMember => agree ref (.inl ⟨branch, member, .inr refMember⟩)]
      · cases otherwise with
        | none => rfl
        | some other =>
            have holds := otherInduction other rfl fun ref refMember =>
              agree ref (.inr ⟨other, by simp, refMember⟩)
            simp [holds]
  | cast arg type induction =>
      simp only [eval]
      rw [induction (by simpa [refs] using agree)]
  | aggregate name arg distinct induction => simp only [eval_aggregate]

/-- Outside a group only the values of the expression's own columns matter. -/
theorem eval_congr {env env' : Env V} {expr : Expr}
    (agree : ∀ ref ∈ expr.columnRefs, env ref = env' ref) :
    expr.eval meaning group env = expr.eval meaning group env' := by
  apply eval_congr_outside
  intro ref outside
  exact agree ref (mem_columnRefs_of_outside outside)

/-- Outside aggregate calls the rows of the group do not matter. -/
theorem eval_of_scalar {group' : List (Env V)} {expr : Expr} (scalar : expr.aggregate? = none) :
    expr.eval meaning group env = expr.eval meaning group' env := by
  induction expr with
  | column ref => rfl
  | literal constant => rfl
  | unary op arg induction => simp only [eval, induction scalar]
  | binary op left right leftInduction rightInduction =>
      simp only [aggregate?, Option.or_eq_none_iff] at scalar
      simp only [eval, leftInduction scalar.1, rightInduction scalar.2]
  | member arg values negated induction => simp only [eval, induction scalar]
  | call name args induction =>
      simp only [aggregate?, aggregateList?_eq_none] at scalar
      simp only [eval_call]
      congr 1
      exact List.map_congr_left fun arg member => induction arg member (scalar arg member)
  | case branches otherwise branchInduction otherInduction =>
      obtain ⟨scalarBranches, scalarOther⟩ := aggregate?_case_eq_none.mp scalar
      simp only [eval_case]
      congr 1
      · apply List.map_congr_left
        intro branch member
        have scalars := scalarBranches branch member
        rw [(branchInduction branch member).1 scalars.1,
          (branchInduction branch member).2 scalars.2]
      · cases otherwise with
        | none => rfl
        | some other => simp [otherInduction other rfl (scalarOther other rfl)]
  | cast arg type induction => simp only [eval, induction scalar]
  | aggregate name arg distinct induction => cases scalar

/-- Of the rows of a group only the values of the expression's own columns matter. -/
theorem eval_congr_group {α : Type} {members : List α} {first second : α → Env V} {expr : Expr}
    (agree : ∀ row ∈ members, ∀ ref ∈ expr.columnRefs, first row ref = second row ref) :
    expr.eval meaning (members.map first) env = expr.eval meaning (members.map second) env := by
  induction expr with
  | column ref => rfl
  | literal constant => rfl
  | unary op arg induction =>
      simp only [eval]
      rw [induction (by simpa [columnRefs, refs] using agree)]
  | binary op left right leftInduction rightInduction =>
      simp only [columnRefs, refs, List.mem_append] at agree
      simp only [eval]
      rw [leftInduction fun row member ref refMember => agree row member ref (.inl refMember),
        rightInduction fun row member ref refMember => agree row member ref (.inr refMember)]
  | member arg values negated induction =>
      simp only [eval]
      rw [induction (by simpa [columnRefs, refs] using agree)]
  | call name args induction =>
      simp only [columnRefs, refs_call, List.mem_flatMap] at agree
      simp only [eval_call]
      congr 1
      apply List.map_congr_left
      intro arg member
      exact induction arg member fun row rowMember ref refMember =>
        agree row rowMember ref ⟨arg, member, refMember⟩
  | case branches otherwise branchInduction otherInduction =>
      simp only [columnRefs, refs_case, List.mem_append, List.mem_flatMap] at agree
      simp only [eval_case]
      congr 1
      · apply List.map_congr_left
        intro branch member
        have holds := branchInduction branch member
        rw [holds.1 fun row rowMember ref refMember =>
            agree row rowMember ref (.inl ⟨branch, member, .inl refMember⟩),
          holds.2 fun row rowMember ref refMember =>
            agree row rowMember ref (.inl ⟨branch, member, .inr refMember⟩)]
      · cases otherwise with
        | none => rfl
        | some other =>
            have holds := otherInduction other rfl fun row rowMember ref refMember =>
              agree row rowMember ref (.inr ⟨other, by simp, refMember⟩)
            simp [holds]
  | cast arg type induction =>
      simp only [eval]
      rw [induction (by simpa [columnRefs, refs] using agree)]
  | aggregate name arg distinct induction =>
      simp only [columnRefs_aggregate, List.mem_flatMap, Option.mem_toList] at agree
      simp only [eval_aggregate, List.map_map]
      congr 1
      apply List.map_congr_left
      intro row member
      cases arg with
      | none => rfl
      | some inner =>
          have same : inner.eval meaning [] (first row) = inner.eval meaning [] (second row) :=
            eval_congr fun ref refMember => agree row member ref ⟨inner, rfl, refMember⟩
          simp [same]

/-- Replacing columns outside aggregate calls changes the row that is spoken
of there, and no row of the group. -/
theorem eval_mapColumns_outside (replace : ColumnRef → Expr) (expr : Expr) :
    (expr.mapColumns .outsideAggregates replace).eval meaning group env =
      expr.eval meaning group (fun ref => (replace ref).eval meaning group env) := by
  induction expr with
  | column ref => rfl
  | literal constant => rfl
  | unary op arg induction => simp [mapColumns, eval, induction]
  | binary op left right leftInduction rightInduction =>
      simp [mapColumns, eval, leftInduction, rightInduction]
  | member arg values negated induction => simp [mapColumns, eval, induction]
  | call name args induction =>
      simp only [mapColumns_call, eval_call, List.map_map]
      congr 1
      exact List.map_congr_left fun arg member => induction arg member
  | case branches otherwise branchInduction otherInduction =>
      simp only [mapColumns_case, eval_case, List.map_map, Option.map_map]
      congr 1
      · apply List.map_congr_left
        intro branch member
        exact Prod.ext (branchInduction branch member).1 (branchInduction branch member).2
      · cases otherwise with
        | none => rfl
        | some other => simp [otherInduction other rfl]
  | cast arg type induction => simp [mapColumns, eval, induction]
  | aggregate name arg distinct induction => cases arg <;> rfl

theorem map_literal_eq_of_same {lefts rights : List Literal}
    (same : List.Forall₂ (fun left right => left.same right) lefts rights) :
    lefts.map meaning.literal = rights.map meaning.literal := by
  induction same with
  | nil => rfl
  | cons head _ induction => simp [meaning.literal_same head, induction]

/-- Equal expressions have equal values. -/
theorem eval_eq_of_same {left right : Expr} (equal : left.same right) :
    left.eval meaning group env = right.eval meaning group env := by
  refine inductionOnSame (motive := fun left right => ∀ group env,
      left.eval meaning group env = right.eval meaning group env)
    ?column ?literal ?unary ?binary ?member ?call ?case ?cast ?aggregate equal group env
  case column => exact fun _ _ _ => rfl
  case literal =>
    intro constant other equal _ _
    exact meaning.literal_same equal
  case unary =>
    intro op arg other _ valued group env
    simp [eval, valued group env]
  case binary =>
    intro op first second otherFirst otherSecond firstValued secondValued group env
    simp [eval, firstValued.2 group env, secondValued.2 group env]
  case member =>
    intro arg other values others negated _ valued valuesEqual group env
    simp only [eval, valued group env, map_literal_eq_of_same valuesEqual]
  case call =>
    intro name args others pairs group env
    simp only [eval_call]
    congr 1
    induction pairs with
    | nil => rfl
    | cons pair _ induction => simp [pair.2 group env, induction]
  case case =>
    intro branches others otherwise other pairs rest group env
    simp only [eval_case]
    congr 1
    · clear rest
      induction pairs with
      | nil => rfl
      | cons pair _ induction => simp [pair.1.2 group env, pair.2.2 group env, induction]
    · cases rest with
      | none => rfl
      | some pair => simp [pair.2 group env]
  case cast =>
    intro arg other type _ valued group env
    simp [eval, valued group env]
  case aggregate =>
    intro name arg other distinct rest group env
    simp only [eval_aggregate]
    cases rest with
    | none => rfl
    | some pair => simp [pair.2]

end Expr

end SqlPlan
