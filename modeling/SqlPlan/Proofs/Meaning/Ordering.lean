import SqlPlan.Proofs.Meaning.Plan

/-!
# Rows in the order of their keys

A statement that neither groups nor removes duplicates gives a row for each
tuple that survives its conditions and its limit.  These rows, each with the
values of the ordering keys, are what a step by step run has pending; sorting
them once more gives the rows of the statement.
-/

namespace SqlPlan

variable {V : Type}

/-- The values of ordering keys, given those of expressions. -/
def SortKey.values (orderBy : List SortKey) (value : Expr → V) : List (Direction × V) :=
  orderBy.map fun key => (key.direction, value key.expr)

/-- Orderings whose keys have the same values in the same directions. -/
theorem SortKey.values_eq_of_forall₂ {keys carried : List SortKey} {value outer : Expr → V}
    (same : List.Forall₂ (fun key carried => carried.direction = key.direction ∧
      outer carried.expr = value key.expr) keys carried) :
    SortKey.values carried outer = SortKey.values keys value := by
  induction same with
  | nil => rfl
  | cons head _ induction =>
      rw [SortKey.values, List.map_cons, head.1, head.2]
      exact congrArg (List.cons _) induction

namespace Interpretation

variable {meaning : Interpretation V}

theorem leIn_total (direction : Direction) (left right : V) :
    (meaning.leIn direction left right || meaning.leIn direction right left) = true := by
  cases direction with
  | ascending => exact meaning.le_total left right
  | descending => exact meaning.le_total right left

theorem leIn_trans {direction : Direction} {first second third : V}
    (head : meaning.leIn direction first second = true)
    (tail : meaning.leIn direction second third = true) :
    meaning.leIn direction first third = true := by
  cases direction with
  | ascending => exact meaning.le_trans first second third head tail
  | descending => exact meaning.le_trans third second first tail head

theorem leKeys_total (orderBy : List SortKey) (left right : Expr → V) :
    (meaning.leKeys (SortKey.values orderBy left) (SortKey.values orderBy right) ||
      meaning.leKeys (SortKey.values orderBy right) (SortKey.values orderBy left)) = true := by
  induction orderBy with
  | nil => rfl
  | cons key orderBy induction =>
      have total := meaning.leIn_total key.direction (left key.expr) (right key.expr)
      simp only [SortKey.values, List.map_cons, leKeys] at induction ⊢
      revert total induction
      generalize meaning.leIn key.direction (left key.expr) (right key.expr) = forwards
      generalize meaning.leIn key.direction (right key.expr) (left key.expr) = backwards
      cases forwards <;> cases backwards <;> simp

theorem leKeys_trans {orderBy : List SortKey} {first second third : Expr → V}
    (head : meaning.leKeys (SortKey.values orderBy first) (SortKey.values orderBy second) = true)
    (tail : meaning.leKeys (SortKey.values orderBy second) (SortKey.values orderBy third) = true) :
    meaning.leKeys (SortKey.values orderBy first) (SortKey.values orderBy third) = true := by
  induction orderBy with
  | nil => rfl
  | cons key orderBy induction =>
      simp only [SortKey.values, List.map_cons, leKeys, Bool.and_eq_true, Bool.or_eq_true,
        Bool.not_eq_true'] at induction head tail ⊢
      obtain ⟨headFirst, headRest⟩ := head
      obtain ⟨tailFirst, tailRest⟩ := tail
      refine ⟨meaning.leIn_trans headFirst tailFirst, ?_⟩
      cases back : meaning.leIn key.direction (third key.expr) (first key.expr) with
      | false => exact .inl rfl
      | true =>
          -- The first values are equal, so all three are decided by the rest.
          have secondFirst := meaning.leIn_trans tailFirst back
          have thirdSecond := meaning.leIn_trans back headFirst
          simp only [secondFirst, thirdSecond, Bool.true_eq_false, false_or] at headRest tailRest
          exact .inr (induction headRest tailRest)

end Interpretation

namespace Clauses

/-- The row and the key values of a tuple that stands for itself. -/
def pendingOf (meaning : Interpretation V) (clauses : Clauses) (tuple : Tuple V) : Pending V :=
  { row := clauses.row meaning (.single tuple)
    keys := SortKey.values clauses.orderBy (tuple.value meaning) }

/-- Tuples in the order of their keys; tuples with equal keys stay as they are. -/
def orderedTuples (meaning : Interpretation V) (clauses : Clauses) (tuples : List (Tuple V)) :
    List (Tuple V) :=
  tuples.mergeSort fun left right =>
    meaning.leKeys (SortKey.values clauses.orderBy (left.value meaning))
      (SortKey.values clauses.orderBy (right.value meaning))

/-- The tuples that pass the conditions and, where there is a limit, are among
the first. -/
def survivors (meaning : Interpretation V) (clauses : Clauses) (tuples : List (Tuple V)) :
    List (Tuple V) :=
  match clauses.limit with
  | none => clauses.kept meaning tuples
  | some count => (clauses.orderedTuples meaning (clauses.kept meaning tuples)).take count

variable {meaning : Interpretation V} {clauses : Clauses} {tuples : List (Tuple V)}

theorem sorted_map_pendingOf :
    Pending.sorted meaning (tuples.map (clauses.pendingOf meaning)) =
      (clauses.orderedTuples meaning tuples).map (clauses.pendingOf meaning) := by
  symm
  apply List.map_mergeSort
  intros
  rfl

/-- The first tuples of an ordered list are in order already. -/
theorem orderedTuples_take (count : Nat) :
    clauses.orderedTuples meaning ((clauses.orderedTuples meaning tuples).take count) =
      (clauses.orderedTuples meaning tuples).take count := by
  apply List.mergeSort_of_pairwise
  apply List.Pairwise.sublist (List.take_sublist _ _)
  apply List.pairwise_mergeSort
  · intro first second third
    exact meaning.leKeys_trans
  · intro left right
    exact meaning.leKeys_total clauses.orderBy _ _

theorem orderedTuples_of_orderBy_nil (unordered : clauses.orderBy = []) :
    clauses.orderedTuples meaning tuples = tuples := by
  apply List.mergeSort_of_pairwise
  rw [unordered]
  exact List.pairwise_of_forall fun _ _ => rfl

theorem survivors_of_unlimited (unlimited : clauses.limit = none) (tuples : List (Tuple V)) :
    clauses.survivors meaning tuples = clauses.kept meaning tuples := by
  rw [survivors, unlimited]

theorem orderedTuples_survivors :
    clauses.orderedTuples meaning (clauses.survivors meaning tuples) =
      clauses.limited (clauses.orderedTuples meaning (clauses.kept meaning tuples)) := by
  unfold survivors limited
  cases clauses.limit with
  | none => rfl
  | some count => exact orderedTuples_take count

theorem mem_of_mem_survivors {tuple : Tuple V}
    (member : tuple ∈ clauses.survivors meaning tuples) : tuple ∈ tuples := by
  have kept : tuple ∈ clauses.kept meaning tuples := by
    unfold survivors at member
    split at member
    · exact member
    · exact List.mem_mergeSort.mp (List.mem_of_mem_take member)
  exact (List.mem_filter.mp kept).1

variable [DecidableEq V]

/-- The rows of a statement are those of the surviving tuples in order. -/
theorem rows_eq_map_survivors (ungrouped : clauses.grouping = none)
    (bag : clauses.distinct = false) (blank : Tuple V) :
    clauses.rows meaning blank tuples =
      (clauses.orderedTuples meaning (clauses.survivors meaning tuples)).map fun tuple =>
        clauses.row meaning (.single tuple) := by
  have ordered : clauses.ordered meaning ((clauses.kept meaning tuples).map .single) =
      (clauses.orderedTuples meaning (clauses.kept meaning tuples)).map .single := by
    symm
    apply List.map_mergeSort
    intros
    rfl
  simp only [rows, groups, ungrouped, ordered, distinctRows, bag, orderedTuples_survivors,
    List.map_map]
  unfold limited
  cases clauses.limit with
  | none => rfl
  | some count => simp [List.map_take, Function.comp_def]

end Clauses

end SqlPlan
