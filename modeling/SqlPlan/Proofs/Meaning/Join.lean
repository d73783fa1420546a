import Mathlib.Data.List.Perm.Basic
import SqlPlan.Proofs.Joining
import SqlPlan.Proofs.Meaning.Statement

/-!
# Joins of rows

The rows of a join as a bag: a row for each pair that fits and, where the kind
keeps them, a row of each left or right row that fits none, with nulls for the
other side.  A row of a join has the columns of both sides, those of the left
side first.
-/

namespace SqlPlan

variable {V : Type}

/-- The first of two values that is not null. -/
def Interpretation.coalesce [DecidableEq V] (meaning : Interpretation V) (left right : V) : V :=
  if left = meaning.null then right else left

/-- What a join needs of the operators: equality is true only of equal values
that are not null, a conjunction only if both parts are, and the function of
that name is COALESCE. -/
structure Interpretation.Joinable [DecidableEq V] (meaning : Interpretation V) : Prop where
  equal : ∀ {left right : V},
    meaning.isTrue (meaning.binary (.comparison .equal) left right) = true →
      left = right ∧ left ≠ meaning.null
  conjunction : ∀ {left right : V},
    meaning.isTrue (meaning.binary (.logical .and) left right) = true →
      meaning.isTrue left = true ∧ meaning.isTrue right = true
  coalesce : ∀ left right : V,
    meaning.call "coalesce" [left, right] = meaning.coalesce left right

theorem Interpretation.numeric_joinable : Interpretation.numeric.Joinable where
  equal := by simp [numeric]
  conjunction := by simp [numeric]
  coalesce left right := by
    by_cases isNull : left = 0 <;> by_cases bothNull : right = 0 <;>
      simp [numeric, coalesce, isNull, bothNull]

namespace JoinKind

variable {α β γ : Type}

/-- The rows of a join, where `combine` makes a row of a left and a right one. -/
def outcome (kind : JoinKind) (fits : α → β → Bool) (combine : α → β → γ) (noLeft : α)
    (noRight : β) (lefts : List α) (rights : List β) : List γ :=
  ((lefts.product rights).filter fun pair => fits pair.1 pair.2).map
      (fun pair => combine pair.1 pair.2) ++
    ((if kind.keepsLeft then
        (lefts.filter fun left => !rights.any (fits left)).map (combine · noRight)
      else []) ++
    (if kind.keepsRight then
        (rights.filter fun right => !lefts.any (fits · right)).map (combine noLeft ·)
      else []))

variable {kind : JoinKind} {fits : α → β → Bool} {combine : α → β → γ} {noLeft : α} {noRight : β}

/-- The order of the rows on either side plays no part. -/
theorem outcome_perm {lefts lefts' : List α} {rights rights' : List β}
    (left : lefts.Perm lefts') (right : rights.Perm rights') :
    (kind.outcome fits combine noLeft noRight lefts rights).Perm
      (kind.outcome fits combine noLeft noRight lefts' rights') := by
  have fitsRight : ∀ item, rights.any (fits item) = rights'.any (fits item) := fun item =>
    right.any_eq
  have fitsLeft : ∀ item, lefts.any (fits · item) = lefts'.any (fits · item) := fun item =>
    left.any_eq
  unfold outcome
  simp only [fitsRight, fitsLeft]
  refine List.Perm.append ?_ (List.Perm.append ?_ ?_)
  · exact ((left.product right).filter _).map _
  · split
    · exact (left.filter _).map _
    · exact .refl _
  · split
    · exact (right.filter _).map _
    · exact .refl _

theorem map_product_filter (lefts : List α) (rights : List β) :
    ((lefts.product rights).filter fun pair => fits pair.1 pair.2).map
        (fun pair => combine pair.1 pair.2) =
      lefts.flatMap fun left => (rights.filter (fits left)).map (combine left) := by
  rw [List.product, List.filter_flatMap, List.map_flatMap]
  simp only [List.filter_map, List.map_map, Function.comp_def]

theorem map_filter_eq_flatMap (keeps : Bool) (alone : α → Bool) (single : α → γ)
    (lefts : List α) :
    (if keeps then (lefts.filter alone).map single else []) =
      lefts.flatMap fun left => if keeps && alone left then [single left] else [] := by
  cases keeps with
  | false => simp
  | true =>
      induction lefts with
      | nil => rfl
      | cons left lefts induction =>
          simp only [Bool.true_and, if_true, List.flatMap_cons] at induction ⊢
          rw [← induction, List.filter_cons]
          split <;> rfl

/-- Joining pair by pair gives the rows of the join. -/
theorem pairs_perm_outcome (lefts : List α) (rights : List β) :
    ((kind.pairs fits lefts rights).map fun found =>
        combine (found.1.getD noLeft) (found.2.getD noRight)).Perm
      (kind.outcome fits combine noLeft noRight lefts rights) := by
  rw [pairs, outcome, List.map_append, ← List.append_assoc]
  refine List.Perm.append ?_ ?_
  · rw [map_product_filter, map_filter_eq_flatMap, List.map_flatMap]
    refine List.Perm.trans ?_ (List.flatMap_append_perm lefts _ _).symm
    refine List.Perm.of_eq (List.flatMap_congr fun left _ => ?_)
    split
    · rename_i unmatched
      have nothing : rights.filter (fits left) = [] := by
        rw [List.filter_eq_nil_iff]
        simpa using (Bool.and_eq_true_iff.mp unmatched).2
      rw [nothing]
      rfl
    · rw [List.append_nil, List.map_map]
      rfl
  · refine List.Perm.of_eq ?_
    split
    · rw [List.map_map]
      rfl
    · rfl

end JoinKind

/-! ## The columns of a join -/

/-- The value of a column, null where the row has none of that name. -/
def Cells.at (meaning : Interpretation V) (row : Cells V) (name : String) : V :=
  (row.get? name).getD meaning.null

/-- A row of nulls for columns of the given names. -/
def Cells.blank (meaning : Interpretation V) (names : List String) : Cells V :=
  names.map fun name => (name, meaning.null)

/-- Two sides that are joined: their names, their columns, and the columns that
the condition equates between them. -/
structure JoinSides where
  left : String
  right : String
  leftNames : List String
  rightNames : List String
  keys : List String

theorem Cells.at_blank (meaning : Interpretation V) (names : List String) (name : String) :
    (Cells.blank meaning names).at meaning name = meaning.null := by
  rw [Cells.at, Cells.get?, Cells.blank, List.find?_map]
  cases names.find? _ <;> rfl

theorem Cells.names_getD_blank (meaning : Interpretation V) {names : List String}
    {row? : Option (Cells V)} (named : ∀ row ∈ row?, row.names = names) :
    (row?.getD (Cells.blank meaning names)).names = names := by
  cases row? with
  | none => simp [Cells.names, Cells.blank, Function.comp_def]
  | some row => exact named row rfl

namespace JoinSides

/-- The pair of rows as the condition of the join reads it. -/
def tuple (sides : JoinSides) (left right : Cells V) : Tuple V :=
  Cells.tagged (some sides.left) left ++ Cells.tagged (some sides.right) right

/-- A right column that is not a key. -/
def rightCell (meaning : Interpretation V) (sides : JoinSides) (right : Cells V)
    (name : String) : String × V :=
  if name ∈ sides.leftNames then
    (sides.right ++ "_" ++ name, right.at meaning name)
  else
    (name, right.at meaning name)

variable [DecidableEq V]

/-- A left column: a key has the value that either side has for it, and a name
that both sides have is prefixed. -/
def leftCell (meaning : Interpretation V) (sides : JoinSides) (left right : Cells V)
    (name : String) : String × V :=
  if name ∈ sides.keys then
    (name, meaning.coalesce (left.at meaning name) (right.at meaning name))
  else if name ∈ sides.rightNames then
    (sides.left ++ "_" ++ name, left.at meaning name)
  else
    (name, left.at meaning name)

/-- The row of a join: every left column once, then every right column once,
keys only among the left. -/
def row (meaning : Interpretation V) (sides : JoinSides) (left right : Cells V) : Cells V :=
  sides.leftNames.map (sides.leftCell meaning left right) ++
    (sides.rightNames.filter (· ∉ sides.keys)).map (sides.rightCell meaning right)

end JoinSides

namespace Tuple

variable {α : Type}

theorem get?_append (first second : Tuple α) (ref : ColumnRef) :
    Tuple.get? (first ++ second) ref = (Tuple.get? first ref).or (Tuple.get? second ref) := by
  simp [Tuple.get?, List.find?_append, Option.map_or]

theorem get?_tagged (row : Cells α) (side name : String) :
    Tuple.get? (Cells.tagged (some side) row) { table := some side, name } = row.get? name := by
  simp [Tuple.get?, Cells.tagged, Cells.get?, List.find?_map, Function.comp_def]

theorem get?_tagged_other (row : Cells α) {side other : String} (different : side ≠ other)
    (name : String) :
    Tuple.get? (Cells.tagged (some side) row) { table := some other, name } = none := by
  simp [Tuple.get?, Cells.tagged, List.find?_map, Function.comp_def, different]

end Tuple

namespace JoinSides

variable {meaning : Interpretation V} {sides : JoinSides} {left right : Cells V} {name : String}

theorem value_left (different : sides.left ≠ sides.right) :
    (sides.tuple left right).value meaning (.column { table := some sides.left, name }) =
      left.at meaning name := by
  rw [Tuple.value, Expr.eval, Tuple.env, tuple, Tuple.get?_append, Tuple.get?_tagged,
    Tuple.get?_tagged_other right different.symm, Option.or_none]
  rfl

theorem value_right (different : sides.left ≠ sides.right) :
    (sides.tuple left right).value meaning (.column { table := some sides.right, name }) =
      right.at meaning name := by
  rw [Tuple.value, Expr.eval, Tuple.env, tuple, Tuple.get?_append, Tuple.get?_tagged,
    Tuple.get?_tagged_other left different, Option.none_or]
  rfl

theorem get?_bare : Tuple.get? (sides.tuple left right) { name } =
    (left.get? name).or (right.get? name) := by
  rw [Tuple.get?_unqualified, tuple, Tuple.row, List.map_append, Cells.get?_append]
  exact congrArg₂ Option.or
    (congrArg (Cells.get? · name) (Tuple.row_tagged _ left))
    (congrArg (Cells.get? · name) (Tuple.row_tagged _ right))

/-- A name that only the left side has needs no qualifier. -/
theorem value_bare_left (absent : name ∉ right.names) :
    (sides.tuple left right).value meaning (.named name) = left.at meaning name := by
  rw [Tuple.value, Expr.eval, Tuple.env, get?_bare, Cells.get?_eq_none_iff.mpr absent,
    Option.or_none]
  rfl

theorem value_bare_right (absent : name ∉ left.names) :
    (sides.tuple left right).value meaning (.named name) = right.at meaning name := by
  rw [Tuple.value, Expr.eval, Tuple.env, get?_bare, Cells.get?_eq_none_iff.mpr absent,
    Option.none_or]
  rfl

variable [DecidableEq V]

theorem leftCell_of_key (isKey : name ∈ sides.keys) :
    sides.leftCell meaning left right name =
      (name, meaning.coalesce (left.at meaning name) (right.at meaning name)) :=
  if_pos isKey

theorem leftCell_of_shared (notKey : name ∉ sides.keys) (shared : name ∈ sides.rightNames) :
    sides.leftCell meaning left right name =
      (sides.left ++ "_" ++ name, left.at meaning name) := by
  rw [leftCell, if_neg notKey, if_pos shared]

theorem leftCell_of_own (notKey : name ∉ sides.keys) (own : name ∉ sides.rightNames) :
    sides.leftCell meaning left right name = (name, left.at meaning name) := by
  rw [leftCell, if_neg notKey, if_neg own]

/-- A key has the value that either side has, when the sides agree on it or one
of them is null in a join that keeps the other. -/
theorem value_key (joinable : meaning.Joinable) (different : sides.left ≠ sides.right)
    {kind : JoinKind}
    (agree : (left.at meaning name = right.at meaning name ∧
        left.at meaning name ≠ meaning.null) ∨
      (kind.keepsLeft = true ∧ right.at meaning name = meaning.null) ∨
      (kind.keepsRight = true ∧ left.at meaning name = meaning.null)) :
    (sides.tuple left right).value meaning (joinKey kind sides.left sides.right name) =
      meaning.coalesce (left.at meaning name) (right.at meaning name) := by
  have ofLeft : right.at meaning name = meaning.null →
      left.at meaning name =
        meaning.coalesce (left.at meaning name) (right.at meaning name) := by
    intro isNull
    unfold Interpretation.coalesce
    split
    · rename_i leftNull
      rw [leftNull, isNull]
    · rfl
  have ofRight : left.at meaning name = meaning.null →
      right.at meaning name =
        meaning.coalesce (left.at meaning name) (right.at meaning name) := by
    intro isNull
    rw [Interpretation.coalesce, if_pos isNull]
  have ofBoth : left.at meaning name ≠ meaning.null →
      left.at meaning name =
        meaning.coalesce (left.at meaning name) (right.at meaning name) := by
    intro notNull
    rw [Interpretation.coalesce, if_neg notNull]
  cases kind with
  | inner =>
      rw [joinKey, value_left different]
      rcases agree with ⟨_, notNull⟩ | ⟨keeps, _⟩ | ⟨keeps, _⟩
      · exact ofBoth notNull
      · cases keeps
      · cases keeps
  | left =>
      rw [joinKey, value_left different]
      rcases agree with ⟨_, notNull⟩ | ⟨_, isNull⟩ | ⟨keeps, _⟩
      · exact ofBoth notNull
      · exact ofLeft isNull
      · cases keeps
  | right =>
      rw [joinKey, value_right different]
      rcases agree with ⟨same, notNull⟩ | ⟨keeps, _⟩ | ⟨_, isNull⟩
      · exact same.symm.trans (ofBoth notNull)
      · cases keeps
      · exact ofRight isNull
  | full =>
      have args := joinable.coalesce (left.at meaning name) (right.at meaning name)
      rw [← value_left different, ← value_right different] at args
      rw [← value_left different, ← value_right different, ← args]
      exact Expr.eval_call _ _

end JoinSides

/-- A condition that holds makes the names it equates equal and not null. -/
theorem Expr.equal_of_mem_equatedNames [DecidableEq V] {meaning : Interpretation V}
    (joinable : meaning.Joinable) {left right name : String} (different : left ≠ right)
    {on : Expr} {env : Env V} (holds : meaning.isTrue (on.eval meaning [] env) = true)
    (member : name ∈ on.equatedNames left right) :
    env { table := some left, name } = env { table := some right, name } ∧
      env { table := some left, name } ≠ meaning.null := by
  fun_induction Expr.equatedNames left right on with
  | case1 first second firstInduction secondInduction =>
      obtain ⟨firstHolds, secondHolds⟩ := joinable.conjunction holds
      rcases List.mem_append.mp member with inFirst | inSecond
      · exact firstInduction firstHolds inFirst
      · exact secondInduction secondHolds inSecond
  | case2 first second tables equated =>
      cases List.mem_singleton.mp member
      obtain ⟨equal, notNull⟩ := joinable.equal holds
      obtain ⟨sameName, hasLeft, hasRight⟩ := equated
      obtain ⟨firstTable, firstName⟩ := first
      obtain ⟨secondTable, secondName⟩ := second
      cases sameName
      simp only [tables, List.mem_cons, List.not_mem_nil, or_false] at hasLeft hasRight
      simp only [Expr.eval] at equal notNull
      rcases hasLeft with rfl | rfl
      · rcases hasRight with same | rfl
        · exact absurd (Option.some.inj same).symm different
        · exact ⟨equal, notNull⟩
      · rcases hasRight with rfl | same
        · exact ⟨equal.symm, equal ▸ notNull⟩
        · exact absurd (Option.some.inj same).symm different
  | case3 => cases member
  | case4 => cases member

end SqlPlan
