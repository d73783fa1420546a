import Mathlib.Data.List.Basic
import SqlPlan.Proofs.Meaning.Expr
import SqlPlan.Proofs.Rows

/-!
# Rows of statements

The rows that a statement gives on the contents of its tables: the tuples of
its source that pass the conditions, grouped where it is grouped, sorted
stably by the values of the ordering keys, selected, made distinct, and cut at
the limit.
-/

namespace SqlPlan

variable {V : Type}

/-- What the tables contain: for each row the value of each column. -/
structure Database (V : Type) extends Schema where
  contents : TableRef → List (String → V)

def Database.rows (database : Database V) (table : TableRef) : List (Cells V) :=
  (database.contents table).map fun values =>
    (database.columns table).map fun name => (name, values name)

/-! ## Ordering -/

namespace Interpretation

/-- The order of two values in a direction. -/
def leIn (meaning : Interpretation V) (direction : Direction) (left right : V) : Bool :=
  match direction with
  | .ascending => meaning.le left right
  | .descending => meaning.le right left

/-- The order of rows by their keys, of which the first that differ decide. -/
def leKeys (meaning : Interpretation V) : List (Direction × V) → List (Direction × V) → Bool
  | (direction, left) :: lefts, (_, right) :: rights =>
      meaning.leIn direction left right &&
        (!meaning.leIn direction right left || meaning.leKeys lefts rights)
  | _, _ => true

end Interpretation

/-! ## One statement -/

/-- A row of a statement before selection: a tuple of the source, and the
tuples that aggregate calls range over. -/
structure Group (V : Type) where
  tuple : Tuple V
  members : List (Tuple V)

def Tuple.env (meaning : Interpretation V) (tuple : Tuple V) : Env V :=
  fun ref => (Tuple.get? tuple ref).getD meaning.null

/-- The value of an expression for a tuple that stands for itself. -/
def Tuple.value (meaning : Interpretation V) (tuple : Tuple V) (expr : Expr) : V :=
  expr.eval meaning [] (Tuple.env meaning tuple)

namespace Group

def single (tuple : Tuple V) : Group V := { tuple, members := [] }

/-- The group of the given tuples, of which the first speaks for all. -/
def ofMembers (blank : Tuple V) (members : List (Tuple V)) : Group V :=
  { tuple := members.headD blank, members }

def value (meaning : Interpretation V) (group : Group V) (expr : Expr) : V :=
  expr.eval meaning (group.members.map (Tuple.env meaning)) (Tuple.env meaning group.tuple)

def keys (meaning : Interpretation V) (group : Group V) (orderBy : List SortKey) :
    List (Direction × V) :=
  orderBy.map fun key => (key.direction, group.value meaning key.expr)

end Group

/-- The classes of items with equal keys, in the order of their first items. -/
def classesBy {α β : Type} [DecidableEq β] (key : α → β) (items : List α) : List (List α) :=
  (items.map key).eraseDups.map fun value => items.filter fun item => key item == value

namespace Clauses

variable [DecidableEq V]

/-- The tuples that pass all conditions. -/
def kept (meaning : Interpretation V) (clauses : Clauses) (tuples : List (Tuple V)) :
    List (Tuple V) :=
  tuples.filter fun tuple =>
    clauses.conditions.all fun condition => meaning.isTrue (tuple.value meaning condition)

/-- Whether an aggregate is selected, which makes one row of a statement
without keys to group by. -/
def selectsAggregate (clauses : Clauses) : Bool :=
  clauses.outputs.any fun output => output.expr.aggregate?.isSome

def groups (meaning : Interpretation V) (clauses : Clauses) (blank : Tuple V)
    (tuples : List (Tuple V)) : List (Group V) :=
  match clauses.grouping with
  | none => tuples.map .single
  | some [] =>
      if clauses.selectsAggregate then [.ofMembers blank tuples] else tuples.map .single
  | some keys =>
      (classesBy (fun tuple => keys.map (tuple.value meaning)) tuples).map (.ofMembers blank)

def ordered (meaning : Interpretation V) (clauses : Clauses) (groups : List (Group V)) :
    List (Group V) :=
  groups.mergeSort fun left right =>
    meaning.leKeys (left.keys meaning clauses.orderBy) (right.keys meaning clauses.orderBy)

/-- The row that is selected of a group. -/
def row (meaning : Interpretation V) (clauses : Clauses) (group : Group V) : Cells V :=
  clauses.selected (fun output => group.value meaning output.expr) group.tuple

def distinctRows (clauses : Clauses) (rows : List (Cells V)) : List (Cells V) :=
  if clauses.distinct then rows.eraseDups else rows

def limited {α : Type} (clauses : Clauses) (rows : List α) : List α :=
  match clauses.limit with
  | none => rows
  | some count => rows.take count

/-- The rows of a statement over the given tuples; `blank` is a tuple of nulls. -/
def rows (meaning : Interpretation V) (clauses : Clauses) (blank : Tuple V)
    (tuples : List (Tuple V)) : List (Cells V) :=
  let groups := clauses.groups meaning blank (clauses.kept meaning tuples)
  clauses.limited (clauses.distinctRows ((clauses.ordered meaning groups).map
    (clauses.row meaning)))

end Clauses

/-! ## Sources -/

namespace JoinKind

def keepsLeft : JoinKind → Bool
  | .left | .full => true
  | .inner | .right => false

def keepsRight : JoinKind → Bool
  | .right | .full => true
  | .inner | .left => false

/-- The pairs of a join.  A row without a partner on the other side appears
alone where the kind keeps it. -/
def pairs {α β : Type} (kind : JoinKind) (fits : α → β → Bool) (lefts : List α)
    (rights : List β) : List (Option α × Option β) :=
  (lefts.flatMap fun left =>
    if kind.keepsLeft && !rights.any (fits left) then [(some left, none)]
    else (rights.filter (fits left)).map fun right => (some left, some right)) ++
  (if kind.keepsRight then
    (rights.filter fun right => !lefts.any (fits · right)).map fun right => (none, some right)
  else [])

/-- How a pair of a join comes about. -/
inductive Found {α β : Type} (kind : JoinKind) (fits : α → β → Bool) (lefts : List α)
    (rights : List β) : Option α × Option β → Prop where
  | both {left : α} {right : β} : left ∈ lefts → right ∈ rights → fits left right = true →
      Found kind fits lefts rights (some left, some right)
  | leftOnly {left : α} : kind.keepsLeft = true → left ∈ lefts →
      Found kind fits lefts rights (some left, none)
  | rightOnly {right : β} : kind.keepsRight = true → right ∈ rights →
      Found kind fits lefts rights (none, some right)

theorem found_of_mem_pairs {α β : Type} {kind : JoinKind} {fits : α → β → Bool} {lefts : List α}
    {rights : List β} {pair : Option α × Option β} (member : pair ∈ kind.pairs fits lefts rights) :
    kind.Found fits lefts rights pair := by
  rcases List.mem_append.mp member with fromLeft | fromRight
  · obtain ⟨left, leftMember, fromLeft⟩ := List.mem_flatMap.mp fromLeft
    split at fromLeft
    · rename_i alone
      cases List.mem_singleton.mp fromLeft
      exact .leftOnly (Bool.and_eq_true_iff.mp alone).1 leftMember
    · obtain ⟨right, rightMember, rfl⟩ := List.mem_map.mp fromLeft
      obtain ⟨rightMember, fitting⟩ := List.mem_filter.mp rightMember
      exact .both leftMember rightMember fitting
  · split at fromRight
    · rename_i keeps
      obtain ⟨right, rightMember, rfl⟩ := List.mem_map.mp fromRight
      exact .rightOnly keeps (List.mem_filter.mp rightMember).1
    · cases fromRight

theorem Found.mem {α β : Type} {kind : JoinKind} {fits : α → β → Bool} {lefts : List α}
    {rights : List β} {pair : Option α × Option β} (found : kind.Found fits lefts rights pair) :
    (∀ left ∈ pair.1, left ∈ lefts) ∧ ∀ right ∈ pair.2, right ∈ rights := by
  cases found with
  | both leftMember rightMember _ => simp [leftMember, rightMember]
  | leftOnly _ leftMember => simp [leftMember]
  | rightOnly _ rightMember => simp [rightMember]

end JoinKind

/-- A row of nulls for the given columns. -/
def Cells.nulls (meaning : Interpretation V) (fields : Cells Bool) : Cells V :=
  fields.map fun field => (field.1, meaning.null)

def Tuple.nulls (meaning : Interpretation V) (fields : Tuple Bool) : Tuple V :=
  fields.map fun field => (field.1, meaning.null)

theorem Cells.names_nulls (meaning : Interpretation V) (fields : Cells Bool) :
    (Cells.nulls meaning fields).names = fields.names := by
  simp [Cells.nulls, Cells.names, Function.comp_def]

section

variable [DecidableEq V]

mutual

def Relation.rows (meaning : Interpretation V) (database : Database V) :
    Relation → List (Cells V)
  | .table ref _ => database.rows ref
  | .subquery source clauses =>
      clauses.rows meaning (Tuple.nulls meaning (source.fields database.toSchema))
        (source.tuples meaning database)

/-- The tuples that the clauses over a source read. -/
def Source.tuples (meaning : Interpretation V) (database : Database V) :
    Source → List (Tuple V)
  | .relation relation => (relation.rows meaning database).map (Cells.tagged none)
  | .join left leftName right rightName kind on =>
      let pair (first second : Cells V) : Tuple V :=
        Cells.tagged (some leftName) first ++ Cells.tagged (some rightName) second
      (kind.pairs (fun first second => meaning.isTrue ((pair first second).value meaning on))
        (left.rows meaning database) (right.rows meaning database)).map fun found =>
          pair (found.1.getD (Cells.nulls meaning (left.fields database.toSchema)))
            (found.2.getD (Cells.nulls meaning (right.fields database.toSchema)))

end

/-- The rows of a statement on the contents of its tables. -/
def Statement.rows (meaning : Interpretation V) (database : Database V) (statement : Statement) :
    List (Cells V) :=
  statement.toClauses.rows meaning
    (Tuple.nulls meaning (statement.source.fields database.toSchema))
    (statement.source.tuples meaning database)

/-! ## The columns of rows -/

variable {meaning : Interpretation V} {database : Database V}

theorem Clauses.mem_of_mem_groups {clauses : Clauses} {blank : Tuple V} {tuples : List (Tuple V)}
    {group : Group V} (member : group ∈ clauses.groups meaning blank tuples) :
    group.tuple ∈ tuples ∨ group.tuple = blank := by
  have single (member : group ∈ tuples.map .single) :
      group.tuple ∈ tuples ∨ group.tuple = blank := by
    obtain ⟨tuple, tupleMember, rfl⟩ := List.mem_map.mp member
    exact .inl tupleMember
  have first : ∀ members : List (Tuple V), members ⊆ tuples →
      (Group.ofMembers blank members).tuple ∈ tuples ∨
        (Group.ofMembers blank members).tuple = blank := by
    intro members subset
    cases members with
    | nil => exact .inr rfl
    | cons tuple members => exact .inl (subset List.mem_cons_self)
  unfold Clauses.groups at member
  split at member
  · exact single member
  · split at member
    · cases List.mem_singleton.mp member
      exact first tuples (List.Subset.refl _)
    · exact single member
  · obtain ⟨members, membersMember, rfl⟩ := List.mem_map.mp member
    obtain ⟨value, _, rfl⟩ := List.mem_map.mp membersMember
    exact first _ (List.filter_subset_self _)

/-- A row of a statement is selected of a tuple of its source, or of nulls. -/
theorem Clauses.exists_of_mem_rows {clauses : Clauses} {blank : Tuple V}
    {tuples : List (Tuple V)} {row : Cells V} (member : row ∈ clauses.rows meaning blank tuples) :
    ∃ group : Group V, row = clauses.row meaning group ∧
      (group.tuple ∈ tuples ∨ group.tuple = blank) := by
  have listed : row ∈ (clauses.ordered meaning
      (clauses.groups meaning blank (clauses.kept meaning tuples))).map (clauses.row meaning) := by
    have distinct : row ∈ clauses.distinctRows ((clauses.ordered meaning
        (clauses.groups meaning blank (clauses.kept meaning tuples))).map
          (clauses.row meaning)) := by
      simp only [Clauses.rows, Clauses.limited] at member
      split at member
      · exact member
      · exact List.mem_of_mem_take member
    unfold Clauses.distinctRows at distinct
    split at distinct
    · exact List.mem_eraseDups.mp distinct
    · exact distinct
  obtain ⟨group, groupMember, rfl⟩ := List.mem_map.mp listed
  refine ⟨group, rfl, ?_⟩
  rcases mem_of_mem_groups (List.mem_mergeSort.mp groupMember) with kept | isBlank
  · exact .inl (List.mem_filter.mp kept).1
  · exact .inr isBlank

mutual

/-- Every row of a relation has the columns of the relation. -/
theorem Relation.names_of_mem_rows : ∀ (relation : Relation) {row : Cells V},
    row ∈ relation.rows meaning database →
      row.names = (relation.fields database.toSchema).names
  | .table ref shownAs, row, member => by
      obtain ⟨values, _, rfl⟩ := List.mem_map.mp member
      simp [Relation.fields, Cells.names, Function.comp_def]
  | .subquery source clauses, row, member => by
      obtain ⟨group, rfl, tuple⟩ := Clauses.exists_of_mem_rows member
      apply Clauses.names_selected
      rcases tuple with tupleMember | isBlank
      · exact source.refs_of_mem_tuples tupleMember
      · rw [isBlank]
        simp [Tuple.nulls, Function.comp_def]

theorem Source.refs_of_mem_tuples : ∀ (source : Source) {tuple : Tuple V},
    tuple ∈ source.tuples meaning database →
      tuple.map Prod.fst = (source.fields database.toSchema).map Prod.fst
  | .relation relation, tuple, member => by
      obtain ⟨row, rowMember, rfl⟩ := List.mem_map.mp member
      rw [Source.fields, Cells.refs_tagged, Cells.refs_tagged, relation.names_of_mem_rows rowMember]
  | .join left leftName right rightName kind on, tuple, member => by
      obtain ⟨pair, pairMember, rfl⟩ := List.mem_map.mp member
      rw [Source.fields, List.map_append, List.map_append, Cells.refs_tagged, Cells.refs_tagged,
        Cells.refs_tagged, Cells.refs_tagged]
      cases JoinKind.found_of_mem_pairs pairMember with
      | both leftMember rightMember _ =>
          rw [Option.getD_some, Option.getD_some, left.names_of_mem_rows leftMember,
            right.names_of_mem_rows rightMember]
      | leftOnly _ leftMember =>
          rw [Option.getD_some, Option.getD_none, left.names_of_mem_rows leftMember,
            Cells.names_nulls]
      | rightOnly _ rightMember =>
          rw [Option.getD_none, Option.getD_some, right.names_of_mem_rows rightMember,
            Cells.names_nulls]

end

end

end SqlPlan
