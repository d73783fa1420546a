import SqlPlan.Proofs.Expr.Parts

/-!
# Replacing columns as a substitution

A part of an expression stands at the end of a path, which names a child at every
step.  Replacing puts the replacement where a path within reach ends in a column,
keeps an aggregate call that is out of reach as a whole, and keeps every other part
up to its children.  So the references within reach are exactly what is replaced,
and replacing obeys the laws of a substitution.
-/

namespace SqlPlan.Expr

/-- What stands for a child whose content does not matter. -/
def hole : Expr := .literal { value := .null }

/-- An expression up to its children. -/
def shell : Expr → Expr
  | .column ref => .column ref
  | .literal constant => .literal constant
  | .unary op _ => .unary op hole
  | .binary op _ _ => .binary op hole hole
  | .member _ values negated => .member hole values negated
  | .call name args => .call name (args.map fun _ => hole)
  | .case branches otherwise =>
      .case (branches.map fun _ => (hole, hole)) (otherwise.map fun _ => hole)
  | .cast _ type => .cast hole type
  | .aggregate name arg distinct => .aggregate name (arg.map fun _ => hole) distinct

/-- The part at the end of a path, if the path enters no aggregate call out of reach. -/
def part? (reach : Reach) (expr : Expr) : List Nat → Option Expr
  | [] => some expr
  | position :: path =>
      if reach = .outsideAggregates ∧ expr.isAggregate then none
      else expr.children[position]?.bind fun child => child.part? reach path

section Paths

variable {reach : Reach} {replace : ColumnRef → Expr} {expr part : Expr}

theorem part?_cons_eq_some {position : Nat} {path : List Nat} :
    expr.part? reach (position :: path) = some part ↔
      (reach = .everywhere ∨ expr.isAggregate = false) ∧
        ∃ child, expr.children[position]? = some child ∧ child.part? reach path = some part := by
  rw [part?, Option.ite_none_left_eq_some, Option.bind_eq_some_iff]
  cases reach <;> simp

theorem refs_of_out_of_reach (unreached : ¬(reach = .everywhere ∨ expr.isAggregate = false)) :
    expr.refs reach = [] := by
  obtain ⟨outside, call⟩ := not_or.mp unreached
  cases reach with
  | everywhere => exact absurd rfl outside
  | outsideAggregates =>
      cases expr with
      | aggregate name arg distinct => cases arg <;> rfl
      | _ => exact absurd rfl call

theorem shell_mapColumns (compound : expr.column? = none) :
    (expr.mapColumns reach replace).shell = expr.shell := by
  cases expr with
  | column ref => cases compound
  | call name args =>
      rw [mapColumns_call, shell, shell, List.map_map]
      rfl
  | case branches otherwise =>
      rw [mapColumns_case, shell, shell, List.map_map, Option.map_map]
      rfl
  | aggregate name arg distinct => cases arg <;> cases reach <;> rfl
  | _ => rfl

/-- A part within reach is found where it was, with its own columns replaced. -/
theorem part?_mapColumns {path : List Nat} (found : expr.part? reach path = some part) :
    (expr.mapColumns reach replace).part? .everywhere path =
      some (part.mapColumns reach replace) := by
  induction path generalizing expr with
  | nil =>
      cases found
      rfl
  | cons position path induction =>
      obtain ⟨reached, child, isChild, found⟩ := part?_cons_eq_some.mp found
      have compound : expr.column? = none := by
        cases expr with
        | column ref => cases isChild
        | _ => rfl
      apply part?_cons_eq_some.mpr
      refine ⟨.inl rfl, child.mapColumns reach replace, ?_, induction found⟩
      rw [children_mapColumns compound reached, List.getElem?_map, isChild]
      rfl

/-- The references within reach are the columns at the ends of paths. -/
theorem mem_refs_iff {ref : ColumnRef} :
    ref ∈ expr.refs reach ↔ ∃ path, expr.part? reach path = some (.column ref) := by
  induction expr using inductionOnChildren with
  | step expr induction =>
      cases compound : expr.column? with
      | some other =>
          rw [eq_column_of_column? compound, refs, List.mem_singleton]
          constructor
          · rintro rfl
            exact ⟨[], rfl⟩
          · rintro ⟨path, found⟩
            cases path with
            | nil =>
                cases found
                rfl
            | cons position path =>
                obtain ⟨_, _, isChild, _⟩ := part?_cons_eq_some.mp found
                cases isChild
      | none =>
          -- No path ends here, and the first step of a path has to be within reach.
          have inChild : (∃ path, expr.part? reach path = some (.column ref)) ↔
              (reach = .everywhere ∨ expr.isAggregate = false) ∧
                ∃ child ∈ expr.children, ref ∈ child.refs reach := by
            constructor
            · rintro ⟨path, found⟩
              cases path with
              | nil =>
                  cases found
                  cases compound
              | cons position path =>
                  obtain ⟨reached, child, isChild, found⟩ := part?_cons_eq_some.mp found
                  have member := List.mem_of_getElem? isChild
                  exact ⟨reached, child, member, (induction child member).mpr ⟨path, found⟩⟩
            · rintro ⟨reached, child, member, inChild⟩
              obtain ⟨position, isChild⟩ := List.mem_iff_getElem?.mp member
              obtain ⟨path, found⟩ := (induction child member).mp inChild
              exact ⟨position :: path, part?_cons_eq_some.mpr ⟨reached, child, isChild, found⟩⟩
          rw [inChild]
          by_cases reached : reach = .everywhere ∨ expr.isAggregate = false
          · rw [refs_eq_flatMap_children compound reached, List.mem_flatMap]
            exact (and_iff_right reached).symm
          · rw [refs_of_out_of_reach reached]
            simp [reached]

end Paths

/-! ## The laws of substitution -/

section Laws

variable (reach : Reach) (expr : Expr) (first second : ColumnRef → Expr)

/-- The references within reach afterwards are those of the replacements, in order. -/
theorem refs_mapColumns :
    (expr.mapColumns reach first).refs reach =
      (expr.refs reach).flatMap fun ref => (first ref).refs reach := by
  induction expr using inductionOnChildren with
  | step expr induction =>
      cases compound : expr.column? with
      | some ref =>
          rw [eq_column_of_column? compound, mapColumns, refs]
          exact (List.flatMap_singleton _ _).symm
      | none =>
          by_cases reached : reach = .everywhere ∨ expr.isAggregate = false
          · have stillReached :
                reach = .everywhere ∨ (expr.mapColumns reach first).isAggregate = false := by
              rwa [isAggregate_mapColumns compound]
            rw [refs_eq_flatMap_children (column?_mapColumns compound) stillReached,
              children_mapColumns compound reached, refs_eq_flatMap_children compound reached,
              List.flatMap_map, List.flatMap_assoc]
            exact List.flatMap_congr induction
          · have unreached :
                ¬(reach = .everywhere ∨ (expr.mapColumns reach first).isAggregate = false) := by
              rwa [isAggregate_mapColumns compound]
            rw [refs_of_out_of_reach reached, refs_of_out_of_reach unreached]
            rfl

/-- Two replacements have one result exactly where they agree on the references within reach. -/
theorem mapColumns_eq_iff :
    expr.mapColumns reach first = expr.mapColumns reach second ↔
      ∀ ref ∈ expr.refs reach, first ref = second ref := by
  constructor
  · intro equal ref member
    obtain ⟨path, found⟩ := mem_refs_iff.mp member
    have replaced : (expr.mapColumns reach first).part? .everywhere path = some (first ref) :=
      part?_mapColumns found
    rw [equal, part?_mapColumns found] at replaced
    exact (Option.some.inj replaced).symm
  · exact mapColumns_congr

/-- Replacing columns is a lawful substitution, everywhere and outside aggregate calls alike. -/
theorem mapColumns_substitutes :
    (expr.mapColumns reach first).refs reach =
        ((expr.refs reach).flatMap fun ref => (first ref).refs reach) ∧
      expr.mapColumns reach .column = expr ∧
      (expr.mapColumns reach first).mapColumns reach second =
        (expr.mapColumns reach fun ref => (first ref).mapColumns reach second) ∧
      (expr.mapColumns reach first = expr.mapColumns reach second ↔
        ∀ ref ∈ expr.refs reach, first ref = second ref) ∧
      (∀ ref, ref ∈ expr.refs reach ↔ ∃ path, expr.part? reach path = some (.column ref)) ∧
      ∀ path part, expr.part? reach path = some part →
        ∃ image, (expr.mapColumns reach first).part? .everywhere path = some image ∧
          (∀ ref, part = .column ref → image = first ref) ∧
          (reach = .outsideAggregates → part.isAggregate = true → image = part) ∧
          (part.column? = none → image.shell = part.shell) := by
  refine ⟨refs_mapColumns reach expr first, mapColumns_column reach expr,
    mapColumns_mapColumns reach first second expr, mapColumns_eq_iff reach expr first second,
    fun ref => mem_refs_iff, ?_⟩
  intro path part found
  refine ⟨_, part?_mapColumns found, ?_, ?_, shell_mapColumns⟩
  · rintro ref rfl
    rfl
  · rintro rfl call
    exact mapColumns_of_out_of_reach call

end Laws

/-- A total over all rows of a group. -/
def total : Expr := .aggregate "sum" (some (.named "a")) false

/-- Replacing outside the aggregate call in `sum(a) - b`. -/
theorem mapColumns_substitutes_difference :
    let difference : Expr := .binary (.arithmetic .sub) total (.named "b")
    let image := difference.mapColumns .outsideAggregates fun _ => .named "c"
    difference.part? .outsideAggregates [0] = some total ∧
      difference.part? .outsideAggregates [1] = some (.named "b") ∧
      image.part? .everywhere [0] = some total ∧
      image.part? .everywhere [1] = some (.named "c") := by
  intro difference image
  have kept : difference.part? .outsideAggregates [0] = some total := rfl
  have replaced : difference.part? .outsideAggregates [1] = some (.named "b") := rfl
  have parts := (mapColumns_substitutes .outsideAggregates difference
    (fun _ => .named "c") .column).2.2.2.2.2
  obtain ⟨first, firstFound, _, isTotal, _⟩ := parts [0] total kept
  obtain ⟨second, secondFound, isColumn, _, _⟩ := parts [1] (.named "b") replaced
  refine ⟨kept, replaced, ?_, ?_⟩
  · rw [firstFound, isTotal rfl rfl]
  · rw [secondFound, isColumn _ rfl]

end SqlPlan.Expr
