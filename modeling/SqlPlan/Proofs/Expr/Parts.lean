import SqlPlan.Proofs.Expr.Traversal
import SqlPlan.Proofs.Success

/-!
# The parts of an expression

The expressions that stand directly in an expression, and those that stand in it
at any depth.  What stands in an expression after its columns were replaced
either stood there before, up to the replacement, or came with a replacement.
-/

namespace SqlPlan.Expr

/-- The expressions that an expression is put together from. -/
def children : Expr → List Expr
  | .column _ => []
  | .literal _ => []
  | .unary _ arg => [arg]
  | .binary _ left right => [left, right]
  | .member arg _ _ => [arg]
  | .call _ args => args
  | .case branches otherwise =>
      (branches.flatMap fun branch => [branch.1, branch.2]) ++ otherwise.toList
  | .cast arg _ => [arg]
  | .aggregate _ arg _ => arg.toList

/-- One expression stands in another, at any depth, or is it. -/
inductive Within (inner : Expr) : Expr → Prop where
  | self : Within inner inner
  | deeper {child outer : Expr} : child ∈ outer.children → Within inner child → Within inner outer

def isAggregate : Expr → Bool
  | .aggregate _ _ _ => true
  | _ => false

theorem mem_children_case {branches : List (Expr × Expr)} {otherwise : Option Expr}
    {child : Expr} :
    child ∈ (Expr.case branches otherwise).children ↔
      (∃ branch ∈ branches, child = branch.1 ∨ child = branch.2) ∨ child ∈ otherwise := by
  simp [children]

theorem eq_column_of_column? {expr : Expr} {ref : ColumnRef} (isColumn : expr.column? = some ref) :
    expr = .column ref := by
  cases expr with
  | column other => exact congrArg _ (Option.some.inj isColumn)
  | _ => cases isColumn

/-- Structural induction in which every child is treated alike. -/
theorem inductionOnChildren {motive : Expr → Prop}
    (step : ∀ expr, (∀ child ∈ expr.children, motive child) → motive expr) (expr : Expr) :
    motive expr := by
  induction expr with
  | column ref => exact step _ (by simp [children])
  | literal constant => exact step _ (by simp [children])
  | unary op arg induction => exact step _ (by simpa [children] using induction)
  | binary op left right leftInduction rightInduction =>
      exact step _ (by simpa [children] using ⟨leftInduction, rightInduction⟩)
  | member arg values negated induction => exact step _ (by simpa [children] using induction)
  | call name args induction => exact step _ induction
  | case branches otherwise branchInduction otherInduction =>
      refine step _ fun child member => ?_
      rcases mem_children_case.mp member with ⟨branch, branchMember, rfl | rfl⟩ | isOther
      · exact (branchInduction branch branchMember).1
      · exact (branchInduction branch branchMember).2
      · exact otherInduction child isOther
  | cast arg type induction => exact step _ (by simpa [children] using induction)
  | aggregate name arg distinct induction =>
      exact step _ (by simpa [children] using induction)

theorem Within.trans {inner middle outer : Expr} (first : inner.Within middle)
    (second : middle.Within outer) : inner.Within outer := by
  induction second with
  | self => exact first
  | deeper member _ induction => exact .deeper member induction

theorem aggregate?_eq_none_iff {expr : Expr} :
    expr.aggregate? = none ↔
      expr.isAggregate = false ∧ ∀ child ∈ expr.children, child.aggregate? = none := by
  cases expr with
  | case branches otherwise =>
      rw [aggregate?_case_eq_none]
      simp only [isAggregate, mem_children_case, true_and]
      constructor
      · rintro ⟨inBranches, inOther⟩ child (⟨branch, member, rfl | rfl⟩ | isOther)
        · exact (inBranches branch member).1
        · exact (inBranches branch member).2
        · exact inOther child isOther
      · intro scalars
        refine ⟨fun branch member => ?_, fun other member => scalars other (.inr member)⟩
        exact ⟨scalars _ (.inl ⟨branch, member, .inl rfl⟩),
          scalars _ (.inl ⟨branch, member, .inr rfl⟩)⟩
  | call name args => simp [aggregate?, isAggregate, children, aggregateList?_eq_none]
  | _ => simp [aggregate?, isAggregate, children]

/-- An expression without aggregate calls holds none at any depth. -/
theorem aggregate?_of_within {inner outer : Expr} (within : inner.Within outer)
    (scalar : outer.aggregate? = none) : inner.aggregate? = none := by
  induction within with
  | self => exact scalar
  | deeper member _ induction => exact induction ((aggregate?_eq_none_iff.mp scalar).2 _ member)

/-! ## Replacing columns -/

section Replacing

variable {reach : Reach} {replace : ColumnRef → Expr} {expr inner : Expr}

theorem column?_mapColumns (compound : expr.column? = none) :
    (expr.mapColumns reach replace).column? = none := by
  cases expr with
  | column ref => cases compound
  | case branches otherwise => cases otherwise <;> rfl
  | aggregate name arg distinct => cases arg <;> cases reach <;> rfl
  | _ => rfl

theorem isAggregate_mapColumns (compound : expr.column? = none) :
    (expr.mapColumns reach replace).isAggregate = expr.isAggregate := by
  cases expr with
  | column ref => cases compound
  | case branches otherwise => cases otherwise <;> rfl
  | aggregate name arg distinct => cases arg <;> cases reach <;> rfl
  | _ => rfl

/-- Replacing goes into every child, except into that of an aggregate call out of reach. -/
theorem children_mapColumns (compound : expr.column? = none)
    (reached : reach = .everywhere ∨ expr.isAggregate = false) :
    (expr.mapColumns reach replace).children = expr.children.map (mapColumns reach replace) := by
  cases expr with
  | column ref => cases compound
  | case branches otherwise =>
      rw [mapColumns_case, children, children, List.map_append, List.flatMap_map,
        List.map_flatMap, Option.toList_map]
      rfl
  | aggregate name arg distinct =>
      rcases reached with rfl | isCall
      · rw [mapColumns_aggregate_everywhere, children, children, Option.toList_map]
      · cases isCall
  | _ => simp [mapColumns, children, mapColumnsList_eq_map]

theorem refs_eq_flatMap_children (compound : expr.column? = none)
    (reached : reach = .everywhere ∨ expr.isAggregate = false) :
    expr.refs reach = expr.children.flatMap (refs reach) := by
  cases expr with
  | column ref => cases compound
  | case branches otherwise =>
      rw [refs_case, children, List.flatMap_append, List.flatMap_assoc]
      simp
  | aggregate name arg distinct =>
      rcases reached with rfl | isCall
      · exact columnRefs_aggregate name arg distinct
      · cases isCall
  | _ => simp [refs, children, refsList_eq_flatMap]

theorem refs_subset_of_mem_children {child : Expr} (member : child ∈ expr.children)
    (reached : reach = .everywhere ∨ expr.isAggregate = false) :
    child.refs reach ⊆ expr.refs reach := by
  cases compound : expr.column? with
  | some ref =>
      rw [eq_column_of_column? compound] at member
      cases member
  | none =>
      rw [refs_eq_flatMap_children compound reached]
      exact fun ref refMember => List.mem_flatMap.mpr ⟨child, member, refMember⟩

theorem Within.columnRefs_subset (within : inner.Within expr) :
    inner.columnRefs ⊆ expr.columnRefs := by
  induction within with
  | self => exact List.Subset.refl _
  | deeper member _ induction =>
      exact List.Subset.trans induction (refs_subset_of_mem_children member (.inl rfl))

theorem mapColumns_of_out_of_reach (call : expr.isAggregate = true) :
    expr.mapColumns .outsideAggregates replace = expr := by
  cases expr with
  | aggregate name arg distinct => cases arg <;> rfl
  | _ => cases call

/-- What stands in an expression stands in it, with its columns replaced, afterwards. -/
theorem Within.mapColumns (within : inner.Within expr) :
    (inner.mapColumns .everywhere replace).Within (expr.mapColumns .everywhere replace) := by
  induction within with
  | self => exact .self
  | @deeper child outer member _ induction =>
      cases compound : outer.column? with
      | some ref =>
          rw [eq_column_of_column? compound] at member
          cases member
      | none =>
          refine .deeper ?_ induction
          rw [children_mapColumns compound (.inl rfl)]
          exact List.mem_map_of_mem member

theorem within_mapColumns (within : inner.Within (expr.mapColumns .everywhere replace)) :
    (∃ part : Expr, part.Within expr ∧ part.column? = none ∧
        inner = part.mapColumns .everywhere replace) ∨
      ∃ ref ∈ expr.columnRefs, inner.Within (replace ref) := by
  induction expr using inductionOnChildren with
  | step expr induction =>
      cases compound : expr.column? with
      | some ref =>
          rw [eq_column_of_column? compound] at within ⊢
          exact .inr ⟨ref, List.mem_singleton.mpr rfl, within⟩
      | none =>
          cases within with
          | self => exact .inl ⟨expr, .self, compound, rfl⟩
          | deeper member within =>
              rw [children_mapColumns compound (.inl rfl)] at member
              obtain ⟨child, childMember, rfl⟩ := List.mem_map.mp member
              rcases induction child childMember within with
                ⟨part, partWithin, partCompound, equal⟩ | ⟨ref, refMember, withinRef⟩
              · exact .inl ⟨part, .deeper childMember partWithin, partCompound, equal⟩
              · exact .inr ⟨ref, refs_subset_of_mem_children childMember (.inl rfl) refMember,
                  withinRef⟩

/-- Where replacing stops at aggregate calls, their arguments are left as they are. -/
theorem within_mapColumns_outside
    (within : inner.Within (expr.mapColumns .outsideAggregates replace)) :
    (∃ part : Expr, part.Within expr ∧ part.column? = none ∧
        part.refs .outsideAggregates ⊆ expr.refs .outsideAggregates ∧
        inner = part.mapColumns .outsideAggregates replace) ∨
      inner.Within expr ∨
      ∃ ref ∈ expr.refs .outsideAggregates, inner.Within (replace ref) := by
  induction expr using inductionOnChildren with
  | step expr induction =>
      cases compound : expr.column? with
      | some ref =>
          rw [eq_column_of_column? compound] at within ⊢
          exact .inr (.inr ⟨ref, List.mem_singleton.mpr rfl, within⟩)
      | none =>
          cases call : expr.isAggregate with
          | true =>
              rw [mapColumns_of_out_of_reach call] at within
              exact .inr (.inl within)
          | false =>
              cases within with
              | self => exact .inl ⟨expr, .self, compound, List.Subset.refl _, rfl⟩
              | deeper member within =>
                  rw [children_mapColumns compound (.inr call)] at member
                  obtain ⟨child, childMember, rfl⟩ := List.mem_map.mp member
                  have childRefs : child.refs .outsideAggregates ⊆ expr.refs .outsideAggregates :=
                    refs_subset_of_mem_children childMember (.inr call)
                  rcases induction child childMember within with
                    ⟨part, partWithin, partCompound, partRefs, equal⟩ | same |
                    ⟨ref, refMember, withinRef⟩
                  · exact .inl ⟨part, .deeper childMember partWithin, partCompound,
                      List.Subset.trans partRefs childRefs, equal⟩
                  · exact .inr (.inl (.deeper childMember same))
                  · exact .inr (.inr ⟨ref, childRefs refMember, withinRef⟩)

end Replacing

/-! ## Equality -/

/-- Equal expressions have equal children. -/
theorem forall₂_children_of_same {left right : Expr} (same : left.same right = true) :
    List.Forall₂ (fun left right => left.same right = true) left.children right.children := by
  have options {motive : Expr → Expr → Prop} {first second : Option Expr}
      (related : Option.Rel (fun left right => left.same right = true ∧ motive left right)
        first second) :
      List.Forall₂ (fun left right => left.same right = true) first.toList second.toList := by
    cases related with
    | none => exact .nil
    | some pair => exact .cons pair.1 .nil
  refine inductionOnSame (motive := fun left right =>
      List.Forall₂ (fun left right => left.same right = true) left.children right.children)
    ?column ?literal ?unary ?binary ?member ?call ?case ?cast ?aggregate same
  case column => exact fun _ => .nil
  case literal => exact fun _ _ _ => .nil
  case unary => exact fun _ _ _ equal _ => .cons equal .nil
  case binary => exact fun _ _ _ _ _ first second => .cons first.1 (.cons second.1 .nil)
  case member => exact fun _ _ _ _ _ equal _ _ => .cons equal .nil
  case call => exact fun _ _ _ pairs => pairs.imp fun _ _ pair => pair.1
  case case =>
    intro branches others otherwise other pairs rest
    refine List.rel_append (List.rel_flatMap pairs ?_) (options rest)
    rintro first second ⟨condition, result⟩
    exact .cons condition.1 (.cons result.1 .nil)
  case cast => exact fun _ _ _ equal _ => .cons equal .nil
  case aggregate => exact fun _ _ _ _ rest => options rest

theorem isAggregate_of_same {left right : Expr} (same : left.same right = true) :
    left.isAggregate = right.isAggregate := by
  refine inductionOnSame ?_ ?_ ?_ ?_ ?_ ?_ ?_ ?_ ?_ same <;> intros <;> rfl

/-- What stands in an expression has its equal in every expression that equals it. -/
theorem exists_within_of_same {inner left right : Expr} (same : left.same right = true)
    (within : inner.Within right) :
    ∃ other : Expr, other.Within left ∧ other.same inner = true := by
  induction within generalizing left with
  | self => exact ⟨left, .self, same⟩
  | deeper member _ induction =>
      obtain ⟨child, childMember, childSame⟩ :=
        exists_mem_of_forall₂ (forall₂_children_of_same same) member
      obtain ⟨other, within, equal⟩ := induction childSame
      exact ⟨other, .deeper childMember within, equal⟩

end SqlPlan.Expr
