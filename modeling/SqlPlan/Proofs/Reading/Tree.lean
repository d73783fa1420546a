import SqlPlan.Expr

/-!
# Trees of SQL expressions

What a text says once its operators are grouped.  Chains of AND and of OR may be
grouped either way, so trees that differ only there are similar.
-/

namespace SqlPlan

/-- What a text says; what it does not take apart is a leaf. -/
inductive Tree where
  | leaf (text : String)
  | negate (arg : Tree)
  | not (arg : Tree)
  | nullTest (arg : Tree) (negated : Bool)
  | member (arg : Tree) (values : List Tree) (negated : Bool)
  | cast (arg : Tree) (type : String)
  | binary (op : BinaryOp) (left right : Tree)

namespace Tree

/-- Trees that differ in how chains of AND or of OR are grouped. -/
inductive Similar : Tree → Tree → Prop where
  | refl (tree : Tree) : Similar tree tree
  | symm {first second : Tree} : Similar first second → Similar second first
  | trans {first second third : Tree} :
      Similar first second → Similar second third → Similar first third
  | regroup (op : LogicalOp) (first second third : Tree) :
      Similar (.binary (.logical op) (.binary (.logical op) first second) third)
        (.binary (.logical op) first (.binary (.logical op) second third))
  | negate {arg arg' : Tree} : Similar arg arg' → Similar (.negate arg) (.negate arg')
  | not {arg arg' : Tree} : Similar arg arg' → Similar (.not arg) (.not arg')
  | nullTest {arg arg' : Tree} {negated : Bool} :
      Similar arg arg' → Similar (.nullTest arg negated) (.nullTest arg' negated)
  | member {arg arg' : Tree} {values : List Tree} {negated : Bool} :
      Similar arg arg' → Similar (.member arg values negated) (.member arg' values negated)
  | cast {arg arg' : Tree} {type : String} :
      Similar arg arg' → Similar (.cast arg type) (.cast arg' type)
  | binary {op : BinaryOp} {left left' right right' : Tree} :
      Similar left left' → Similar right right' →
        Similar (.binary op left right) (.binary op left' right')

def isNot : Tree → Bool
  | .not _ => true
  | _ => false

/-- Regrouping moves no NOT. -/
theorem Similar.isNot_eq {first second : Tree} (similar : Similar first second) :
    first.isNot = second.isNot := by
  induction similar with
  | symm _ induction => exact induction.symm
  | trans _ _ firstInduction secondInduction => exact firstInduction.trans secondInduction
  | _ => rfl

/-- A chain of AND or of OR, grouped to the left. -/
def chain (op : LogicalOp) (first : Tree) (rest : List Tree) : Tree :=
  rest.foldl (.binary (.logical op)) first

theorem chain_congr {op : LogicalOp} {first first' : Tree} (similar : Similar first first')
    (rest : List Tree) : Similar (chain op first rest) (chain op first' rest) := by
  induction rest generalizing first first' with
  | nil => exact similar
  | cons next rest induction => exact induction (.binary similar (.refl next))

/-- Two chains of one operator make up one chain. -/
theorem chain_append (op : LogicalOp) (first second : Tree) (rest more : List Tree) :
    Similar (chain op first (rest ++ second :: more))
      (.binary (.logical op) (chain op first rest) (chain op second more)) := by
  have move : ∀ (left right : Tree) (more : List Tree),
      Similar (chain op (.binary (.logical op) left right) more)
        (.binary (.logical op) left (chain op right more)) := by
    intro left right more
    induction more generalizing right with
    | nil => exact .refl _
    | cons next more induction =>
        exact (chain_congr (.regroup op left right next) more).trans
          (induction (.binary (.logical op) right next))
  rw [chain, List.foldl_append]
  exact move (chain op first rest) second more

end Tree

end SqlPlan
