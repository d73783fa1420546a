import SqlPlan.Dialect
import SqlPlan.Proofs.Reading.Tree

/-!
# The truth of a predicate

A predicate is true, false or unknown.  Given what its operands stand for, the
truth of a tree follows from its operators: a comparison with NULL is unknown, a
null test never is, and a list that has no match but a NULL leaves it unknown
whether the operand is in it.  Regrouping a chain changes no truth.
-/

namespace SqlPlan

/-- The truth values of SQL. -/
inductive Truth where
  | no
  | unknown
  | yes
deriving DecidableEq

namespace Truth

def ofBool (holds : Bool) : Truth := if holds then .yes else .no

def not : Truth → Truth
  | .no => .yes
  | .unknown => .unknown
  | .yes => .no

def or : Truth → Truth → Truth
  | .no, second => second
  | .yes, _ => .yes
  | .unknown, .yes => .yes
  | .unknown, _ => .unknown

def and : Truth → Truth → Truth
  | .yes, second => second
  | .no, _ => .no
  | .unknown, .no => .no
  | .unknown, _ => .unknown

/-- Whether any of some predicates holds. -/
def any (truths : List Truth) : Truth := truths.foldr or .no

theorem or_assoc (first second third : Truth) :
    (first.or second).or third = first.or (second.or third) := by
  cases first <;> cases second <;> cases third <;> rfl

theorem and_assoc (first second third : Truth) :
    (first.and second).and third = first.and (second.and third) := by
  cases first <;> cases second <;> cases third <;> rfl

theorem and_eq (first second : Truth) : first.and second = (first.not.or second.not).not := by
  cases first <;> cases second <;> rfl

@[simp] theorem or_no (truth : Truth) : truth.or .no = truth := by
  cases truth <;> rfl

@[simp] theorem not_not (truth : Truth) : truth.not.not = truth := by
  cases truth <;> rfl

end Truth

/-- The text of a leaf. -/
def Tree.leafText? : Tree → Option String
  | .leaf text => some text
  | _ => none

theorem Tree.Similar.leafText?_eq {first second : Tree} (similar : Similar first second) :
    first.leafText? = second.leafText? := by
  induction similar with
  | symm _ induction => exact induction.symm
  | trans _ _ firstInduction secondInduction => exact firstInduction.trans secondInduction
  | _ => rfl

/-- What operands stand for and which of their values are equal; NULL is no value. -/
structure Assignment (Value : Type) where
  value : Tree → Option Value
  equals : Value → Value → Bool
  null : value (.leaf "NULL") = none
  regrouped : ∀ {first second : Tree}, first.Similar second → value first = value second

namespace Assignment

variable {Value : Type} (assignment : Assignment Value)

/-- The truth of an equation. -/
def equal (left right : Tree) : Truth :=
  match assignment.value left, assignment.value right with
  | some left, some right => .ofBool (assignment.equals left right)
  | _, _ => .unknown

/-- The truth of a null test. -/
def isNull (arg : Tree) : Truth := .ofBool (assignment.value arg).isNone

/-- The truth of a predicate, for the operators that membership is made of. -/
def truth? (dialect : Dialect) : Tree → Option Truth
  | .leaf text =>
      if text = dialect.trueText then some .yes
      else if text = dialect.falseText then some .no
      else none
  | .not arg => (truth? dialect arg).map .not
  | .nullTest arg negated =>
      some (if negated then (assignment.isNull arg).not else assignment.isNull arg)
  | .member arg values negated =>
      let among := Truth.any (values.map (assignment.equal arg))
      some (if negated then among.not else among)
  | .binary (.comparison .equal) left right => some (assignment.equal left right)
  | .binary (.logical .and) left right => do
      return (← truth? dialect left).and (← truth? dialect right)
  | .binary (.logical .or) left right => do
      return (← truth? dialect left).or (← truth? dialect right)
  | _ => none

theorem equal_congr {left left' right right' : Tree} (lefts : left.Similar left')
    (rights : right.Similar right') :
    assignment.equal left right = assignment.equal left' right' := by
  rw [equal, equal, assignment.regrouped lefts, assignment.regrouped rights]

theorem truth?_congr (dialect : Dialect) {first second : Tree} (similar : first.Similar second) :
    assignment.truth? dialect first = assignment.truth? dialect second := by
  induction similar with
  | refl tree => rfl
  | symm _ induction => exact induction.symm
  | trans _ _ firstInduction secondInduction => exact firstInduction.trans secondInduction
  | regroup op first second third =>
      cases op <;>
      · simp only [truth?]
        cases assignment.truth? dialect first <;> cases assignment.truth? dialect second <;>
          cases assignment.truth? dialect third <;> simp [Truth.or_assoc, Truth.and_assoc]
  | negate _ _ => rfl
  | not _ induction => rw [truth?, truth?, induction]
  | nullTest arg _ => rw [truth?, truth?, isNull, isNull, assignment.regrouped arg]
  | @member arg arg' values _ similar _ =>
      have same : assignment.equal arg = assignment.equal arg' := by
        funext value
        exact assignment.equal_congr similar (.refl value)
      rw [truth?, truth?, same]
  | cast _ _ => rfl
  | @binary op left left' right right' lefts rights leftInduction rightInduction =>
      cases op with
      | arithmetic op => rfl
      | comparison op =>
          cases op with
          | equal => rw [truth?, truth?, assignment.equal_congr lefts rights]
          | _ => rfl
      | logical op => cases op <;> rw [truth?, truth?, leftInduction, rightInduction]

end Assignment

end SqlPlan
