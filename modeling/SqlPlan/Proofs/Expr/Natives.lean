import SqlPlan.Expr.Sql

/-!
# Names of native aggregates

Native aggregates are found under the names that are listed for them, and under
those that every object answers to.
-/

namespace SqlPlan

namespace Data

/-- The names that every object answers to. -/
def inheritedNames : List String := parentName :: methodNames

/-- What every object answers to a name is one of its methods or an object without fields. -/
theorem eq_of_unlisted {name : String} {held : Held} (answered : unlisted name = some held) :
    (name ∈ methodNames ∧ held = .method name) ∨
      (name = parentName ∧ held = .value (.object [])) := by
  unfold unlisted at answered
  split at answered
  · rename_i isMethod
    cases answered
    exact .inl ⟨by simpa using isMethod, rfl⟩
  · split at answered
    · rename_i isParent
      cases answered
      exact .inr ⟨isParent, rfl⟩
    · cases answered

theorem unlisted_eq_none_iff {name : String} :
    unlisted name = none ↔ name ∉ inheritedNames := by
  unfold unlisted
  split
  · rename_i isMethod
    have isMethod : name ∈ methodNames := by simpa using isMethod
    exact iff_of_false (by simp) (not_not_intro (List.mem_cons_of_mem _ isMethod))
  · rename_i noMethod
    have noMethod : name ∉ methodNames := by simpa using noMethod
    split
    · rename_i isParent
      exact iff_of_false (by simp) (not_not_intro (isParent ▸ List.mem_cons_self))
    · rename_i noParent
      exact iff_of_true rfl (List.not_mem_cons_of_ne_of_not_mem noParent noMethod)

end Data

namespace NativeAggregate

/-- The names that native aggregates are listed under. -/
def listedNames : List String := ["count", "sum", "mean", "avg", "min", "max"]

/-- The names that native aggregates are found under. -/
def foundNames : List String := listedNames ++ Data.inheritedNames

variable {name : String} {native : NativeAggregate}

theorem listed_or_inherited (named : ofName? name = some native) :
    (Text.lower name ∈ listedNames ∧ ∀ held, native ≠ .inherited held) ∨
      ∃ held, Data.unlisted (Text.lower name) = some held ∧ native = .inherited held := by
  unfold ofName? at named
  split at named
  case h_7 =>
    obtain ⟨held, answered, rfl⟩ := Option.map_eq_some_iff.mp named
    exact .inr ⟨held, answered, rfl⟩
  all_goals
    rename_i same
    cases named
    exact .inl ⟨by rw [same]; decide, by simp⟩

theorem ofName?_eq_none_iff : ofName? name = none ↔ Text.lower name ∉ foundNames := by
  unfold ofName?
  split
  case h_7 =>
    rename_i foreign
    rw [Option.map_eq_none_iff, Data.unlisted_eq_none_iff, foundNames, List.mem_append, not_or]
    exact (and_iff_right (by simp_all [listedNames])).symm
  all_goals
    rename_i same
    rw [same]
    exact iff_of_false (by simp) (by decide)

theorem mem_foundNames_iff :
    Text.lower name ∈ foundNames ↔ ∃ native, ofName? name = some native := by
  rw [← Option.isSome_iff_exists, ← Option.ne_none_iff_isSome, ne_eq, ofName?_eq_none_iff,
    Decidable.not_not]

theorem ofName?_eq_count_iff : ofName? name = some .count ↔ Text.lower name = "count" := by
  unfold ofName?
  split
  case h_7 => simp_all
  all_goals
    rename_i same
    simp [same]

end NativeAggregate

namespace Expr

/-- An aggregate call by a name that every object answers to. -/
def isInherited : Expr → Bool
  | .aggregate name _ _ => (Data.unlisted (Text.lower name)).isSome
  | _ => false

/-- Other calls find a native aggregate only under a listed name. -/
theorem mem_foundNames_iff_of_own {name : String} {arg : Option Expr} {distinct : Bool}
    (own : (Expr.aggregate name arg distinct).isInherited = false) :
    Text.lower name ∈ NativeAggregate.foundNames ↔
      Text.lower name ∈ NativeAggregate.listedNames := by
  have noName : Text.lower name ∉ Data.inheritedNames :=
    Data.unlisted_eq_none_iff.mp (Option.not_isSome_iff_eq_none.mp (ne_true_of_eq_false own))
  rw [NativeAggregate.foundNames, List.mem_append, or_iff_left noName]

end Expr

end SqlPlan
