import Mathlib.Data.List.Nodup
import SqlPlan.Proofs.Drafting

/-!
# What nesting keeps

A nested statement shows what it showed before: keys that are selected for the
enclosing statement only are hidden.  The enclosing statement writes each key
in terms of what is shown, or reads it from one of those hidden outputs.
-/

namespace SqlPlan

namespace Clauses

variable {clauses : Clauses}

theorem carried?_of_select_none (whole : clauses.select = none) (key : Expr) :
    clauses.carried? key = some key := by
  simp [carried?, whole]

theorem carriedKeys_of_select_none (whole : clauses.select = none) (used : Nat)
    (keys : List SortKey) : clauses.carriedKeys used keys = (keys, []) := by
  induction keys with
  | nil => rfl
  | cons key keys induction =>
      simp only [carriedKeys, carried?_of_select_none whole, induction]

/-- A key as the enclosing statement writes it comes from a key of the
statement, which its output carries or which is selected for it. -/
def Carries (clauses : Clauses) (hoisted : List SelectOutput) (key carried : SortKey) : Prop :=
  carried.direction = key.direction ∧
    (clauses.carried? key.expr = some carried.expr ∨
      ∃ output ∈ hoisted, output.expr = key.expr ∧ carried.expr = .named output.name)

theorem Carries.weaken {hoisted more : List SelectOutput} {key carried : SortKey}
    (carries : clauses.Carries hoisted key carried) (subset : hoisted ⊆ more) :
    clauses.Carries more key carried := by
  obtain ⟨direction, written | ⟨output, member, reads⟩⟩ := carries
  · exact ⟨direction, .inl written⟩
  · exact ⟨direction, .inr ⟨output, subset member, reads⟩⟩

theorem mem_carriedKeys {used : Nat} {keys : List SortKey} {carried : SortKey}
    (member : carried ∈ (clauses.carriedKeys used keys).1) :
    ∃ key ∈ keys, clauses.Carries (clauses.carriedKeys used keys).2 key carried := by
  induction keys generalizing used with
  | nil => simp [carriedKeys] at member
  | cons key keys induction =>
      unfold carriedKeys at member ⊢
      split at member
      · rename_i expr written
        dsimp only
        rcases List.mem_cons.mp member with here | later
        · subst here
          exact ⟨key, by simp, rfl, .inl written⟩
        · obtain ⟨source, sourceMember, carries⟩ := induction later
          exact ⟨source, by simp [sourceMember], carries⟩
      · rename_i missing
        dsimp only
        split at member
        · rename_i fixed
          simp only [fixed, if_true]
          obtain ⟨source, sourceMember, carries⟩ := induction member
          exact ⟨source, by simp [sourceMember], carries⟩
        · rename_i free
          simp only [free]
          rcases List.mem_cons.mp member with here | later
          · subst here
            exact ⟨key, by simp, rfl, .inr ⟨_, List.mem_cons_self, rfl, rfl⟩⟩
          · obtain ⟨source, sourceMember, carries⟩ := induction later
            exact ⟨source, by simp [sourceMember],
              carries.weaken (List.subset_cons_self _ _)⟩

theorem mem_carriedKeys_of_carried? {used : Nat} {keys : List SortKey} {key : SortKey}
    {expr : Expr} (member : key ∈ keys) (carried : clauses.carried? key.expr = some expr) :
    { key with expr } ∈ (clauses.carriedKeys used keys).1 := by
  induction keys generalizing used with
  | nil => cases member
  | cons first keys induction =>
      unfold carriedKeys
      rcases List.mem_cons.mp member with rfl | later
      · rw [carried]
        exact List.mem_cons_self
      · split
        · exact List.mem_cons_of_mem _ (induction later)
        · split
          · exact induction later
          · exact List.mem_cons_of_mem _ (induction later)

/-- Unless the statement is distinct or grouped, no key is lost. -/
theorem forall₂_carriedKeys (free : (clauses.distinct || clauses.isGrouped) = false) (used : Nat)
    (keys : List SortKey) :
    List.Forall₂ (clauses.Carries (clauses.carriedKeys used keys).2) keys
      (clauses.carriedKeys used keys).1 := by
  induction keys generalizing used with
  | nil => exact .nil
  | cons key keys induction =>
      unfold carriedKeys
      split
      · rename_i expr written
        exact .cons ⟨rfl, .inl written⟩ (induction used)
      · simp only [free, Bool.false_eq_true, if_false]
        refine .cons ⟨rfl, .inr ⟨_, List.mem_cons_self, rfl, rfl⟩⟩ ?_
        exact (induction (used + 1)).imp fun _ _ carries =>
          carries.weaken (List.subset_cons_self _ _)

/-- A selected key is hidden, has a fresh name, and is one of the keys. -/
theorem mem_hoisted {used : Nat} {keys : List SortKey} {output : SelectOutput}
    (member : output ∈ (clauses.carriedKeys used keys).2) :
    output.hidden = true ∧ (∃ count, used < count ∧ output.name = hoistedName count) ∧
      ∃ key ∈ keys, output.expr = key.expr := by
  induction keys generalizing used with
  | nil => simp [carriedKeys] at member
  | cons key keys induction =>
      unfold carriedKeys at member
      split at member
      · obtain ⟨hidden, fresh, source, sourceMember, same⟩ := induction member
        exact ⟨hidden, fresh, source, by simp [sourceMember], same⟩
      · split at member
        · obtain ⟨hidden, fresh, source, sourceMember, same⟩ := induction member
          exact ⟨hidden, fresh, source, by simp [sourceMember], same⟩
        · rcases List.mem_cons.mp member with here | later
          · subst here
            exact ⟨rfl, ⟨used + 1, by omega, rfl⟩, key, by simp, rfl⟩
          · obtain ⟨hidden, ⟨count, above, named⟩, source, sourceMember, same⟩ := induction later
            exact ⟨hidden, ⟨count, by omega, named⟩, source, by simp [sourceMember], same⟩

/-- A distinct or grouped statement selects no keys. -/
theorem hoisted_of_fixed (fixed : (clauses.distinct || clauses.isGrouped) = true) (used : Nat)
    (keys : List SortKey) : (clauses.carriedKeys used keys).2 = [] := by
  induction keys with
  | nil => rfl
  | cons key keys induction =>
      unfold carriedKeys
      split
      · exact induction
      · rw [if_pos fixed]
        exact induction

/-- The keys that are selected have consecutive names. -/
theorem names_hoisted (used : Nat) (keys : List SortKey) :
    (clauses.carriedKeys used keys).2.map (·.name) =
      (List.range' (used + 1) (clauses.carriedKeys used keys).2.length).map hoistedName := by
  induction keys generalizing used with
  | nil => rfl
  | cons key keys induction =>
      unfold carriedKeys
      split
      · exact induction used
      · split
        · exact induction used
        · rw [List.map_cons, induction (used + 1), List.length_cons, List.range'_succ,
            List.map_cons]

theorem hoistedName_injective {first second : Nat}
    (same : hoistedName first = hoistedName second) : first = second := by
  have digits : first.repr.toList = second.repr.toList :=
    congrArg String.toList ((String.append_right_inj _).mp same)
  rw [Nat.toList_repr, Nat.toList_repr] at digits
  have value := congrArg (fun chars => Nat.ofDigitChars 10 chars 0) digits
  simpa only [Nat.ofDigitChars_ten_toDigits] using value

theorem nodup_names_hoisted (used : Nat) (keys : List SortKey) :
    ((clauses.carriedKeys used keys).2.map (·.name)).Nodup := by
  rw [names_hoisted]
  exact List.Nodup.map (fun _ _ => hoistedName_injective) List.nodup_range'

/-- The names that only ordering keys should have. -/
def IsReserved (name : String) : Prop := "__order_".toList <+: name.toList

instance (name : String) : Decidable (IsReserved name) :=
  inferInstanceAs (Decidable (_ <+: _))

theorem isReserved_hoistedName (count : Nat) : IsReserved (hoistedName count) := by
  rw [IsReserved, hoistedName, String.toList_append]
  exact List.prefix_append _ _

/-! ## The nested clauses -/

section Nested

variable {hoisted : List SelectOutput} (whole : clauses.select = none → hoisted = [])

include whole

theorem outputs_nested : (clauses.nested hoisted).outputs = clauses.outputs ++ hoisted := by
  cases hoisted with
  | nil => simp [nested, outputs]
  | cons first rest =>
      cases select : clauses.select with
      | none => cases whole select
      | some items =>
          simp [nested, outputs, expandedSelect, select, SelectItem.output?, List.filterMap_map,
            Function.comp_def]

theorem star?_nested : (clauses.nested hoisted).star? = clauses.star? := by
  cases hoisted with
  | nil => simp [nested, star?]
  | cons first rest =>
      cases select : clauses.select with
      | none => cases whole select
      | some items =>
          have starless : ((first :: rest).map SelectItem.output).findSome?
              SelectItem.star? = none := by
            simp [List.findSome?_eq_none_iff, SelectItem.star?]
          simp only [nested, star?, expandedSelect, select, List.isEmpty_cons,
            Bool.false_eq_true, if_false, Option.getD_some, List.findSome?_append, starless,
            Option.or_none]

theorem visibleOutputs_nested (hidden : ∀ output ∈ hoisted, output.hidden = true) :
    (clauses.nested hoisted).visibleOutputs = clauses.visibleOutputs := by
  have none_visible : hoisted.filter (fun output => !output.hidden) = [] := by
    rw [List.filter_eq_nil_iff]
    intro output member
    simp [hidden output member]
  rw [visibleOutputs, outputs_nested whole, List.filter_append, none_visible, List.append_nil]
  rfl

/-- A nested statement shows what it showed before. -/
theorem visibleScope_nested (hidden : ∀ output ∈ hoisted, output.hidden = true)
    (dialect : Dialect) :
    (clauses.nested hoisted).visibleScope dialect = clauses.visibleScope dialect := by
  have outputsEq := visibleOutputs_nested whole hidden
  have starEq := star?_nested whole
  cases select : clauses.select with
  | none =>
      have nothing := whole select
      subst nothing
      simp [visibleScope, nested, select]
  | some items =>
      have nestedSelect : ∃ nestedItems, (clauses.nested hoisted).select = some nestedItems := by
        cases hoisted <;> simp [nested, select]
      obtain ⟨nestedItems, nestedSelect⟩ := nestedSelect
      simp only [visibleScope, nestedSelect, select, outputsEq, starEq]
      rfl

end Nested

theorem names_visibleScope (clauses : Clauses) (dialect : Dialect) :
    (clauses.visibleScope dialect).names = clauses.visibleNames := by
  unfold visibleScope visibleNames
  cases clauses.select <;> simp [Scope.names, Function.comp_def]

theorem isOpen_visibleScope (clauses : Clauses) (dialect : Dialect) :
    (clauses.visibleScope dialect).isOpen =
      match clauses.select with
      | none => clauses.scope.isOpen
      | some _ => clauses.star?.isSome := by
  unfold visibleScope
  cases clauses.select <;> rfl

theorem extent_visibleScope (clauses : Clauses) (dialect : Dialect) :
    (clauses.visibleScope dialect).extent =
      .single (clauses.visibleScope dialect).isOpen := by
  unfold visibleScope
  cases clauses.select <;> rfl

end Clauses

/-! ## The statement around -/

namespace Draft

/-- The ordering of the statement around the draft. -/
def outerKeys (draft : Draft) : List SortKey :=
  (draft.statement.carriedKeys draft.hoisted draft.statement.orderBy).1

/-- The keys that are selected for the statement around the draft. -/
def hoistedKeys (draft : Draft) : List SelectOutput :=
  (draft.statement.carriedKeys draft.hoisted draft.statement.orderBy).2

def inner (draft : Draft) : Clauses := draft.statement.toClauses.nested draft.hoistedKeys

theorem hoistedKeys_of_select_none {draft : Draft} (whole : draft.statement.select = none) :
    draft.hoistedKeys = [] := by
  rw [hoistedKeys, Clauses.carriedKeys_of_select_none whole]

theorem hoistedKeys_hidden (draft : Draft) : ∀ output ∈ draft.hoistedKeys, output.hidden = true :=
  fun _ member => (Clauses.mem_hoisted member).1

theorem visibleScope_inner (draft : Draft) (dialect : Dialect) :
    draft.inner.visibleScope dialect = draft.statement.visibleScope dialect :=
  Clauses.visibleScope_nested hoistedKeys_of_select_none draft.hoistedKeys_hidden dialect

theorem nest_eq (dialect : Dialect) (draft : Draft) :
    draft.nest dialect =
      { statement :=
          { source := .relation (.subquery draft.statement.source draft.inner)
            scope := draft.statement.visibleScope dialect
            qualifiers := draft.statement.qualifiers
            select :=
              if draft.hoistedKeys.isEmpty || (draft.statement.visibleScope dialect).isOpen then
                none
              else some (draft.statement.visibleNames.map SelectItem.ofColumn)
            orderBy := draft.outerKeys }
        hoisted := draft.hoisted + draft.hoistedKeys.length } := by
  rw [← draft.visibleScope_inner dialect, ← Clauses.names_visibleScope _ dialect,
    ← draft.visibleScope_inner dialect]
  rfl

/-- Whatever a statement reads from, the one around it reads from a single relation. -/
theorem single_nest (dialect : Dialect) (draft : Draft) :
    (draft.nest dialect).statement.scope.isJoined = false := by
  rw [nest_eq, Scope.isJoined, Clauses.extent_visibleScope]

end Draft

end SqlPlan
