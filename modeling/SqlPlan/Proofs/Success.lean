import Mathlib.Data.List.Forall2

/-!
# Results that may fail

What a computation that succeeded went through, step by step.
-/

namespace SqlPlan

theorem bind_eq_ok {ε α β : Type} {first : Except ε α} {next : α → Except ε β} {result : β} :
    (first >>= next) = .ok result ↔ ∃ value, first = .ok value ∧ next value = .ok result := by
  cases first <;> simp [bind, Except.bind]

theorem bind_eq_error {ε α β : Type} {first : Except ε α} {next : α → Except ε β} {cause : ε} :
    (first >>= next) = .error cause ↔
      first = .error cause ∨ ∃ value, first = .ok value ∧ next value = .error cause := by
  cases first <;> simp [bind, Except.bind]

/-- A step that cannot fail leaves the failure to the one before it. -/
theorem eq_error_of_bind {ε α β : Type} {first : Except ε α} {next : α → Except ε β} {cause : ε}
    (failed : (first >>= next) = .error cause)
    (total : ∀ value, ∃ result, next value = .ok result) : first = .error cause := by
  rcases bind_eq_error.mp failed with here | ⟨value, _, later⟩
  · exact here
  · obtain ⟨result, success⟩ := total value
    rw [success] at later
    cases later

theorem pure_eq_ok {ε α : Type} {value result : α} :
    (pure value : Except ε α) = .ok result ↔ value = result := by
  simp [pure, Except.pure]

theorem map_eq_ok {ε α β : Type} {first : Except ε α} {change : α → β} {result : β} :
    first.map change = .ok result ↔ ∃ value, first = .ok value ∧ change value = result := by
  cases first <;> simp [Except.map]

theorem map_eq_error {ε α β : Type} {first : Except ε α} {change : α → β} {cause : ε} :
    first.map change = .error cause ↔ first = .error cause := by
  cases first <;> simp [Except.map]

theorem eq_ok_of_toOption {ε α : Type} {result : Except ε α} {value : α}
    (success : result.toOption = some value) : result = .ok value := by
  cases result with
  | ok found => exact congrArg _ (Option.some.inj success)
  | error cause => cases success

/-- A check that is made under a condition only. -/
theorem guarded_eq_ok {ε β : Type} {condition : Prop} [Decidable condition]
    {check : Except ε Unit} {next : Unit → Except ε β} {result : β}
    (success : (if condition then check >>= next else next ()) = .ok result) :
    (condition → check = .ok ()) ∧ next () = .ok result := by
  split at success
  · obtain ⟨_, checked, success⟩ := bind_eq_ok.mp success
    exact ⟨fun _ => checked, success⟩
  · rename_i unguarded
    exact ⟨fun holds => absurd holds unguarded, success⟩

theorem forM_eq_ok {ε α : Type} {check : α → Except ε Unit} {items : List α} :
    items.forM check = .ok () ↔ ∀ item ∈ items, check item = .ok () := by
  induction items with
  | nil => simp [pure, Except.pure]
  | cons item items induction =>
      rw [List.forM_eq_forM] at induction ⊢
      rw [List.forM_cons, bind_eq_ok, List.forall_mem_cons]
      constructor
      · rintro ⟨_, head, tail⟩
        exact ⟨head, induction.mp tail⟩
      · rintro ⟨head, tail⟩
        exact ⟨(), head, induction.mpr tail⟩

theorem mapM_eq_ok {ε α β : Type} {step : α → Except ε β} {items : List α} {results : List β} :
    items.mapM step = .ok results ↔
      List.Forall₂ (fun item result => step item = .ok result) items results := by
  induction items generalizing results with
  | nil => cases results <;> simp [pure, Except.pure]
  | cons item items induction =>
      rw [List.mapM_cons, bind_eq_ok]
      simp only [bind_eq_ok, pure_eq_ok, List.forall₂_cons_left_iff]
      constructor
      · rintro ⟨head, headOk, tail, tailOk, rfl⟩
        exact ⟨head, tail, headOk, induction.mp tailOk, rfl⟩
      · rintro ⟨head, tail, headOk, tailOk, rfl⟩
        exact ⟨head, headOk, tail, induction.mpr tailOk, rfl⟩

theorem exists_mem_of_mapM_eq_error {ε α β : Type} {step : α → Except ε β} {items : List α}
    {cause : ε} (failed : items.mapM step = .error cause) :
    ∃ item ∈ items, step item = .error cause := by
  induction items with
  | nil => cases failed
  | cons item items induction =>
      rw [List.mapM_cons] at failed
      rcases bind_eq_error.mp failed with here | ⟨_, _, failed⟩
      · exact ⟨item, List.mem_cons_self, here⟩
      · obtain ⟨other, member, failing⟩ := induction (eq_error_of_bind failed fun _ => ⟨_, rfl⟩)
        exact ⟨other, List.mem_cons_of_mem _ member, failing⟩

theorem mapM_congr {ε α β : Type} {step other : α → Except ε β} {items : List α}
    (agree : ∀ item ∈ items, step item = other item) : items.mapM step = items.mapM other := by
  induction items with
  | nil => rfl
  | cons item items induction =>
      obtain ⟨here, rest⟩ := List.forall_mem_cons.mp agree
      rw [List.mapM_cons, List.mapM_cons, here, induction rest]

theorem exists_mem_of_forall₂ {α β : Type} {related : α → β → Prop} {items : List α}
    {results : List β} (pairs : List.Forall₂ related items results) {result : β}
    (member : result ∈ results) : ∃ item ∈ items, related item result := by
  induction pairs with
  | nil => cases member
  | cons head _ induction =>
      rcases List.mem_cons.mp member with rfl | later
      · exact ⟨_, List.mem_cons_self, head⟩
      · obtain ⟨item, itemMember, holds⟩ := induction later
        exact ⟨item, List.mem_cons_of_mem _ itemMember, holds⟩

theorem exists_mem_of_forall₂_left {α β : Type} {related : α → β → Prop} {items : List α}
    {results : List β} (pairs : List.Forall₂ related items results) {item : α}
    (member : item ∈ items) : ∃ result ∈ results, related item result :=
  exists_mem_of_forall₂ pairs.flip member

end SqlPlan
