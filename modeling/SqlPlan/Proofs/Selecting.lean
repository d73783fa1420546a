import Mathlib.Data.List.Nodup
import SqlPlan.Proofs.Drafting

/-!
# What a select list is made of

Outputs that are added to a statement stand beside the items that it had: each
takes the place of the column it redefines, or goes to the end, and no name
comes out twice.
-/

namespace SqlPlan

theorem Names.repeatAfter?_eq_none {seen names : List String} :
    Names.repeatAfter? seen names = none ↔ names.Nodup ∧ ∀ name ∈ names, name ∉ seen := by
  induction names generalizing seen with
  | nil => simp [Names.repeatAfter?]
  | cons name names induction =>
      unfold Names.repeatAfter?
      by_cases repeated : name ∈ seen
      · simp [repeated]
      · rw [if_neg (by simpa using repeated), induction, List.nodup_cons, List.forall_mem_cons]
        constructor
        · rintro ⟨distinct, apart⟩
          refine ⟨⟨fun member => apart name member (by simp), distinct⟩, repeated, ?_⟩
          intro other member seenMember
          exact apart other member (by simp [seenMember])
        · rintro ⟨⟨absent, distinct⟩, _, unseen⟩
          refine ⟨distinct, fun other member seenMember => ?_⟩
          rcases List.mem_cons.mp seenMember with rfl | earlier
          · exact absent member
          · exact unseen other member earlier

theorem Names.firstRepeat?_eq_none {names : List String} :
    Names.firstRepeat? names = none ↔ names.Nodup := by
  simp [Names.firstRepeat?, Names.repeatAfter?_eq_none]

/-- The column whose place an output takes. -/
def Output.target (output : Output) : String := output.replaces.getD output.name

namespace SelectItem

theorem requireDistinct_eq_ok {tables : List String} {items : List SelectItem} :
    requireDistinct tables items = .ok () ↔ (items.filterMap name?).Nodup := by
  rw [← Names.firstRepeat?_eq_none]
  unfold requireDistinct
  cases Names.firstRepeat? (items.filterMap name?) <;> simp

theorem mem_of_place {places : List (Option String)} {behindStar qualifiers : List String}
    {items next : List SelectItem} {output : Output}
    (placed : place places behindStar qualifiers items output = .ok next) :
    ∀ item ∈ next, item ∈ items ∨ item = output.item := by
  unfold place at placed
  split at placed
  · cases placed
    intro item member
    exact List.mem_or_eq_of_mem_set member
  · split at placed
    · cases placed
    · cases placed
      intro item member
      simpa [Output.item] using member

theorem mem_of_foldlM_place {places : List (Option String)} {behindStar qualifiers : List String}
    {items next : List SelectItem} {outputs : List Output}
    (placed : outputs.foldlM (place places behindStar qualifiers) items = .ok next) :
    ∀ item ∈ next, item ∈ items ∨ ∃ output ∈ outputs, item = output.item := by
  induction outputs generalizing items with
  | nil =>
      cases placed
      exact fun item member => .inl member
  | cons output outputs induction =>
      rw [List.foldlM_cons] at placed
      obtain ⟨middle, middleOk, placed⟩ := bind_eq_ok.mp placed
      intro item member
      rcases induction placed item member with earlier | ⟨later, laterMember, equal⟩
      · rcases mem_of_place middleOk item earlier with old | new
        · exact .inl old
        · exact .inr ⟨output, by simp, new⟩
      · exact .inr ⟨later, by simp [laterMember], equal⟩

/-! ### Places -/

/-- The item in the place of a column after outputs take the places of theirs. -/
def replacedBy (outputs : List Output) (name : String) (item : SelectItem) : SelectItem :=
  match outputs.find? fun output => output.target == name with
  | some found => found.item
  | none => item

theorem replacedBy_cons {output : Output} {outputs : List Output}
    (fresh : output.target ∉ outputs.map Output.target) (name : String) (item : SelectItem) :
    replacedBy (output :: outputs) name item =
      replacedBy outputs name (replacedBy [output] name item) := by
  by_cases here : output.target = name
  · have absent : outputs.find? (fun other => other.target == name) = none := by
      rw [List.find?_eq_none]
      intro other member same
      exact fresh (List.mem_map.mpr ⟨other, member, by simpa [here] using same⟩)
    simp [replacedBy, here, absent]
  · simp [replacedBy, here]

theorem zipWith_replacedBy_of_absent {outputs : List Output} {names : List String}
    {items : List SelectItem} (length : names.length = items.length)
    (absent : ∀ output ∈ outputs, output.target ∉ names) :
    names.zipWith (replacedBy outputs) items = items := by
  induction names generalizing items with
  | nil =>
      cases items with
      | nil => rfl
      | cons item items => cases length
  | cons name names induction =>
      cases items with
      | nil => cases length
      | cons item items =>
          have notFound : outputs.find? (fun output => output.target == name) = none := by
            rw [List.find?_eq_none]
            intro output member same
            exact absent output member (by simp [show output.target = name by simpa using same])
          rw [List.zipWith_cons_cons, induction (Nat.succ.inj length)
            fun output member later => absent output member (List.mem_cons_of_mem _ later)]
          simp [replacedBy, notFound]

/-- An output that redefines a column changes only the item in its place. -/
theorem set_eq_replacedBy {output : Output} {names : List String} {items : List SelectItem}
    {place : Nat} (distinct : names.Nodup) (length : names.length = items.length)
    (found : (names.map some).idxOf? (some output.target) = some place) :
    items.set place output.item = names.zipWith (replacedBy [output]) items ∧
      output.target ∈ names := by
  induction names generalizing items place with
  | nil => cases found
  | cons name names induction =>
      cases items with
      | nil => cases length
      | cons item items =>
          obtain ⟨absent, restDistinct⟩ := List.nodup_cons.mp distinct
          have restLength : names.length = items.length := Nat.succ.inj length
          rw [List.map_cons, List.idxOf?_cons] at found
          by_cases here : name = output.target
          · subst here
            simp only [beq_self_eq_true, if_true, Option.some.injEq] at found
            subst found
            rw [List.zipWith_cons_cons,
              zipWith_replacedBy_of_absent restLength (by simpa using absent)]
            simp [replacedBy]
          · simp only [Option.some_beq_some, beq_iff_eq, here, if_false, Option.map_eq_some_iff]
              at found
            obtain ⟨later, found, rfl⟩ := found
            obtain ⟨rest, member⟩ := induction restDistinct restLength found
            rw [List.set_cons_succ, rest, List.zipWith_cons_cons]
            refine ⟨?_, List.mem_cons_of_mem _ member⟩
            simp [replacedBy, Ne.symm here]

theorem place_eq_ok {output : Output} {names behindStar qualifiers : List String}
    {items added next : List SelectItem} (distinct : names.Nodup)
    (length : names.length = items.length)
    (success : place (names.map some) behindStar qualifiers (items ++ added) output = .ok next) :
    next = names.zipWith (replacedBy [output]) items ++ added ++
      ([output].filter fun output => !names.contains output.target).map Output.item := by
  unfold place at success
  split at success
  · rename_i place found
    cases success
    obtain ⟨replaced, member⟩ := set_eq_replacedBy distinct length found
    have bound : place < items.length := by
      obtain ⟨bound, _⟩ := List.idxOf?_eq_some_iff.mp found
      simpa [length] using bound
    have nothing : [output].filter (fun output => !names.contains output.target) = [] := by
      simp [member]
    rw [nothing, List.set_append_left _ _ bound, List.map_nil, List.append_nil]
    exact congrArg (· ++ added) replaced
  · rename_i missing
    have absent : output.target ∉ names := by
      intro member
      rw [List.idxOf?_eq_none_iff] at missing
      exact missing (List.mem_map_of_mem member)
    split at success
    · cases success
    · cases success
      rw [zipWith_replacedBy_of_absent length (by simpa using absent)]
      simp [absent, Output.item]

theorem zipWith_replacedBy_cons {output : Output} {outputs : List Output}
    (fresh : output.target ∉ outputs.map Output.target) (names : List String)
    (items : List SelectItem) :
    names.zipWith (replacedBy outputs) (names.zipWith (replacedBy [output]) items) =
      names.zipWith (replacedBy (output :: outputs)) items := by
  induction names generalizing items with
  | nil => rfl
  | cons name names induction =>
      cases items with
      | nil => rfl
      | cons item items => simp [replacedBy_cons fresh, induction]

/-- Outputs take the places of the columns they redefine, all others go to the
end in their order. -/
theorem foldlM_place_eq_ok {outputs : List Output} {names behindStar qualifiers : List String}
    {items added placed : List SelectItem} (distinct : names.Nodup)
    (targets : (outputs.map Output.target).Nodup) (length : names.length = items.length)
    (success : outputs.foldlM (place (names.map some) behindStar qualifiers) (items ++ added) =
      .ok placed) :
    placed = names.zipWith (replacedBy outputs) items ++ added ++
      (outputs.filter fun output => !names.contains output.target).map Output.item := by
  induction outputs generalizing items added with
  | nil =>
      cases success
      rw [zipWith_replacedBy_of_absent length (by simp)]
      simp
  | cons output outputs induction =>
      obtain ⟨fresh, targets⟩ := List.nodup_cons.mp targets
      rw [List.foldlM_cons] at success
      obtain ⟨next, nextOk, success⟩ := bind_eq_ok.mp success
      rw [place_eq_ok distinct length nextOk, List.append_assoc] at success
      rw [induction targets (by simp [length]) success]
      rw [zipWith_replacedBy_cons fresh]
      simp only [List.append_assoc, List.filter_cons, List.filter_nil]
      split <;> simp

/-! ### Stars -/

/-- Every place with a name is that of an output. -/
def OutputsAt (places : List (Option String)) (items : List SelectItem) : Prop :=
  ∀ (index : Nat) (name : String), places[index]? = some (some name) →
    ∃ selected, items[index]? = some (SelectItem.output selected)

theorem outputsAt_names (items : List SelectItem) : OutputsAt (items.map name?) items := by
  intro index name found
  rw [List.getElem?_map, Option.map_eq_some_iff] at found
  obtain ⟨item, found, named⟩ := found
  cases item with
  | output selected => exact ⟨selected, found⟩
  | star table => cases named

theorem filterMap_star?_set {items : List SelectItem} {index : Nat} {old new : SelectOutput}
    (found : items[index]? = some (.output old)) :
    (items.set index (.output new)).filterMap star? = items.filterMap star? := by
  induction items generalizing index with
  | nil => cases found
  | cons item items induction =>
      cases index with
      | zero =>
          cases Option.some.inj found
          rfl
      | succ index =>
          rw [List.set_cons_succ, List.filterMap_cons, List.filterMap_cons, induction found]

theorem stars_of_place {places : List (Option String)} {behindStar qualifiers : List String}
    {items next : List SelectItem} {output : Output} (outputs : OutputsAt places items)
    (placed : place places behindStar qualifiers items output = .ok next) :
    next.filterMap star? = items.filterMap star? ∧ OutputsAt places next := by
  unfold place at placed
  split at placed
  · rename_i place found
    cases placed
    obtain ⟨bound, named, _⟩ := List.idxOf?_eq_some_iff.mp found
    obtain ⟨old, isOutput⟩ :=
      outputs place _ (List.getElem?_eq_some_iff.mpr ⟨bound, named⟩)
    obtain ⟨inItems, _⟩ := List.getElem?_eq_some_iff.mp isOutput
    refine ⟨filterMap_star?_set isOutput, fun index name found => ?_⟩
    rw [List.getElem?_set, if_pos inItems]
    split
    · exact ⟨_, rfl⟩
    · exact outputs index name found
  · split at placed
    · cases placed
    · cases placed
      refine ⟨by simp [star?], fun index name found => ?_⟩
      obtain ⟨other, isOther⟩ := outputs index name found
      obtain ⟨bound, _⟩ := List.getElem?_eq_some_iff.mp isOther
      exact ⟨other, by rwa [List.getElem?_append_left bound]⟩

theorem stars_of_foldlM_place {places : List (Option String)}
    {behindStar qualifiers : List String} {items next : List SelectItem} {outputs : List Output}
    (outputsAt : OutputsAt places items)
    (placed : outputs.foldlM (place places behindStar qualifiers) items = .ok next) :
    next.filterMap star? = items.filterMap star? := by
  induction outputs generalizing items with
  | nil =>
      cases placed
      rfl
  | cons output outputs induction =>
      rw [List.foldlM_cons] at placed
      obtain ⟨middle, middleOk, placed⟩ := bind_eq_ok.mp placed
      obtain ⟨stars, middleAt⟩ := stars_of_place outputsAt middleOk
      exact (induction middleAt placed).trans stars

end SelectItem

namespace Clauses

variable {clauses : Clauses} {outputs : List Output} {items : List SelectItem}

theorem extendedSelect_eq_ok (success : clauses.extendedSelect outputs = .ok items) :
    ∃ behindStar,
      outputs.foldlM
        (SelectItem.place
          ((clauses.expandedSelect.filter fun item => !item.isHidden).map SelectItem.name?)
          behindStar clauses.qualifiers)
        (clauses.expandedSelect.filter fun item => !item.isHidden) = .ok items ∧
      (items.filterMap SelectItem.name?).Nodup := by
  unfold extendedSelect at success
  obtain ⟨placed, placedOk, success⟩ := bind_eq_ok.mp success
  obtain ⟨_, distinct, success⟩ := bind_eq_ok.mp success
  cases pure_eq_ok.mp success
  exact ⟨_, placedOk, SelectItem.requireDistinct_eq_ok.mp distinct⟩

/-- An item of an extended list is an old one that was visible or a new output. -/
theorem mem_extendedSelect (success : clauses.extendedSelect outputs = .ok items) :
    ∀ item ∈ items, (item ∈ clauses.expandedSelect ∧ item.isHidden = false) ∨
      ∃ output ∈ outputs, item = output.item := by
  obtain ⟨behindStar, placed, _⟩ := extendedSelect_eq_ok success
  intro item member
  rcases SelectItem.mem_of_foldlM_place placed item member with old | new
  · left
    simpa using old
  · exact .inr new

/-- Outputs that are added leave the stars as they are. -/
theorem stars_extendedSelect (success : clauses.extendedSelect outputs = .ok items) :
    items.filterMap SelectItem.star? = clauses.expandedSelect.filterMap SelectItem.star? := by
  obtain ⟨behindStar, placed, _⟩ := extendedSelect_eq_ok success
  rw [SelectItem.stars_of_foldlM_place (SelectItem.outputsAt_names _) placed,
    List.filterMap_filter]
  apply List.filterMap_congr
  intro item _
  cases item with
  | output selected => exact ite_self none
  | star table => rfl

end Clauses

end SqlPlan
