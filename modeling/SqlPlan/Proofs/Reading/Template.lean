import SqlPlan.Dialect.Registry
import SqlPlan.Dialect.Template
import SqlPlan.Proofs.Reading.Complete
import SqlPlan.Proofs.Success

/-!
# Function templates as text

A template whose slots stand between blanks, commas and brackets is complete
once they are filled with complete text.  It is an operand by itself when it is a
word, a call, a bracket, a case distinction or a cast.  How a template is laid out
is guessed and then checked against its pieces, so that nothing depends on the
guess.  All templates of the known dialects pass the check.
-/

namespace SqlPlan.Template

variable {grammar : Grammar} {quote : Char} {args : List String} {chars : List Char}

/-! ## Filling -/

/-- What one piece of a template becomes. -/
def Piece.fill (args : List String) : Piece → Except Nat (List Char)
  | .text char => .ok [char]
  | .all => .ok (", ".intercalate args).toList
  | .slot index => (args[index]?.map String.toList).elim (.error index) .ok

theorem fillPieces_cons (args : List String) (piece : Piece) (rest : List Piece) :
    fillPieces args (piece :: rest) =
      (piece.fill args).bind fun filled => (fillPieces args rest).map (filled ++ ·) := by
  rw [fillPieces.eq_def]
  cases piece with
  | text char => rfl
  | all => rfl
  | slot index =>
      simp only [Piece.fill]
      cases args[index]? <;> rfl

theorem fillPieces_append (args : List String) (first second : List Piece) :
    fillPieces args (first ++ second) =
      (fillPieces args first).bind fun filled => (fillPieces args second).map (filled ++ ·) := by
  induction first with
  | nil =>
      change fillPieces args second = (fillPieces args second).map ([] ++ ·)
      cases fillPieces args second <;> rfl
  | cons piece first induction =>
      rw [List.cons_append, fillPieces_cons, fillPieces_cons, induction]
      cases piece.fill args <;> cases fillPieces args first <;> cases fillPieces args second <;>
        simp [Except.bind, Except.map]

theorem fillPieces_text (args : List String) (chars : List Char) :
    fillPieces args (chars.map .text) = .ok chars := by
  induction chars with
  | nil => rfl
  | cons char chars induction =>
      rw [List.map_cons, fillPieces_cons, induction]
      rfl

/-- A template that is filled is filled in both its parts. -/
theorem fillPieces_append_eq_ok {first second : List Piece}
    (filled : fillPieces args (first ++ second) = .ok chars) :
    ∃ before after, fillPieces args first = .ok before ∧ fillPieces args second = .ok after ∧
      chars = before ++ after := by
  rw [fillPieces_append] at filled
  obtain ⟨before, beforeFilled, filled⟩ := bind_eq_ok.mp filled
  cases afterFilled : fillPieces args second with
  | error index => rw [afterFilled] at filled; cases filled
  | ok after =>
      rw [afterFilled] at filled
      cases filled
      exact ⟨before, after, beforeFilled, rfl, rfl⟩

/-! ## Layouts -/

/-- How the text of a template is put together. -/
inductive Layout where
  | text (chars : List Char)
  | slot (index : Nat)
  | all
  | divided (first : Layout) (divider : Char) (second : Layout)
  | group (before inner : Layout)

namespace Layout

def pieces : Layout → List Piece
  | .text chars => chars.map .text
  | .slot index => [.slot index]
  | .all => [.all]
  | .divided first divider second => first.pieces ++ .text divider :: second.pieces
  | .group before inner => before.pieces ++ .text '(' :: (inner.pieces ++ [.text ')'])

/-- Whether the text between the slots opens and closes nothing. -/
def isSound (quote : Char) : Layout → Bool
  | .text chars => Complete.isInert quote chars
  | .slot _ | .all => true
  | .divided first divider second =>
      (divider == ' ' || divider == ',') && first.isSound quote && second.isSound quote
  | .group before inner => before.isSound quote && inner.isSound quote

/-- Whether the text begins a case distinction. -/
def opensCase (quote : Char) : Layout → Bool
  | .text chars => chars == "CASE".toList
  | .divided first divider second =>
      divider == ' ' && first.opensCase quote && second.isSound quote
  | _ => false

theorem fill_divided {first second : Layout} {divider : Char}
    (filled : fillPieces args (divided first divider second).pieces = .ok chars) :
    ∃ before after, fillPieces args first.pieces = .ok before ∧
      fillPieces args second.pieces = .ok after ∧ chars = before ++ divider :: after := by
  obtain ⟨before, rest, beforeFilled, restFilled, rfl⟩ := fillPieces_append_eq_ok filled
  rw [← List.singleton_append] at restFilled
  obtain ⟨_, after, dividerFilled, afterFilled, rfl⟩ := fillPieces_append_eq_ok restFilled
  cases dividerFilled
  exact ⟨before, after, beforeFilled, afterFilled, rfl⟩

theorem fill_group {before inner : Layout}
    (filled : fillPieces args (group before inner).pieces = .ok chars) :
    ∃ first second, fillPieces args before.pieces = .ok first ∧
      fillPieces args inner.pieces = .ok second ∧ chars = first ++ '(' :: (second ++ [')']) := by
  obtain ⟨first, rest, firstFilled, restFilled, rfl⟩ := fillPieces_append_eq_ok filled
  rw [← List.singleton_append] at restFilled
  obtain ⟨_, closed, openFilled, closedFilled, rfl⟩ := fillPieces_append_eq_ok restFilled
  obtain ⟨second, _, secondFilled, closeFilled, rfl⟩ := fillPieces_append_eq_ok closedFilled
  cases openFilled
  cases closeFilled
  exact ⟨first, second, firstFilled, secondFilled, rfl⟩

variable (isQuote : IsNameQuote quote)
  (complete : ∀ arg ∈ args, Complete grammar quote arg.toList)
include isQuote complete

theorem complete_fill {layout : Layout} (sound : layout.isSound quote = true)
    (filled : fillPieces args layout.pieces = .ok chars) : Complete grammar quote chars := by
  induction layout generalizing chars with
  | text text =>
      rw [pieces, fillPieces_text] at filled
      cases filled
      exact .of_isInert grammar sound
  | slot index =>
      rw [pieces, fillPieces_cons] at filled
      cases found : args[index]? with
      | none =>
          simp only [Piece.fill, found] at filled
          cases filled
      | some arg =>
          simp only [Piece.fill, found] at filled
          cases filled
          simpa using complete arg (List.mem_of_getElem? found)
  | all =>
      cases filled
      simpa using Complete.values isQuote complete
  | divided first divider second firstInduction secondInduction =>
      simp only [isSound, Bool.and_eq_true, Bool.or_eq_true, beq_iff_eq] at sound
      obtain ⟨before, after, beforeFilled, afterFilled, rfl⟩ := fill_divided filled
      exact (firstInduction sound.1.2 beforeFilled).divided isQuote sound.1.1
        (secondInduction sound.2 afterFilled)
  | group before inner beforeInduction innerInduction =>
      simp only [isSound, Bool.and_eq_true] at sound
      obtain ⟨first, second, firstFilled, secondFilled, rfl⟩ := fill_group filled
      exact (beforeInduction sound.1 firstFilled).group isQuote
        (innerInduction sound.2 secondFilled)

theorem opensCase_fill {layout : Layout} (opens : layout.opensCase quote = true)
    (filled : fillPieces args layout.pieces = .ok chars) : OpensCase grammar quote chars := by
  induction layout generalizing chars with
  | text text =>
      rw [pieces, fillPieces_text] at filled
      cases filled
      rw [beq_iff_eq.mp opens]
      exact .start grammar quote
  | divided first divider second induction _ =>
      simp only [opensCase, Bool.and_eq_true, beq_iff_eq] at opens
      obtain ⟨⟨rfl, firstOpens⟩, sound⟩ := opens
      obtain ⟨before, after, beforeFilled, afterFilled, rfl⟩ := fill_divided filled
      exact (induction firstOpens beforeFilled).spaced isQuote
        (complete_fill isQuote complete sound afterFilled)
  | _ => cases opens

end Layout

/-! ## Shapes -/

/-- A template that is an operand by itself. -/
inductive Shape where
  | word (name : String)
  | call (name : String) (args : Layout)
  | bracket (inner : Layout)
  | cased (begun : Layout)
  | cast (arg : Shape) (type : String)
  | ordered (name : String) (args ordering : Layout)

namespace Shape

def layout : Shape → Layout
  | .word name => .text name.toList
  | .call name args => .group (.text name.toList) args
  | .bracket inner => .group (.text []) inner
  | .cased begun => .divided begun ' ' (.text "END".toList)
  | .cast arg type =>
      .group (.text "CAST".toList)
        (.divided (.divided arg.layout ' ' (.text "AS".toList)) ' ' (.text type.toList))
  | .ordered name args ordering =>
      .group
        (.divided
          (.divided
            (.divided (.group (.text name.toList) args) ' ' (.text "WITHIN".toList)) ' '
            (.text "GROUP".toList)) ' '
          (.text []))
        ordering

def isSound (quote : Char) : Shape → Bool
  | .word name => Dialect.isFreeWord name
  | .call name args => Dialect.isFreeWord name && args.isSound quote
  | .bracket inner => inner.isSound quote
  | .cased begun => begun.opensCase quote
  | .cast arg type => arg.isSound quote && Dialect.isFreeWord type
  | .ordered name args ordering =>
      Dialect.isFreeWord name && args.isSound quote && ordering.isSound quote

theorem atomic_fill (isQuote : IsNameQuote quote)
    (complete : ∀ arg ∈ args, Complete grammar quote arg.toList) {shape : Shape}
    (sound : shape.isSound quote = true)
    (filled : fillPieces args shape.layout.pieces = .ok chars) : Atomic grammar quote chars := by
  have text {word : List Char} {filled : List Char}
      (same : fillPieces args (Layout.text word).pieces = .ok filled) : filled = word := by
    rw [Layout.pieces, fillPieces_text] at same
    exact (Except.ok.inj same).symm
  induction shape generalizing chars with
  | word name =>
      rw [text filled]
      exact .word sound grammar quote
  | call name inner =>
      simp only [isSound, Bool.and_eq_true] at sound
      obtain ⟨before, inner, beforeFilled, innerFilled, rfl⟩ := Layout.fill_group filled
      rw [text beforeFilled]
      exact .call isQuote sound.1 (Layout.complete_fill isQuote complete sound.2 innerFilled)
  | bracket inner =>
      obtain ⟨before, inner, beforeFilled, innerFilled, rfl⟩ := Layout.fill_group filled
      rw [text beforeFilled]
      exact .bracket isQuote (Layout.complete_fill isQuote complete sound innerFilled)
  | cased begun =>
      obtain ⟨before, last, beforeFilled, lastFilled, rfl⟩ := Layout.fill_divided filled
      rw [text lastFilled]
      exact (Layout.opensCase_fill isQuote complete sound beforeFilled).atomic isQuote
  | cast arg type induction =>
      simp only [isSound, Bool.and_eq_true] at sound
      obtain ⟨cast, inner, castFilled, innerFilled, rfl⟩ := Layout.fill_group filled
      obtain ⟨before, typeText, beforeFilled, typeFilled, rfl⟩ := Layout.fill_divided innerFilled
      obtain ⟨argText, as, argFilled, asFilled, rfl⟩ := Layout.fill_divided beforeFilled
      have atomic := induction sound.1 argFilled
      rw [← String.toList_ofList (l := argText)] at atomic
      simpa [text castFilled, text typeFilled, text asFilled] using atomic.cast isQuote sound.2
  | ordered name inner ordering =>
      simp only [isSound, Bool.and_eq_true] at sound
      obtain ⟨begun, order, begunFilled, orderFilled, rfl⟩ := Layout.fill_group filled
      obtain ⟨grouped, nothing, groupedFilled, nothingFilled, rfl⟩ :=
        Layout.fill_divided begunFilled
      obtain ⟨within, group, withinFilled, groupFilled, rfl⟩ := Layout.fill_divided groupedFilled
      obtain ⟨call, keyword, callFilled, keywordFilled, rfl⟩ := Layout.fill_divided withinFilled
      obtain ⟨word, inner, nameFilled, innerFilled, rfl⟩ := Layout.fill_group callFilled
      have atomic := Atomic.ordered isQuote sound.1.1
        (Layout.complete_fill isQuote complete sound.1.2 innerFilled)
        (Layout.complete_fill isQuote complete sound.2 orderFilled)
      simpa [text nothingFilled, text groupFilled, text keywordFilled, text nameFilled] using atomic

end Shape

/-! ## Guessing -/

namespace Layout

/-- Puts a piece at the end of a layout.  A quoted text keeps its blanks. -/
def push : Layout → Piece → Layout
  | .text chars, .text char =>
      if (char == ' ' || char == ',') && chars.count '\'' % 2 == 0 then
        .divided (.text chars) char (.text [])
      else .text (chars ++ [char])
  | .text _, .slot index => .slot index
  | .text _, .all => .all
  | .divided first divider second, piece =>
      match second.push piece with
      | .divided next nextDivider last => .divided (.divided first divider next) nextDivider last
      | last => .divided first divider last
  | layout, .text char => .divided layout char (.text [])
  | layout, _ => layout

/-- Lays out pieces after a layout.  What stands before open brackets is kept in `outer`. -/
def guess (layout : Layout) : List Layout → List Piece → Layout
  | _, [] => layout
  | before :: outer, .text ')' :: rest => guess (.group before layout) outer rest
  | outer, .text '(' :: rest => guess (.text []) (layout :: outer) rest
  | outer, piece :: rest => guess (layout.push piece) outer rest

end Layout

def Shape.guess? : Layout → Option Shape
  | .text name => some (.word (String.ofList name))
  | .divided begun _ _ => some (.cased begun)
  | .group (.text []) inner => some (.bracket inner)
  | .group (.text ['C', 'A', 'S', 'T']) (.divided (.divided arg _ _) _ (.text type)) =>
      (Shape.guess? arg).map (.cast · (String.ofList type))
  | .group (.text name) inner => some (.call (String.ofList name) inner)
  | .group (.divided (.divided (.divided (.group (.text name) args) _ _) _ _) _ _) ordering =>
      some (.ordered (String.ofList name) args ordering)
  | _ => none

/-- Whether a template has been seen to be an operand by itself. -/
def isAtomic (quote : Char) (template : String) : Bool :=
  (Shape.guess? (Layout.guess (.text []) [] (pieces template))).any fun shape =>
    shape.layout.pieces == pieces template && shape.isSound quote

theorem atomic_fill (isQuote : IsNameQuote quote) {template text : String}
    (atomic : isAtomic quote template = true) (filled : fill template args = .ok text)
    (complete : ∀ arg ∈ args, Complete grammar quote arg.toList) :
    Atomic grammar quote text.toList := by
  unfold isAtomic at atomic
  cases guessed : Shape.guess? (Layout.guess (.text []) [] (pieces template)) with
  | none => rw [guessed] at atomic; cases atomic
  | some shape =>
      rw [guessed] at atomic
      simp only [Option.any_some, Bool.and_eq_true, beq_iff_eq] at atomic
      rw [fill, ← atomic.1] at filled
      cases charsFilled : fillPieces args shape.layout.pieces with
      | error index => rw [charsFilled] at filled; cases filled
      | ok chars =>
          rw [charsFilled] at filled
          cases filled
          simpa using shape.atomic_fill isQuote complete atomic.2 charsFilled

end SqlPlan.Template

/-! ## The templates of the known dialects -/

namespace SqlPlan

/-- All values of a record have a property. -/
def Record.Holds {α : Type} (property : α → Prop) (record : Record α) : Prop :=
  ∀ entry ∈ record.entries, property entry.2

namespace Record.Holds

variable {α : Type} {property : α → Prop} {record : Record α}

theorem empty (property : α → Prop) : Holds property Record.empty := by
  intro entry member
  cases member

theorem insert (holds : Holds property record) (key : String) {value : α}
    (new : property value) : Holds property (record.insert key value) := by
  have general : ∀ entries : List (String × α), (∀ entry ∈ entries, property entry.2) →
      ∀ entry ∈ insertEntry key value entries, property entry.2 := by
    intro entries
    induction entries with
    | nil => simpa [insertEntry] using new
    | cons head rest induction =>
        intro old
        rw [List.forall_mem_cons] at old
        rw [insertEntry]
        split
        · exact List.forall_mem_cons.mpr ⟨new, old.2⟩
        · split
          · exact List.forall_mem_cons.mpr ⟨new, List.forall_mem_cons.mpr old⟩
          · exact List.forall_mem_cons.mpr ⟨old.1, induction old.2⟩
  exact general record.entries holds

theorem erase (holds : Holds property record) (key : String) :
    Holds property (record.erase key) :=
  fun entry member => holds entry (List.mem_of_mem_filter member)

theorem ofList {pairs : List (String × α)} (holds : ∀ pair ∈ pairs, property pair.2) :
    Holds property (Record.ofList pairs) := by
  refine List.foldlRecOn pairs _ (.empty property) ?_
  intro record old pair member
  exact old.insert pair.1 (holds pair member)

theorem get? (holds : Holds property record) {key : String} {value : α}
    (found : record.get? key = some value) : property value := by
  obtain ⟨before, after, entries, _⟩ := List.lookup_eq_some_iff.mp found
  exact holds (key, value) (by simp [entries])

end Record.Holds

namespace Catalog

variable {property : FunctionEntry → Prop}

/-- What all entries of all sections have, the functions of every dialect have. -/
theorem holds_functions
    (holds : ∀ part ∈ functionSections, ∀ pair ∈ part.2, ∀ entry ∈ pair.2, property entry)
    (dialect : String) : (functions dialect).Holds property := by
  have apply (entries : FunctionSection) (record : Record FunctionEntry)
      (listed : ∀ pair ∈ entries, ∀ entry ∈ pair.2, property entry)
      (old : record.Holds property) : (applySection record entries).Holds property := by
    refine List.foldlRecOn entries _ old ?_
    intro record old pair member
    obtain ⟨name, entry⟩ := pair
    cases entry with
    | none => exact old.erase name
    | some entry =>
        simp only
        split
        · exact old
        · exact old.insert name (listed _ member entry rfl)
  have sections (key : String) :
      ∀ pair ∈ (functionSections.lookup key).getD [], ∀ entry ∈ pair.2, property entry := by
    cases found : functionSections.lookup key with
    | none => simp
    | some entries =>
        obtain ⟨before, after, all, _⟩ := List.lookup_eq_some_iff.mp found
        exact holds (key, entries) (by simp [all])
  exact apply _ _ (sections dialect) (apply _ _ (sections "common") (.empty property))

/-- A test that all entries of all sections were put to. -/
theorem forall_entries {test : FunctionEntry → Bool}
    (checked : (functionSections.all fun part => part.2.all fun pair => pair.2.all test) = true) :
    ∀ part ∈ functionSections, ∀ pair ∈ part.2, ∀ entry ∈ pair.2, test entry = true := by
  intro part partMember pair pairMember entry entryMember
  have inPart := List.all_eq_true.mp (List.all_eq_true.mp checked part partMember) pair pairMember
  rw [Option.mem_def.mp entryMember] at inPart
  exact inPart

theorem isAtomic_template {quote : Char} (isQuote : IsNameQuote quote) :
    ∀ part ∈ functionSections, ∀ pair ∈ part.2, ∀ entry ∈ pair.2,
      Template.isAtomic quote entry.template = true := by
  apply forall_entries
  rcases isQuote with rfl | rfl <;> decide +kernel

end Catalog

namespace Dialect

/-- A regular dialect in which every function is an operand by itself. -/
structure Readable (dialect : Dialect) : Prop extends dialect.Regular where
  templates : ∀ {name : String} {entry : FunctionEntry}, dialect.function? name = some entry →
    Template.isAtomic dialect.quote entry.template = true

/-- What all entries of all sections have, so has every function of a dialect that is made
from them. -/
theorem holds_of_function?_resolve {property : FunctionEntry → Prop}
    (sections : ∀ part ∈ Catalog.functionSections, ∀ pair ∈ part.2, ∀ entry ∈ pair.2,
      property entry) {config : Config} {catalogue : String} {quote : Char}
    (functions : config.functions = Catalog.functions catalogue)
    {name : String} {entry : FunctionEntry}
    (found : (config.resolve quote).function? name = some entry) : property entry := by
  have holds : (Catalog.functions catalogue).Holds property :=
    Catalog.holds_functions sections catalogue
  have normal : (Config.normalFunctions config.functions).Holds property := by
    refine .ofList fun pair member => ?_
    obtain ⟨entry, entryMember, rfl⟩ := List.mem_map.mp member
    rw [functions] at entryMember
    exact holds entry entryMember
  exact normal.get? found

theorem readable_of_known {dialect : Dialect} (known : dialect ∈ Registry.builtin.dialects) :
    dialect.Readable := by
  refine ⟨regular_of_known known, ?_⟩
  simp only [Registry.builtin, List.mem_cons, List.not_mem_nil, or_false] at known
  intro name entry found
  rcases known with rfl | rfl | rfl | rfl
  · exact holds_of_function?_resolve (Catalog.isAtomic_template (.inl rfl)) rfl found
  · exact holds_of_function?_resolve (Catalog.isAtomic_template (.inl rfl)) rfl found
  · exact holds_of_function?_resolve (Catalog.isAtomic_template (.inr rfl)) rfl found
  · exact holds_of_function?_resolve (Catalog.isAtomic_template (.inl rfl)) rfl found

end Dialect

end SqlPlan
