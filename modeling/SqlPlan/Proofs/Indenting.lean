import SqlPlan.Compile
import SqlPlan.Proofs.Indenting.Statement

/-!
# Nesting and the lexemes of a statement

A nested statement has its own lexemes in parentheses, whatever is nested in it
and however deeply it is nested itself, unless a quoted text or name has a line
break in it: the blanks that indent the lines are then taken into the quotes.
-/

namespace SqlPlan

variable {dialect : Dialect}

/-- The lexemes of the text around a nested statement. -/
theorem visible?_subqueryText (free : Lexeme.IsFreeQuote dialect.quote) {name inner : String}
    {items : List Lexeme} {label : Lexeme}
    (visible : Lexeme.visible? dialect.quote inner.toList = some items)
    (named : Lexeme.visible? dialect.quote (dialect.identifier name).toList = some [label]) :
    Lexeme.visible? dialect.quote (subqueryText dialect name inner).toList =
      some (.symbol ['('] :: (items.map Lexeme.indented ++
        [.symbol [')'], .word "AS".toList, label])) := by
  have nothing : Lexeme.visible? dialect.quote [] = some [] := rfl
  have word : Lexeme.visible? dialect.quote "AS".toList = some [.word "AS".toList] :=
    Lexeme.visible?_word rfl
  have indented := Lexeme.visible?_indented free inner
  rw [visible, Option.map_some] at indented
  have renamed := Lexeme.visible?_blank free (.inl rfl) nothing
    (Lexeme.visible?_blank free (.inl rfl) word named)
  have closed := Lexeme.visible?_symbol free (by simp : ')' ∈ _) nothing renamed
  have lines := Lexeme.visible?_blank free (.inr rfl) nothing
    (Lexeme.visible?_blank free (.inr rfl) indented closed)
  simpa [subqueryText] using Lexeme.visible?_symbol free (by simp : '(' ∈ _) nothing lines

/-- What indenting leaves of the lexemes around and inside a nested statement. -/
theorem Lexeme.map_iterate_indented_eq_iff (depth : Nat) (items : List Lexeme) (label : Lexeme) :
    (Lexeme.symbol ['('] :: (items.map indented ++
        [.symbol [')'], .word "AS".toList, label])).map indented^[depth] =
        .symbol ['('] :: (items ++ [.symbol [')'], .word "AS".toList, label]) ↔
      (∀ item ∈ items, item.lineBreaks = 0) ∧ (depth = 0 ∨ label.lineBreaks = 0) := by
  have fixed {item : Lexeme} (noBreak : item.lineBreaks = 0) : indented^[depth] item = item :=
    (iterate_indented_eq_self_iff depth item).mpr (.inr noBreak)
  have inside : (items.map indented).map indented^[depth] = items ↔
      ∀ item ∈ items, item.lineBreaks = 0 := by
    have moved : (items.map indented).map indented^[depth] = items ↔
        items.map indented^[depth + 1] = items.map id := by
      rw [List.map_map, List.map_id, Function.iterate_succ]
    rw [moved, List.map_inj_left]
    refine forall₂_congr fun item _ => ?_
    simpa using iterate_indented_eq_self_iff (depth + 1) item
  rw [List.map_cons, List.map_append, fixed rfl, List.cons.injEq]
  constructor
  · rintro ⟨_, same⟩
    obtain ⟨sameItems, sameRest⟩ := List.append_inj same (by simp)
    have sameLabel : indented^[depth] label = label := by
      simpa using congrArg List.getLast? sameRest
    exact ⟨inside.mp sameItems, (iterate_indented_eq_self_iff depth label).mp sameLabel⟩
  · rintro ⟨noBreak, labelFixed⟩
    refine ⟨rfl, ?_⟩
    rw [inside.mpr noBreak, List.map_cons, List.map_cons, List.map_cons, fixed rfl, fixed rfl,
      (iterate_indented_eq_self_iff depth label).mpr labelFixed]
    rfl

theorem Relation.text_subquery {source : Source} {clauses : Clauses} {name text : String}
    {used : Nat} (written : (Relation.subquery source clauses).text dialect name used = .ok text) :
    ∃ inner, source.text dialect used clauses = .ok inner ∧
      text = subqueryText dialect name inner := by
  obtain ⟨inner, innerWritten, isText⟩ := bind_eq_ok.mp written
  cases isText
  exact ⟨inner, innerWritten, rfl⟩

/-! ## Lexemes of statements -/

section Statements

variable (lexical : dialect.IsLexical) {select source : String} {tail : List String}
  {items : List Lexeme}

include lexical

/-- The lexemes of what a statement reads stand among those of the statement. -/
theorem Clauses.exists_visible?_statementText
    (selectLexed : IsLexed dialect.quote select.toList)
    (tailLexed : ∀ line ∈ tail, IsLexed dialect.quote line.toList)
    (visible : Lexeme.visible? dialect.quote source.toList = some items) :
    ∃ all, Lexeme.visible? dialect.quote (statementText select source tail).toList = some all ∧
      items <:+: all := by
  obtain ⟨selectItems, selectVisible⟩ := selectLexed
  have word : Lexeme.visible? dialect.quote "FROM".toList = some [.word "FROM".toList] :=
    Lexeme.visible?_word rfl
  have read : Lexeme.visible? dialect.quote ("FROM " ++ source).toList =
      some ([.word "FROM".toList] ++ items) := by
    simpa using Lexeme.visible?_blank lexical.free (.inl rfl) word visible
  obtain ⟨tailItems, tailVisible⟩ : ∃ tailItems, List.Forall₂ (fun line found =>
      Lexeme.visible? dialect.quote line.toList = some found) tail tailItems := by
    induction tail with
    | nil => exact ⟨[], .nil⟩
    | cons line tail induction =>
        rw [List.forall_mem_cons] at tailLexed
        obtain ⟨found, lineVisible⟩ := tailLexed.1
        obtain ⟨rest, restVisible⟩ := induction tailLexed.2
        exact ⟨found :: rest, .cons lineVisible restVisible⟩
  refine ⟨_, Lexeme.visible?_lines lexical.free
    (.cons selectVisible (.cons read tailVisible)), ?_⟩
  exact ⟨selectItems ++ [.word "FROM".toList], tailItems.flatten, by simp⟩

/-- The sides of a join and their condition, as they stand in a statement. -/
theorem Clauses.exists_visible?_join {left right on : String} {leftItems rightItems : List Lexeme}
    (kind : JoinKind) (leftVisible : Lexeme.visible? dialect.quote left.toList = some leftItems)
    (rightVisible : Lexeme.visible? dialect.quote right.toList = some rightItems)
    (onLexed : IsLexed dialect.quote on.toList) :
    ∃ items, Lexeme.visible? dialect.quote
        (left ++ "\n" ++ kind.keyword ++ " " ++ right ++ " ON " ++ on).toList = some items ∧
      leftItems <:+: items ∧ rightItems <:+: items := by
  have free := lexical.free
  obtain ⟨onItems, onVisible⟩ := onLexed
  obtain ⟨keyword, kindVisible⟩ := lexical.keyword kind
  have word : Lexeme.visible? dialect.quote "ON".toList = some [.word "ON".toList] :=
    Lexeme.visible?_word rfl
  have condition := Lexeme.visible?_blank free (.inl rfl) word onVisible
  have joined := Lexeme.visible?_blank free (.inr rfl) leftVisible
    (Lexeme.visible?_blank free (.inl rfl) kindVisible
      (Lexeme.visible?_blank free (.inl rfl) rightVisible condition))
  refine ⟨_, by simpa using joined, ?_, ?_⟩
  · exact ⟨[], keyword ++ (rightItems ++ ([.word "ON".toList] ++ onItems)), by simp⟩
  · exact ⟨leftItems ++ keyword, [.word "ON".toList] ++ onItems, by simp⟩

theorem Source.exists_visible?_subquery {source : Source} {inner clauses : Clauses} {used : Nat}
    {text : String}
    (lexed : ∀ {name used text},
      (Relation.subquery source inner).text dialect name used = .ok text →
        IsLexed dialect.quote text.toList)
    (written : (Source.relation (.subquery source inner)).text dialect used clauses = .ok text) :
    ∃ relation items all,
      (Relation.subquery source inner).text dialect (subqueryName (used + 1)) (used + 1) =
        .ok relation ∧
      Lexeme.visible? dialect.quote relation.toList = some items ∧
      Lexeme.visible? dialect.quote text.toList = some all ∧ items <:+: all := by
  rw [Source.text] at written
  obtain ⟨select, selectWritten, written⟩ := bind_eq_ok.mp written
  obtain ⟨innerText, innerWritten, written⟩ := bind_eq_ok.mp written
  obtain ⟨tail, tailWritten, isText⟩ := bind_eq_ok.mp written
  cases isText
  have relationWritten : (Relation.subquery source inner).text dialect (subqueryName (used + 1))
      (used + 1) = .ok (subqueryText dialect (subqueryName (used + 1)) innerText) := by
    rw [Relation.text, innerWritten]
    rfl
  obtain ⟨items, visible⟩ := lexed relationWritten
  obtain ⟨all, allVisible, stands⟩ := Clauses.exists_visible?_statementText lexical
    (lexical.selectText selectWritten) (lexical.tailLines tailWritten) visible
  exact ⟨_, items, all, relationWritten, visible, allVisible, stands⟩

theorem Source.exists_visible?_join {left right : Relation} {leftName rightName : String}
    {kind : JoinKind} {on : Expr} {clauses : Clauses} {used : Nat} {text : String}
    (leftLexed : ∀ {name used text}, left.text dialect name used = .ok text →
      IsLexed dialect.quote text.toList)
    (rightLexed : ∀ {name used text}, right.text dialect name used = .ok text →
      IsLexed dialect.quote text.toList)
    (written : (Source.join left leftName right rightName kind on).text dialect used clauses =
      .ok text) :
    ∃ leftText leftItems rightText rightItems all,
      left.text dialect leftName used = .ok leftText ∧
      Lexeme.visible? dialect.quote leftText.toList = some leftItems ∧
      right.text dialect rightName (used + left.numbered) = .ok rightText ∧
      Lexeme.visible? dialect.quote rightText.toList = some rightItems ∧
      Lexeme.visible? dialect.quote text.toList = some all ∧
      leftItems <:+: all ∧ rightItems <:+: all := by
  rw [Source.text] at written
  obtain ⟨select, selectWritten, written⟩ := bind_eq_ok.mp written
  obtain ⟨leftText, leftWritten, written⟩ := bind_eq_ok.mp written
  obtain ⟨rightText, rightWritten, written⟩ := bind_eq_ok.mp written
  obtain ⟨onText, onWritten, written⟩ := bind_eq_ok.mp written
  obtain ⟨tail, tailWritten, isText⟩ := bind_eq_ok.mp written
  cases isText
  obtain ⟨leftItems, leftVisible⟩ := leftLexed leftWritten
  obtain ⟨rightItems, rightVisible⟩ := rightLexed rightWritten
  have onLexed := lexical.groupedText (lexical.expressions rfl onWritten) on
  obtain ⟨items, visible, onLeft, onRight⟩ :=
    Clauses.exists_visible?_join lexical kind leftVisible rightVisible onLexed
  obtain ⟨all, allVisible, stands⟩ := Clauses.exists_visible?_statementText lexical
    (lexical.selectText selectWritten) (lexical.tailLines tailWritten) visible
  exact ⟨leftText, leftItems, rightText, rightItems, all, leftWritten, leftVisible, rightWritten,
    rightVisible, allVisible, onLeft.trans stands, onRight.trans stands⟩

mutual

theorem Relation.isLexed_text : ∀ (relation : Relation) {name : String} {used : Nat}
    {text : String}, relation.text dialect name used = .ok text →
      IsLexed dialect.quote text.toList
  | .table ref shownAs, name, used, text, written => by
      cases written
      exact lexical.tableText (some name) ref
  | .subquery source clauses, name, used, text, written => by
      obtain ⟨inner, innerWritten, rfl⟩ := Relation.text_subquery written
      obtain ⟨items, visible⟩ := source.isLexed_text innerWritten
      obtain ⟨label, named⟩ := Dialect.exists_visible?_identifier lexical.free name
      exact ⟨_, visible?_subqueryText lexical.free visible named⟩

theorem Source.isLexed_text : ∀ (source : Source) {used : Nat} {clauses : Clauses}
    {text : String}, source.text dialect used clauses = .ok text →
      IsLexed dialect.quote text.toList
  | .relation (.table ref shownAs), used, clauses, text, written => by
      rw [Source.text] at written
      obtain ⟨select, selectWritten, written⟩ := bind_eq_ok.mp written
      obtain ⟨tail, tailWritten, isText⟩ := bind_eq_ok.mp written
      cases isText
      obtain ⟨items, visible⟩ := lexical.tableText shownAs ref
      obtain ⟨all, allVisible, _⟩ := Clauses.exists_visible?_statementText lexical
        (lexical.selectText selectWritten) (lexical.tailLines tailWritten) visible
      exact ⟨all, allVisible⟩
  | .relation (.subquery source inner), used, clauses, text, written => by
      obtain ⟨_, _, all, _, _, allVisible, _⟩ := Source.exists_visible?_subquery lexical
        (Relation.subquery source inner).isLexed_text written
      exact ⟨all, allVisible⟩
  | .join left leftName right rightName kind on, used, clauses, text, written => by
      obtain ⟨_, _, _, _, all, _, _, _, _, allVisible, _⟩ := Source.exists_visible?_join lexical
        left.isLexed_text right.isLexed_text written
      exact ⟨all, allVisible⟩

end

end Statements

/-! ## Nested statements -/

/-- A relation with its name and the number of subqueries before it, where it
stands in a source, below so many levels of nesting. -/
inductive Source.Shows : Source → Nat → Nat → Relation → String → Nat → Prop where
  | relation (source : Source) (clauses : Clauses) (used : Nat) :
      Shows (.relation (.subquery source clauses)) used 0 (.subquery source clauses)
        (subqueryName (used + 1)) (used + 1)
  | left (left : Relation) (leftName : String) (right : Relation) (rightName : String)
      (kind : JoinKind) (on : Expr) (used : Nat) :
      Shows (.join left leftName right rightName kind on) used 0 left leftName used
  | right (left : Relation) (leftName : String) (right : Relation) (rightName : String)
      (kind : JoinKind) (on : Expr) (used : Nat) :
      Shows (.join left leftName right rightName kind on) used 0 right rightName
        (used + left.numbered)
  | nested {whole source : Source} {clauses : Clauses} {relation : Relation}
      {name innerName : String} {wholeUsed used innerUsed depth innerDepth : Nat} :
      Shows whole wholeUsed depth (.subquery source clauses) name used →
      Shows source used innerDepth relation innerName innerUsed →
      Shows whole wholeUsed (depth + 1 + innerDepth) relation innerName innerUsed

/-- The lexemes of a relation stand in the whole, indented once for every level. -/
theorem Source.Shows.isInfix (lexical : dialect.IsLexical) {whole : Source} {relation : Relation}
    {name : String} {wholeUsed used depth : Nat}
    (shows : whole.Shows wholeUsed depth relation name used) {clauses : Clauses}
    {wholeText : String} (written : whole.text dialect wholeUsed clauses = .ok wholeText) :
    ∃ text items all, relation.text dialect name used = .ok text ∧
      Lexeme.visible? dialect.quote text.toList = some items ∧
      Lexeme.visible? dialect.quote wholeText.toList = some all ∧
      items.map Lexeme.indented^[depth] <:+: all := by
  induction shows generalizing clauses wholeText with
  | relation source inner used =>
      obtain ⟨relation, items, all, relationWritten, visible, allVisible, stands⟩ :=
        Source.exists_visible?_subquery lexical (Relation.isLexed_text lexical _) written
      exact ⟨relation, items, all, relationWritten, visible, allVisible, by simpa using stands⟩
  | left left leftName right rightName kind on used =>
      obtain ⟨text, items, _, _, all, textWritten, visible, _, _, allVisible, stands, _⟩ :=
        Source.exists_visible?_join lexical (left.isLexed_text lexical)
          (right.isLexed_text lexical) written
      exact ⟨text, items, all, textWritten, visible, allVisible, by simpa using stands⟩
  | right left leftName right rightName kind on used =>
      obtain ⟨_, _, text, items, all, _, _, textWritten, visible, allVisible, _, stands⟩ :=
        Source.exists_visible?_join lexical (left.isLexed_text lexical)
          (right.isLexed_text lexical) written
      exact ⟨text, items, all, textWritten, visible, allVisible, by simpa using stands⟩
  | @nested whole source inner relation name _ _ _ _ depth innerDepth _ _ outer nested =>
      obtain ⟨text, items, all, textWritten, visible, allVisible, stands⟩ := outer written
      obtain ⟨innerText, innerWritten, rfl⟩ := Relation.text_subquery textWritten
      obtain ⟨relationText, relationItems, innerItems, relationWritten, relationVisible,
        innerVisible, innerStands⟩ := nested innerWritten
      refine ⟨relationText, relationItems, all, relationWritten, relationVisible, allVisible, ?_⟩
      have enclosed : innerItems.map Lexeme.indented <:+: items := by
        obtain ⟨label, named⟩ := Dialect.exists_visible?_identifier lexical.free name
        have parts := visible?_subqueryText lexical.free innerVisible named
        rw [visible] at parts
        rw [Option.some.inj parts]
        exact ⟨[.symbol ['(']], [.symbol [')'], .word "AS".toList, label], by simp⟩
      have levels : relationItems.map Lexeme.indented^[depth + 1 + innerDepth] =
          ((relationItems.map Lexeme.indented^[innerDepth]).map Lexeme.indented).map
            Lexeme.indented^[depth] := by
        rw [List.map_map, List.map_map, Function.iterate_add, Function.iterate_succ]
      rw [levels]
      exact (((innerStands.map Lexeme.indented).trans enclosed).map _).trans stands

/-- Below any number of levels, a nested statement has its own lexemes between
parentheses, and its name behind them, exactly when no quoted lexeme in it has a
line break, nor its name where the name is nested too.  It stands so in the text
of every statement around it. -/
theorem Relation.visible?_nested (free : Lexeme.IsFreeQuote dialect.quote) {source : Source}
    {clauses : Clauses} {used : Nat} {inner : String}
    (written : source.text dialect used clauses = .ok inner) (name : String) :
    ∃ text label, (Relation.subquery source clauses).text dialect name used = .ok text ∧
      Lexeme.visible? dialect.quote (dialect.identifier name).toList = some [label] ∧
      (dialect.IsLexical → ∃ items, Lexeme.visible? dialect.quote inner.toList = some items) ∧
      ∀ {items}, Lexeme.visible? dialect.quote inner.toList = some items → ∀ depth, ∃ nested,
        Lexeme.visible? dialect.quote (Text.indented^[depth] text).toList = some nested ∧
        (nested = .symbol ['('] :: (items ++ [.symbol [')'], .word "AS".toList, label]) ↔
          (∀ item ∈ items, item.lineBreaks = 0) ∧ (depth = 0 ∨ label.lineBreaks = 0)) ∧
        (dialect.IsLexical → ∀ {whole : Source} {wholeUsed : Nat} {wholeClauses : Clauses}
          {wholeText : String},
          whole.Shows wholeUsed depth (.subquery source clauses) name used →
          whole.text dialect wholeUsed wholeClauses = .ok wholeText →
          ∃ all, Lexeme.visible? dialect.quote wholeText.toList = some all ∧
            nested <:+: all) := by
  obtain ⟨label, named⟩ := Dialect.exists_visible?_identifier free name
  have textWritten : (Relation.subquery source clauses).text dialect name used =
      .ok (subqueryText dialect name inner) := by
    rw [Relation.text, written]
    rfl
  refine ⟨_, label, textWritten, named, fun lexical => source.isLexed_text lexical written, ?_⟩
  intro items visible depth
  have parts := visible?_subqueryText free visible named
  have deep := Lexeme.visible?_iterate_indented free depth (subqueryText dialect name inner)
  rw [parts, Option.map_some] at deep
  refine ⟨_, deep, Lexeme.map_iterate_indented_eq_iff depth items label, ?_⟩
  intro lexical whole _ _ _ shows wholeWritten
  obtain ⟨_, shownItems, all, shownWritten, shownVisible, allVisible, stands⟩ :=
    shows.isInfix lexical wholeWritten
  rw [textWritten] at shownWritten
  cases shownWritten
  rw [parts] at shownVisible
  rw [← Option.some.inj shownVisible] at stands
  exact ⟨all, allVisible, stands⟩

/-- A comparison with a text. -/
def Clauses.comparedWith (text : String) : Clauses where
  scope := { columns := [{ name := "a", type := none }], extent := .single false }
  qualifiers := ["t"]
  conditions := [.binary (.comparison .equal) (.named "a") (.literal { value := .text text })]

theorem Relation.visible?_nested_twice :
    ∃ all, Lexeme.visible? '"'
        ("SELECT *\nFROM (\n  SELECT *\n  FROM (\n    SELECT *\n    FROM \"t\"\n    " ++
          "WHERE \"a\" = 'it''s'\n  ) AS \"q02\"\n  WHERE \"a\" = ''\n) AS \"q01\"\n" ++
          "WHERE \"a\" = 'x'").toList = some all ∧
      [.symbol ['('], .word "SELECT".toList, .symbol ['*'], .word "FROM".toList,
        .name "\"t\"".toList, .word "WHERE".toList, .name "\"a\"".toList, .symbol ['='],
        .text "'it''s'".toList, .symbol [')'], .word "AS".toList, .name "\"q02\"".toList] <:+:
        all := by
  have known : Dialect.ansi ∈ Registry.builtin.dialects := by simp [Registry.builtin]
  have lexical := Dialect.isLexical_of_known known
  have written : (Source.relation (.table { name := "t" } none)).text .ansi 2
      (.comparedWith "it's") = .ok "SELECT *\nFROM \"t\"\nWHERE \"a\" = 'it''s'" :=
    eq_ok_of_toOption (by decide +kernel)
  have visible : Lexeme.visible? Dialect.ansi.quote
      "SELECT *\nFROM \"t\"\nWHERE \"a\" = 'it''s'".toList =
        some [.word "SELECT".toList, .symbol ['*'], .word "FROM".toList, .name "\"t\"".toList,
          .word "WHERE".toList, .name "\"a\"".toList, .symbol ['='],
          .text "'it''s'".toList] := by
    decide +kernel
  obtain ⟨text, label, _, named, _, nested⟩ :=
    Relation.visible?_nested lexical.free written (subqueryName 2)
  have isName : Lexeme.visible? Dialect.ansi.quote
      (Dialect.ansi.identifier (subqueryName 2)).toList = some [.name "\"q02\"".toList] := by
    decide +kernel
  rw [isName] at named
  cases named
  obtain ⟨_, _, same, stands⟩ := nested visible 1
  rw [same.mpr ⟨by simp [Lexeme.lineBreaks], .inr rfl⟩] at stands
  have whole : (Source.relation (.subquery (.relation (.subquery
      (.relation (.table { name := "t" } none)) (.comparedWith "it's"))) (.comparedWith ""))).text
      .ansi 0 (.comparedWith "x") =
        .ok ("SELECT *\nFROM (\n  SELECT *\n  FROM (\n    SELECT *\n    FROM \"t\"\n    " ++
          "WHERE \"a\" = 'it''s'\n  ) AS \"q02\"\n  WHERE \"a\" = ''\n) AS \"q01\"\n" ++
          "WHERE \"a\" = 'x'") := eq_ok_of_toOption (by decide +kernel)
  exact stands lexical (.nested (.relation _ _ 0) (.relation _ _ 1)) whole

/-- A text of two lines, below a limit. -/
def Plan.brokenText : Plan :=
  .filtered
    (.limited
      (.filtered (.base { name := "t", columns := some [⟨"a", none⟩] })
        (.binary (.comparison .equal) (.named "a") (.literal { value := .text "x\ny" })))
      1)
    (.unary .isNotNull (.named "a"))

/-- The second line of the text is moved to the right with the subquery. -/
theorem Plan.brokenText_moved :
    ∃ statement source clauses inner text,
      brokenText.statement .ansi = .ok statement ∧
      statement.source = .relation (.subquery source clauses) ∧
      source.text .ansi 1 clauses = .ok inner ∧
      (Relation.subquery source clauses).text .ansi "q01" 1 = .ok text ∧
      (Lexeme.visible? '"' inner.toList).map (List.filter fun item => item.lineBreaks != 0) =
        some [.text "'x\ny'".toList] ∧
      (Lexeme.visible? '"' text.toList).map (List.filter fun item => item.lineBreaks != 0) =
        some [.text "'x\n  y'".toList] := by
  refine ⟨_, _, _, "SELECT *\nFROM \"t\"\nWHERE \"a\" = 'x\ny'\nLIMIT 1",
    "(\n  SELECT *\n  FROM \"t\"\n  WHERE \"a\" = 'x\n  y'\n  LIMIT 1\n) AS \"q01\"",
    rfl, rfl, ?_, ?_, ?_, ?_⟩
  · exact eq_ok_of_toOption (by decide +kernel)
  · exact eq_ok_of_toOption (by decide +kernel)
  · decide +kernel
  · decide +kernel

end SqlPlan
