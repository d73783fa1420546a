import SqlPlan.Proofs.Quoting.Stencil
import SqlPlan.Proofs.Reading.Leaf

/-!
# Expressions that are written in several runs

Operators, parentheses, calls and case distinctions around uniform text make
uniform text.  A fragment that is a group of AND or OR keeps its operands apart,
and these are uniform one by one.
-/

namespace SqlPlan

theorem Complete.lexed {grammar : Grammar} {quote : Char} {chars : List Char}
    (complete : Complete grammar quote chars) :
    ∃ lexemes, (Lexeme.scanner quote).scan chars = some lexemes := by
  obtain ⟨_, ⟨⟨lexemes, lexed, _⟩, _⟩, _⟩ := complete
  exact ⟨lexemes, lexed⟩

theorem Complete.isSome_scan {grammar : Grammar} {quote : Char} {chars : List Char}
    (complete : Complete grammar quote chars) :
    ((Lexeme.scanner quote).scan chars).isSome = true := by
  obtain ⟨_, lexed⟩ := complete.lexed
  rw [lexed]
  rfl

/-! ## Texts around text -/

namespace Written.IsUniform

variable {ι : Type} {quote : Char} {arg left right : Written ι}

theorem ofComplete {grammar : Grammar} {text : String}
    (complete : Complete grammar quote text.toList) :
    IsUniform quote { text := fun _ : ι => text, contents := fun _ => [] } := by
  obtain ⟨lexemes, lexed⟩ := complete.lexed
  exact .fixed lexed

variable (isQuote : IsNameQuote quote)

include isQuote

theorem parenthesized (uniform : arg.IsUniform quote) :
    IsUniform quote { arg with text := fun run => Expr.parenthesized (arg.text run) } := by
  have nothing : Uniform quote (fun _ : ι => []) fun _ => [] := .fixed rfl
  exact (nothing.group isQuote uniform).congr (fun _ => rfl) fun run => by
    simp [Expr.parenthesized]

theorem nullTest (isNull : Bool) (uniform : arg.IsUniform quote) :
    IsUniform quote { arg with text := fun run => Expr.nullTest isNull (arg.text run) } := by
  cases isNull with
  | true =>
      exact (uniform.spaced isQuote (.constant isQuote "IS NULL" (by decide))).congr
        (fun run => List.append_nil _) fun run => by simp [Expr.nullTest]
  | false =>
      exact (uniform.spaced isQuote (.constant isQuote "IS NOT NULL" (by decide))).congr
        (fun run => List.append_nil _) fun run => by simp [Expr.nullTest]

theorem infixed (op : BinaryOp) (leftUniform : left.IsUniform quote)
    (rightUniform : right.IsUniform quote) :
    IsUniform quote
      { text := fun run => left.text run ++ " " ++ op.symbol ++ " " ++ right.text run
        contents := fun run => left.contents run ++ right.contents run } := by
  have symbol : Uniform quote (fun _ : ι => []) fun _ => op.symbol.toList := by
    rcases op with (_ | _) | (_ | _) | (_ | _) <;> exact .constant isQuote _ (by decide)
  exact (leftUniform.spaced isQuote (symbol.spaced isQuote rightUniform)).congr (fun _ => rfl)
    fun run => by simp

/-- A word and a bracket. -/
theorem called (word : String)
    (lexed : ((Lexeme.scanner '"').scan word.toList).isSome = true ∧
      ((Lexeme.scanner '\x60').scan word.toList).isSome = true) (uniform : arg.IsUniform quote) :
    IsUniform quote { arg with text := fun run => word ++ Expr.parenthesized (arg.text run) } :=
  (Uniform.group isQuote (.constant isQuote word lexed) uniform).congr (fun _ => rfl)
    fun run => by simp [Expr.parenthesized]

/-- A word before text. -/
theorem worded (word : String)
    (lexed : ((Lexeme.scanner '"').scan word.toList).isSome = true ∧
      ((Lexeme.scanner '\x60').scan word.toList).isSome = true) (uniform : arg.IsUniform quote) :
    IsUniform quote { arg with text := fun run => word ++ " " ++ arg.text run } :=
  (Uniform.spaced isQuote (.constant isQuote word lexed) uniform).congr (fun _ => rfl)
    fun run => by simp

theorem cast {grammar : Grammar} {type : String} (complete : Complete grammar quote type.toList)
    (uniform : arg.IsUniform quote) :
    IsUniform quote
      { arg with text := fun run => "CAST(" ++ arg.text run ++ " AS " ++ type ++ ")" } := by
  have typed := Uniform.spaced isQuote (.constant isQuote "AS" (by decide))
    (ofComplete complete : IsUniform quote { text := fun _ : ι => type, contents := fun _ => [] })
  have inner : Uniform quote arg.contents fun run =>
      (arg.text run).toList ++ ' ' :: ("AS".toList ++ ' ' :: type.toList) :=
    (uniform.spaced isQuote typed).congr (fun run => by simp) fun _ => rfl
  exact (Uniform.group isQuote (.constant isQuote "CAST" (by decide)) inner).congr (fun _ => rfl)
    fun run => by simp

end Written.IsUniform

namespace Expr

/-- A fragment in every run. -/
structure Fragment.Runs (ι : Type) extends Written ι where
  group : Option (LogicalOp × List (Written ι)) := none

namespace Fragment.Runs

variable {ι : Type} {quote : Char}

def fragment (runs : Runs ι) (run : ι) : Fragment where
  text := runs.text run
  group := runs.group.map fun entry => (entry.1, entry.2.map fun part => part.text run)

/-- The operands that the fragments bring into a group of `op`. -/
def operands (op : LogicalOp) (runs : Runs ι) : List (Written ι) :=
  match runs.group with
  | some (inner, parts) => if inner = op then parts else [runs.toWritten]
  | none => [runs.toWritten]

/-- The operands of AND or OR in parentheses. -/
def grouped (op : LogicalOp) (parts : List (Written ι)) : Runs ι where
  text run := parenthesized
    ((" " ++ op.symbol ++ " ").intercalate (parts.map fun part => part.text run))
  contents run := parts.flatMap fun part => part.contents run
  group := some (op, parts)

/-- The text and the operands of a group are uniform, and the operands have the
contents of the text. -/
structure IsUniform (quote : Char) (runs : Runs ι) : Prop where
  text : runs.toWritten.IsUniform quote
  parts : ∀ op parts, runs.group = some (op, parts) → ∀ part ∈ parts, part.IsUniform quote
  contents : ∀ op parts, runs.group = some (op, parts) →
    ∀ run, runs.contents run = parts.flatMap fun part => part.contents run

theorem isUniform_ungrouped {written : Written ι} (uniform : written.IsUniform quote) :
    IsUniform quote { toWritten := written } :=
  ⟨uniform, fun _ _ none => (nomatch none), fun _ _ none => (nomatch none)⟩

theorem uniform_joined (isQuote : IsNameQuote quote) (op : LogicalOp)
    {parts : List (Written ι)} (uniform : ∀ part ∈ parts, part.IsUniform quote) :
    Written.IsUniform quote
      { text := fun run => (" " ++ op.symbol ++ " ").intercalate
          (parts.map fun part => part.text run)
        contents := fun run => parts.flatMap fun part => part.contents run } := by
  have symbol : Uniform quote (fun _ : ι => []) fun _ => op.symbol.toList := by
    cases op <;> exact .constant isQuote _ (by decide)
  refine Uniform.intercalate (fun firstUniform secondUniform => ?_) uniform
  exact (firstUniform.spaced isQuote (symbol.spaced isQuote secondUniform)).congr (fun _ => rfl)
    fun run => by simp

theorem isUniform_grouped (isQuote : IsNameQuote quote) (op : LogicalOp)
    {parts : List (Written ι)} (uniform : ∀ part ∈ parts, part.IsUniform quote) :
    IsUniform quote (grouped op parts) := by
  have text := (uniform_joined isQuote op uniform).parenthesized isQuote
  have isGroup (other : LogicalOp) (others : List (Written ι))
      (equal : (grouped op parts).group = some (other, others)) : parts = others :=
    congrArg Prod.snd (Option.some.inj equal)
  refine ⟨text, fun other others equal => ?_, fun other others equal => ?_⟩
  · rw [← isGroup other others equal]
    exact uniform
  · rw [← isGroup other others equal]
    exact fun _ => rfl

variable {runs : Runs ι}

theorem operands_fragment (runs : Runs ι) (op : LogicalOp) (run : ι) :
    (runs.fragment run).operands op = (runs.operands op).map fun part => part.text run := by
  obtain ⟨written, group⟩ := runs
  cases group with
  | none => rfl
  | some entry =>
      obtain ⟨inner, parts⟩ := entry
      simp only [fragment, operands, Fragment.operands, Option.map_some]
      split <;> rfl

theorem IsUniform.operands (uniform : runs.IsUniform quote) (op : LogicalOp) :
    ∀ part ∈ runs.operands op, part.IsUniform quote := by
  unfold Runs.operands
  split
  · rename_i inner parts group
    split
    · exact uniform.parts inner parts group
    · exact List.forall_mem_singleton.mpr uniform.text
  · exact List.forall_mem_singleton.mpr uniform.text

theorem IsUniform.contents_operands (uniform : runs.IsUniform quote) (op : LogicalOp) (run : ι) :
    ((runs.operands op).flatMap fun part => part.contents run) = runs.contents run := by
  unfold Runs.operands
  split
  · rename_i inner parts group
    split
    · exact (uniform.contents inner parts group run).symm
    · exact List.flatMap_singleton _ _
  · exact List.flatMap_singleton _ _

end Fragment.Runs
variable {setting : Setting}

theorem memberValues_cons_of_null (dialect : Dialect) {value : Literal} (values : List Literal)
    (isNull : value.isNull = true) :
    memberValues dialect (value :: values) = memberValues dialect values := by
  rw [memberValues, List.filter_cons_of_neg (by simp [isNull])]
  rfl

theorem memberValues_cons_eq_ok {dialect : Dialect} {value : Literal} {values : List Literal}
    {texts : List String} (present : value.isNull = false) :
    memberValues dialect (value :: values) = .ok texts ↔
      ∃ text, literalText dialect value = .ok text ∧ ∃ rest,
        memberValues dialect values = .ok rest ∧ text :: rest = texts := by
  rw [memberValues, List.filter_cons_of_pos (by simp [present]), List.mapM_cons, bind_eq_ok]
  simp only [bind_eq_ok, pure_eq_ok]
  rfl

section Parts

variable {ι : Type} (readable : setting.dialect.Readable)

include readable

/-- Constants of one outline are one constant, or texts. -/
theorem exists_written_literal {constant : Literal} {text : String}
    (written : literalText setting.dialect constant = .ok text) (constants : ι → Literal)
    (same : ∀ run, (constants run).outline = constant.outline) :
    ∃ part : Written ι, part.IsUniform setting.dialect.quote ∧
      ∀ run, literalText setting.dialect (constants run) = .ok (part.text run) ∧
        part.contents run = (constants run).text?.toList := by
  by_cases isText : ∃ content, constant.value = .text content
  · obtain ⟨content, isText⟩ := isText
    choose contents areTexts using fun run => Literal.exists_text_of_outline (same run) isText
    refine ⟨{ text := fun run => Text.quoted '\'' (contents run)
              contents := fun run => [contents run] },
      .literal readable.isQuote contents, fun run => ⟨?_, ?_⟩⟩
    · rw [literalText, areTexts run]
    · rw [Literal.text?, areTexts run]
      rfl
  · have noText (content : String) : constant.value ≠ .text content :=
      fun equal => isText ⟨content, equal⟩
    refine ⟨{ text := fun _ => text, contents := fun _ => [] },
      .ofComplete (readable.atomic_literal written ⟨true⟩).complete, fun run => ?_⟩
    rw [Literal.eq_of_outline (same run) noText]
    refine ⟨written, ?_⟩
    unfold Literal.text?
    split
    · rename_i content equal
      exact absurd equal (noText content)
    · rfl

/-- The values of a membership test that are not null. -/
theorem exists_written_values {values : List Literal} {texts : List String}
    (written : memberValues setting.dialect values = .ok texts) (lists : ι → List Literal)
    (same : ∀ run, (lists run).map Literal.outline = values.map Literal.outline) :
    ∃ parts : List (Written ι), parts.isEmpty = values.all Literal.isNull ∧
      (∀ part ∈ parts, part.IsUniform setting.dialect.quote) ∧
      ∀ run, memberValues setting.dialect (lists run) = .ok (parts.map fun part => part.text run) ∧
        (parts.flatMap fun part => part.contents run) =
          (lists run).flatMap fun value => value.text?.toList := by
  induction values generalizing texts lists with
  | nil =>
      refine ⟨[], rfl, by simp, fun run => ?_⟩
      rw [List.map_eq_nil_iff.mp (same run)]
      exact ⟨rfl, rfl⟩
  | cons value values induction =>
      choose heads tails areCons sameHead sameTail using
        fun run => List.map_eq_cons_iff.mp (same run)
      have nulls (run : ι) : (heads run).isNull = value.isNull := by
        rw [← isNull_outline, sameHead run, isNull_outline]
      cases isNull : value.isNull with
      | true =>
          rw [memberValues_cons_of_null _ _ isNull] at written
          obtain ⟨parts, empty, uniform, areWritten⟩ := induction written tails sameTail
          refine ⟨parts, by simp [empty, isNull], uniform, fun run => ?_⟩
          have headNull : (heads run).isNull = true := (nulls run).trans isNull
          have noText : (heads run).text? = none := by
            rw [Literal.text?, eq_of_beq headNull]
          rw [areCons run, memberValues_cons_of_null _ _ headNull, List.flatMap_cons, noText]
          exact areWritten run
      | false =>
          obtain ⟨text, textWritten, rest, restWritten, rfl⟩ :=
            (memberValues_cons_eq_ok isNull).mp written
          obtain ⟨part, partUniform, partWritten⟩ :=
            exists_written_literal readable textWritten heads sameHead
          obtain ⟨parts, _, uniform, areWritten⟩ := induction restWritten tails sameTail
          refine ⟨part :: parts, by simp [isNull],
            List.forall_mem_cons.mpr ⟨partUniform, uniform⟩, fun run => ?_⟩
          rw [areCons run, List.flatMap_cons, List.flatMap_cons, (partWritten run).2,
            (areWritten run).2]
          exact ⟨(memberValues_cons_eq_ok ((nulls run).trans isNull)).mpr
            ⟨_, (partWritten run).1, _, (areWritten run).1, rfl⟩, rfl⟩

theorem exists_written_template {name : String} {entry : FunctionEntry}
    {args : List String} {text : String}
    (found : setting.dialect.function? name = some entry) {parts : List (Written ι)}
    (uniform : ∀ part ∈ parts, part.IsUniform setting.dialect.quote)
    (length : args.length = parts.length)
    (filled : fillTemplate setting.dialect name entry.template args = .ok text) :
    ∃ texts : ι → String,
      (∀ run, fillTemplate setting.dialect name entry.template
        (parts.map fun part => part.text run) = .ok (texts run)) ∧
      Written.IsUniform setting.dialect.quote
        { text := texts
          contents := fun run =>
            setting.dialect.spread name (parts.map fun part => part.contents run) } := by
  have spreads (contents : List (List String)) : setting.dialect.spread name contents =
      Template.spread contents (Template.pieces entry.template) := by
    rw [Dialect.spread, found]
    rfl
  unfold fillTemplate at filled
  split at filled
  · rename_i whole fills
    obtain ⟨texts, textsFilled, textsUniform⟩ := Template.uniform_fill readable.isQuote uniform
      length (readable.templates found) fills
    refine ⟨texts, fun run => ?_, textsUniform.congr (fun run => (spreads _).symm) fun _ => rfl⟩
    rw [fillTemplate, textsFilled run]
  · cases filled

theorem exists_written_aggregate {name : String} {distinct : Bool} {arg : Written ι}
    {argText text : String} (uniform : arg.IsUniform setting.dialect.quote)
    (written : aggregateText setting.dialect name (some argText) distinct = .ok text) :
    ∃ part : Written ι, part.IsUniform setting.dialect.quote ∧
      ∀ run, aggregateText setting.dialect name (some (arg.text run)) distinct =
        .ok (part.text run) ∧
        part.contents run =
          (NativeAggregate.ofName? name).elim (setting.dialect.spread name [arg.contents run])
            fun _ => arg.contents run := by
  have isQuote := readable.isQuote
  cases named : NativeAggregate.ofName? name with
  | some native =>
      have opened : Written.IsUniform setting.dialect.quote
          { arg with
            text := fun run => native.symbol ++ (if distinct then "(DISTINCT " else "(") ++
              arg.text run ++ ")" } := by
        have symbol : ((Lexeme.scanner '"').scan native.symbol.toList).isSome = true ∧
            ((Lexeme.scanner '\x60').scan native.symbol.toList).isSome = true :=
          ⟨(complete_symbol (.inl rfl) ⟨true⟩ named).isSome_scan,
            (complete_symbol (.inr rfl) ⟨true⟩ named).isSome_scan⟩
        cases distinct with
        | true =>
            exact ((uniform.worded isQuote "DISTINCT" (by decide)).called isQuote _ symbol).congr
              (fun _ => rfl) fun run => by simp [parenthesized]
        | false =>
            exact (uniform.called isQuote _ symbol).congr (fun _ => rfl)
              fun run => by simp [parenthesized]
      refine ⟨_, opened, fun run => ⟨?_, rfl⟩⟩
      simp only [aggregateText, named]
  | none =>
      simp only [aggregateText, named] at written
      obtain ⟨entry, found, written⟩ := bind_eq_ok.mp written
      by_cases aggregate : (!entry.isAggregate) = true
      · rw [if_pos aggregate] at written
        cases written
      rw [if_neg aggregate] at written
      by_cases unique : distinct = true
      · rw [if_pos unique] at written
        cases written
      rw [if_neg unique] at written
      obtain ⟨texts, areFilled, filledUniform⟩ := exists_written_template readable
        (function?_of_lookupFunction found) (List.forall_mem_singleton.mpr uniform) rfl written
      refine ⟨_, filledUniform, fun run => ⟨?_, rfl⟩⟩
      simp only [aggregateText, named, found]
      change (if _ then _ else if _ then _ else _) = _
      rw [if_neg aggregate, if_neg unique]
      exact areFilled run

theorem uniform_memberText {arg : Written ι} {values : List (Written ι)}
    (argUniform : arg.IsUniform setting.dialect.quote)
    (uniform : ∀ value ∈ values, value.IsUniform setting.dialect.quote) (hasNull negated : Bool) :
    Written.IsUniform setting.dialect.quote
      { text := fun run => memberText setting.dialect (arg.text run)
          (values.map fun value => value.text run) hasNull negated
        contents := fun run =>
          (if values.isEmpty then []
            else arg.contents run ++ values.flatMap fun value => value.contents run) ++
            if hasNull then arg.contents run else [] } := by
  have isQuote := readable.isQuote
  have test := argUniform.nullTest isQuote (!negated)
  have among : Uniform setting.dialect.quote (fun _ : ι => []) fun _ =>
      (if negated then "NOT IN" else "IN").toList := by
    cases negated <;> exact .constant isQuote _ (by decide)
  have nothing : Uniform setting.dialect.quote (fun _ : ι => []) fun _ => [] := .fixed rfl
  have list : Written.IsUniform setting.dialect.quote
      { text := fun run => arg.text run ++ (if negated then " NOT IN (" else " IN (") ++
          ", ".intercalate (values.map fun value => value.text run) ++ ")"
        contents := fun run =>
          arg.contents run ++ values.flatMap fun value => value.contents run } := by
    refine (argUniform.spaced isQuote (among.spaced isQuote
      (nothing.group isQuote (.commas isQuote uniform)))).congr (fun _ => rfl) fun run => ?_
    cases negated <;> simp
  unfold memberText
  simp only [List.isEmpty_map]
  cases values.isEmpty with
  | true =>
      cases hasNull with
      | true => exact test
      | false => exact .ofComplete (readable.atomic_truth ⟨true⟩ negated).complete
  | false =>
      cases hasNull with
      | true =>
          refine (list.infixed isQuote (.logical (if negated then .and else .or)) test
            |>.parenthesized isQuote).congr (fun _ => rfl) fun run => ?_
          cases negated <;> simp [Expr.parenthesized, BinaryOp.symbol, LogicalOp.symbol]
      | false => exact list.congr (fun run => (List.append_nil _).symm) fun _ => rfl

end Parts

section Operands

variable {ι : Type} {quote : Char} (isQuote : IsNameQuote quote) {part : Written ι}
  (uniform : part.IsUniform quote)

include isQuote uniform

theorem uniform_testOperand (expr : Expr) :
    Written.IsUniform quote { part with text := fun run => testOperand expr (part.text run) } := by
  unfold testOperand
  split
  · exact uniform.parenthesized isQuote
  · exact uniform

theorem uniform_operandText (op : BinaryOp) (onRight : Bool) (expr : Expr) :
    Written.IsUniform quote
      { part with text := fun run => operandText op onRight expr (part.text run) } := by
  simp only [operandText_eq]
  split
  · exact uniform.parenthesized isQuote
  · exact uniform

/-- Only a column has a sign without a bracket. -/
theorem uniform_unaryText (op : UnaryOp) {arg : Expr}
    (bracketed : op = .negate → arg.column? = none) :
    Written.IsUniform quote { part with text := fun run => unaryText op arg (part.text run) } := by
  cases op with
  | not =>
      simp only [unaryText]
      split
      · exact uniform.worded isQuote "NOT" (by decide)
      · exact (uniform.called isQuote "NOT" (by decide)).congr (fun _ => rfl) fun run => by
          simp [parenthesized]
  | negate =>
      have signed (text : String) :
          ("-" ++ parenthesized text).toList = (unaryText .negate arg text).toList := by
        have noColumn := bracketed rfl
        cases arg with
        | column ref => cases noColumn
        | _ => simp [unaryText, parenthesized]
      exact (uniform.called isQuote "-" (by decide)).congr (fun _ => rfl)
        fun run => signed (part.text run)
  | isNull => exact (uniform_testOperand isQuote uniform arg).nullTest isQuote true
  | isNotNull => exact (uniform_testOperand isQuote uniform arg).nullTest isQuote false

end Operands

theorem uniform_caseText {ι : Type} {quote : Char} (isQuote : IsNameQuote quote)
    {parts : List (Written ι)} (uniform : ∀ part ∈ parts, part.IsUniform quote) :
    Written.IsUniform quote
      { text := fun run =>
          " ".intercalate ("CASE" :: (parts.map fun part => part.text run) ++ ["END"])
        contents := fun run => parts.flatMap fun part => part.contents run } := by
  have word (text : String) (lexed : ((Lexeme.scanner '"').scan text.toList).isSome = true ∧
      ((Lexeme.scanner '\x60').scan text.toList).isSome = true) :
      Written.IsUniform quote { text := fun _ : ι => text, contents := fun _ => [] } :=
    .constant isQuote text lexed
  have allUniform := List.forall_mem_cons.mpr ⟨word "CASE" (by decide),
    List.forall_mem_append.mpr ⟨uniform, List.forall_mem_singleton.mpr (word "END" (by decide))⟩⟩
  have separates {first second : ι → List String} {firstChars secondChars : ι → List Char}
      (firstUniform : Uniform quote first firstChars)
      (secondUniform : Uniform quote second secondChars) :
      Uniform quote (fun run => first run ++ second run)
        fun run => firstChars run ++ (" ".toList ++ secondChars run) :=
    firstUniform.spaced isQuote secondUniform
  exact (Uniform.intercalate separates allUniform).congr (fun run => by simp) fun run => by simp
end Expr

end SqlPlan
