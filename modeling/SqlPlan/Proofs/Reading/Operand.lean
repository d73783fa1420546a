import SqlPlan.Expr.Sql
import SqlPlan.Proofs.Reading.Known

/-!
# Operands as text

`Operand` says that a text is one operand with a tree, up to the grouping of
chains.  One rule for each form in which operands are put together into larger
ones: what it asks for is that the edges of the parts bind more tightly than the
operator between them.
-/

namespace SqlPlan

def BinaryOp.symbol : BinaryOp → String
  | .arithmetic op => op.symbol
  | .comparison op => op.symbol
  | .logical op => op.symbol

/-- Text that is read as one operand. -/
def Operand (grammar : Grammar) (quote : Char) (text : String) (tree : Tree) (edges : Edges) :
    Prop :=
  ∃ tokens read, Scans grammar quote text.toList tokens ∧ Spans grammar tokens read edges ∧
    read.Similar tree

namespace Operand

variable {grammar : Grammar} {quote : Char} {text left right : String}
  {tree leftTree rightTree : Tree} {edges leftEdges rightEdges : Edges}

theorem weaken (operand : Operand grammar quote text tree edges) (weaker : Edges)
    (front : weaker.front ≤ edges.front) (back : weaker.back ≤ edges.back) :
    Operand grammar quote text tree weaker := by
  obtain ⟨tokens, read, scans, spans, similar⟩ := operand
  exact ⟨tokens, read, scans, spans.weaken front back, similar⟩

theorem similar (operand : Operand grammar quote text tree edges) {other : Tree}
    (same : tree.Similar other) : Operand grammar quote text other edges := by
  obtain ⟨tokens, read, scans, spans, similar⟩ := operand
  exact ⟨tokens, read, scans, spans, similar.trans same⟩

theorem leaf (scans : Scans grammar quote text.toList [.leaf text]) (edges : Edges) :
    Operand grammar quote text (.leaf text) edges :=
  ⟨_, _, scans, .leaf grammar text edges, .refl _⟩

/-- A text that is one operand is read as its tree. -/
theorem read?_eq (operand : Operand grammar quote text tree edges) (front : 0 < edges.front)
    (back : 0 < edges.back) :
    ∃ read, Tree.read? grammar quote text = some read ∧ read.Similar tree := by
  obtain ⟨tokens, read, scans, spans, similar⟩ := operand
  refine ⟨read, ?_, similar⟩
  simp [Tree.read?, scans.tokens?_eq, spans.tree?_eq front back]

theorem values?_eq {tokens : List Token} (spans : Spans grammar tokens tree edges)
    (front : 0 < edges.front) (back : 0 < edges.back) (chars : List Char) :
    (Content.ofTokens grammar chars tokens).values? = some [tree] := by
  have read := spans.tree?_eq front back
  simp [Content.ofTokens, Token.values?, Token.split_of_not_mem (Token.not_mem_of_tree? read), read]

theorem parenthesized (isQuote : IsNameQuote quote)
    (operand : Operand grammar quote text tree edges) (front : 0 < edges.front)
    (back : 0 < edges.back) (outer : Edges) :
    Operand grammar quote (Expr.parenthesized text) tree outer := by
  obtain ⟨tokens, read, scans, spans, similar⟩ := operand
  refine ⟨_, read, ?_, .group (values?_eq spans front back text.toList) outer, similar⟩
  simpa [Expr.parenthesized] using scans.group isQuote

theorem scans_symbol (isQuote : IsNameQuote quote) (grammar : Grammar) (op : BinaryOp) :
    Scans grammar quote op.symbol.toList [.operator op] := by
  apply Scans.of_tokens?
  rcases isQuote with rfl | rfl <;> rcases op with (_ | _) | (_ | _) | (_ | _) <;> rfl

theorem infixed (isQuote : IsNameQuote quote) (op : BinaryOp)
    (leftOperand : Operand grammar quote left leftTree leftEdges)
    (rightOperand : Operand grammar quote right rightTree rightEdges)
    (back : grammar.limit op ≤ leftEdges.back) (front : grammar.strength op < rightEdges.front) :
    Operand grammar quote (left ++ " " ++ op.symbol ++ " " ++ right)
      (.binary op leftTree rightTree)
      ⟨min (grammar.strength op) leftEdges.front, min (grammar.strength op) rightEdges.back⟩ := by
  obtain ⟨leftTokens, leftRead, leftScans, leftSpans, leftSimilar⟩ := leftOperand
  obtain ⟨rightTokens, rightRead, rightScans, rightSpans, rightSimilar⟩ := rightOperand
  refine ⟨_, _, ?_, leftSpans.binary rightSpans back front, .binary leftSimilar rightSimilar⟩
  simpa using leftScans.spaced isQuote ((scans_symbol isQuote grammar op).spaced isQuote rightScans)

theorem nullTest (isQuote : IsNameQuote quote) (operand : Operand grammar quote text tree edges)
    (back : Grammar.testStrength ≤ edges.back) (isNull : Bool) (outer : Nat) :
    Operand grammar quote (Expr.nullTest isNull text) (.nullTest tree (!isNull))
      ⟨min Grammar.testStrength edges.front, outer⟩ := by
  obtain ⟨tokens, read, scans, spans, similar⟩ := operand
  refine ⟨_, _, ?_, spans.nullTest back (!isNull) outer, .nullTest similar⟩
  have test : Scans grammar quote (if isNull then "IS NULL" else "IS NOT NULL").toList
      (.is :: ((if !isNull then [.not] else []) ++ [.leaf "NULL"])) := by
    apply Scans.of_tokens?
    rcases isQuote with rfl | rfl <;> cases isNull <;> rfl
  have all := scans.spaced isQuote test
  cases isNull <;> simpa [Expr.nullTest] using all

theorem scans_keyword (isQuote : IsNameQuote quote) (word : String) {token : Token}
    (isWord : Lexeme.isWord word.toList = true)
    (keyword : Token.start (.lexeme (.word word.toList)) = .whole [token])
    {tokens : List Token} (scans : Scans grammar quote text.toList tokens) :
    Scans grammar quote (word ++ "(" ++ text ++ ")").toList
      [token, .group (Content.ofTokens grammar text.toList tokens)] := by
  simpa using scans.keyword_group isQuote (.word grammar quote isWord) keyword

theorem negate_group (isQuote : IsNameQuote quote)
    (operand : Operand grammar quote text tree edges) (front : 0 < edges.front)
    (back : 0 < edges.back) (outer : Nat) :
    Operand grammar quote ("-(" ++ text ++ ")") (.negate tree)
      ⟨outer, Grammar.negateStrength⟩ := by
  obtain ⟨tokens, read, scans, spans, similar⟩ := operand
  have group : Spans grammar [.group (Content.ofTokens grammar text.toList tokens)] read .closed :=
    .group (values?_eq spans front back text.toList) .closed
  refine ⟨_, _, ?_, group.negate (by decide) outer, .negate similar⟩
  simpa using (scans.group isQuote).minus isQuote (by decide)

/-- A minus sign right before an operand that does not begin with one. -/
theorem negate_unsigned (isQuote : IsNameQuote quote)
    (operand : Operand grammar quote text tree edges)
    (front : Grammar.negateStrength < edges.front)
    (unsigned : ∃ char rest, text.toList = char :: rest ∧ char ≠ '-') (outer : Nat) :
    Operand grammar quote ("-" ++ text) (.negate tree)
      ⟨outer, min Grammar.negateStrength edges.back⟩ := by
  obtain ⟨tokens, read, scans, spans, similar⟩ := operand
  obtain ⟨char, rest, chars, different⟩ := unsigned
  rw [chars] at scans
  refine ⟨_, _, ?_, spans.negate front outer, .negate similar⟩
  simpa [chars] using scans.minus isQuote different

theorem scans_cast (isQuote : IsNameQuote quote) {tokens : List Token}
    (scans : Scans grammar quote text.toList tokens) {type : String} {words : List String}
    (typeScans : Scans grammar quote type.toList (words.map .leaf)) :
    Scans grammar quote ("CAST(" ++ text ++ " AS " ++ type ++ ")").toList
      [.cast, .group (Content.ofTokens grammar (text ++ " AS " ++ type).toList
        (tokens ++ .as :: words.map .leaf))] := by
  have as : Scans grammar quote "AS".toList [.as] := .of_tokens? rfl
  have inner : Scans grammar quote (text ++ " AS " ++ type).toList
      (tokens ++ .as :: words.map .leaf) := by
    simpa using scans.spaced isQuote (as.spaced isQuote typeScans)
  simpa using scans_keyword isQuote "CAST" (by decide) rfl inner

theorem cast {dialect : Dialect} (regular : dialect.Regular)
    (operand : Operand grammar dialect.quote text tree edges) (front : 0 < edges.front)
    (back : 0 < edges.back) (type : DataType) (outer : Edges) :
    Operand grammar dialect.quote (Expr.castText dialect text type)
      (.cast tree (dialect.typeNames.get type)) outer := by
  obtain ⟨tokens, read, scans, spans, similar⟩ := operand
  obtain ⟨words, typeScans, name⟩ := regular.scans_type grammar type
  refine ⟨_, _, scans_cast regular.isQuote scans typeScans, .cast ?_ outer, .cast similar⟩
  rw [← name]
  exact spans.typed?_eq front back words

/-- Operands of a chain of AND or of OR. -/
theorem chain (isQuote : IsNameQuote quote) (op : LogicalOp) {texts : List String}
    {trees : List Tree}
    (first : Operand grammar quote text tree
      ⟨grammar.strength (.logical op), grammar.strength (.logical op)⟩)
    (rest : List.Forall₂ (fun text tree => Operand grammar quote text tree
      ⟨Grammar.testStrength, Grammar.notStrength⟩) texts trees) :
    Operand grammar quote ((" " ++ op.symbol ++ " ").intercalate (text :: texts))
      (Tree.chain op tree trees)
      ⟨grammar.strength (.logical op), grammar.strength (.logical op)⟩ := by
  induction rest generalizing text tree with
  | nil => simpa [Tree.chain] using first
  | @cons next nextTree texts trees head _ induction =>
      have weak := grammar.strength_logical_lt op
      have less : Grammar.notStrength < Grammar.testStrength := by decide
      have joined := (first.infixed isQuote (.logical op) head (Nat.le_refl _)
        (by simp only; omega)).weaken
          ⟨grammar.strength (.logical op), grammar.strength (.logical op)⟩
          (by simp) (by simp only; omega)
      have same : (" " ++ op.symbol ++ " ").intercalate
          ((text ++ " " ++ (BinaryOp.logical op).symbol ++ " " ++ next) :: texts) =
            (" " ++ op.symbol ++ " ").intercalate (text :: next :: texts) := by
        rw [String.intercalate_cons_append, String.intercalate_cons_cons]
        simp [BinaryOp.symbol, String.append_assoc]
      rw [← same]
      exact induction joined

/-- Values that stand between commas. -/
theorem scans_values (isQuote : IsNameQuote quote) {texts : List String}
    {parts : List (List Token)}
    (scans : List.Forall₂ (fun text tokens => Scans grammar quote text.toList tokens) texts parts) :
    Scans grammar quote (", ".intercalate texts).toList (Token.separated parts) := by
  induction scans with
  | nil => exact .nil grammar quote
  | @cons text tokens texts parts head rest induction =>
      cases rest with
      | nil => simpa [Token.separated] using head
      | cons next rest =>
          rw [String.intercalate_cons_cons, Token.separated]
          have later := (Scans.nil grammar quote).spaced isQuote induction
          simpa using head.comma isQuote later

/-- What is read from a list in brackets. -/
theorem scans_list (isQuote : IsNameQuote quote) {texts : List String} {values : List Tree}
    (nonempty : texts ≠ [])
    (read : List.Forall₂ (fun text value => ∃ tokens, Scans grammar quote text.toList tokens ∧
      Token.tree? grammar tokens = some value) texts values) :
    ∃ content, Scans grammar quote (Expr.parenthesized (", ".intercalate texts)).toList
      [.group content] ∧ content.values? = some values := by
  have exists_parts : ∃ parts,
      List.Forall₂ (fun text tokens => Scans grammar quote text.toList tokens) texts parts ∧
        List.Forall₂ (fun tokens value => Token.tree? grammar tokens = some value) parts
          values := by
    clear nonempty
    induction read with
    | nil => exact ⟨[], .nil, .nil⟩
    | cons head _ induction =>
        obtain ⟨tokens, scans, reads⟩ := head
        obtain ⟨parts, partScans, partReads⟩ := induction
        exact ⟨tokens :: parts, .cons scans partScans, .cons reads partReads⟩
  obtain ⟨parts, scans, reads⟩ := exists_parts
  have someParts : parts ≠ [] := by
    rintro rfl
    cases scans
    exact nonempty rfl
  have listed : (Content.ofTokens grammar (", ".intercalate texts).toList
      (Token.separated parts)).values? = some values := Token.values?_separated someParts reads
  refine ⟨_, ?_, listed⟩
  simpa [Expr.parenthesized] using (scans_values isQuote scans).group isQuote

theorem member (isQuote : IsNameQuote quote) (operand : Operand grammar quote text tree edges)
    (back : Grammar.listStrength ≤ edges.back) {texts : List String} {values : List Tree}
    (nonempty : texts ≠ [])
    (read : List.Forall₂ (fun text value => ∃ tokens, Scans grammar quote text.toList tokens ∧
      Token.tree? grammar tokens = some value) texts values)
    (negated : Bool) (outer : Nat) :
    Operand grammar quote
      (text ++ (if negated then " NOT IN (" else " IN (") ++ ", ".intercalate texts ++ ")")
      (.member tree values negated) ⟨min Grammar.listStrength edges.front, outer⟩ := by
  obtain ⟨tokens, argRead, scans, spans, similar⟩ := operand
  obtain ⟨content, listScans, listRead⟩ := scans_list isQuote nonempty read
  have among : Scans grammar quote (if negated then "NOT IN" else "IN").toList
      ((if negated then [.not] else []) ++ [.among]) := by
    apply Scans.of_tokens?
    rcases isQuote with rfl | rfl <;> cases negated <;> rfl
  refine ⟨_, _, ?_, spans.member back listRead negated outer, .member similar⟩
  have all := scans.spaced isQuote (among.spaced isQuote listScans)
  cases negated <;> simpa [Expr.parenthesized] using all

end Operand

/-- Text that negates an operand in brackets. -/
def Negation (grammar : Grammar) (quote : Char) (text : String) (tree : Tree) : Prop :=
  ∃ tokens read, Scans grammar quote text.toList (.not :: tokens) ∧
    Spans grammar tokens read .closed ∧ read.Similar tree

namespace Negation

variable {grammar : Grammar} {quote : Char} {text right : String} {tree rightTree : Tree}
  {edges rightEdges : Edges}

/-- NOT before a bracket. -/
theorem group (isQuote : IsNameQuote quote) (operand : Operand grammar quote text tree edges)
    (front : 0 < edges.front) (back : 0 < edges.back) :
    Negation grammar quote ("NOT(" ++ text ++ ")") tree := by
  obtain ⟨tokens, read, scans, spans, similar⟩ := operand
  refine ⟨[.group (Content.ofTokens grammar text.toList tokens)], read, ?_,
    .group (Operand.values?_eq spans front back text.toList) .closed, similar⟩
  simpa using Operand.scans_keyword isQuote "NOT" (by decide) rfl scans

/-- NOT before an operand that has brackets of its own. -/
theorem closed (isQuote : IsNameQuote quote)
    (operand : Operand grammar quote text tree .closed) :
    Negation grammar quote ("NOT " ++ text) tree := by
  obtain ⟨tokens, read, scans, spans, similar⟩ := operand
  have negation : Scans grammar quote "NOT".toList [.not] := .of_tokens? rfl
  refine ⟨tokens, read, ?_, spans, similar⟩
  simpa using negation.spaced isQuote scans

theorem operand (negation : Negation grammar quote text tree) (outer : Nat) :
    Operand grammar quote text (.not tree) ⟨outer, Grammar.notStrength⟩ := by
  obtain ⟨tokens, read, scans, spans, similar⟩ := negation
  exact ⟨_, _, scans, spans.not (by decide) outer, .not similar⟩

/-- An operator that binds more tightly than NOT takes the bracket away from it. -/
theorem infixed (isQuote : IsNameQuote quote) (op : BinaryOp)
    (negation : Negation grammar quote text tree)
    (rightOperand : Operand grammar quote right rightTree rightEdges)
    (front : grammar.strength op < rightEdges.front)
    (tight : Grammar.notStrength < grammar.strength op)
    (limit : grammar.limit op ≤ Edges.closed.back) (outer : Nat) :
    Operand grammar quote (text ++ " " ++ op.symbol ++ " " ++ right)
      (.not (.binary op tree rightTree))
      ⟨outer, min Grammar.notStrength (min (grammar.strength op) rightEdges.back)⟩ := by
  obtain ⟨tokens, read, scans, spans, similar⟩ := negation
  obtain ⟨rightTokens, rightRead, rightScans, rightSpans, rightSimilar⟩ := rightOperand
  have weak : Grammar.notStrength < min (grammar.strength op) Edges.closed.front :=
    Nat.lt_min.mpr ⟨tight, by decide⟩
  refine ⟨_, _, ?_, (spans.binary rightSpans limit front).not weak outer,
    .not (.binary similar rightSimilar)⟩
  simpa using scans.spaced isQuote
    ((Operand.scans_symbol isQuote grammar op).spaced isQuote rightScans)

end Negation

end SqlPlan
