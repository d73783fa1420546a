import SqlPlan.Proofs.Reading.Reader

/-!
# Operands among tokens

`Spans` says what tokens are to the reader wherever an operand may stand: it
reads them as one operand, provided that what waits before them and what comes
after them binds less tightly than the operators at their edges.  How operands
make up larger ones is then a matter of comparing these edges.
-/

namespace SqlPlan

/-- How tightly the operators at the two ends of an operand bind. -/
structure Edges where
  front : Nat
  back : Nat

def Edges.closed : Edges := ⟨Grammar.closedStrength, Grammar.closedStrength⟩

/-- The edges of a column, a constant or a call. -/
def Edges.leaf : Edges := ⟨Grammar.closedStrength, Grammar.negateStrength⟩

/-- Tokens that are one operand: read where what waits binds less tightly than
`front`, they leave behind what an operator that binds at most as tightly as
`back` sees as the tree. -/
def Spans (grammar : Grammar) (tokens : List Token) (tree : Tree) (edges : Edges) : Prop :=
  ∀ stack, Frame.top grammar stack < edges.front →
    ∃ waiting last, Reader.run grammar (.operand stack) tokens = some (.operator waiting last) ∧
      ∀ limit, 0 < limit → limit ≤ edges.back →
        Frame.reduce grammar limit waiting last = Frame.reduce grammar limit stack tree

namespace Reader

variable {grammar : Grammar}

theorem run_append {reader next : Reader} {first : List Token}
    (runs : run grammar reader first = some next) (second : List Token) :
    run grammar reader (first ++ second) = run grammar next second := by
  rw [run, List.foldlM_append, show first.foldlM (step grammar) reader = some next from runs]
  rfl

theorem run_cons {reader next : Reader} {token : Token}
    (steps : step grammar reader token = some next) (tokens : List Token) :
    run grammar reader (token :: tokens) = run grammar next tokens := by
  rw [run, List.foldlM_cons, steps]
  rfl

end Reader

namespace Spans

variable {grammar : Grammar} {tokens first second : List Token} {tree left right : Tree}
  {edges leftEdges rightEdges : Edges}

/-- An operand stands wherever a more demanding one may. -/
theorem weaken (spans : Spans grammar tokens tree edges) {weaker : Edges}
    (front : weaker.front ≤ edges.front) (back : weaker.back ≤ edges.back) :
    Spans grammar tokens tree weaker := by
  intro stack weak
  obtain ⟨waiting, last, runs, reduces⟩ := spans stack (by omega)
  refine ⟨waiting, last, runs, ?_⟩
  intro limit positive bound
  exact reduces limit positive (by omega)

theorem leaf (grammar : Grammar) (text : String) (edges : Edges) :
    Spans grammar [.leaf text] (.leaf text) edges :=
  fun stack _ => ⟨stack, .leaf text, rfl, fun _ _ _ => rfl⟩

theorem bracket (grammar : Grammar) (content : Content) (edges : Edges) :
    Spans grammar [.group content] content.tree edges :=
  fun stack _ => ⟨stack, content.tree, rfl, fun _ _ _ => rfl⟩

theorem group {content : Content} (read : content.values? = some [tree]) (edges : Edges) :
    Spans grammar [.group content] tree edges := by
  have encloses : content.tree = tree := by simp [Content.tree, read]
  rw [← encloses]
  exact .bracket grammar content edges

/-- A call that takes its rows in order. -/
theorem ordered (grammar : Grammar) (call : String) (content : Content) (edges : Edges) :
    Spans grammar [.leaf call, .leaf "WITHIN", .leaf "GROUP", .group content]
      (.leaf (call ++ " WITHIN GROUP " ++ String.ofList content.enclosed)) edges :=
  fun stack _ => ⟨stack, _, rfl, fun _ _ _ => rfl⟩

theorem cast {content : Content} {type : String} (read : content.typed? = some (tree, type))
    (edges : Edges) : Spans grammar [.cast, .group content] (.cast tree type) edges := by
  intro stack _
  refine ⟨stack, _, ?_, fun _ _ _ => rfl⟩
  simp [Reader.run, Reader.step, read]

/-- An operator before its operand takes it where it is bound more tightly. -/
theorem prefixed (spans : Spans grammar tokens tree edges) (frame : Frame) {token : Token}
    (opens : ∀ stack, Reader.step grammar (.operand stack) token = some (.operand (frame :: stack)))
    (front : frame.strength grammar < edges.front) (outer : Nat) :
    Spans grammar (token :: tokens) (frame.apply tree)
      ⟨outer, min (frame.strength grammar) edges.back⟩ := by
  intro stack _
  obtain ⟨waiting, last, runs, reduces⟩ := spans (frame :: stack) front
  refine ⟨waiting, last, ?_, ?_⟩
  · rw [Reader.run_cons (opens stack), runs]
  · intro limit positive bound
    rw [reduces limit positive (Nat.le_trans bound (Nat.min_le_right _ _)),
      Frame.reduce_cons (Nat.le_trans bound (Nat.min_le_left _ _))]

theorem negate (spans : Spans grammar tokens tree edges)
    (front : Grammar.negateStrength < edges.front) (outer : Nat) :
    Spans grammar (.operator (.arithmetic .sub) :: tokens) (.negate tree)
      ⟨outer, min Grammar.negateStrength edges.back⟩ :=
  spans.prefixed .negate (fun _ => rfl) front outer

theorem not (spans : Spans grammar tokens tree edges)
    (front : Grammar.notStrength < edges.front) (outer : Nat) :
    Spans grammar (.not :: tokens) (.not tree) ⟨outer, min Grammar.notStrength edges.back⟩ :=
  spans.prefixed .not (fun _ => rfl) front outer

/-- What an operand that comes before an operator leaves waiting: all that it
brought has been given its operand, and nothing of what waited before. -/
theorem run_before (spans : Spans grammar tokens tree edges) (stack : List Frame) {limit : Nat}
    (positive : 0 < limit) (back : limit ≤ edges.back)
    (weak : Frame.top grammar stack < min limit edges.front) :
    ∃ waiting last, Reader.run grammar (.operand stack) tokens = some (.operator waiting last) ∧
      Frame.reduce grammar limit waiting last = (stack, tree) := by
  obtain ⟨waiting, last, runs, reduces⟩ := spans stack (by omega)
  refine ⟨waiting, last, runs, ?_⟩
  rw [reduces limit positive back, Frame.reduce_of_top_lt (by omega)]

theorem binary {op : BinaryOp} (leftSpans : Spans grammar first left leftEdges)
    (rightSpans : Spans grammar second right rightEdges)
    (back : grammar.limit op ≤ leftEdges.back) (front : grammar.strength op < rightEdges.front) :
    Spans grammar (first ++ .operator op :: second) (.binary op left right)
      ⟨min (grammar.strength op) leftEdges.front,
        min (grammar.strength op) rightEdges.back⟩ := by
  intro stack weak
  have stronger := grammar.strength_le_limit op
  have positive := grammar.strength_pos op
  have weakStrength : Frame.top grammar stack < grammar.strength op :=
    Nat.lt_of_lt_of_le weak (Nat.min_le_left _ _)
  obtain ⟨waiting, last, runs, reduces⟩ := leftSpans.run_before stack
    (Nat.lt_of_lt_of_le positive stronger) back (by simp only at weak; omega)
  have takes : Reader.step grammar (.operator waiting last) (.operator op) =
      some (.operand (.binary op left :: stack)) := by
    simp only [Reader.step, Reader.continue?, reduces]
    exact if_neg (Nat.not_le.mpr weakStrength)
  obtain ⟨waiting', last', runs', reduces'⟩ := rightSpans (.binary op left :: stack) front
  refine ⟨waiting', last', ?_, ?_⟩
  · rw [Reader.run_append runs, Reader.run_cons takes, runs']
  · intro limit limitPositive bound
    rw [reduces' limit limitPositive (Nat.le_trans bound (Nat.min_le_right _ _)),
      Frame.reduce_cons (Nat.le_trans bound (Nat.min_le_left _ _))]
    rfl

theorem nullTest (spans : Spans grammar tokens tree edges)
    (back : Grammar.testStrength ≤ edges.back) (negated : Bool) (outer : Nat) :
    Spans grammar (tokens ++ .is :: ((if negated then [.not] else []) ++ [.leaf "NULL"]))
      (.nullTest tree negated) ⟨min Grammar.testStrength edges.front, outer⟩ := by
  intro stack weak
  obtain ⟨waiting, last, runs, reduces⟩ := spans.run_before stack (by decide) back weak
  have tests : Reader.step grammar (.operator waiting last) .is =
      some (.test stack tree false) := by
    simp only [Reader.step, Reader.continue?, reduces]
  refine ⟨stack, _, ?_, fun _ _ _ => rfl⟩
  rw [Reader.run_append runs, Reader.run_cons tests]
  cases negated <;> rfl

theorem member (spans : Spans grammar tokens tree edges)
    (back : Grammar.listStrength ≤ edges.back) {content : Content} {values : List Tree}
    (read : content.values? = some values) (negated : Bool) (outer : Nat) :
    Spans grammar (tokens ++ ((if negated then [.not] else []) ++ [.among, .group content]))
      (.member tree values negated) ⟨min Grammar.listStrength edges.front, outer⟩ := by
  intro stack weak
  obtain ⟨waiting, last, runs, reduces⟩ := spans.run_before stack (by decide) back weak
  refine ⟨stack, _, ?_, fun _ _ _ => rfl⟩
  rw [Reader.run_append runs]
  cases negated <;> simp [Reader.run, Reader.step, Reader.continue?, reduces, read]

/-- Tokens that are one operand are read as its tree. -/
theorem tree?_eq (spans : Spans grammar tokens tree edges) (front : 0 < edges.front)
    (back : 0 < edges.back) : Token.tree? grammar tokens = some tree := by
  obtain ⟨waiting, last, runs, reduces⟩ := spans [] front
  simp [Token.tree?, runs, Reader.tree?, reduces 1 (by omega) back, Frame.reduce]

/-- An operand and the words of the type that it is cast to. -/
theorem typed?_eq (spans : Spans grammar tokens tree edges) (front : 0 < edges.front)
    (back : 0 < edges.back) (words : List String) :
    Token.typed? grammar (tokens ++ .as :: words.map .leaf) =
      some (tree, " ".intercalate words) := by
  obtain ⟨waiting, last, runs, reduces⟩ := spans [] front
  have types : Reader.step grammar (.operator waiting last) .as = some (.type tree []) := by
    simp [Reader.step, Reader.continue?, reduces 1 (by omega) back, Frame.reduce]
  have spell : ∀ before words, Reader.run grammar (.type tree before) (words.map .leaf) =
      some (.type tree (before ++ words)) := by
    intro before words
    induction words generalizing before with
    | nil => simp [Reader.run]
    | cons word words induction =>
        rw [List.map_cons, Reader.run_cons rfl, induction, List.append_assoc]
        rfl
  rw [Token.typed?, Reader.run_append runs, Reader.run_cons types, spell]
  rfl

end Spans

/-! ## Lists -/

namespace Token

variable {grammar : Grammar}

/-- The parts of a list with commas between them. -/
def separated : List (List Token) → List Token
  | [] => []
  | [part] => part
  | part :: next :: rest => part ++ .comma :: separated (next :: rest)

theorem split_cons {token : Token} (different : token ≠ .comma) (rest : List Token) :
    split (token :: rest) = (split rest).modifyHead (token :: ·) := by
  cases token <;> first | rfl | exact absurd rfl different

theorem split_of_not_mem {tokens : List Token} (absent : .comma ∉ tokens) :
    split tokens = [tokens] := by
  induction tokens with
  | nil => rfl
  | cons token tokens induction =>
      rw [List.mem_cons, not_or] at absent
      rw [split_cons (Ne.symm absent.1), induction absent.2]
      rfl

theorem split_append {tokens : List Token} (absent : .comma ∉ tokens) (rest : List Token) :
    split (tokens ++ .comma :: rest) = tokens :: split rest := by
  induction tokens with
  | nil => rfl
  | cons token tokens induction =>
      rw [List.mem_cons, not_or] at absent
      rw [List.cons_append, split_cons (Ne.symm absent.1), induction absent.2]
      rfl

/-- No reader goes on at a comma. -/
theorem not_mem_of_run {reader next : Reader} {tokens : List Token}
    (runs : Reader.run grammar reader tokens = some next) : .comma ∉ tokens := by
  induction tokens generalizing reader with
  | nil => exact List.not_mem_nil
  | cons token tokens induction =>
      rw [Reader.run, List.foldlM_cons] at runs
      obtain ⟨reader', steps, runs⟩ := Option.bind_eq_some_iff.mp runs
      rw [List.mem_cons, not_or]
      refine ⟨?_, induction runs⟩
      rintro rfl
      cases reader <;> simp [Reader.step, Reader.continue?] at steps

theorem not_mem_of_tree? {tokens : List Token} {tree : Tree}
    (read : tree? grammar tokens = some tree) : .comma ∉ tokens := by
  obtain ⟨reader, runs, _⟩ := Option.bind_eq_some_iff.mp read
  exact not_mem_of_run runs

/-- A list is read as what its parts are read as. -/
theorem values?_separated {parts : List (List Token)} {values : List Tree} (nonempty : parts ≠ [])
    (read : List.Forall₂ (fun part value => tree? grammar part = some value) parts values) :
    values? grammar (separated parts) = some values := by
  induction read with
  | nil => exact absurd rfl nonempty
  | @cons part value parts values head rest induction =>
      have absent := not_mem_of_tree? head
      cases rest with
      | nil => simp [separated, values?, split_of_not_mem absent, head]
      | cons next rest =>
          have later := induction (List.cons_ne_nil _ _)
          rw [values?] at later
          rw [separated, values?, split_append absent, List.mapM_cons, head, later]
          rfl

end Token

end SqlPlan
