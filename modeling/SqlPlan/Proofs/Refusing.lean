import SqlPlan.Proofs.Expr.Fragment
import SqlPlan.Proofs.Locating

/-!
# How plans are refused

A plan is refused for a name that does not resolve or resolves twice, for an
expression that has no place or no text, or for a capability that the dialect
lacks.  Planning and writing fail in no other way.  In particular an expression
never reads a derived output of a statement that was just nested.
-/

namespace SqlPlan

/-- The errors with which a plan is refused. -/
def Error.isRefusal : Error → Bool
  | .unresolved _ _ _ | .ambiguous _ _ _ | .unsupported _ _ _ | .incapable _ _ _ => true
  | _ => false

theorem Error.isQueryError_of_isRefusal {error : Error} (refusal : error.isRefusal = true) :
    error.isQueryError = true := by
  cases error <;> first | rfl | cases refusal

/-- A computation that fails only by a refusal. -/
def Refuses {α : Type} (outcome : Except Error α) : Prop :=
  ∀ error, outcome = .error error → error.isRefusal = true

namespace Refuses

variable {α β : Type}

theorem ok (value : α) : Refuses (.ok value) := by
  intro error failed
  cases failed

theorem pure (value : α) : Refuses (Pure.pure value : Except Error α) := ok value

theorem error {error : Error} (refusal : error.isRefusal = true) :
    Refuses (.error error : Except Error α) := by
  intro other failed
  cases failed
  exact refusal

theorem bind {first : Except Error α} {next : α → Except Error β} (firstRefuses : Refuses first)
    (nextRefuses : ∀ value, first = .ok value → Refuses (next value)) :
    Refuses (first >>= next) := by
  cases first with
  | error cause => exact error (firstRefuses cause rfl)
  | ok value => exact nextRefuses value rfl

theorem guarded {condition : Prop} [Decidable condition] {check : Except Error Unit}
    {next : Unit → Except Error β} (checkRefuses : Refuses check)
    (nextRefuses : Refuses (next ())) :
    Refuses (if condition then check >>= next else next ()) := by
  split
  · exact checkRefuses.bind fun _ _ => nextRefuses
  · exact nextRefuses

theorem mapM {step : α → Except Error β} {items : List α}
    (refuses : ∀ item ∈ items, Refuses (step item)) : Refuses (items.mapM step) := by
  induction items with
  | nil => exact ok []
  | cons item items induction =>
      obtain ⟨head, tail⟩ := List.forall_mem_cons.mp refuses
      rw [List.mapM_cons]
      exact head.bind fun _ _ => (induction tail).bind fun _ _ => pure _

theorem forM {check : α → Except Error Unit} {items : List α}
    (refuses : ∀ item ∈ items, Refuses (check item)) : Refuses (items.forM check) := by
  induction items with
  | nil => exact ok ()
  | cons item items induction =>
      obtain ⟨head, tail⟩ := List.forall_mem_cons.mp refuses
      exact head.bind fun _ _ => induction tail

theorem foldlM {step : β → α → Except Error β} {items : List α}
    (refuses : ∀ state item, Refuses (step state item)) (start : β) :
    Refuses (items.foldlM step start) := by
  induction items generalizing start with
  | nil => exact ok start
  | cons item items induction =>
      rw [List.foldlM_cons]
      exact (refuses start item).bind fun next _ => induction next

end Refuses

/-! ## Names -/

theorem Scope.refuses_resolve (scope : Scope) (qualifiers : List String) (ref : ColumnRef) :
    Refuses (scope.resolve qualifiers ref) := by
  have unqualified (isOpen : Bool) : Refuses (resolveSingle.unqualified scope isOpen ref) := by
    unfold resolveSingle.unqualified
    split
    · exact .ok _
    · exact .error rfl
  unfold resolve
  split
  · unfold resolveSingle
    split
    · split
      · exact unqualified _
      · exact .error rfl
    · exact unqualified _
  · unfold resolveJoined
    split
    · split
      · exact .ok _
      · exact .error rfl
    · split <;> first | exact .ok _ | exact .error rfl

theorem Expr.refuses_tryMapColumns {reach : Reach} {replace : ColumnRef → Except Error Expr}
    (refuses : ∀ ref, Refuses (replace ref)) (expr : Expr) :
    Refuses (expr.tryMapColumns reach replace) := by
  rw [tryMapColumns_eq]
  cases failed : (expr.refs reach).findSome? fun ref => failure? (replace ref) with
  | none => exact .ok _
  | some error =>
      obtain ⟨ref, _, failedRef⟩ := List.exists_of_findSome?_eq_some failed
      cases outcome : replace ref with
      | ok replaced =>
          rw [outcome] at failedRef
          cases failedRef
      | error cause =>
          rw [outcome] at failedRef
          cases failedRef
          exact .error (refuses ref error outcome)

theorem Expr.refuses_refuseAggregate (dialect : Dialect) (expr : Expr) :
    Refuses (expr.refuseAggregate dialect) := by
  unfold refuseAggregate
  split
  · exact .error rfl
  · exact .ok ()

theorem SelectItem.refuses_requireDistinct (tables : List String) (items : List SelectItem) :
    Refuses (requireDistinct tables items) := by
  unfold requireDistinct
  split
  · exact .error rfl
  · exact .ok ()

namespace Clauses

variable (clauses : Clauses)

theorem refuses_locate (ref : ColumnRef) : Refuses (clauses.locate ref) := by
  have inSource (other : ColumnRef) : Refuses (clauses.locateInSource other) :=
    (clauses.scope.refuses_resolve clauses.qualifiers other).bind fun _ _ => .pure _
  have inOutput : Refuses (clauses.locateOutput ref) := by
    unfold locateOutput
    split
    · split <;> exact .ok _
    · split
      · exact inSource _
      · dsimp only
        split <;> exact .error rfl
  unfold locate
  split
  · exact inSource ref
  · exact inOutput
  · split
    · exact inSource ref
    · split
      · exact inOutput
      · exact .error rfl

theorem isRefusal_of_refusal? {ref : ColumnRef} {error : Error}
    (refused : clauses.refusal? ref = some error) : error.isRefusal = true := by
  unfold refusal? at refused
  cases outcome : clauses.locate ref with
  | ok located =>
      rw [outcome] at refused
      cases refused
  | error cause =>
      rw [outcome] at refused
      cases refused
      exact clauses.refuses_locate ref error outcome

theorem refuses_inlined (expr : Expr) : Refuses (clauses.inlined expr) :=
  Expr.refuses_tryMapColumns
    (fun ref => (clauses.refuses_locate ref).bind fun _ _ => .pure _) expr

theorem refuses_extendedSelect (outputs : List Output) :
    Refuses (clauses.extendedSelect outputs) := by
  refine (Refuses.foldlM (fun items output => ?_) _).bind fun placed _ =>
    (SelectItem.refuses_requireDistinct _ _).bind fun _ _ => .pure _
  unfold SelectItem.place
  dsimp only
  split
  · exact .ok _
  · split
    · exact .error rfl
    · exact .ok _

end Clauses

/-! ## Steps -/

namespace Draft

variable (dialect : Dialect) (draft : Draft)

/-- What the statement around a draft shows is not derived, so resolution fails only
at a reference. -/
theorem refuses_resolve (exprs : List Expr) : Refuses (draft.resolve dialect exprs) := by
  rw [resolve_eq]
  cases first : (Expr.refsOf exprs).findSome? draft.statement.refusal? with
  | some error =>
      obtain ⟨ref, _, refused⟩ := List.exists_of_findSome?_eq_some first
      exact .error (draft.statement.isRefusal_of_refusal? refused)
  | none =>
      rw [Option.elim_none]
      cases second : (Expr.refsOf exprs).findSome?
          (draft.settled dialect (Expr.refsOf exprs)).statement.refusal? with
      | some error =>
          obtain ⟨ref, _, refused⟩ := List.exists_of_findSome?_eq_some second
          exact .error (Clauses.isRefusal_of_refusal? _ refused)
      | none => exact .ok _

theorem refuses_project (outputs : List Output) (keep : Bool) :
    Refuses (draft.project dialect outputs keep) := by
  refine (Refuses.forM fun output _ => output.expr.refuses_refuseAggregate dialect).bind
    fun _ _ => (refuses_resolve dialect _ _).bind fun resolved _ => ?_
  cases keep with
  | true => exact (resolved.1.statement.refuses_extendedSelect _).bind fun _ _ => .pure _
  | false => exact .ok _

theorem refuses_filter (predicate : Expr) : Refuses (draft.filter dialect predicate) :=
  (predicate.refuses_refuseAggregate dialect).bind fun _ _ =>
    (refuses_resolve dialect _ _).bind fun _ _ => .pure _

theorem refuses_sort (keys : List SortKey) : Refuses (draft.sort dialect keys) := by
  refine (Refuses.forM fun key _ => key.expr.refuses_refuseAggregate dialect).bind
    fun _ _ => (Refuses.mapM fun key _ => ?_).bind fun _ _ => .pure _
  exact (Clauses.refuses_inlined _ key.expr).bind fun _ _ => .pure _

theorem refuses_bindGroupKeys (groupKeys : List Output) (output : Output) :
    Refuses (bindGroupKeys groupKeys output) := by
  refine Expr.refuses_tryMapColumns (fun ref => ?_) output.expr
  dsimp only
  split
  · exact .ok _
  · split
    · exact .ok _
    · exact .error rfl

theorem refuses_aggregate (groupKeys aggregates : List Output) :
    Refuses (draft.aggregate dialect groupKeys aggregates) :=
  (Refuses.forM fun key _ => key.expr.refuses_refuseAggregate dialect).bind fun _ _ =>
    (Refuses.mapM fun output _ => refuses_bindGroupKeys groupKeys output).bind fun _ _ =>
      (refuses_resolve dialect _ _).bind fun _ _ => .pure _

end Draft

theorem refuses_refuseJoin (dialect : Dialect) (kind : JoinKind) (left right : String) :
    Refuses (refuseJoin dialect kind left right) := by
  unfold refuseJoin
  split
  · exact .error rfl
  · split
    · exact .error rfl
    · exact .ok ()

theorem Statement.refuses_join (dialect : Dialect) (kind : JoinKind) (on : Expr)
    (left right : JoinInput) : Refuses (Statement.join dialect kind on left right) := by
  have shared (openSide closedSide : JoinInput) (condition : Expr) :
      Refuses (refuseShared openSide closedSide [left.name, right.name] condition) := by
    unfold refuseShared
    dsimp only
    split
    · exact .error rfl
    · exact .ok ()
  unfold Statement.join
  refine Refuses.guarded (.error ?_) ?_
  · rfl
  refine (on.refuses_refuseAggregate dialect).bind fun _ _ => ?_
  refine (Expr.refuses_tryMapColumns (fun ref => ?_) on).bind fun resolved _ => ?_
  · exact (Scope.refuses_resolve _ _ ref).bind fun _ _ => .pure _
  · refine Refuses.guarded (shared left right resolved) ?_
    refine Refuses.guarded (shared right left resolved) ?_
    exact (SelectItem.refuses_requireDistinct _ _).bind fun _ _ => .pure _

/-- A plan that has no statement is refused. -/
theorem Plan.refuses_draft (dialect : Dialect) (used : Nat) (plan : Plan) :
    Refuses (plan.draft dialect used) := by
  induction plan generalizing used with
  | base table => exact .ok _
  | projected input outputs keep induction =>
      exact (induction used).bind fun draft _ => draft.refuses_project dialect outputs keep
  | filtered input predicate induction =>
      exact (induction used).bind fun draft _ => draft.refuses_filter dialect predicate
  | sorted input keys induction =>
      exact (induction used).bind fun draft _ => draft.refuses_sort dialect keys
  | grouped input groupKeys aggregates induction =>
      exact (induction used).bind fun draft _ =>
        draft.refuses_aggregate dialect groupKeys aggregates
  | joined input other kind on inputInduction otherInduction =>
      exact (inputInduction used).bind fun left _ =>
        (refuses_refuseJoin dialect kind _ _).bind fun _ _ =>
          (otherInduction left.hoisted).bind fun _ _ =>
            (Statement.refuses_join dialect kind on _ _).bind fun _ _ => .pure _
  | deduplicated input induction => exact (induction used).bind fun _ _ => .pure _
  | limited input count induction => exact (induction used).bind fun _ _ => .pure _
  | aliased input name induction => exact (induction used).bind fun _ _ => .pure _

theorem Plan.refuses_statement (dialect : Dialect) (plan : Plan) :
    Refuses (plan.statement dialect) :=
  (plan.refuses_draft dialect 0).bind fun _ _ => .pure _

/-! ## Texts -/

namespace Expr

variable (setting : Setting)

theorem refuses_literalText (dialect : Dialect) (literal : Literal) :
    Refuses (literalText dialect literal) := by
  unfold literalText
  split
  · exact .ok _
  · exact .ok _
  · split
    · exact .ok _
    · exact .error rfl
  · exact .ok _

theorem refuses_lookupFunction (dialect : Dialect) (aggregates : Bool) (name : String) :
    Refuses (lookupFunction dialect aggregates name) := by
  unfold lookupFunction
  split
  · exact .error rfl
  · split
    · exact .error rfl
    · exact .ok _

theorem refuses_fillTemplate (dialect : Dialect) (name template : String) (args : List String) :
    Refuses (fillTemplate dialect name template args) := by
  unfold fillTemplate
  split
  · exact .ok _
  · exact .error rfl

theorem refuses_aggregateText (dialect : Dialect) (name : String) (arg : Option String)
    (distinct : Bool) : Refuses (aggregateText dialect name arg distinct) := by
  unfold aggregateText
  split
  · exact .ok _
  · exact .error rfl
  · exact .ok _
  · refine (refuses_lookupFunction dialect true name).bind fun entry _ => ?_
    split
    · exact .error rfl
    · split
      · exact .error rfl
      · exact refuses_fillTemplate dialect name entry.template _

theorem refuses_texts {aggregates : Bool} {args : List Expr}
    (refuses : ∀ arg ∈ args, Refuses (arg.fragment setting aggregates)) :
    Refuses (texts setting aggregates args) := by
  induction args with
  | nil => exact .ok []
  | cons arg args induction =>
      obtain ⟨head, tail⟩ := List.forall_mem_cons.mp refuses
      rw [texts]
      exact head.bind fun _ _ => (induction tail).bind fun _ _ => .pure _

theorem refuses_branchTexts {aggregates : Bool} {branches : List (Expr × Expr)}
    (refuses : ∀ branch ∈ branches, Refuses (branch.1.fragment setting aggregates) ∧
      Refuses (branch.2.fragment setting aggregates)) :
    Refuses (branchTexts setting aggregates branches) := by
  induction branches with
  | nil => exact .ok []
  | cons branch branches induction =>
      obtain ⟨⟨condition, result⟩, tail⟩ := List.forall_mem_cons.mp refuses
      rw [branchTexts]
      exact condition.bind fun _ _ => result.bind fun _ _ => (induction tail).bind
        fun _ _ => .pure _

theorem refuses_fragment (aggregates : Bool) (expr : Expr) :
    Refuses (expr.fragment setting aggregates) := by
  induction expr generalizing aggregates with
  | column ref => exact .ok _
  | literal constant =>
      rw [fragment]
      exact (refuses_literalText setting.dialect constant).bind fun _ _ => .pure _
  | unary op arg induction =>
      rw [fragment]
      exact (induction aggregates).bind fun _ _ => .pure _
  | binary op left right leftInduction rightInduction =>
      cases op with
      | logical op =>
          rw [fragment]
          exact (leftInduction aggregates).bind fun _ _ =>
            (rightInduction aggregates).bind fun _ _ => .pure _
      | arithmetic op =>
          rw [fragment]
          exact (leftInduction aggregates).bind fun _ _ =>
            (rightInduction aggregates).bind fun _ _ => .pure _
      | comparison op =>
          rw [fragment]
          split
          · split
            · exact .ok _
            · exact (leftInduction aggregates).bind fun _ _ => .pure _
          · split
            · exact (rightInduction aggregates).bind fun _ _ => .pure _
            · exact (leftInduction aggregates).bind fun _ _ =>
                (rightInduction aggregates).bind fun _ _ => .pure _
  | member arg values negated induction =>
      rw [fragment]
      exact (induction aggregates).bind fun _ _ =>
        (Refuses.mapM fun value _ => refuses_literalText setting.dialect value).bind
          fun _ _ => .pure _
  | call name args induction =>
      rw [fragment]
      exact (refuses_lookupFunction setting.dialect aggregates name).bind fun _ _ =>
        (refuses_texts setting fun arg member => induction arg member aggregates).bind fun _ _ =>
          (refuses_fillTemplate setting.dialect name _ _).bind fun _ _ => .pure _
  | case branches otherwise branchInduction otherInduction =>
      have texts : Refuses (branchTexts setting aggregates branches) :=
        refuses_branchTexts setting fun branch member =>
          ⟨(branchInduction branch member).1 aggregates, (branchInduction branch member).2 aggregates⟩
      cases otherwise with
      | none =>
          rw [fragment]
          exact texts.bind fun _ _ => .pure _
      | some other =>
          rw [fragment]
          exact texts.bind fun _ _ => (otherInduction other rfl aggregates).bind fun _ _ => .pure _
  | cast arg type induction =>
      rw [fragment]
      exact (induction aggregates).bind fun _ _ => .pure _
  | aggregate name arg distinct induction =>
      cases arg with
      | none =>
          rw [fragment]
          split
          · exact (refuses_aggregateText setting.dialect name none distinct).bind fun _ _ => .pure _
          · exact .error rfl
      | some arg =>
          rw [fragment]
          split
          · exact (induction arg rfl false).bind fun _ _ =>
              (refuses_aggregateText setting.dialect name _ distinct).bind fun _ _ => .pure _
          · exact .error rfl

theorem refuses_sql (aggregates : Bool) (expr : Expr) : Refuses (expr.sql setting aggregates) :=
  (expr.refuses_fragment setting aggregates).bind fun _ _ => .pure _

end Expr

namespace Clauses

variable (dialect : Dialect) (clauses : Clauses)

theorem refuses_selectText : Refuses (clauses.selectText dialect) := by
  refine Refuses.bind ?_ fun _ _ => .pure _
  unfold itemTexts
  split
  · exact .ok _
  · refine Refuses.mapM fun item _ => ?_
    unfold itemText
    split
    · exact .ok _
    · exact .ok _
    · refine (Expr.refuses_sql _ _ _).bind fun _ _ => ?_
      split <;> exact .pure _

theorem refuses_tailLines (qualifier : Option String) :
    Refuses (clauses.tailLines dialect qualifier) := by
  have keys (key : SortKey) : Refuses (clauses.keyText dialect qualifier key) := by
    unfold keyText
    dsimp only
    split
    · exact .ok _
    · exact (Expr.refuses_sql _ _ _).bind fun _ _ => .pure _
  refine (Refuses.mapM fun condition _ => ?_).bind fun _ _ => (Refuses.mapM fun key _ => ?_).bind
    fun _ _ => (Refuses.mapM fun key _ => keys key).bind fun _ _ => .pure _
  · exact (Expr.refuses_sql _ _ condition).bind fun _ _ => .pure _
  · exact Expr.refuses_sql _ _ key

end Clauses

mutual

theorem Relation.refuses_text (dialect : Dialect) (name : String) (used : Nat)
    (relation : Relation) : Refuses (relation.text dialect name used) := by
  cases relation with
  | table ref shownAs =>
      rw [Relation.text]
      exact .ok _
  | subquery source clauses =>
      rw [Relation.text]
      exact (Source.refuses_text dialect used clauses source).bind fun _ _ => .pure _

theorem Source.refuses_text (dialect : Dialect) (used : Nat) (clauses : Clauses)
    (source : Source) : Refuses (source.text dialect used clauses) := by
  cases source with
  | relation relation =>
      cases relation with
      | table ref shownAs =>
          rw [Source.text]
          exact (clauses.refuses_selectText dialect).bind fun _ _ =>
            (clauses.refuses_tailLines dialect _).bind fun _ _ => .pure _
      | subquery source inner =>
          rw [Source.text]
          exact (clauses.refuses_selectText dialect).bind fun _ _ =>
            (Source.refuses_text dialect (used + 1) inner source).bind fun _ _ =>
              (clauses.refuses_tailLines dialect _).bind fun _ _ => .pure _
  | join left leftName right rightName kind on =>
      rw [Source.text]
      exact (clauses.refuses_selectText dialect).bind fun _ _ =>
        (Relation.refuses_text dialect leftName used left).bind fun _ _ =>
          (Relation.refuses_text dialect rightName _ right).bind fun _ _ =>
            (Expr.refuses_sql _ _ on).bind fun _ _ =>
              (clauses.refuses_tailLines dialect _).bind fun _ _ => .pure _

end

/-- A plan that has no text is refused. -/
theorem Plan.refuses_compile (dialect : Dialect) (plan : Plan) : Refuses (plan.compile dialect) :=
  (plan.refuses_statement dialect).bind fun statement _ =>
    (Source.refuses_text dialect 0 statement.toClauses statement.source).bind fun _ _ => .pure _

end SqlPlan
