import SqlPlan.Proofs.Refusing
import SqlPlan.Proofs.Timing

/-!
# How running a plan comes out

A plan is sent once or refused, whatever the executor does with its state.  What
comes of a statement that was sent is told by the reply to it and the time that it
was given; of the rows of a reply every one is shown under the columns of the table.
-/

namespace SqlPlan

/-! ## Records -/

namespace Record

variable {α : Type}

theorem lookup_entry (entry : String × α) (rest : List (String × α)) (name : String) :
    (entry :: rest).lookup name = if name = entry.1 then some entry.2 else rest.lookup name := by
  rw [List.lookup_cons]
  by_cases same : name = entry.1
  · simp [same]
  · simp [beq_eq_false_iff_ne.mpr same, same]

theorem lookup_insertEntry (key : String) (value : α) (entries : List (String × α))
    (name : String) :
    (insertEntry key value entries).lookup name =
      if name = key then some value else entries.lookup name := by
  induction entries with
  | nil => exact lookup_entry (key, value) [] name
  | cons entry rest induction =>
      obtain ⟨old, held⟩ := entry
      unfold insertEntry
      split
      · rename_i replaced
        subst replaced
        rw [lookup_entry, lookup_entry]
        by_cases same : name = key <;> simp [same]
      · rename_i different
        split
        · rw [lookup_entry]
        · rw [lookup_entry, lookup_entry, induction]
          by_cases found : name = old
          · subst found
            simp [Ne.symm different]
          · simp [found]

theorem get?_insert (record : Record α) (key : String) (value : α) (other : String) :
    (record.insert key value).get? other =
      if other = key then some value else record.get? other :=
  lookup_insertEntry key value record.entries other

theorem get?_foldl_insert (value : String → α) (names : List String) (record : Record α)
    (name : String) :
    ((names.map fun name => (name, value name)).foldl
        (fun record pair => record.insert pair.1 pair.2) record).get? name =
      if name ∈ names then some (value name) else record.get? name := by
  induction names generalizing record with
  | nil => simp
  | cons first names induction =>
      rw [List.map_cons, List.foldl_cons, induction, get?_insert]
      by_cases later : name ∈ names
      · simp [later]
      · by_cases here : name = first <;> simp [here, later]

/-- A record that is filled by a function of its keys. -/
theorem get?_ofList_map (value : String → α) (names : List String) (name : String) :
    (ofList (names.map fun name => (name, value name))).get? name =
      if name ∈ names then some (value name) else none :=
  get?_foldl_insert value names empty name

theorem mem_keys_iff {record : Record α} {name : String} :
    name ∈ record.keys ↔ (record.get? name).isSome = true := by
  simp [keys, get?, List.lookup_isSome_iff]

end Record

/-! ## Tables -/

/-- A row under the columns of a table.  It has a value for every column, except that nothing
can be put under the name of an object's parent: the value that was given, or null where the
given row answers nothing to the name.  Rows answer to the names of their methods. -/
structure Row.Shows (columns : List String) (given : Row) (shown : ResultRow) : Prop where
  keys : ∀ name, name ∈ shown.keys ↔ name ∈ columns ∧ name ≠ Data.parentName
  held : ∀ name ∈ shown.keys, ∀ value, given.get? name = some value →
    shown.get? name = some (.value value)
  missing : ∀ name ∈ shown.keys, given.get? name = none → name ∉ Data.methodNames →
    shown.get? name = some (.value .null)
  method : ∀ name ∈ shown.keys, given.get? name = none → name ∈ Data.methodNames →
    shown.get? name = some (.method name)

theorem Row.get?_restrict (row : Row) (columns : List String) (name : String) :
    (row.restrict columns).get? name =
      if name ∈ columns ∧ name ≠ Data.parentName then some (row.held name) else none := by
  rw [restrict, Record.get?_ofList_map row.held]
  simp [List.mem_filter]

theorem Row.shows_restrict (row : Row) (columns : List String) :
    Row.Shows columns row (row.restrict columns) := by
  have keys (name : String) :
      name ∈ (row.restrict columns).keys ↔ name ∈ columns ∧ name ≠ Data.parentName := by
    rw [Record.mem_keys_iff, row.get?_restrict]
    by_cases shown : name ∈ columns ∧ name ≠ Data.parentName
    · rw [if_pos shown]
      exact iff_of_true rfl shown
    · rw [if_neg shown]
      exact iff_of_false Bool.false_ne_true shown
  have holds (name : String) (shown : name ∈ (row.restrict columns).keys) :
      (row.restrict columns).get? name = some (row.held name) := by
    rw [row.get?_restrict, if_pos ((keys name).mp shown)]
  refine ⟨keys, ?_, ?_, ?_⟩
  · intro name shown value given
    rw [holds name shown, held, given]
    rfl
  · intro name shown lacks other
    have unlisted : Data.unlisted name = none := by
      rw [Data.unlisted, if_neg (by simpa using other), if_neg ((keys name).mp shown).2]
    rw [holds name shown, held, lacks, unlisted]
    rfl
  · intro name shown lacks isMethod
    have unlisted : Data.unlisted name = some (.method name) := by
      rw [Data.unlisted, if_pos (by simpa using isMethod)]
    rw [holds name shown, held, lacks, unlisted]
    rfl

/-- The table of a reply: its columns are those that were reported, else those that were
expected, else those of the first row. -/
structure ResultTable.MadeOf (result : QueryRows) (sql : String)
    (expected : Option (List String)) (table : ResultTable) : Prop where
  columns : table.columns =
    (result.fields.or expected).getD ((result.rows.head?.map Record.keys).getD [])
  rows : List.Forall₂ (Row.Shows table.columns) result.rows table.rows
  sql : table.sql = sql

theorem ResultTable.madeOf_ofRows (result : QueryRows) (sql : String)
    (expected : Option (List String)) :
    (ResultTable.ofRows result sql expected).MadeOf result sql expected := by
  refine ⟨?_, ?_, rfl⟩
  · unfold ofRows columnsOf
    cases result.fields.or expected <;> rfl
  · rw [ofRows, List.forall₂_map_right_iff, List.forall₂_same]
    exact fun row _ => row.shows_restrict _

/-! ## Replies -/

section Settling

variable (isLate : Number → Reply → Prop) (timeout : Option Number)

/-- A reply that is not late for the time that it was given, if there is a limit to it. -/
def Reply.InTime (reply : Reply) : Prop := ∀ limit ∈ timeout, ¬ isLate limit reply

/-- What a reply to a statement comes to, in the time that it was given and by a measure of
what is late.  A failure that cannot be shown breaks the message that was to show it. -/
inductive Reply.Settles (sql : String) (expected : Option (List String)) (reply : Reply) :
    Outcome → Prop where
  | late {limit : Number} (timed : limit ∈ timeout) (late : isLate limit reply) :
      Settles sql expected reply (.failed (.execution sql (.timedOut limit)))
  | table {result : QueryRows} {table : ResultTable} (inTime : reply.InTime isLate timeout)
      (answer : reply.answer = .rows result) (made : table.MadeOf result sql expected) :
      Settles sql expected reply (.table table)
  | unchanged {sent : String} {fault : ExecutionFault} (inTime : reply.InTime isLate timeout)
      (answer : reply.answer = .failed (.error (.execution sent fault))) :
      Settles sql expected reply (.failed (.execution sent fault))
  | caused {failure : Failure} (inTime : reply.InTime isLate timeout)
      (answer : reply.answer = .failed failure)
      (foreign : ∀ sent fault, failure ≠ .error (.execution sent fault))
      (shown : failure.hasDisplay = true) :
      Settles sql expected reply (.failed (.execution sql (.failed failure)))
  | undisplayable {failure : Failure} (inTime : reply.InTime isLate timeout)
      (answer : reply.answer = .failed failure) (hidden : failure.hasDisplay = false) :
      Settles sql expected reply (.failed .undisplayable)
  | pending (untimed : timeout = none) (answer : reply.answer = .silent) :
      Settles sql expected reply .pending

end Settling

namespace Plan

theorem executionError_foreign {failure : Failure}
    (foreign : ∀ sent fault, failure ≠ .error (.execution sent fault)) (sql : String) :
    executionError sql failure = failure.executionError sql := by
  unfold executionError
  split
  · exact absurd rfl (foreign _ _)
  · rfl

section Settled

variable {isLate : Number → Reply → Prop} {timeout : Option Number} {reply : Reply}

/-- Any failure that comes in time is one of an execution, the statement's or an earlier one's,
unless it cannot be shown. -/
theorem settles_failed {sql : String} {expected : Option (List String)} {failure : Failure}
    (inTime : reply.InTime isLate timeout) (answer : reply.answer = .failed failure) :
    reply.Settles isLate timeout sql expected (.failed (executionError sql failure)) := by
  by_cases own : ∃ sent fault, failure = .error (.execution sent fault)
  · obtain ⟨sent, fault, rfl⟩ := own
    exact .unchanged inTime answer
  · have foreign : ∀ sent fault, failure ≠ .error (.execution sent fault) :=
      fun sent fault same => own ⟨sent, fault, same⟩
    rw [executionError_foreign foreign, Failure.executionError]
    split
    · rename_i shown
      exact .caused inTime answer foreign shown
    · rename_i hidden
      exact .undisplayable inTime answer (eq_false_of_ne_true hidden)

/-- A reply settles by any measure that the timer agrees with. -/
theorem settles_settle (tells : ∀ limit ∈ timeout, Timer.RunsOut limit reply ↔ isLate limit reply)
    (sql : String) (expected : Option (List String)) :
    reply.Settles isLate timeout sql expected (settle timeout sql expected reply) := by
  unfold settle
  split
  · rename_i limit filtered
    obtain ⟨timed, runsOut⟩ := Option.filter_eq_some_iff.mp filtered
    exact .late timed ((tells limit timed).mp runsOut)
  · rename_i filtered
    have running (limit : Number) (timed : limit ∈ timeout) : ¬ Timer.RunsOut limit reply :=
      Option.filter_eq_none_iff.mp filtered limit timed
    have inTime : reply.InTime isLate timeout :=
      fun limit timed late => running limit timed ((tells limit timed).mpr late)
    split
    · rename_i result answer
      exact .table inTime answer (ResultTable.madeOf_ofRows result sql expected)
    · rename_i failure answer
      exact settles_failed inTime answer
    · rename_i silent
      refine .pending (Option.eq_none_iff_forall_not_mem.mpr ?_) silent
      -- A timer runs out on an executor that stays silent.
      intro limit timed
      exact running limit timed ((Timer.runsOut_iff limit reply).mpr (.inl silent))

end Settled

/-! ## Sending -/

/-- The text of a plan in a dialect of a registry. -/
def compileIn (registry : Registry) (choice : Dialect.Choice) (plan : Plan) :
    Except Error Compiled := do
  plan.compile (← registry.resolve choice)

/-- The columns of a plan in a dialect of a registry, as far as they are known. -/
def columnsIn (registry : Registry) (choice : Dialect.Choice) (plan : Plan) :
    Except Error (Option (List String)) := do
  plan.columns (← registry.resolve choice)

variable {registry : Registry} {options : CollectOptions} {plan : Plan}

theorem isQueryError_of_compileIn {choice : Dialect.Choice} {error : Error}
    (failed : plan.compileIn registry choice = .error error) : error.isQueryError = true := by
  have lookup (name : String) (missing : registry.get name = .error error) :
      error.isQueryError = true := by
    unfold Registry.get at missing
    split at missing
    · cases missing
    · cases missing
      rfl
  rcases bind_eq_error.mp failed with unknown | ⟨dialect, _, failed⟩
  · cases choice with
    | default => exact lookup _ unknown
    | named name => exact lookup name unknown
    | given dialect => cases unknown
  · exact Error.isQueryError_of_isRefusal (plan.refuses_compile dialect error failed)

/-- The columns of a plan that has a text are known or open. -/
theorem exists_columnsIn {choice : Dialect.Choice} {compiled : Compiled}
    (success : plan.compileIn registry choice = .ok compiled) :
    ∃ expected, plan.columnsIn registry choice = .ok expected := by
  obtain ⟨dialect, resolved, success⟩ := bind_eq_ok.mp success
  obtain ⟨statement, planned, _⟩ := bind_eq_ok.mp success
  exact ⟨_, bind_eq_ok.mpr ⟨dialect, resolved, bind_eq_ok.mpr ⟨statement, planned, rfl⟩⟩⟩

theorem checkTimeout_sound (sound : options.timeout.all Number.isPositive = true) :
    checkTimeout options.timeout = .ok () := by
  unfold checkTimeout
  split
  · rfl
  · rename_i limit timed
    rw [timed] at sound
    exact if_pos sound

theorem prepare_badTimeout {limit : Number} (timed : options.timeout = some limit)
    (bad : limit.isPositive = false) :
    plan.prepare registry options = .error (.misuse (.badTimeout limit)) := by
  rw [prepare, timed, checkTimeout, bad]
  rfl

theorem prepare_error (sound : options.timeout.all Number.isPositive = true) {error : Error}
    (failed : plan.compileIn registry options.dialect = .error error) :
    plan.prepare registry options = .error error := by
  refine bind_eq_error.mpr (.inr ⟨(), checkTimeout_sound sound, ?_⟩)
  rcases bind_eq_error.mp failed with unknown | ⟨dialect, resolved, failed⟩
  · exact bind_eq_error.mpr (.inl unknown)
  · exact bind_eq_error.mpr (.inr ⟨dialect, resolved, bind_eq_error.mpr (.inl failed)⟩)

theorem prepare_ok (sound : options.timeout.all Number.isPositive = true) {compiled : Compiled}
    {expected : Option (List String)}
    (success : plan.compileIn registry options.dialect = .ok compiled)
    (known : plan.columnsIn registry options.dialect = .ok expected) :
    plan.prepare registry options = .ok (compiled.sql, expected) := by
  obtain ⟨dialect, resolved, success⟩ := bind_eq_ok.mp success
  rw [columnsIn, resolved] at known
  exact bind_eq_ok.mpr ⟨(), checkTimeout_sound sound, bind_eq_ok.mpr ⟨dialect, resolved,
    bind_eq_ok.mpr ⟨compiled, success, bind_eq_ok.mpr ⟨expected, known, rfl⟩⟩⟩⟩

section Running

variable {σ : Type}

theorem run_collect_error {error : Error} (failed : plan.prepare registry options = .error error)
    (executor : Executor σ) (state : σ) :
    (plan.collect registry options executor).run state = (.failed error, state) := by
  rw [collect, failed]
  rfl

theorem run_collect_ok {sql : String} {expected : Option (List String)}
    (prepared : plan.prepare registry options = .ok (sql, expected)) (executor : Executor σ)
    (state : σ) :
    (plan.collect registry options executor).run state =
      (settle options.timeout sql expected ((executor sql).run state).1,
        ((executor sql).run state).2) := by
  rw [collect, prepared]
  rfl

/-- The statements that an executor is sent while a plan is run. -/
def sent (registry : Registry) (options : CollectOptions) (executor : Executor σ) (state : σ)
    (plan : Plan) : List String :=
  ((plan.collect registry options executor.traced).run ([], state)).2.1

theorem sent_error {error : Error} (failed : plan.prepare registry options = .error error)
    (executor : Executor σ) (state : σ) : plan.sent registry options executor state = [] := by
  rw [sent, run_collect_error failed]

theorem sent_ok {sql : String} {expected : Option (List String)}
    (prepared : plan.prepare registry options = .ok (sql, expected)) (executor : Executor σ)
    (state : σ) : plan.sent registry options executor state = [sql] := by
  rw [sent, run_collect_ok prepared]
  rfl

/-- A plan is not sent if it is given no time that can run out or if it has no text, and fails
as such with an error that queries raise.  Any other plan is sent exactly once, as its text,
and comes out as the reply to that text tells, when its timer has run out on it or not.  Where
the timer keeps the limit that is as the reply is late or not, and the limits that are kept
whatever the reply are the whole milliseconds up to the longest time of a timer. -/
theorem collect_settles (registry : Registry) (options : CollectOptions) (executor : Executor σ)
    (state : σ) (plan : Plan) :
    (∀ limit, options.timeout = some limit → limit.isPositive = false →
      plan.sent registry options executor state = [] ∧
        (plan.collect registry options executor).run state =
          (.failed (.misuse (.badTimeout limit)), state)) ∧
    (∀ error, options.timeout.all Number.isPositive = true →
      plan.compileIn registry options.dialect = .error error →
      plan.sent registry options executor state = [] ∧
        (plan.collect registry options executor).run state = (.failed error, state) ∧
        error.isQueryError = true) ∧
    (∀ compiled, options.timeout.all Number.isPositive = true →
      plan.compileIn registry options.dialect = .ok compiled →
      plan.sent registry options executor state = [compiled.sql] ∧
        ∃ reply after outcome expected, (executor compiled.sql).run state = (reply, after) ∧
          (plan.collect registry options executor).run state = (outcome, after) ∧
          plan.columnsIn registry options.dialect = .ok expected ∧
          reply.Settles Timer.RunsOut options.timeout compiled.sql expected outcome ∧
          ((∀ limit ∈ options.timeout, Timer.Keeps limit reply) →
            reply.Settles Reply.Late options.timeout compiled.sql expected outcome)) ∧
    ∀ limit, limit.isPositive = true →
      ((∀ reply, Timer.Keeps limit reply) ↔
        limit.isInteger = true ∧ limit.value ≤ Timer.longest) := by
  refine ⟨?_, ?_, ?_, fun limit positive => Timer.forall_keeps_iff positive⟩
  · intro limit timed bad
    have failed : plan.prepare registry options = _ := prepare_badTimeout timed bad
    exact ⟨sent_error failed executor state, run_collect_error failed executor state⟩
  · intro error sound noText
    have failed := prepare_error sound noText
    exact ⟨sent_error failed executor state, run_collect_error failed executor state,
      isQueryError_of_compileIn noText⟩
  · intro compiled sound success
    obtain ⟨expected, known⟩ := exists_columnsIn success
    have prepared := prepare_ok sound success known
    refine ⟨sent_ok prepared executor state, _, _, _, expected, rfl,
      run_collect_ok prepared executor state, known, ?_, ?_⟩
    · exact settles_settle (fun _ _ => Iff.rfl) _ _
    · exact fun keeps => settles_settle keeps _ _

end Running

def wholePairs : Plan :=
  .base { name := "t", columns := some [⟨"a", none⟩, ⟨"b", none⟩] }

/-- Two milliseconds. -/
def briefly : CollectOptions := { timeout := some (.ofNat 2) }

/-- Answers every statement with a row that has one of two columns and one more, and counts
the statements. -/
def answerHalf : Executor Nat := fun _ => do
  modify Nat.succ
  return { answer := .rows { rows := [.ofList [("a", .boolean true), ("c", .boolean false)]] } }

theorem collect_settles_wholePairs :
    (wholePairs.collect .builtin { timeout := some .nan } answerHalf).run 0 =
        (.failed (.misuse (.badTimeout .nan)), 0) ∧
      (∃ error,
        ((Plan.filtered wholePairs (.named "c")).collect .builtin briefly answerHalf).run 0 =
          (.failed error, 0) ∧ error.isQueryError = true) ∧
      ∃ compiled, wholePairs.compileIn .builtin .default = .ok compiled ∧
        wholePairs.sent .builtin briefly answerHalf 0 = [compiled.sql] ∧
        ∃ reply outcome expected, (answerHalf compiled.sql).run 0 = (reply, 1) ∧
          (wholePairs.collect .builtin briefly answerHalf).run 0 = (outcome, 1) ∧
          reply.Settles Reply.Late briefly.timeout compiled.sql expected outcome := by
  refine ⟨?_, ?_, ?_⟩
  · exact ((collect_settles .builtin _ answerHalf 0 wholePairs).1 .nan rfl rfl).2
  · exact ⟨_, ((collect_settles .builtin briefly answerHalf 0
      (.filtered wholePairs (.named "c"))).2.1 _ rfl rfl).2⟩
  · have settled := collect_settles .builtin briefly answerHalf 0 wholePairs
    obtain ⟨sent, reply, after, outcome, expected, replied, ran, _, _, byTime⟩ :=
      settled.2.2.1 _ rfl rfl
    cases replied
    refine ⟨_, rfl, sent, _, outcome, expected, rfl, ran, byTime ?_⟩
    rintro _ ⟨⟩
    have two : (Number.ofNat 2).value = (2 : ℕ) := Number.value_of_toNat? rfl rfl
    refine (settled.2.2.2 (.ofNat 2) rfl).mpr ⟨rfl, ?_⟩ _
    rw [two]
    exact_mod_cast (by decide : 2 ≤ Timer.longest)

/-- More than twenty-five days. -/
def lastingly : CollectOptions := { timeout := some (.ofNat 3000000000) }

/-- Answers every statement without rows after fifty milliseconds. -/
def answerSoon : Executor Unit := fun _ =>
  return { answer := .rows { rows := [] }, delay := .milliseconds 50 }

/-- Fails on every statement with a value that cannot be shown. -/
def failHidden : Executor Unit := fun _ =>
  return { answer := .failed (.value (.object [(Data.displayName, .boolean true)])) }

/-- A reply after fifty milliseconds comes too late for a limit that no timer can be set to, and
a failure that cannot be shown does not come out as an execution error. -/
theorem collect_timedOut_early_and_undisplayable :
    ∃ compiled, wholePairs.compileIn .builtin .default = .ok compiled ∧
      (∀ limit ∈ lastingly.timeout, ¬ ((answerSoon compiled.sql).run ()).1.Late limit) ∧
      (wholePairs.collect .builtin lastingly answerSoon).run () =
        (.failed (.execution compiled.sql (.timedOut (.ofNat 3000000000))), ()) ∧
      (wholePairs.collect .builtin {} failHidden).run () = (.failed .undisplayable, ()) := by
  refine ⟨_, rfl, ?_, rfl, rfl⟩
  rintro _ ⟨⟩ (silent | late)
  · cases silent
  · have limit : (Number.ofNat 3000000000).value = (3000000000 : ℕ) :=
      Number.value_of_toNat? rfl rfl
    have late : (Number.ofNat 3000000000).value < (Delay.milliseconds 50).value := late
    rw [limit, Delay.value_milliseconds] at late
    norm_num at late

end Plan

end SqlPlan
