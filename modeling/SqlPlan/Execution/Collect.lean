import SqlPlan.Compile
import SqlPlan.Execution.Table

/-!
# Running plans

A plan is compiled, sent to an executor once, and its rows are made into a
table.  What goes wrong before the executor is called surfaces as it is; what
goes wrong afterwards surfaces as an execution error.
-/

namespace SqlPlan

/-- What comes of a statement that was sent. -/
inductive Answer where
  | rows (result : QueryRows)
  | failed (failure : Failure)
  | silent

/-- A stretch of time, as ticks of a clock that ticks at a steady rate. -/
structure Delay where
  ticks : Nat
  /-- The ticks in a millisecond. -/
  rate : Nat
  running : 0 < rate

namespace Delay

def milliseconds (count : Nat) : Delay := { ticks := count, rate := 1, running := Nat.one_pos }

/-- Whether a stretch of time is longer than a number of milliseconds. -/
def exceeds (delay : Delay) (limit : Nat) : Bool := limit * delay.rate < delay.ticks

end Delay

/-- An answer, and the time after which it comes once the executor has taken the statement. -/
structure Reply where
  answer : Answer
  delay : Delay := .milliseconds 0

/-- Executors act on a state of their own: what they reply may depend on what they were sent
before. -/
abbrev Executor (σ : Type) := String → StateM σ Reply

/-- Actions on a state that also note events, in order. -/
abbrev Traced (ε σ : Type) := StateM (List ε × σ)

namespace Traced

variable {ε σ α : Type}

def note (event : ε) : Traced ε σ Unit :=
  modify fun traced => (traced.1 ++ [event], traced.2)

/-- An action on the state, which notes nothing. -/
def act (action : StateM σ α) : Traced ε σ α := do
  let traced ← get
  let acted := action.run traced.2
  set (traced.1, acted.2)
  return acted.1

end Traced

/-- The executor that also notes every statement that it is sent. -/
def Executor.traced {σ : Type} (executor : Executor σ) : Executor (List String × σ) := fun sql => do
  Traced.note sql
  Traced.act (executor sql)

namespace Timer

/-- The longest time in milliseconds that a timer runs, just under twenty-five days. -/
def longest : Nat := 2147483647

/-- Whether a timer can be set to a duration of this whole part. -/
def admits (duration : Number) (whole : Nat) : Bool :=
  duration.isPositive && 1 ≤ whole &&
    (whole < longest || (whole == longest && duration.isInteger))

/-- Timers run for the whole milliseconds of their duration, from one to the
longest; any other duration is one millisecond. -/
def milliseconds (duration : Number) : Nat :=
  match duration.whole? with
  | some whole => if admits duration whole then whole else 1
  | none => 1

/-- Whether a timer has run out when a reply comes. -/
def runsOut (timeout : Number) (reply : Reply) : Bool :=
  match reply.answer with
  | .silent => true
  | _ => reply.delay.exceeds (milliseconds timeout)

end Timer

inductive Outcome where
  | table (table : ResultTable)
  | failed (error : Error)
  | pending

structure CollectOptions where
  dialect : Dialect.Choice := .default
  timeout : Option Number := none

namespace Plan

def checkTimeout : Option Number → Except Error Unit
  | none => .ok ()
  | some timeout =>
      if timeout.isPositive then .ok () else .error (.misuse (.badTimeout timeout))

/-- A failure of an executor as an error; an execution error stays what it is. -/
def executionError (sql : String) : Failure → Error
  | .error (.execution sql fault) => .execution sql fault
  | failure => failure.executionError sql

/-- The statement of a plan and the columns that are expected of it, when the
options are sound. -/
def prepare (registry : Registry) (options : CollectOptions) (plan : Plan) :
    Except Error (String × Option (List String)) := do
  checkTimeout options.timeout
  let dialect ← registry.resolve options.dialect
  let compiled ← plan.compile dialect
  return (compiled.sql, ← plan.columns dialect)

/-- What a reply to a statement amounts to. -/
def settle (timeout : Option Number) (sql : String) (expected : Option (List String))
    (reply : Reply) : Outcome :=
  match timeout.filter fun timeout => Timer.runsOut timeout reply with
  | some timeout => .failed (.execution sql (.timedOut timeout))
  | none =>
      match reply.answer with
      | .rows result => .table (.ofRows result sql expected)
      | .failed failure => .failed (executionError sql failure)
      | .silent => .pending

def collect {σ : Type} (registry : Registry) (options : CollectOptions) (executor : Executor σ)
    (plan : Plan) : StateM σ Outcome :=
  match plan.prepare registry options with
  | .error error => return .failed error
  | .ok (sql, expected) => return settle options.timeout sql expected (← executor sql)

end Plan

end SqlPlan
