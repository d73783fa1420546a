import SqlPlan.Execution.Collect

/-!
# Pools

An executor over a pool of database connections, with hooks around every
statement.  A hook that fails before a statement is sent stops it; a hook
that fails after the statement failed changes nothing.  What happens is noted
as events.
-/

namespace SqlPlan

/-- What happens while statements are executed, in order. -/
inductive PoolEvent where
  | announced (sql : String)
  | sent (sql : String)
  | reported (sql : String) (failure : Failure)
  | logged (sql : String) (failure : Failure)
  | ended

/-- The line that a failed statement leaves in the log. -/
def failureLine (sql : String) : String := "[lazyql] query failed:\n" ++ sql ++ "\n"

/-- Hooks fail or return nothing.  Without a hook for failures these are logged. -/
structure PoolHooks where
  onQuery : Option (String → Option Failure) := none
  onError : Option (String → Failure → Option Failure) := none

/-- Connections that answer each statement with rows or a failure, until they are ended,
which may fail too. -/
structure Pool (σ : Type) where
  query : String → StateM σ (Except Failure QueryRows)
  finish : StateM σ (Except Failure Unit)

namespace PoolHooks

variable {σ : Type}

def announce (hooks : PoolHooks) (sql : String) : Traced PoolEvent σ Unit :=
  if hooks.onQuery.isSome then Traced.note (.announced sql) else return

def report (hooks : PoolHooks) (sql : String) (failure : Failure) : PoolEvent :=
  if hooks.onError.isSome then .reported sql failure else .logged sql failure

/-- Sends one statement and notes the events of it. -/
def execute (hooks : PoolHooks) (pool : Pool σ) (sql : String) :
    Traced PoolEvent σ (Except Failure QueryRows) := do
  hooks.announce sql
  match hooks.onQuery.bind fun hook => hook sql with
  | some failure => return .error failure
  | none =>
      Traced.note (.sent sql)
      match ← Traced.act (pool.query sql) with
      | .ok result => return .ok result
      | .error failure =>
          Traced.note (hooks.report sql failure)
          return .error (.error (failure.executionError sql))

/-- The pool as an executor of plans. -/
def executor (hooks : PoolHooks) (pool : Pool σ) : Executor (List PoolEvent × σ) := fun sql => do
  match ← hooks.execute pool sql with
  | .ok result => return { answer := .rows result }
  | .error failure => return { answer := .failed failure }

/-- Runs a plan on the pool. -/
def collect (hooks : PoolHooks) (pool : Pool σ) (registry : Registry) (plan : Plan) :
    Traced PoolEvent σ Outcome :=
  plan.collect registry {} (hooks.executor pool)

/-- Ends the pool; no hook is called, also where this fails. -/
def close (_hooks : PoolHooks) (pool : Pool σ) : Traced PoolEvent σ (Except Failure Unit) := do
  Traced.note .ended
  Traced.act pool.finish

end PoolHooks

end SqlPlan
