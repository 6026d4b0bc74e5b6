/-
What a running task does next, and the activities that only wait: for a promise, for some time,
or for another activity that must not take too long.
-/
import LspClient.Client.Basic

namespace LspClient

/-- What a task does after one of its activities has gone on. -/
inductive Next where
  /-- Waits for a promise; then the activity goes on with its outcome. -/
  | await (promise : PromiseId) (k : Activity)
  /-- Waits for one turn. -/
  | yield (k : Activity)
  /-- Does something else first; then the activity goes on with its outcome. -/
  | call (inner k : Activity)
  /-- Does something else instead. -/
  | become (a : Activity)
  | done (v : Value)
  deriving Inhabited

namespace Client

/-- The value of an outcome. -/
def valueOf (o : Outcome) : ClientM Value :=
  match o with
  | .ok v => pure v
  | .error f => throw f

/-- Waits until all of some promises are settled. -/
def gather (promises : List PromiseId) (k : Activity) : ClientM Next := do
  let group ← withLoop fun l => l.gather promises
  return .await group k

/-! ## Sleeping -/

/-- Begins to sleep. -/
def sleep (delay : Number) : ClientM Next := do
  if delay.le (.int 0) then return .yield .relay
  let p ← newPromise
  let timer ← callLater delay (.fulfil p)
  return .await p (.slept timer)

/-- Wakes up. -/
def slept (timer : TimerId) (o : Outcome) : ClientM Next := do
  onLoop fun l => l.cancelTimer timer
  return .done (← valueOf o)

/-! ## Limits of time -/

/-- Begins something that must not take too long. -/
def within (inner : Activity) (limit : Option Number) : ClientM Next := do
  match limit with
  | none => return .become inner
  | some limit =>
    if limit.le (.int 0) then
      let task ← spawn inner
      return .call (.halt task) (.overdue task none)
    else
      let waiter ← newPromise
      let timer ← callLater limit (.fulfil waiter)
      let task ← spawn inner
      onLoop fun l => l.observe task (.fulfil waiter)
      return .await waiter (.withinAwaited task waiter timer)

/-- The outcome of a task that has ended. -/
def outcomeOf (task : PromiseId) : ClientM Value := do
  match (← get).loop.outcome? task with
  | some o => valueOf o
  | none => throw (.runtime "Result is not set.")

/-- The task has ended, or its time is up, or whoever waits for it is cancelled. -/
def withinAwaited (task waiter : PromiseId) (timer : TimerId) (o : Outcome) : ClientM Next := do
  if ← isSettled task then
    onLoop fun l => l.cancelTimer timer
    return .done (← outcomeOf task)
  onLoop fun l => l.unobserve task waiter
  match o with
  | .ok _ => return .call (.halt task) (.overdue task (some timer))
  | .error f => return .call (.halt task) (.abandoned timer f)

/-- Cancels a task and begins to wait until it has ended. -/
def halt (task : PromiseId) : ClientM Next := do
  let waiter ← newPromise
  onLoop fun l => l.observe task (.fulfil waiter)
  let _ ← cancelPromise task
  return .await waiter (.halted task waiter)

/-- A cancelled task has ended. -/
def halted (task waiter : PromiseId) (o : Outcome) : ClientM Next := do
  onLoop fun l => l.unobserve task waiter
  return .done (← valueOf o)

/-- Stops a timer, if there is one. -/
def stopTimer (timer : Option TimerId) : ClientM Unit :=
  match timer with
  | some timer => onLoop fun l => l.cancelTimer timer
  | none => pure ()

/-- The outcome of a task whose time was up. -/
def overdue (task : PromiseId) (timer : Option TimerId) (o : Outcome) : ClientM Next := do
  stopTimer timer
  let _ ← valueOf o
  match (← get).loop.outcome? task with
  | some (.error f) => throw (if f.isCancellation then .timedOut else f)
  | _ => return .done (← outcomeOf task)

/-- Whoever waited for a task is cancelled, and the task has ended. -/
def abandoned (timer : TimerId) (f : Fault) (o : Outcome) : ClientM Next := do
  onLoop fun l => l.cancelTimer timer
  let _ ← valueOf o
  throw f

end Client

end LspClient
