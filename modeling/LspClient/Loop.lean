/-
Cooperative tasks on a clock that moves only when it is told to.

A promise is settled once, with a value or a fault; cancelling is one of the faults. A task is a
promise that is settled by the activities on its stack, and a group is a promise that is settled
when all its members are. What is ready runs in the order in which it became ready, in rounds: a
round runs what is ready when it begins, and timers that are due join at the beginning of a round.
-/
import LspClient.Decimal.Double
import LspClient.Fault

namespace LspClient

/-- What a promise is settled with. -/
abbrev Outcome := Except Fault Value

/-- The place of a promise in its loop. -/
abbrev PromiseId := Nat

/-- The number of a timer; later timers have larger ones. -/
abbrev TimerId := Nat

/-- Whether an outcome is that of a cancelled task or promise. -/
def Outcome.isCancelled : Outcome → Bool
  | .error f => f.isCancellation
  | .ok _ => false

/-- Something that runs when its turn comes. -/
inductive Job (ω : Type) where
  /-- A task runs on, without waiting for anything. -/
  | step (task : PromiseId)
  /-- A task runs on, because the promise it awaits is settled. -/
  | wake (task source : PromiseId)
  /-- A promise is settled without a value, unless it is settled already. -/
  | fulfil (promise : PromiseId)
  /-- A member of a group is settled. -/
  | member (group source : PromiseId)
  /-- Something outside the loop happens. -/
  | notify (event : ω)
  /-- What a cancelled timer leaves behind. -/
  | idle
  deriving Inhabited

/-- What settles a promise. -/
inductive Role (φ : Type) where
  /-- Whoever holds it. -/
  | plain
  /-- The activities on the stack, the innermost one first. An interrupted task is cancelled as
  soon as it runs on. -/
  | task (stack : List φ) (awaiting : Option PromiseId) (interrupted : Bool)
  /-- The last of its members. -/
  | group (members : List PromiseId) (left : Nat) (interrupted : Bool)
  deriving Inhabited

structure Promise (φ ω : Type) where
  outcome : Option Outcome := none
  /-- What becomes ready when the promise is settled, in order. -/
  observers : List (Job ω) := []
  role : Role φ := .plain
  deriving Inhabited

structure Timer (ω : Type) where
  id : TimerId
  due : Float
  job : Job ω
  deriving Inhabited

structure Loop (φ ω : Type) where
  /-- The seconds since the loop began. -/
  now : Float := 0.0
  promises : Array (Promise φ ω) := #[]
  /-- What is ready, with the timer it comes from. -/
  ready : List (Option TimerId × Job ω) := []
  /-- How many ready jobs are left in this round. -/
  budget : Nat := 0
  /-- The timers in the order of their times; of timers with the same time, the older one first. -/
  timers : List (Timer ω) := []
  nextTimer : TimerId := 0

instance {φ ω : Type} : Inhabited (Loop φ ω) := ⟨{}⟩

namespace Loop

variable {φ ω : Type}

/-! ## Promises -/

/-- Makes a job ready, behind all others. -/
def schedule (l : Loop φ ω) (job : Job ω) : Loop φ ω :=
  { l with ready := l.ready ++ [(none, job)] }

/-- A new promise. -/
def newPromise (l : Loop φ ω) (role : Role φ := .plain) : PromiseId × Loop φ ω :=
  (l.promises.size, { l with promises := l.promises.push { role } })

/-- What a promise is settled with, if it is settled. -/
def outcome? (l : Loop φ ω) (id : PromiseId) : Option Outcome :=
  l.promises[id]?.bind (·.outcome)

/-- Whether a promise is settled. -/
def isSettled (l : Loop φ ω) (id : PromiseId) : Bool :=
  (l.outcome? id).isSome

/-- What settles a promise. -/
def role? (l : Loop φ ω) (id : PromiseId) : Option (Role φ) :=
  l.promises[id]?.map (·.role)

/-- Changes what settles a promise. -/
def setRole (l : Loop φ ω) (id : PromiseId) (role : Role φ) : Loop φ ω :=
  { l with promises := l.promises.modify id fun p => { p with role } }

/-- Completes a promise with an outcome, unless it is settled already. Its observers become
ready. -/
def complete (l : Loop φ ω) (id : PromiseId) (outcome : Outcome) : Loop φ ω :=
  match l.promises[id]? with
  | some { outcome := none, observers, .. } =>
    { l with
      promises := l.promises.modify id fun p =>
        { p with outcome := some outcome, observers := [] }
      ready := l.ready ++ observers.map fun job => (none, job) }
  | _ => l

/-- Settles a plain promise, unless it is settled already. Tasks and groups are only completed by
what they do. -/
def settle (l : Loop φ ω) (id : PromiseId) (outcome : Outcome) : Loop φ ω :=
  match l.role? id with
  | some .plain => l.complete id outcome
  | _ => l

/-- Adds an observer; it becomes ready at once if the promise is settled already. -/
def observe (l : Loop φ ω) (id : PromiseId) (job : Job ω) : Loop φ ω :=
  if l.isSettled id then l.schedule job
  else
    { l with promises := l.promises.modify id fun p => { p with observers := p.observers ++ [job] } }

/-- Whether a job settles the promise. -/
def Job.fulfils (target : PromiseId) : Job ω → Bool
  | .fulfil p => p == target
  | _ => false

/-- Removes the observers that settle another promise. -/
def unobserve (l : Loop φ ω) (id target : PromiseId) : Loop φ ω :=
  { l with promises := l.promises.modify id fun p =>
      { p with observers := p.observers.filter fun job => !Job.fulfils target job } }

/-! ## Tasks and groups -/

/-- A new task, ready to begin. -/
def spawn (l : Loop φ ω) (activity : φ) : PromiseId × Loop φ ω :=
  let (id, l) := l.newPromise (.task [activity] none false)
  (id, l.schedule (.step id))

/-- A promise for all members, settled or not. -/
def gather (l : Loop φ ω) (members : List PromiseId) : PromiseId × Loop φ ω :=
  let (id, l) := l.newPromise (.group members members.length false)
  (id, members.foldl (fun l m => l.observe m (.member id m)) l)

/-- Counts a settled member of a group; the last one settles the group. -/
def memberSettled (l : Loop φ ω) (group : PromiseId) : Loop φ ω :=
  match l.role? group with
  | some (.group members left interrupted) =>
    let l := l.setRole group (.group members (left - 1) interrupted)
    if left ≤ 1 then l.complete group (if interrupted then .error .cancelled else .ok .null) else l
  | _ => l

/-- Cancels the members of a group one after another and tells whether any of them accepts. -/
def cancelMembers (cancel : PromiseId → Loop φ ω → Bool × Loop φ ω) : List PromiseId → Loop φ ω → Bool × Loop φ ω
  | [], l => (false, l)
  | m :: members, l =>
    let (first, l) := cancel m l
    let (rest, l) := cancelMembers cancel members l
    (first || rest, l)

/-- Asks a promise to be cancelled and tells whether it accepts. A plain promise is settled, a
task passes the request on to what it awaits, and a group to its members. The first argument
bounds how far requests are passed on. -/
def cancelFrom : Nat → PromiseId → Loop φ ω → Bool × Loop φ ω
  | 0, _, l => (false, l)
  | fuel + 1, id, l =>
    match l.promises[id]? with
    | some { outcome := none, role, .. } =>
      match role with
      | .plain => (true, l.settle id (.error .cancelled))
      | .task stack awaiting _ =>
        let (accepted, l) := match awaiting with
          | some source => cancelFrom fuel source l
          | none => (false, l)
        (true, if accepted then l else l.setRole id (.task stack awaiting true))
      | .group members _ _ =>
        let (accepted, l) := cancelMembers (cancelFrom fuel) members l
        if accepted then
          match l.role? id with
          | some (.group members left _) => (true, l.setRole id (.group members left true))
          | _ => (true, l)
        else (false, l)
    | _ => (false, l)

/-- Asks a promise to be cancelled and tells whether it accepts; a settled one does not. -/
def cancel (l : Loop φ ω) (id : PromiseId) : Bool × Loop φ ω :=
  cancelFrom (l.promises.size + 1) id l

/-- Suspends a running task until a promise is settled. A task that was interrupted while it ran
asks that promise to be cancelled. -/
def suspend (l : Loop φ ω) (task : PromiseId) (stack : List φ) (source : PromiseId) :
    Loop φ ω :=
  let interrupted := match l.role? task with
    | some (.task _ _ interrupted) => interrupted
    | _ => false
  let l := (l.observe source (.wake task source)).setRole task (.task stack (some source) interrupted)
  if interrupted then
    let (accepted, l) := l.cancel source
    if accepted then l.setRole task (.task stack (some source) false) else l
  else l

/-- Suspends a running task for one turn. -/
def pause (l : Loop φ ω) (task : PromiseId) (stack : List φ) : Loop φ ω :=
  let interrupted := match l.role? task with
    | some (.task _ _ interrupted) => interrupted
    | _ => false
  (l.setRole task (.task stack none interrupted)).schedule (.step task)

/-- Takes the stack of a task that runs on, and whether the task was interrupted meanwhile. -/
def resume (l : Loop φ ω) (task : PromiseId) : List φ × Bool × Loop φ ω :=
  match l.role? task with
  | some (.task stack _ interrupted) => (stack, interrupted, l.setRole task (.task [] none false))
  | _ => ([], false, l)

/-- Ends a task. One that was interrupted during its last turn is cancelled, unless it failed. -/
def finish (l : Loop φ ω) (task : PromiseId) (outcome : Outcome) : Loop φ ω :=
  match l.role? task, outcome with
  | some (.task _ _ true), .ok _ => l.complete task (.error .cancelled)
  | _, outcome => l.complete task outcome

/-! ## Timers -/

/-- Whether a time has come. -/
def isDue (now due : Float) : Bool :=
  Decimal.orderKey due ≤ Decimal.orderKey now

/-- Puts a timer in its place. -/
def insertTimer (t : Timer ω) : List (Timer ω) → List (Timer ω)
  | [] => [t]
  | u :: rest => if isDue t.due u.due then u :: insertTimer t rest else t :: u :: rest

/-- Makes a job ready after some seconds. -/
def callLater (l : Loop φ ω) (seconds : Float) (job : Job ω) : TimerId × Loop φ ω :=
  (l.nextTimer,
    { l with
      timers := insertTimer ⟨l.nextTimer, l.now + seconds, job⟩ l.timers
      nextTimer := l.nextTimer + 1 })

/-- Makes sure that the job of a timer does not run. -/
def cancelTimer (l : Loop φ ω) (id : TimerId) : Loop φ ω :=
  { l with
    timers := l.timers.filter fun t => t.id != id
    ready := l.ready.map fun (timer, job) => if timer = some id then (none, .idle) else (timer, job) }

/-- The time of the next timer. -/
def nextDue? (l : Loop φ ω) : Option Float :=
  l.timers.head?.map (·.due)

/-- Begins a round: timers that are due become ready. -/
def beginRound (l : Loop φ ω) : Loop φ ω :=
  let ready := l.ready ++ (l.timers.takeWhile fun t => isDue l.now t.due).map fun t => (some t.id, t.job)
  { l with ready, timers := l.timers.dropWhile fun t => isDue l.now t.due, budget := ready.length }

/-- The next job, if any is ready. -/
def next? (l : Loop φ ω) : Option (Job ω × Loop φ ω) :=
  let l := if l.budget = 0 then l.beginRound else l
  match l.ready with
  | [] => none
  | (_, job) :: rest => some (job, { l with ready := rest, budget := l.budget - 1 })

/-! ## Laws -/

theorem outcome?_complete_self (l : Loop φ ω) (id : PromiseId) (outcome : Outcome)
    (h : id < l.promises.size) :
    (l.complete id outcome).outcome? id = some ((l.outcome? id).getD outcome) := by
  unfold complete outcome?
  have hp : l.promises[id]? = some l.promises[id] := Array.getElem?_eq_getElem h
  rw [hp]
  rcases hq : l.promises[id] with ⟨o, observers, role⟩
  cases o <;> simp [hp, hq, Array.getElem?_modify]

/-- A settled promise keeps its outcome whatever is completed later. -/
theorem outcome?_complete_of_settled {l : Loop φ ω} {id : PromiseId} {o : Outcome}
    (h : l.outcome? id = some o) (other : PromiseId) (outcome : Outcome) :
    (l.complete other outcome).outcome? id = some o := by
  unfold outcome? at h ⊢
  unfold complete
  split
  · next heq =>
    by_cases hid : other = id
    · subst hid
      rw [heq] at h
      simp at h
    · simpa [Array.getElem?_modify, hid] using h
  · exact h

/-- A settled promise keeps its outcome whatever is settled later. -/
theorem outcome?_settle_of_settled {l : Loop φ ω} {id : PromiseId} {o : Outcome}
    (h : l.outcome? id = some o) (other : PromiseId) (outcome : Outcome) :
    (l.settle other outcome).outcome? id = some o := by
  unfold settle
  split
  · exact outcome?_complete_of_settled h other outcome
  · exact h

end Loop

end LspClient
