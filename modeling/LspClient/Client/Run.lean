/-
Running a client: its tasks go on one after the other until nothing is ready, and its clock moves
from one timer to the next.
-/
import LspClient.Client.Host

namespace LspClient.Client

/-- Goes on with an activity that begins; a task that is cancelled before does not begin at all. -/
def beginning (o : Outcome) (next : ClientM Next) : ClientM Next := do
  let _ ← valueOf o
  next

/-- Goes on with an activity. -/
def goOn (a : Activity) (o : Outcome) : ClientM Next :=
  match a with
  | .relay => return .done (← valueOf o)
  | .await p => beginning o (return .await p .relay)
  | .sleep delay => beginning o (sleep delay)
  | .slept timer => slept timer o
  | .within inner limit => beginning o (within inner limit)
  | .withinAwaited task waiter timer => withinAwaited task waiter timer o
  | .halt task => beginning o (halt task)
  | .halted task waiter => halted task waiter o
  | .overdue task timer => overdue task timer o
  | .abandoned timer f => abandoned timer f o
  | .start s => beginning o (start s)
  | .started s => started s o
  | .attempt s => beginning o (beginAttempt s)
  | .attemptReleased s => attemptReleased s o
  | .attemptOpened s t => attemptOpened s t o
  | .attemptAbandoned s => attemptAbandoned s o
  | .attemptAnswered s _ => attemptAnswered s o
  | .attemptFailed s f => attemptFailed s f o
  | .stop s clear => beginning o (stop s clear)
  | .stopAnnounced s clear => stopAnnounced s clear o
  | .stopReleased s clear f => stopReleased s clear f o
  | .shutDown s => beginning o (shutDown s)
  | .shutDownAnswered s => shutDownAnswered s o
  | .fail s f => beginning o (fail s f)
  | .failReleased s f => failReleased s f o
  | .release s => beginning o (release s)
  | .releaseReader s t => releaseReader s t o
  | .releaseAnswers s t => releaseAnswers s t o
  | .releaseClosed s => releaseClosed s o
  | .restart s delay => beginning o (return .call (.sleep delay) (.restartSlept s))
  | .restartSlept s => restartSlept s o
  | .restartTried s => restartTried s o
  | .readLoop s t => beginning o (return .call (.receive t) (.readLoopReceived s t))
  | .readLoopReceived s t => readLoopReceived s t o
  | .lostFailed s f => lostFailed s f o
  | .answer s id method params => beginning o (answer s id method params)
  | .answered s id method => answered s id method o
  | .react r argument => beginning o (reactSlowly r argument)
  | .reacted r => reacted r o
  | .openTransport t => beginning o (openTransport t)
  | .openDelayed t => openDelayed t o
  | .connect t => beginning o (connect t)
  | .connectDelayed _ => connectDelayed o
  | .connected t => connected t o
  | .receive t => beginning o (receive t)
  | .receiveQueued t getter => receiveQueued t getter o
  | .receiveFramed => receiveFramed o
  | .takeFrame p limit phase => beginning o (takeFrame p limit phase false)
  | .takeFrameMore p limit phase => takeFrameMore p limit phase o
  | .drain p => beginning o (drain p)
  | .drainMore p => drainMore p o
  | .closeTransport t => beginning o (closeTransport t)
  | .closeDelayed _ => closeDelayed o
  | .awaitExit i => beginning o (awaitExit i)
  | .closeAwaited t i => closeAwaited t i o
  | .closeTerminated t i => closeTerminated t i o
  | .closeKilled t i => closeKilled t i o
  | .closeDrained i => closeDrained i o
  | .post index batch => beginning o (post index batch)
  | .posted batch answer => posted batch answer o
  | .flush index => beginning o (flush index)
  | .closeBackend index => beginning o (closeBackend index)
  | .closeSink index => beginning o (closeSink index)
  | .closeSinkOne index => closeSinkOne index o
  | .activate installed => beginning o (activate installed)
  | .activated s => activated s o
  | .deactivate s => beginning o (deactivate s)
  | .deactivateOne s => deactivateOne s o
  | .runHost resyncs => beginning o (return .call (.activate []) (.runActivated resyncs))
  | .runActivated resyncs => runActivated resyncs o
  | .runGivenUp => runGivenUp o
  | .runDeactivated outcome => runDeactivated outcome o

/-! ## Tasks -/

/-- What a running task does after one of its activities has gone on, with the activities that
called it. The activities that are left are answered, with what the innermost of them goes on with,
unless the task has to wait. -/
def follow (task : PromiseId) (rest : List Activity) :
    Except Fault Next → ClientM (Option (List Activity × Outcome))
  | .error f => return some (rest, .error f)
  | .ok (.done v) => return some (rest, .ok v)
  | .ok (.become b) => return some (b :: rest, .ok .null)
  | .ok (.call inner k) => return some (inner :: k :: rest, .ok .null)
  | .ok (.yield k) => do
    onLoop fun l => l.pause task (k :: rest)
    return none
  | .ok (.await p k) => do
    match (← get).loop.outcome? p with
    | some o => return some (k :: rest, o)
    | none =>
      onLoop fun l => l.suspend task (k :: rest) p
      return none

/-- Lets the innermost activity of a running task go on. -/
def runActivity (task : PromiseId) (a : Activity) (rest : List Activity) (o : Outcome) :
    ClientM (Option (List Activity × Outcome)) := do
  follow task rest (← tryCatch (do return .ok (← goOn a o)) fun f => return .error f)

/-- Runs a task until it has to wait or ends. The first argument bounds how far it runs. -/
def runStack (task : PromiseId) : Nat → List Activity → Outcome → ClientM Unit
  | 0, _, _ => pure ()
  | _ + 1, [], o => onLoop fun l => l.finish task o
  | fuel + 1, a :: rest, o => do
    match ← runActivity task a rest o with
    | some (stack, o) => runStack task fuel stack o
    | none => pure ()

/-- How far a task runs without waiting, at most. -/
def taskFuel : Nat := 1000000

/-- Lets a task go on with an outcome; one that was interrupted is cancelled. -/
def runTask (task : PromiseId) (o : Outcome) : ClientM Unit := do
  let (stack, interrupted) ← withLoop fun l =>
    let (stack, interrupted, l) := l.resume task
    ((stack, interrupted), l)
  modify fun c => { c with running := some task }
  runStack task taskFuel stack (if interrupted then .error .cancelled else o)
  modify fun c => { c with running := none }

/-- Handles an event of the loop. -/
def handleEvent (e : Event) : ClientM Unit := do
  match e with
  | .requestExpired owner id timeout => requestExpired owner id timeout
  | .requestSettled owner id promise => requestSettled owner id promise
  | .handleSettled label promise steps =>
    match (← get).loop.outcome? promise with
    | some o => note (.settled label o)
    | none => pure ()
    steps.forM fun step => do let _ ← execute step
  | .taskEnded name promise =>
    match (← get).loop.outcome? promise with
    | some o => note (.ended name o)
    | none => pure ()
  | .answerEnded s promise =>
    onSession s fun x => { x with answering := x.answering.filter (· != promise) }
  | .postEnded index promise =>
    match ← poster? index with
    | some p => setBackend index (.http { p with posts := p.posts.filter (· != promise) })
    | none => pure ()
  | .childExits i code => childExits i code

/-- Runs a job. What goes wrong in an event stops there. -/
def runJob (job : Job Event) : ClientM Unit := do
  match job with
  | .step task => runTask task (.ok .null)
  | .wake task source =>
    match (← get).loop.outcome? source with
    | some o => runTask task o
    | none => pure ()
  | .fulfil p => onLoop fun l => l.settle p (.ok .null)
  | .member group _ => onLoop fun l => l.memberSettled group
  | .notify e => tryCatch (handleEvent e) fun _ => pure ()
  | .idle => pure ()

/-- Runs what is ready until nothing is. The argument bounds the number of jobs. -/
def runReady : Nat → ClientM Unit
  | 0 => pure ()
  | fuel + 1 => do
    let c ← get
    match c.loop.next? with
    | none => pure ()
    | some (job, loop) =>
      set { c with loop }
      runJob job
      runReady fuel

/-- How many jobs run at a time, at most. -/
def jobFuel : Nat := 1000000

/-- Runs what is ready until nothing is. -/
def settleDown : ClientM Unit :=
  runReady jobFuel

/-- Moves the clock from timer to timer up to a time. -/
def advanceTo (target : Float) : Nat → ClientM Unit
  | 0 => pure ()
  | fuel + 1 => do
    match (← get).loop.nextDue? with
    | some due =>
      if Loop.isDue target due then
        onLoop fun l => if Loop.isDue l.now due then l else { l with now := due }
        settleDown
        advanceTo target fuel
      else onLoop fun l => { l with now := target }
    | none => onLoop fun l => { l with now := target }

/-- How many timers fire at a time, at most. -/
def timerFuel : Nat := 1000000

/-- Moves the clock by some seconds. -/
def advance (n : Number) : ClientM Unit := do
  let target := (← get).loop.now + n.toFloat
  advanceTo target timerFuel

end LspClient.Client
