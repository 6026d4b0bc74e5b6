/-
The life of a session: starting and stopping it, losing its connection, and starting it again as
its policy allows. Wherever a session waits, it may have been stopped or started by others
meanwhile, so each step looks at the state again.
-/
import LspClient.Client.Incoming
import LspClient.Client.Transport
import LspClient.Settings.Transport

namespace LspClient.Client

/-- Moves a session to a state that may follow. -/
def transition (s : SessionId) (target : SessionState) : ClientM Unit := do
  match (← session s).lifecycle.transition target with
  | .ok lifecycle => onSession s fun x => { x with lifecycle }
  | .error f => throw f

/-- The name of the state of a session. -/
def stateName (s : SessionId) : ClientM Value := do
  return .str (← session s).state.name

/-! ## Messages for the user -/

/-- Shows a message of the host to the user. -/
def tellUser (message : String) : ClientM Unit := do
  modify fun c => { c with host := c.host.map fun h => { h with told := h.told ++ [message] } }
  match (← get).messenger with
  | .watcher fails =>
    note (.told message)
    if fails then throw (.runtime "notifier failed")
  | _ => log .warning .host message

/-- Shows a message of a session to the user. -/
def tell (s : SessionId) (message : String) : ClientM Unit := do
  let x := (← session s).settings
  if x.hasOutput then showLine message
  let shown : ClientM Unit := do
    match x.messenger with
    | .nobody => pure ()
    | .watcher fails =>
      note (.told message)
      if fails then throw (.runtime "notifier failed")
    | .host => tellUser message
  match ← attempt shown with
  | .ok () => pure ()
  | .error f => logSession s .error ("Host notification failed for " ++ x.name) [] (some f)

/-! ## Transports of a session -/

/-- Makes the transport that a session uses next. -/
def makeTransport : ClientM TransportId := do
  let c ← get
  match c.host, c.usesSettings with
  | some host, true =>
    let debug := host.settings.debug
    if debug.enabled then
      log .info .host ("Connecting to language server on " ++ debug.host ++ ":"
        ++ debug.port.wholeText)
    newTransport (← answerOf (host.settings.transport c.environment))
  | _, _ =>
    if !c.peer.factoryError.isEmpty then throw (.connection c.peer.factoryError)
    newTransport { carrier := if c.peer.framed then .wire else .queue, maxSize := c.peer.frameLimit }

/-! ## Releasing -/

/-- Begins to give up the transport of a session: its reader is cancelled first. -/
def release (s : SessionId) : ClientM Next := do
  let x ← session s
  onSession s fun x => { x with reader := none, transport := none }
  match x.reader with
  | some reader =>
    if (← get).running = some reader then return .become (.releaseReader s x.transport)
    let _ ← cancelPromise reader
    gather [reader] (.releaseReader s x.transport)
  | none => return .become (.releaseReader s x.transport)

/-- The reader has ended: the tasks that answer requests of the server are cancelled next. -/
def releaseReader (s : SessionId) (t : Option TransportId) (o : Outcome) : ClientM Next := do
  let _ ← valueOf o
  let running := (← get).running
  let tasks := (← session s).answering.filter fun task => running ≠ some task
  onSession s fun x => { x with answering := x.answering.filter fun task => !tasks.contains task }
  for task in tasks do
    let _ ← cancelPromise task
  if tasks.isEmpty then return .become (.releaseAnswers s t)
  gather tasks (.releaseAnswers s t)

/-- Nothing uses the transport any more: it is closed. -/
def releaseAnswers (s : SessionId) (t : Option TransportId) (o : Outcome) : ClientM Next := do
  let _ ← valueOf o
  match t with
  | some t => return .call (.closeTransport t) (.releaseClosed s)
  | none => return .done .null

/-- The transport is closed, or closing it failed. -/
def releaseClosed (s : SessionId) (o : Outcome) : ClientM Next := do
  match o with
  | .ok _ => return .done .null
  | .error f =>
    if f.isTransport || f.isSystem then
      logSession s .warning
        ("Error closing transport for " ++ (← session s).name ++ ": " ++ f.message)
      return .done .null
    else throw f

/-! ## Failures -/

/-- Begins to fail: all requests are given up. -/
def fail (s : SessionId) (f : Fault) : ClientM Next := do
  transition s .failed
  let _ ← rejectAll (.session s)
    (.termination ("Session " ++ (← session s).name ++ " terminated: " ++ f.message))
  return .call (.release s) (.failReleased s f)

/-- The transport of a failed session is released. -/
def failReleased (s : SessionId) (f : Fault) (o : Outcome) : ClientM Next := do
  let _ ← valueOf o
  dispatchEvent s Session.failedEvent (.fault f)
  return .done .null

/-- Counts a failure, and starts the session again later or gives it up. -/
def applyPolicy (s : SessionId) (f : Fault) (autoRestart : Bool) : ClientM Unit := do
  onSession s fun x => { x with policy := x.policy.countFailure }
  let x ← session s
  let decision ← match x.policy.decide with
    | .ok d => pure d
    | .error f => throw f
  emitTelemetry s (← recordOf Telemetry.transportFailureEvent
    [("session", .str x.name), ("errorType", .str "TransportError"),
      ("attempt", .int decision.attempt), ("error", .str f.message)])
  if decision.restart then
    if !autoRestart then return
    if !(← session s).failureNotified then
      onSession s fun x => { x with failureNotified := true }
      tell s x.crashMessage
    logSession s .info ("Restarting session " ++ x.name ++ " in "
      ++ Decimal.fixed 1 decision.delay.toFloat ++ "s (failure " ++ toString decision.attempt
      ++ " of " ++ decision.threshold.wholeText ++ ")")
    let task ← spawn (.restart s decision.delay)
    onSession s fun x => { x with restarting := some task }
  else
    logSession s .error ("Session " ++ x.name ++ " failed " ++ toString decision.attempt
      ++ " consecutive times, giving up")
    emitTelemetry s (← recordOf Telemetry.restartThresholdEvent
      [("session", .str x.name), ("attempts", .int decision.attempt),
        ("threshold", decision.threshold.toValue), ("error", .str f.message)])
    tell s (x.givenUpMessage decision.attempt)
    dispatchEvent s Session.fatalEvent (.fault f)

/-- Calls off a restart that has not begun to run, or is under way. -/
def cancelRestart (s : SessionId) : ClientM Unit := do
  let x ← session s
  onSession s fun x => { x with restarting := none }
  match x.restarting with
  | some task =>
    if (← get).running ≠ some task then
      let _ ← cancelPromise task
  | none => pure ()

/-- The connection of a transport is lost. -/
def connectionLost (s : SessionId) (t : TransportId) (f : Fault) : ClientM Next := do
  let x ← session s
  if x.transport ≠ some t then return .done .null
  match x.state with
  | .starting =>
    let _ ← rejectAll (.session s) (.termination ("Connection lost: " ++ f.message))
    return .done .null
  | .running =>
    logSession s .warning ("Session " ++ x.name ++ " lost its connection: " ++ f.message)
    return .call (.fail s f) (.lostFailed s f)
  | _ => return .done .null

/-- A session that lost its connection has failed. -/
def lostFailed (s : SessionId) (f : Fault) (o : Outcome) : ClientM Next := do
  let _ ← valueOf o
  applyPolicy s f true
  return .done .null

/-- A message is handled, or handling it failed: the reader reads on, if it can. -/
def bodyHandled (s : SessionId) (t : TransportId) : Except Fault Unit → ClientM Next
  | .ok () => return .become (.readLoop s t)
  | .error f => if f.isTransport then connectionLost s t f else throw f

/-- The reader has received a message or the end of the stream, or reading failed. -/
def readLoopReceived (s : SessionId) (t : TransportId) (o : Outcome) : ClientM Next := do
  match o with
  | .ok (.bytes body) => bodyHandled s t (← attempt (handleBody s body))
  | .ok _ => connectionLost s t (.connection "Connection to server closed")
  | .error f =>
    if f.isProtocol then
      rejectBadMessage s f
      return .become (.readLoop s t)
    else if f.isTransport then connectionLost s t f
    else throw f

/-! ## Restarting -/

/-- Time has passed since a failure: the session is started again, if it has still failed. -/
def restartSlept (s : SessionId) (o : Outcome) : ClientM Next := do
  let _ ← valueOf o
  if (← session s).state = .failed then return .call (.attempt s) (.restartTried s)
  return .done .null

/-- The session was started again, or not. -/
def restartTried (s : SessionId) (o : Outcome) : ClientM Next := do
  match o with
  | .ok _ => return .done .null
  | .error f =>
    if f.isTermination then return .done .null
    else if f.isTransport then
      if (← session s).state = .failed then applyPolicy s f true
      return .done .null
    else throw f

/-! ## Starting -/

/-- Tells telemetry how a start went. -/
def sendStartup (s : SessionId) (success : Bool) (error : List (String × Value)) :
    ClientM Unit := do
  let x ← session s
  if x.settings.hasTelemetry then
    send (← recordOf Telemetry.startupEvent
      ([("session", .str x.name), ("success", .bool success)] ++ error))

/-- Begins to start a session; one that starts or runs already is left alone. -/
def start (s : SessionId) : ClientM Next := do
  match (← session s).state with
  | .starting | .running => return .done (← stateName s)
  | .stopping => throw (.general "Session is stopping" [])
  | _ =>
    cancelRestart s
    return .call (.attempt s) (.started s)

/-- An attempt to start a session has ended. -/
def started (s : SessionId) (o : Outcome) : ClientM Next := do
  match o with
  | .ok _ =>
    sendStartup s true []
    return .done (← stateName s)
  | .error f =>
    if f.isTermination then return .done (← stateName s)
    else if f.isTransport then
      sendStartup s false [("error", .str f.message)]
      applyPolicy s f false
      throw f
    else throw f

/-- Begins an attempt to start a session. -/
def beginAttempt (s : SessionId) : ClientM Next := do
  transition s .starting
  return .call (.release s) (.attemptReleased s)

/-- An attempt went wrong. It was interrupted, if the session does not start any more. -/
def attemptFault (s : SessionId) (f : Fault) : ClientM Next := do
  if !f.isSession then throw f
  let x ← session s
  if x.state ≠ .starting then throw x.interruptedFault
  return .call (.fail s f) (.attemptFailed s f)

/-- An attempt has failed, and so has the session. -/
def attemptFailed (s : SessionId) (f : Fault) (o : Outcome) : ClientM Next := do
  let _ ← valueOf o
  throw (.connection ((← session s).settings.label ++ " server failed to start: " ++ f.message))

/-- There is a new transport, or it could not be made. -/
def attemptMade (s : SessionId) : Except Fault TransportId → ClientM Next
  | .error f => attemptFault s f
  | .ok t => do
    onSession s fun x => { x with transport := some t }
    return .call (.openTransport t) (.attemptOpened s t)

/-- The old transport is released: a new one is made and opened. -/
def attemptReleased (s : SessionId) (o : Outcome) : ClientM Next := do
  let _ ← valueOf o
  logSession s .info ("Starting session " ++ (← session s).name)
  attemptMade s (← attempt makeTransport)

/-- The first request is sent, or could not be. -/
def attemptSent (s : SessionId) (t : TransportId) : Except Fault Handle → ClientM Next
  | .error f => attemptFault s f
  | .ok handle => return .await handle.promise (.attemptAnswered s t)

/-- The transport is open: the first request is sent, unless the attempt was abandoned. -/
def attemptOpened (s : SessionId) (t : TransportId) (o : Outcome) : ClientM Next := do
  match o with
  | .error f => attemptFault s f
  | .ok _ =>
    let x ← session s
    if x.transport ≠ some t then return .call (.closeTransport t) (.attemptAbandoned s)
    let reader ← spawn (.readLoop s t)
    onSession s fun x => { x with reader := some reader }
    attemptSent s t (← attempt (sendUnchecked s .handshake Session.initializeMethod
      x.settings.initializeParams x.settings.initializeTimeout))

/-- The transport of an abandoned attempt is closed. -/
def attemptAbandoned (s : SessionId) (o : Outcome) : ClientM Next := do
  match o with
  | .error f => attemptFault s f
  | .ok _ => attemptFault s (← session s).interruptedFault

/-- What a server says it can do. -/
def capabilitiesOf (result : Value) : Value :=
  let capabilities := result.getD "capabilities"
  if capabilities.isTruthy then capabilities else .object []

/-- The session runs; its server can do what it says. -/
def beginRunning (s : SessionId) (capabilities : Value) : ClientM Next := do
  onSession s fun x => { x with capabilities }
  transition s .running
  onSession s fun x => { x with policy := x.policy.reset, failureNotified := false }
  logSession s .info ("Session " ++ (← session s).name ++ " running")
  dispatchEvent s Session.startedEvent .none
  return .done .null

/-- The first notification is sent, or could not be: the session runs, unless it was stopped
meanwhile. -/
def attemptTold (s : SessionId) (result : Value) : Except Fault Unit → ClientM Next
  | .error f => attemptFault s f
  | .ok () => do
    let x ← session s
    if x.state ≠ .starting then throw x.interruptedFault
    beginRunning s (capabilitiesOf result)

/-- The first request is answered: the first notification is sent. -/
def attemptAnswered (s : SessionId) (o : Outcome) : ClientM Next := do
  match o with
  | .error f => attemptFault s f
  | .ok result =>
    attemptTold s result (← attempt (writeText s .initialized
      (Message.formatNotification Session.initializedMethod (.object []))))

/-! ## Stopping -/

/-- Forgets the handlers of notifications, if asked to. -/
def clearNotifications (s : SessionId) (clear : Bool) : ClientM Unit := do
  if clear then onSession s fun x => { x with notifications := x.notifications.clear }

/-- Gives up all requests and releases the transport. -/
def stopRelease (s : SessionId) (clear : Bool) (f : Option Fault) : ClientM Next := do
  let _ ← rejectAll (.session s) (← session s).stoppedFault
  return .call (.release s) (.stopReleased s clear f)

/-- Begins to stop a session that is in a state; a running one first takes leave of its server. -/
def stopFrom (s : SessionId) (clear : Bool) : SessionState → ClientM Next
  | .stopping => return .done (← stateName s)
  | .stopped => do
    clearNotifications s clear
    return .done (← stateName s)
  | state => do
    cancelRestart s
    transition s .stopping
    logSession s .info ("Stopping session " ++ (← session s).name)
    if state = .running then return .call (.shutDown s) (.stopAnnounced s clear)
    stopRelease s clear none

/-- Begins to stop a session. -/
def stop (s : SessionId) (clear : Bool) : ClientM Next := do
  stopFrom s clear (← session s).state

/-- The server knows that the session stops. -/
def stopAnnounced (s : SessionId) (clear : Bool) (o : Outcome) : ClientM Next :=
  match o with
  | .ok _ => stopRelease s clear none
  | .error f => stopRelease s clear (some f)

/-- A session has stopped. What went wrong on the way is raised now. -/
def stopEnded (s : SessionId) : Option Fault → ClientM Next
  | some f => throw f
  | none => do
    logSession s .info ("Session " ++ (← session s).name ++ " stopped")
    dispatchEvent s Session.stoppedEvent .none
    return .done (← stateName s)

/-- The transport of a stopping session is released. -/
def stopReleased (s : SessionId) (clear : Bool) (f : Option Fault) (o : Outcome) :
    ClientM Next := do
  let _ ← valueOf o
  transition s .stopped
  clearNotifications s clear
  stopEnded s f

/-- Sends the last request of a session. -/
def shutDown (s : SessionId) : ClientM Next := do
  let handle ← sendUnchecked s .shutdown Session.shutdownMethod .null
    (← session s).settings.shutdownTimeout
  return .await handle.promise (.shutDownAnswered s)

/-- The last request is answered, or given up: the last notification is sent. -/
def shutDownAnswered (s : SessionId) (o : Outcome) : ClientM Next := do
  let name := (← session s).name
  match o with
  | .ok _ => pure ()
  | .error f =>
    if f.isSession then
      logSession s .debug ("Shutdown request for " ++ name ++ " failed: " ++ f.message)
    else throw f
  catchTransport (writeText s .exit (Message.formatNotification Session.exitMethod)) fun f =>
    logSession s .debug ("Exit notification for " ++ name ++ " failed: " ++ f.message)
  return .done .null

end LspClient.Client
