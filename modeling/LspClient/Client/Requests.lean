/-
Messages that a session sends: requests with their handles, notifications, and the settling of
requests when responses come, time is up or callers lose interest.
-/
import LspClient.Client.Handlers
import LspClient.Client.Wire

namespace LspClient.Client

/-! ## The registry -/

/-- The events of a registry. -/
def registryEvents (owner : Owner) : Registry.Events Event :=
  ⟨.requestExpired owner, .requestSettled owner⟩

/-- Registers a request. -/
def register (owner : Owner) (id : RequestId) (method : String) (timeout : Option Number)
    (onCancel : Option CancelHook) : ClientM Handle := do
  let promise ← withRegistry owner
    (Registry.register (registryEvents owner) id method timeout onCancel)
  return ⟨owner, id, method, promise⟩

/-- Logs that a request was not pending any more, and tells whether it was. -/
def reportSettlement (id : RequestId) (settlement : Registry.Settlement) : ClientM Bool := do
  match settlement with
  | .settled => return true
  | .late =>
    log .debug .registry ("Dropping late response for cancelled request " ++ id.literal)
    return false
  | .unknown =>
    log .debug .registry ("Dropping response for unknown request " ++ id.literal)
    return false

/-- Settles a request and tells whether it was pending. -/
def settleRequest (owner : Owner) (id : RequestId) (o : Outcome) : ClientM Bool := do
  reportSettlement id (← withRegistry owner (Registry.settle id o))

/-- Rejects every pending request of an owner. -/
def rejectAll (owner : Owner) (f : Fault) : ClientM Nat :=
  withRegistry owner (Registry.rejectAll f)

/-! ## Writing -/

/-- Writes the text of a message to the server of a session. -/
def writeText (s : SessionId) (purpose : Purpose) (text : Except Fault String) : ClientM Unit := do
  match text with
  | .error f => throw f
  | .ok text =>
    match (← session s).transport with
    | none => throw (.connection "No transport")
    | some t =>
      onTransport t fun x => { x with attempts := x.attempts ++ [(purpose, text)] }
      write t text

/-- Tells the server that a request is cancelled. -/
def tellServerCancelled (s : SessionId) (id : RequestId) : ClientM Unit := do
  if (← session s).lifecycle.isRunning then
    catchTransport
      (writeText s .cancellation
        (Message.formatNotification Session.cancelMethod (.object [("id", id.toValue)])))
      fun f => logSession s .debug
        ("Could not send cancellation for " ++ id.literal ++ ": " ++ f.message)
        [("request_id", id.toValue)]

/-! ## Cancelling and expiry -/

/-- Does what the caller of a cancelled request wants done. -/
def runCancelHook (owner : Owner) (p : Pending CancelHook) : ClientM Unit := do
  let hook : ClientM Unit := do
    match p.onCancel, owner with
    | none, _ => pure ()
    | some .tellServer, .session s => tellServerCancelled s p.id
    | some .tellServer, .alone => pure ()
    | some (.record fails), _ =>
      note (.cancelled p.id)
      if fails then throw (.runtime "cancel callback failed")
  match ← attempt hook with
  | .ok () => pure ()
  | .error f =>
    log .error .registry ("Cancel callback failed for request " ++ p.id.literal) [] (some f)

/-- Cancels a request and tells whether it was pending. -/
def cancelRequest (owner : Owner) (id : RequestId) : ClientM Bool := do
  match ← withRegistry owner (Registry.cancel id) with
  | none => return false
  | some p =>
    runCancelHook owner p
    return true

/-- The promise of a request is settled: if it was cancelled behind the registry's back, the
request is forgotten. -/
def requestSettled (owner : Owner) (id : RequestId) (promise : PromiseId) : ClientM Unit := do
  match ← withRegistry owner (Registry.forgetCancelled id promise) with
  | none => pure ()
  | some p =>
    log .debug .registry
      ("Request " ++ id.literal ++ " (" ++ p.method ++ ") cancelled by its caller")
    runCancelHook owner p

/-- The time of a request is up. -/
def requestExpired (owner : Owner) (id : RequestId) (timeout : Number) : ClientM Unit := do
  match (← registryOf owner).find? id with
  | none => pure ()
  | some p =>
    log .warning .registry
      ("Request " ++ id.literal ++ " (" ++ p.method ++ ") timed out after " ++ timeout.text ++ "s")
      [("request_id", id.toValue), ("method", .str p.method)]
    let _ ← reportSettlement id (← withRegistry owner (Registry.expire id timeout))

/-! ## Requests and notifications -/

/-- Sends a request without a look at the state of the session. A request that cannot be written is
rejected at once. -/
def sendUnchecked (s : SessionId) (purpose : Purpose) (method : String) (params : Value)
    (timeout : Option Number) : ClientM Handle := do
  let id := RequestId.int (← session s).nextId
  onSession s fun x => { x with nextId := x.nextId + 1 }
  let handle ← register (.session s) id method timeout (some .tellServer)
  catchTransport (writeText s purpose (Message.formatRequest id method params)) fun f => do
    reportProtocolFault s ("Failed to send request: " ++ f.message) [("method", .str method)]
    let _ ← settleRequest (.session s) id (.error f)
  return handle

/-- Refuses an operation unless the session is running. -/
def requireRunning (s : SessionId) (operation : String) : ClientM Unit := do
  match (← session s).lifecycle.requireRunning operation with
  | .ok () => pure ()
  | .error f => throw f

/-- Sends a request. -/
def sendRequest (s : SessionId) (method : String) (params : Value) (patience : Patience) :
    ClientM Handle := do
  requireRunning s ("send request " ++ Text.quoted method)
  let timeout ← match patience with
    | .default => pure (← session s).settings.requestTimeout
    | .atMost timeout => pure timeout
  sendUnchecked s .request method params timeout

/-- Sends a notification. Failing to write it is reported and not raised. -/
def sendNotification (s : SessionId) (method : String) (params : Value) : ClientM Unit := do
  requireRunning s ("send notification " ++ Text.quoted method)
  catchTransport (writeText s .notification (Message.formatNotification method params)) fun f =>
    reportProtocolFault s ("Failed to send notification: " ++ f.message) [("method", .str method)]

/-- Asks the server to resync its inventory, if the session is running, and tells whether it is. -/
def resync (s : SessionId) : ClientM Bool := do
  let x ← session s
  if x.lifecycle.isRunning then
    sendNotification s Session.resyncMethod .null
    return true
  else
    log .info .commands ("Session " ++ x.name ++ " is " ++ x.state.name
      ++ ", skipping inventory resync")
    return false

end LspClient.Client
