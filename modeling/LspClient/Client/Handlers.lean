/-
Calling handlers. What a failing handler raises is logged and reported, and the other handlers are
still called.
-/
import LspClient.Client.Telemetry

namespace LspClient.Client

/-- Executes the steps of a reaction; the ones that fail are noted. -/
def reactSteps (label : String) (steps : List Step) : ClientM Unit :=
  steps.forM fun step => do
    match ← attempt (execute step) with
    | .ok _ => pure ()
    | .error f => note (.got [.text label, .text "do failed", .fault f])

/-- Begins a reaction: what it is called with is noted, and its steps are executed. -/
def beginReaction (r : Reaction) (argument : Display) : ClientM Unit := do
  note (.got [.text r.label, argument])
  reactSteps r.label r.steps

/-- Ends a reaction. -/
def endReaction (r : Reaction) : ClientM Value :=
  match r.ending with
  | .returns v => pure v
  | .raises f => throw f

/-- Calls a reaction that does not pause. -/
def react (r : Reaction) (argument : Display) : ClientM Value := do
  beginReaction r argument
  endReaction r

/-- Calls a handler whose answer nobody awaits; a reaction that pauses then does nothing. -/
def callHandler (argument : Display) : Handler → ClientM Unit
  | .script r =>
    if r.pause.isSome then pure ()
    else do let _ ← react r argument
  | .logResync s => do
    let name := (← session s).name
    let text := match argument with
      | .value v => v.text
      | _ => ""
    log .info .commands ("Inventory resync event from " ++ name ++ ": " ++ text)
  | .giveUp => do
    match (← get).givenUp with
    | some p => onLoop fun l => l.settle p (.ok .null)
    | none => pure ()

/-- Calls the handlers of a method in a router with a name of its own; `report` is told about each
fault. -/
def dispatchIn (r : Router Handler) (routerName method : String) (argument : Display)
    (report : Fault → ClientM Unit) : ClientM Nat :=
  r.dispatch method (callHandler argument) fun f => do
    log .error .router (routerName ++ " handler for " ++ Text.quoted method ++ " failed") [] (some f)
    match ← attempt (report f) with
    | .ok () => pure ()
    | .error f =>
      log .error .router (routerName ++ " error hook failed for " ++ Text.quoted method) [] (some f)

/-- Sends a record to telemetry and calls the handlers of a session for it. -/
def emitTelemetry (s : SessionId) (r : Telemetry.Record) : ClientM Unit := do
  if (← session s).settings.hasTelemetry then send r
  let _ ← dispatchIn (← session s).telemetryHandlers "telemetry" Session.telemetryTopic
    (.value r.toValue) fun _ => pure ()

/-- Reports the fault of a handler of a session. -/
def reportHandlerFault (s : SessionId) (method : String) (f : Fault) : ClientM Unit := do
  emitTelemetry s (← recordOf Telemetry.handlerErrorEvent
    [("session", .str (← session s).name), ("errorType", .str f.kind), ("method", .str method),
      ("message", .str f.message)])

/-- Calls the handlers of a session for a notification of the server. -/
def dispatchNotification (s : SessionId) (method : String) (params : Value) : ClientM Unit := do
  let _ ← dispatchIn (← session s).notifications "notification" method (.value params)
    (reportHandlerFault s method)

/-- Calls the handlers of a session for an event. -/
def dispatchEvent (s : SessionId) (event : String) (argument : Display) : ClientM Unit := do
  let _ ← dispatchIn (← session s).events "event" event argument (reportHandlerFault s event)

/-- Logs a record of a session. -/
def logSession (s : SessionId) (level : Log.Level) (message : String)
    (fields : List (String × Value) := []) (fault : Option Fault := none) : ClientM Unit := do
  log level .session message (("session", .str (← session s).name) :: fields) fault

/-- Reports that the server or the connection broke the protocol. -/
def reportProtocolFault (s : SessionId) (message : String) (properties : List (String × Value)) :
    ClientM Unit := do
  let name := (← session s).name
  logSession s .warning ("Protocol error in session " ++ name ++ ": " ++ message)
  emitTelemetry s (← recordOf Telemetry.protocolErrorEvent
    ([("session", .str name), ("errorType", .str "ProtocolError"), ("message", .str message)]
      ++ properties))

end LspClient.Client
