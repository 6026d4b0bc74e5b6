/-
Messages that a session receives: responses settle requests, notifications go to their handlers,
and requests of the server are answered by tasks of their own.
-/
import LspClient.Client.Requests

namespace LspClient.Client

/-- Reports a message that cannot be used, and rejects the request that it answers, if that is
known. -/
def rejectBadMessage (s : SessionId) (f : Fault) : ClientM Unit := do
  let code := match f with
    | .protocol _ (some code) _ _ => [("code", .int code)]
    | _ => []
  let id := match f.requestId? with
    | some id => [("request_id", id.toValue)]
    | none => []
  reportProtocolFault s f.message (code ++ id)
  match f.requestId? with
  | some id =>
    let _ ← settleRequest (.session s) id (.error f)
  | none => pure ()

/-- Settles the request that a response answers. -/
def handleResponse (s : SessionId) (id : RequestId) (o : Outcome) : ClientM Unit := do
  let settled ← settleRequest (.session s) id o
  if !settled && !(← session s).registry.wasCancelled id then
    reportProtocolFault s ("Response for unknown request id " ++ id.literal)
      [("request_id", id.toValue)]

/-- Shows a message of the server in the output channel. -/
def showMessage (params : Value) : ClientM Unit := do
  match Session.outputLine (clockOfMicros (← time)) params with
  | .ok line => showLine line
  | .error f => throw f

/-- Handles a notification of the server. -/
def handleNotification (s : SessionId) (method : String) (params : Value) : ClientM Unit := do
  if method = Session.telemetryMethod then
    emitTelemetry s (.ofPayload params (timestamp (← time)))
  else if Session.outputMethods.contains method && (← session s).settings.hasOutput then
    showMessage params
  dispatchNotification s method params

/-- Begins to answer a request of the server. -/
def handleRequest (s : SessionId) (id : RequestId) (method : String) (params : Value) :
    ClientM Unit := do
  let task ← spawn (.answer s id method params)
  onSession s fun x => { x with answering := x.answering ++ [task] }
  onLoop fun l => l.observe task (.notify (.answerEnded s task))

/-- Handles what a message body was read as. -/
def handleMessage (s : SessionId) : Except Fault Message → ClientM Unit
  | .error f => if f.isProtocol then rejectBadMessage s f else throw f
  | .ok (.result id value) => handleResponse s id (.ok value)
  | .ok (.error id error) => handleResponse s id (.error (Registry.responseFault error))
  | .ok (.request id method params) => handleRequest s id method params
  | .ok (.notification method params) => handleNotification s method params

/-- Handles a message body. -/
def handleBody (s : SessionId) (body : Octets) : ClientM Unit := do
  handleMessage s (Message.parse (.octets body) (← session s).settings.maxMessageSize)

/-! ## Answering requests of the server -/

/-- The code of an answer to a request that nobody handles. -/
def methodNotFound : Int := -32601

/-- The code of an answer to a request whose handler failed. -/
def internalError : Int := -32603

/-- Sends the answer to a request of the server. -/
def sendAnswer (s : SessionId) (method : String) (text : Except Fault String) : ClientM Next := do
  catchTransport (writeText s .answer text) fun f =>
    reportProtocolFault s ("Failed to answer request: " ++ f.message) [("method", .str method)]
  return .done .null

/-- Answers a request whose handler failed. -/
def answerFault (s : SessionId) (id : RequestId) (method : String) (f : Fault) : ClientM Next := do
  match f with
  | .response message code data =>
    let code := match code with
      | some 0 | none => internalError
      | some n => n
    sendAnswer s method (Message.formatError id code message data)
  | .cancelled => throw f
  | f =>
    logSession s .error ("Request handler for " ++ Text.quoted method ++ " failed")
      [("request_id", id.toValue), ("method", .str method)] (some f)
    reportHandlerFault s method f
    sendAnswer s method
      (Message.formatError id internalError ("Request handler failed: " ++ f.message))

/-- Answers a request with a result; one without a JSON text counts as a failure. -/
def answerResult (s : SessionId) (id : RequestId) (method : String) (v : Value) :
    ClientM Next := do
  match Message.formatResult id v with
  | .ok text => sendAnswer s method (.ok text)
  | .error f => answerFault s id method f

/-- The handler of a request has answered. -/
def answered (s : SessionId) (id : RequestId) (method : String) (o : Outcome) : ClientM Next :=
  match o with
  | .ok v => answerResult s id method v
  | .error f => answerFault s id method f

/-- Begins to answer a request with a handler, if there is one. -/
def answerBy (s : SessionId) (id : RequestId) (method : String) (params : Value) :
    Option Handler → ClientM Next
  | some (.script r) => do
    if r.pause.isSome then return .call (.react r (.value params)) (.answered s id method)
    answered s id method (← attempt (react r (.value params)))
  | _ =>
    sendAnswer s method
      (Message.formatError id methodNotFound ("Unhandled method: " ++ method))

/-- Begins to answer a request: the handler that subscribed last is called. -/
def answer (s : SessionId) (id : RequestId) (method : String) (params : Value) : ClientM Next := do
  answerBy s id method params ((← session s).requestHandlers.handlers method).getLast?

/-- Begins a handler that pauses. -/
def reactSlowly (r : Reaction) (argument : Display) : ClientM Next := do
  beginReaction r argument
  match r.pause with
  | some .never => return .await (← newPromise) (.reacted r)
  | some (.delay d) => return .call (.sleep d) (.reacted r)
  | some .stop => return .call (.stop (← lastSession) false) (.reacted r)
  | none => return .become (.reacted r)

/-- A handler has paused. -/
def reacted (r : Reaction) (o : Outcome) : ClientM Next := do
  match o with
  | .error f =>
    if f.isCancellation then note (.got [.text r.label, .text "cancelled"])
    throw f
  | .ok _ => return .done (← endReaction r)

end LspClient.Client
