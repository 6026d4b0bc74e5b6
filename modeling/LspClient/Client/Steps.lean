/-
What each step of a script does to a client, and what it shows.
-/
import LspClient.Client.Run

namespace LspClient.Client

/-! ## Labels -/

/-- A step names something that no earlier step made. -/
def noSuchLabel : Fault :=
  .other "NoSuchLabel" ""

/-- What a label stands for. -/
def named {α : Type} (name : String) (entries : List (String × α)) : ClientM α :=
  match entries.lookup name with
  | some a => pure a
  | none => throw noSuchLabel

/-- The request with a label. -/
def handleOf (name : String) : ClientM Handle := do
  named name (← get).handles

/-- The subscription with a label. -/
def subscriptionOf (name : String) : ClientM SubscriptionRef := do
  named name (← get).subscriptions

/-- Gives a request a label, and notes when it is settled. -/
def labelHandle (name : String) (h : Handle) (steps : List Step) : ClientM Unit := do
  modify fun c => { c with handles := label name h c.handles }
  onLoop fun l => l.observe h.promise (.notify (.handleSettled name h.promise steps))

/-- Gives a subscription a label. -/
def labelSubscription (name : String) (s : SubscriptionRef) : ClientM Unit :=
  modify fun c => { c with subscriptions := label name s c.subscriptions }

/-- Begins a task with a name, and notes when it ends. -/
def spawnNamed (name : String) (a : Activity) : ClientM Display := do
  let task ← spawn a
  modify fun c => { c with tasks := label name task c.tasks }
  onLoop fun l => l.observe task (.notify (.taskEnded name task))
  return .none

/-- Whether a subscription is still there. -/
def isActive (s : SubscriptionRef) : ClientM Bool := do
  return (← routerAt s.place).isSubscribed s.method s.id

/-- Removes a subscription. -/
def unsubscribe (s : SubscriptionRef) : ClientM Unit :=
  onRouter s.place fun r => r.unsubscribe s.method s.id

/-! ## What is shown -/

/-- A truth value. -/
def showBool (b : Bool) : Display :=
  .value (.bool b)

/-- A number. -/
def showNat (n : Nat) : Display :=
  .value (.int n)

/-- A request. -/
def showHandle (h : Handle) : ClientM Display := do
  let outcome := (← get).loop.outcome? h.promise
  let cancelled := match outcome with
    | some (.error f) => f.isCancellation
    | _ => false
  return .fields [("id", .value h.id.toValue), ("method", .text h.method),
    ("done", showBool outcome.isSome), ("cancelled", showBool cancelled),
    ("repr", .text ("<RequestHandle id=" ++ h.id.literal ++ " method=" ++ Text.quoted h.method
      ++ (if outcome.isSome then " done>" else " pending>")))]

/-- A session. -/
def showSession (x : Session) : Display :=
  .fields [("capabilities", .value x.capabilities), ("running", showBool x.lifecycle.isRunning),
    ("repr", .text x.text), ("exhausted", showBool x.policy.exhausted),
    ("threshold", .value x.policy.threshold.toValue)]

/-! ## Parts of the steps -/

/-- The transport that a step is about: the one it names, or the latest. -/
def targetOf (target : Option Nat) : ClientM TransportId := do
  return target.getD ((← get).transports.size - 1)

/-- The subscription of a handler of a session. -/
def subscribeTo (topic : Topic) (name : String) (r : Reaction) : ClientM Unit := do
  let name := if topic = .telemetry then Session.telemetryTopic else name
  labelSubscription r.label (← subscribe (.session (← lastSession) topic) name (.script r))

/-- Calls the handlers of the router that stands alone. -/
def dispatchAlone (method : String) (params : Value) : ClientM Nat := do
  let c ← get
  dispatchIn c.router "notifications" method (.value params) fun f => do
    match c.errorHook with
    | some (.record fails) =>
      note (.handlerFault method f)
      if fails then throw (.runtime "error hook failed")
    | _ => pure ()

/-- The records of a memory. -/
def recordsOf (index : Nat) : ClientM (List Telemetry.Record) := do
  match (← get).sink.backends[index]? with
  | some (.memory _ records) => return records
  | _ => return []

/-- The process or connection behind the only transport. -/
def onlyLink : ClientM (Option Link) := do
  return (← transport 0).link

/-! ## Steps -/

/-- Executes a step and answers what it shows. -/
def runStep (step : Step) : ClientM Display := do
  match step with
  | .advance n =>
    advance n
    return .none
  | .batch steps =>
    return .items (← steps.mapM fun step => do
      match ← attempt (execute step) with
      | .ok d => return d
      | .error f => return .fault f)
  | .cancel name =>
    let h ← handleOf name
    return showBool (← cancelRequest h.owner h.id)
  | .await name task timeout =>
    let h ← handleOf name
    spawnNamed task (.within (.await h.promise) timeout)
  | .cancelTask name => return showBool (← cancelPromise (← named name (← get).tasks))
  | .handle name => showHandle (← handleOf name)
  | .unsubscribe name =>
    unsubscribe (← subscriptionOf name)
    return .none
  | .isActive name => return showBool (← isActive (← subscriptionOf name))
  | .subscribedWhile name =>
    let s ← subscriptionOf name
    let before ← isActive s
    unsubscribe s
    return .items [showBool before, showBool (← isActive s)]
  | .register id method name timeout onCancel steps =>
    labelHandle name (← register .alone id method timeout onCancel) steps
    return .none
  | .resolve id result => return showBool (← settleRequest .alone id (.ok result))
  | .resolveError id error =>
    return showBool (← settleRequest .alone id (.error (Registry.responseFault error)))
  | .reject id f => return showBool (← settleRequest .alone id (.error f))
  | .cancelId id => return showBool (← cancelRequest .alone id)
  | .rejectAll f => return showNat (← rejectAll .alone f)
  | .isPending id => return showBool ((← get).registry.contains id)
  | .wasCancelled id => return showBool ((← get).registry.wasCancelled id)
  | .pendingCount => return showNat (← get).registry.pending.length
  | .subscribe method r =>
    labelSubscription r.label (← subscribe .alone method (.script r))
    return .none
  | .dispatch method params => return showNat (← dispatchAlone method params)
  | .hasSubscribers method => return showBool ((← get).router.hasSubscribers method)
  | .handlers method =>
    return .texts (((← get).router.handlers method).map fun
      | .script r => r.label
      | _ => "")
  | .clearRouter =>
    onRouter .alone Router.clear
    return .none
  | .start task => spawnNamed task (.start (← lastSession))
  | .stop task clear => spawnNamed task (.stop (← lastSession) clear)
  | .request name method params patience =>
    let h ← sendRequest (← lastSession) method params patience
    labelHandle name h []
    return .fields [("id", .value h.id.toValue)]
  | .notify method params =>
    sendNotification (← lastSession) method params
    return .none
  | .push body target =>
    serverSends (← targetOf target) body
    return .none
  | .feed octets target =>
    match (← transport (← targetOf target)).link with
    | some link => feedPipe link.pipe octets
    | none => pure ()
    return .none
  | .finish target =>
    serverFinishes (← targetOf target)
    return .none
  | .readFault f target =>
    serverBreaks (← targetOf target) f
    return .none
  | .on topic name r =>
    subscribeTo topic name r
    return .none
  | .setPeer change =>
    onPeer change
    return .none
  | .resync => return showBool (← resync (← lastSession))
  | .listenResync name =>
    let s ← listenResync (← lastSession)
    match name with
    | some name =>
      labelSubscription name s
      return .none
    | none => throw (.missingKey (.str "label"))
  | .inspect => return showSession (← session (← lastSession))
  | .create =>
    let x ← session (← createSession)
    let delay ← match x.policy.backoffFor 1 with
      | .ok n => pure n
      | .error f => throw f
    return .items [.text x.name, .text x.settings.label, .value x.policy.threshold.toValue,
      .value delay.toValue]
  | .activate task installed => spawnNamed task (.activate installed)
  | .deactivate task => spawnNamed task (.deactivate 0)
  | .installed components =>
    let r ← checkConflicts components
    return .items [.text r.capability, .texts r.ids, showBool r.hasConflicts]
  | .tellUser message =>
    tellUser message
    return .none
  | .told => return .texts (((← get).host.map (·.told)).getD [])
  | .lines => return .texts (((← get).output.map (·.lines)).getD [])
  | .showLine text =>
    showLine text
    return .none
  | .clearLines =>
    modify fun c => { c with output := c.output.map (·.clear) }
    return .none
  | .backendKinds => return .texts ((← get).sink.backends.map (·.kind))
  | .event name properties =>
    send (← recordOf name properties)
    return .none
  | .payload payload =>
    send (.ofPayload payload (timestamp (← time)))
    return .none
  | .enable enabled =>
    modify fun c => { c with sink := { c.sink with enabled } }
    return .none
  | .addBackend backend =>
    match backend with
    | .error f => throw f
    | .ok b =>
      modify fun c => c.withBackends [b]
      return .none
  | .records index => return .value (.list ((← recordsOf index).map (·.toValue)))
  | .named index name =>
    return .value (.list (((← recordsOf index).filter fun r => r.event = name).map fun r =>
      .object r.properties))
  | .forgetRecords index =>
    match (← get).sink.backends[index]? with
    | some (.memory limit _) => setBackend index (.memory limit [])
    | _ => pure ()
    return .none
  | .flush index task => spawnNamed task (.flush index)
  | .closeFile index =>
    match (← get).sink.backends[index]? with
    | some (.file path _) => setBackend index (.file path false)
    | _ => pure ()
    return .none
  | .closeSink task => spawnNamed task (.closeSink 0)
  | .openTransport task => spawnNamed task (.openTransport 0)
  | .read task => spawnNamed task (.receive 0)
  | .closeTransport task => spawnNamed task (.closeTransport 0)
  | .write text =>
    write 0 text
    return .none
  | .feedErrors octets =>
    match ← onlyLink with
    | some { child := some i, .. } =>
      match (← child i).errors with
      | some p => feedPipe p octets
      | none => pure ()
    | _ => pure ()
    return .none
  | .errorStreamFault f =>
    match ← onlyLink with
    | some { child := some i, .. } =>
      match (← child i).errors with
      | some p => breakPipe p f
      | none => pure ()
    | _ => pure ()
    return .none
  | .exit code =>
    match ← onlyLink with
    | some { child := some i, .. } => childExits i code
    | _ => pure ()
    return .none

/-- Executes the steps of reactions; the argument bounds how deep reactions may be nested. -/
def executor : Nat → Executor
  | 0, _ => pure .none
  | depth + 1, step => (runStep step).run (executor depth)

/-- How deep reactions may be nested. -/
def nesting : Nat := 64

/-- Runs an operation on a client. -/
def perform {α : Type} (op : ClientM α) : Core α :=
  op.run (executor nesting)

/-- Plays a step: it is executed, and then all runs that is ready. -/
def play (step : Step) (c : Client) : Display × Client :=
  let (result, c) := ExceptT.run (perform (runStep step)) c
  let (_, c) := ExceptT.run (perform settleDown) c
  match result with
  | .ok d => (d, c)
  | .error f => (.fault f, c)

end LspClient.Client
