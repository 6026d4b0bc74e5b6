/-
The state of a client: its loop, its sessions with their transports, its telemetry and its output,
and what whoever watches it has seen so far. Operations are functions on this state that may fail;
a failure keeps what has been changed before it.
-/
import LspClient.Calendar
import LspClient.Log
import LspClient.Session
import LspClient.Settings

namespace LspClient

/-- A request that a user of a client can name. -/
structure Handle where
  owner : Owner
  id : RequestId
  method : String
  promise : PromiseId
  deriving Inhabited

/-- Where a router is. -/
inductive RouterPlace where
  | alone
  | session (s : SessionId) (topic : Topic)
  deriving DecidableEq, Inhabited

/-- A subscription that a user of a client can name. -/
structure SubscriptionRef where
  place : RouterPlace
  method : String
  id : Nat
  deriving Inhabited

/-- The owner of sessions and of what they share. -/
structure Host where
  settings : Settings
  conflicts : ConflictMonitor
  /-- The messages shown to the user so far. -/
  told : List String := []

instance : Inhabited Host := ⟨⟨{}, .new "" "", []⟩⟩

/-- How a collector answers a post. -/
structure CollectorAnswer where
  delay : Number := .int 0
  /-- The status, or the wording of the failure to deliver. -/
  result : Except String Nat
  deriving Inhabited

/-- Something that whoever watches a client sees. -/
inductive Note where
  /-- A message was written to a server. -/
  | sent (place : Nat) (text : String)
  /-- Octets were written to a server. -/
  | written (octets : Octets)
  /-- A handler was called, or has noted something else. -/
  | got (items : List Display)
  | telemetry (record : Telemetry.Record)
  | output (text : String)
  | told (message : String)
  | settled (label : String) (outcome : Outcome)
  | ended (task : String) (outcome : Outcome)
  | log (record : Log.Record)
  /-- The hook of a cancelled request was called. -/
  | cancelled (id : RequestId)
  /-- The hook for failing handlers was called. -/
  | handlerFault (method : String) (fault : Fault)
  /-- Something was asked of the operating system. -/
  | trace (what : Display)
  | posted (url : String) (headers : List (String × Value)) (body : Value)
  deriving Inhabited

structure Client where
  loop : Loop Activity Event := {}
  /-- The task that runs now. -/
  running : Option PromiseId := none
  /-- The time at which the loop began, in microseconds since the start of 1970. -/
  origin : Int := 0
  processId : Nat := 0
  /-- Whether tasks can be made. -/
  hasLoop : Bool := true
  registry : Registry CancelHook := {}
  router : Router Handler := {}
  /-- What the router that stands alone does with failing handlers. -/
  errorHook : Option CancelHook := none
  sessions : Array Session := #[]
  host : Option Host := none
  /-- Who shows the messages of the host. -/
  messenger : Messenger := .nobody
  sink : Telemetry.Sink := {}
  output : Option OutputChannel := none
  /-- How the collector answers the next posts. -/
  collector : List CollectorAnswer := []
  peer : Peer
  /-- The servers behind the next processes, the last one again and again. -/
  peers : List Peer := []
  /-- Whether sessions of the host use the transports that the settings select. -/
  usesSettings : Bool := false
  transports : Array Transport := #[]
  pipes : Array Pipe := #[]
  children : Array Child := #[]
  /-- How many processes were launched or could not be. -/
  launches : Nat := 0
  environment : List (String × Value) := []
  /-- Files that were written, by path. -/
  files : List (String × String) := []
  handles : List (String × Handle) := []
  subscriptions : List (String × SubscriptionRef) := []
  tasks : List (String × PromiseId) := []
  /-- The promise that ends the program once it is given up. -/
  givenUp : Option PromiseId := none
  notes : Array Note := #[]

instance : Inhabited Client := ⟨{ peer := { frameLimit := .int 0 } }⟩

/-- An operation on a client that may fail. -/
abbrev Core := ExceptT Fault (StateM Client)

/-- How the steps of reactions are executed. -/
abbrev Executor := Step → Core Display

/-- An operation on a client that may call handlers. -/
abbrev ClientM := ReaderT Executor Core

namespace Client

/-- Stores a value under a label, in place of an older one. -/
def label {α : Type} (name : String) (a : α) : List (String × α) → List (String × α)
  | [] => [(name, a)]
  | (n, b) :: rest => if n = name then (n, a) :: rest else (n, b) :: label name a rest

/-- Shows something to whoever watches. -/
def note (n : Note) : ClientM Unit :=
  modify fun c => { c with notes := c.notes.push n }

/-! ## The clock and the log -/

/-- The time in microseconds since the start of 1970. -/
def time : ClientM Int := do
  let c ← get
  return c.origin + microsOfSeconds c.loop.now

/-- Logs a record. -/
def log (level : Log.Level) (source : Log.Source) (message : String)
    (fields : List (String × Value) := []) (fault : Option Fault := none) : ClientM Unit := do
  let c ← get
  let created := Float.ofInt c.origin / 1000000.0 + c.loop.now
  note (.log { level, source, message, fields, fault, created })

/-! ## The loop -/

/-- Changes the loop. -/
def onLoop (f : Loop Activity Event → Loop Activity Event) : ClientM Unit :=
  modify fun c => { c with loop := f c.loop }

/-- Changes the loop and answers something. -/
def withLoop {α : Type} (f : Loop Activity Event → α × Loop Activity Event) : ClientM α :=
  modifyGet fun c =>
    let (a, loop) := f c.loop
    (a, { c with loop })

/-- A new promise. -/
def newPromise : ClientM PromiseId :=
  withLoop fun l => l.newPromise

/-- A new task. -/
def spawn (a : Activity) : ClientM PromiseId :=
  withLoop fun l => l.spawn a

/-- Whether a promise is settled. -/
def isSettled (p : PromiseId) : ClientM Bool := do
  return (← get).loop.isSettled p

/-- The seconds of a number, if it has a double near it. -/
def seconds (n : Number) : ClientM Float :=
  match n.widen with
  | .ok x => pure x
  | .error f => throw (.range f)

/-- Makes a job ready after some seconds. -/
def callLater (delay : Number) (job : Job Event) : ClientM TimerId := do
  let s ← seconds delay
  withLoop fun l => l.callLater s job

/-- Asks a promise to be cancelled and tells whether it accepts. -/
def cancelPromise (p : PromiseId) : ClientM Bool :=
  withLoop fun l => l.cancel p

/-! ## Parts of the client -/

/-- A session. -/
def session (s : SessionId) : ClientM Session := do
  return (← get).sessions[s]?.getD default

/-- Changes a session. -/
def onSession (s : SessionId) (f : Session → Session) : ClientM Unit :=
  modify fun c => { c with sessions := c.sessions.modify s f }

/-- The session made last. -/
def lastSession : ClientM SessionId := do
  return (← get).sessions.size - 1

/-- A transport. -/
def transport (t : TransportId) : ClientM Transport := do
  return (← get).transports[t]?.getD default

/-- Changes a transport. -/
def onTransport (t : TransportId) (f : Transport → Transport) : ClientM Unit :=
  modify fun c => { c with transports := c.transports.modify t f }

/-- A new transport. -/
def newTransport (t : Transport) : ClientM TransportId :=
  modifyGet fun c => (c.transports.size, { c with transports := c.transports.push t })

/-- Changes the scripted server. -/
def onPeer (f : Peer → Peer) : ClientM Unit :=
  modify fun c => { c with peer := f c.peer }

/-- The answer of something that may have failed. -/
def answerOf {α : Type} : Except Fault α → ClientM α
  | .ok a => pure a
  | .error f => throw f

/-- Runs an operation on the registry of an owner. -/
def withRegistry {α : Type} (owner : Owner)
    (op : Registry.Operation CancelHook Activity Event α) : ClientM α := do
  let c ← get
  match owner with
  | .alone =>
    let (result, registry, loop) := op.run (c.registry, c.loop)
    set { c with registry, loop }
    answerOf result
  | .session s =>
    let (result, registry, loop) := op.run ((c.sessions[s]?.getD default).registry, c.loop)
    set { c with sessions := c.sessions.modify s fun x => { x with registry }, loop }
    answerOf result

/-- The registry of an owner. -/
def registryOf (owner : Owner) : ClientM (Registry CancelHook) := do
  let c ← get
  match owner with
  | .alone => return c.registry
  | .session s => return (c.sessions[s]?.getD default).registry

/-- A router. -/
def routerAt (place : RouterPlace) : ClientM (Router Handler) := do
  let c ← get
  match place with
  | .alone => return c.router
  | .session s topic => return (c.sessions[s]?.getD default).router topic

/-- Changes a router. -/
def onRouter (place : RouterPlace) (f : Router Handler → Router Handler) : ClientM Unit :=
  modify fun c =>
    match place with
    | .alone => { c with router := f c.router }
    | .session s topic =>
      { c with sessions := c.sessions.modify s fun x => x.setRouter topic (f (x.router topic)) }

/-- Subscribes a handler. -/
def subscribe (place : RouterPlace) (method : String) (h : Handler) : ClientM SubscriptionRef := do
  match (← routerAt place).subscribe method h with
  | .error f => throw f
  | .ok (id, router) =>
    onRouter place fun _ => router
    return ⟨place, method, id⟩

/-- Executes a step. -/
def execute (step : Step) : ClientM Display :=
  fun executor => executor step

/-! ## Faults -/

/-- Does something and answers how it went; cancelling passes through. -/
def attempt {α : Type} (op : ClientM α) : ClientM (Except Fault α) :=
  tryCatch (do return .ok (← op)) fun f => if f.isCancellation then throw f else return .error f

/-- Does something that may fail for the connection's sake. -/
def catchTransport (op : ClientM Unit) (handle : Fault → ClientM Unit) : ClientM Unit :=
  tryCatch op fun f => if f.isTransport then handle f else throw f

end Client

end LspClient
