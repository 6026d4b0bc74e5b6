/-
What passes between a client and its scripted servers: octets and messages in both directions, and
the ends of streams and processes.
-/
import LspClient.Client.Waiting

namespace LspClient.Client

/-! ## Pipes -/

/-- A new pipe with a limit on the length of its lines. -/
def newPipe (lineLimit : Nat) : ClientM PipeId :=
  modifyGet fun c =>
    (c.pipes.size, { c with pipes := c.pipes.push { stream := { limit := lineLimit } } })

/-- A pipe. -/
def pipe (p : PipeId) : ClientM Pipe := do
  return (← get).pipes[p]?.getD default

/-- Changes a pipe. -/
def onPipe (p : PipeId) (f : Pipe → Pipe) : ClientM Unit :=
  modify fun c => { c with pipes := c.pipes.modify p f }

/-- Lets the reader of a pipe go on. -/
def wakeReader (p : PipeId) (o : Outcome) : ClientM Unit := do
  match (← pipe p).waiter with
  | some waiter =>
    onPipe p fun x => { x with waiter := none }
    onLoop fun l => l.settle waiter o
  | none => pure ()

/-- Puts octets into a pipe; after its end they are lost. -/
def feedPipe (p : PipeId) (octets : Octets) : ClientM Unit := do
  if octets.isEmpty || (← pipe p).stream.ended then return
  onPipe p fun x => { x with stream := x.stream.feed octets }
  wakeReader p (.ok .null)

/-- Ends a pipe. -/
def finishPipe (p : PipeId) : ClientM Unit := do
  onPipe p fun x => { x with stream := x.stream.finish }
  wakeReader p (.ok .null)

/-- Breaks a pipe: reading from it fails from now on. -/
def breakPipe (p : PipeId) (f : Fault) : ClientM Unit := do
  onPipe p fun x => { x with stream := { x.stream with fault := some f } }
  wakeReader p (.error f)

/-- Begins to wait for octets; `reader` says what is reading. Only one task may wait at a time. -/
def awaitOctets (p : PipeId) (reader : String) (k : Activity) : ClientM Next := do
  if (← pipe p).waiter.isSome then
    throw (.runtime (reader
      ++ "() called while another coroutine is already waiting for incoming data"))
  let waiter ← newPromise
  onPipe p fun x => { x with waiter := some waiter }
  return .await waiter k

/-- Stops waiting for octets. -/
def stopWaiting (p : PipeId) : ClientM Unit :=
  onPipe p fun x => { x with waiter := none }

/-! ## Queues -/

/-- Puts something into the queue of a transport. The first task that still waits goes on. -/
def deliver (t : TransportId) (d : Delivery) : ClientM Unit := do
  onTransport t fun x => { x with inbox := x.inbox ++ [d] }
  let loop := (← get).loop
  match (← transport t).getters.dropWhile loop.isSettled with
  | [] => onTransport t fun x => { x with getters := [] }
  | getter :: rest =>
    onTransport t fun x => { x with getters := rest }
    onLoop fun l => l.settle getter (.ok .null)

/-! ## Processes -/

/-- Changes a process. -/
def onChild (child : ChildId) (f : Child → Child) : ClientM Unit :=
  modify fun c => { c with children := c.children.modify child f }

/-- A process. -/
def child (i : ChildId) : ClientM Child := do
  return (← get).children[i]?.getD default

/-- A process exits: its streams end, and those who wait for it go on. -/
def childExits (i : ChildId) (code : Int) : ClientM Unit := do
  let x ← child i
  if x.exitCode.isNone then
    onChild i fun x => { x with exitCode := some code, waiters := [] }
    finishPipe x.output
    match x.errors with
    | some p => finishPipe p
    | none => pure ()
    for waiter in x.waiters do
      onLoop fun l => l.settle waiter (.ok .null)

/-- A process exits some time after it was told to. -/
def childExitsLater (i : ChildId) (p : Peer) : ClientM Unit := do
  if p.exitDelay.le (.int 0) then childExits i p.exitCode
  else
    let _ ← callLater p.exitDelay (.notify (.childExits i p.exitCode))

/-- The script of the server behind a process. -/
def childPeer (i : ChildId) : ClientM Peer := do
  return (← child i).peer.getD (← get).peer

/-! ## Servers -/

/-- The script of the server at the other end of a transport. -/
def peerOf (t : TransportId) : ClientM Peer := do
  match (← transport t).link with
  | some { child := some i, .. } => childPeer i
  | _ => return (← get).peer

/-- The server sends a message body. -/
def serverSends (t : TransportId) (body : Octets) : ClientM Unit := do
  let x ← transport t
  match x.carrier, x.link with
  | .queue, _ => deliver t (.message body)
  | _, some link => feedPipe link.pipe (Frame.wrap body)
  | _, none => pure ()

/-- The server ends its stream. -/
def serverFinishes (t : TransportId) : ClientM Unit := do
  let x ← transport t
  match x.carrier, x.link with
  | .queue, _ => deliver t .finished
  | _, some link => finishPipe link.pipe
  | _, none => pure ()

/-- The connection breaks: reading from it fails. -/
def serverBreaks (t : TransportId) (f : Fault) : ClientM Unit := do
  let x ← transport t
  match x.carrier, x.link with
  | .queue, _ => deliver t (.fault f)
  | _, some link => breakPipe link.pipe f
  | _, none => pure ()

/-- What the server does after the handshake. -/
def afterHandshake (t : TransportId) : ClientM Unit := do
  let p ← peerOf t
  if 0 < p.endsAfterInit then
    onPeer fun p => { p with endsAfterInit := p.endsAfterInit - 1 }
    serverFinishes t
  match (← transport t).link, p.crashCode with
  | some { child := some i, .. }, some code => childExits i code
  | _, _ => pure ()

/-- The server receives a message. -/
def serverReceives (t : TransportId) (text : String) : ClientM Unit := do
  let place ← match (← transport t).link with
    | some { child := some i, .. } => do pure (← child i).number
    | _ => pure t
  note (.sent place text)
  match Json.readChars text.toList with
  | .error _ => pure ()
  | .ok message =>
    match message.getD "method" with
    | .str method =>
      match (← peerOf t).reply? method with
      | some (key, value) =>
        match Message.printObject [Message.version, ("id", message.getD "id"), (key, value)] with
        | .ok reply => serverSends t (Text.encode reply)
        | .error _ => pure ()
      | none => pure ()
      if method = Session.initializedMethod then afterHandshake t
    | _ => pure ()

/-- Writes a message to the server. -/
def write (t : TransportId) (text : String) : ClientM Unit := do
  let x ← transport t
  if !x.canWrite then throw Transport.notOpen
  let p ← peerOf t
  match x.carrier with
  | .queue =>
    if p.failWrites then throw (.connection "Write failed: broken pipe")
  | _ =>
    match p.writeBreakage with
    | some b => throw (Transport.writeFailed (Peer.writeFault b))
    | none => note (.written (Frame.encode text))
  serverReceives t text

end LspClient.Client
