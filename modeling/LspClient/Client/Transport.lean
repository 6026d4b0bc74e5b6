/-
Opening, reading and closing transports. Closing a process first closes its input, then asks it to
terminate, and at last kills it; what it still writes to its error stream is logged to the end.
-/
import LspClient.Client.Wire
import LspClient.Text.Blank

namespace LspClient.Client

/-- Logs a record of a transport. -/
def logTransport (level : Log.Level) (message : String) : ClientM Unit :=
  log level .transport message

/-- A text or nothing. -/
def optionalText : Option String → Value
  | some s => .str s
  | none => .null

/-! ## Opening -/

/-- Launches a process. -/
def launch (t : TransportId) (l : Launch) : ClientM Next := do
  if (← transport t).link.isSome then throw Transport.alreadyOpen
  note (.trace (.fields [("command", .texts l.command), ("cwd", .value (optionalText l.cwd)),
    ("env", .value ((l.env.map .object).getD .null))]))
  let c ← get
  let own := c.peers.head?
  let p := own.getD c.peer
  set { c with
    peers := if 1 < c.peers.length then c.peers.drop 1 else c.peers
    launches := c.launches + 1 }
  match p.spawnError with
  | some arguments =>
    let f := Fault.system .general arguments
    throw (.connection ("Failed to start server " ++ Text.quoted (l.command.headD "") ++ ": "
      ++ f.message))
  | none =>
    let output ← newPipe p.lineLimit
    let errors ← if p.hasErrorStream then some <$> newPipe p.lineLimit else pure none
    let i ← modifyGet fun c =>
      (c.children.size, { c with
        children := c.children.push { number := c.launches - 1, output, errors, peer := own } })
    onTransport t fun x => { x with link := some ⟨output, some i⟩ }
    if p.exitsAtOnce then childExits i p.exitCode
    match errors with
    | some errors =>
      let task ← spawn (.drain errors)
      onTransport t fun x => { x with drain := some task }
    | none => pure ()
    logTransport .info ("Started server process pid=1000: " ++ " ".intercalate l.command)
    return .done .null

/-- The text of an address. -/
def addressText (a : Address) : String :=
  a.host ++ ":" ++ a.port.text

/-- Begins to connect to an address. -/
def connect (t : TransportId) : ClientM Next := do
  match (← transport t).carrier with
  | .socket a =>
    note (.trace (.fields [("host", .text a.host), ("port", .value a.port.toValue)]))
    let p := (← get).peer
    if p.connectDelay.le (.int 0) then return .become (.connectDelayed t)
    else return .call (.sleep p.connectDelay) (.connectDelayed t)
  | _ => return .done .null

/-- Connects; the value is the pipe of the connection. -/
def connectDelayed (o : Outcome) : ClientM Next := do
  let _ ← valueOf o
  let p := (← get).peer
  match p.connectError with
  | some arguments => throw (.system .general arguments)
  | none =>
    let pipe ← newPipe p.lineLimit
    return .done (.int pipe)

/-- A connection was made, or not. -/
def connected (t : TransportId) (o : Outcome) : ClientM Next := do
  match (← transport t).carrier, o with
  | .socket a, .ok (.int pipe) =>
    onTransport t fun x => { x with link := some ⟨pipe.toNat, none⟩ }
    logTransport .info ("Connected to server at " ++ a.host ++ ":" ++ a.port.wholeText)
    return .done .null
  | .socket a, .error f =>
    if f.isSystem then
      throw (.connection ("Failed to connect to server at " ++ addressText a ++ ": " ++ f.message))
    else throw f
  | _, o => return .done (← valueOf o)

/-- Begins to open a transport. -/
def openTransport (t : TransportId) : ClientM Next := do
  let x ← transport t
  match x.carrier with
  | .process l => launch t l
  | .socket a =>
    if x.link.isSome then throw Transport.alreadyOpen
    return .call (.within (.connect t) (some a.connectTimeout)) (.connected t)
  | _ =>
    let p := (← get).peer
    if p.openDelay.le (.int 0) then return .become (.openDelayed t)
    else return .call (.sleep p.openDelay) (.openDelayed t)

/-- Opens a transport in memory. -/
def openDelayed (t : TransportId) (o : Outcome) : ClientM Next := do
  let _ ← valueOf o
  let p := (← get).peer
  if 0 < p.openFailures then
    onPeer fun p => { p with openFailures := p.openFailures - 1 }
    throw (.connection p.openError)
  match (← transport t).carrier with
  | .queue => onTransport t fun x => { x with isOpen := true }
  | _ =>
    let pipe ← newPipe p.lineLimit
    onTransport t fun x => { x with link := some ⟨pipe, none⟩ }
  return .done .null

/-! ## Reading -/

/-- What a delivery is to whoever reads it. -/
def received : Delivery → ClientM Next
  | .message body => return .done (.bytes body)
  | .finished => return .done .null
  | .fault f => throw f

/-- Takes from a queue, or begins to wait for it. -/
def receiveQueue (t : TransportId) : ClientM Next := do
  match (← transport t).inbox with
  | d :: rest =>
    onTransport t fun x => { x with inbox := rest }
    received d
  | [] =>
    let getter ← newPromise
    onTransport t fun x => { x with getters := x.getters ++ [getter] }
    return .await getter (.receiveQueued t getter)

/-- Something is in a queue, or whoever waits for it is cancelled. Another one that waits then
goes on instead. -/
def receiveQueued (t : TransportId) (getter : PromiseId) (o : Outcome) : ClientM Next := do
  match o with
  | .ok _ => receiveQueue t
  | .error f =>
    let cancelled := match (← get).loop.outcome? getter with
      | some (.error _) => true
      | _ => false
    onTransport t fun x => { x with getters := x.getters.filter (· != getter) }
    if !cancelled && !(← transport t).inbox.isEmpty then
      let loop := (← get).loop
      match (← transport t).getters.dropWhile loop.isSettled with
      | [] => pure ()
      | next :: rest =>
        onTransport t fun x => { x with getters := rest }
        onLoop fun l => l.settle next (.ok .null)
    throw f

/-- Begins to read a message. -/
def receive (t : TransportId) : ClientM Next := do
  let x ← transport t
  match x.carrier, x.link with
  | .queue, _ => receiveQueue t
  | _, some link => return .call (.takeFrame link.pipe x.maxSize .start) .receiveFramed
  | _, none => throw Transport.notOpen

/-- A frame was read, or not. -/
def receiveFramed (o : Outcome) : ClientM Next := do
  match o with
  | .ok v => return .done v
  | .error f =>
    match f with
    | .system kind _ =>
      if kind.isConnection then throw (.connection ("Read failed: " ++ f.message)) else throw f
    | f => throw f

/-- What a reader of frames is doing in a phase. -/
def readerName : Frame.Phase → String
  | .headers .. => "readuntil"
  | .discard .. => "read"
  | _ => "readexactly"

/-- Takes a frame from a pipe as far as it has arrived. -/
def takeFrame (p : PipeId) (limit : Number) (phase : Frame.Phase) (resumed : Bool) :
    ClientM Next := do
  match Frame.run limit resumed phase (← pipe p).stream with
  | .waiting phase stream =>
    onPipe p fun x => { x with stream }
    awaitOctets p (readerName phase) (.takeFrameMore p limit phase)
  | .done result stream =>
    onPipe p fun x => { x with stream }
    match result with
    | .frame body => return .done (.bytes body)
    | .finished => return .done .null
    | .fault f => throw f

/-- More octets have arrived, or the stream has ended. -/
def takeFrameMore (p : PipeId) (limit : Number) (phase : Frame.Phase) (o : Outcome) :
    ClientM Next := do
  stopWaiting p
  let _ ← valueOf o
  takeFrame p limit phase true

/-! ## Error streams of processes -/

/-- Reading from an error stream failed: it is not forwarded any more. -/
def drainFailed (f : Fault) : ClientM Next := do
  let known := match f with
    | .invalid _ => true
    | f => f.isSystem
  if known then
    log .debug .stderr "Unexpected error in stderr drain" [] (some f)
    return .done .null
  else throw f

/-- Logs a line of an error stream, unless it is blank. -/
def logErrorLine (line : Octets) : ClientM Unit := do
  let text := Text.stripEnd (Text.decodeLossy line)
  if !text.isEmpty then log .info .stderr text

/-- Forwards the lines of an error stream as far as they have arrived. -/
def drainLines : Nat → PipeId → ClientM Next
  | 0, p => return .yield (.drain p)
  | fuel + 1, p => do
    let stream := (← pipe p).stream
    match stream.takeLine? [0x0a] with
    | none => awaitOctets p "readuntil" (.drainMore p)
    | some (.overrun, _) =>
      onPipe p fun x => { x with stream := x.stream.dropLine [0x0a] }
      drainFailed (.invalid "Separator is not found, and chunk exceed the limit")
    | some (.remainder rest, stream) =>
      onPipe p fun x => { x with stream }
      if rest.isEmpty then return .done .null
      logErrorLine rest
      drainLines fuel p
    | some (.line line, stream) =>
      onPipe p fun x => { x with stream }
      logErrorLine line
      match stream.fault with
      | some f => drainFailed f
      | none => drainLines fuel p

/-- Forwards the lines of an error stream. -/
def drain (p : PipeId) : ClientM Next := do
  let stream := (← pipe p).stream
  match stream.fault with
  | some f => drainFailed f
  | none => drainLines (stream.buffer.length + 2) p

/-- More octets have arrived, or the stream has ended. -/
def drainMore (p : PipeId) (o : Outcome) : ClientM Next := do
  stopWaiting p
  match o with
  | .error f => drainFailed f
  | .ok _ => drainLines ((← pipe p).stream.buffer.length + 2) p

/-! ## Closing -/

/-- Waits until a process has exited. -/
def awaitExit (i : ChildId) : ClientM Next := do
  if (← child i).exitCode.isSome then return .done .null
  let waiter ← newPromise
  onChild i fun x => { x with waiters := x.waiters ++ [waiter] }
  return .await waiter .relay

/-- Waits until a process has exited, for as long as it may take. -/
def awaitExitWithin (t : TransportId) (i : ChildId) (k : Activity) : ClientM Next := do
  let limit := match (← transport t).carrier with
    | .process l => l.closeTimeout
    | _ => .int 0
  return .call (.within (.awaitExit i) (some limit)) k

/-- Closes the input of a process, which may make it exit. -/
def closeInput (i : ChildId) : ClientM Unit := do
  let p ← childPeer i
  if p.closeFailure = some .atOnce then return
  note (.trace (.text "close"))
  if p.exitOn = .close then childExitsLater i p

/-- Asks a process to terminate. -/
def terminate (i : ChildId) : ClientM Unit := do
  let p ← childPeer i
  note (.trace (.text "terminate"))
  if !p.terminateMissing && p.exitOn = .terminate then childExitsLater i p

/-- Kills a process. -/
def kill (i : ChildId) : ClientM Unit := do
  note (.trace (.text "kill"))
  childExits i (-9)

/-- The process has exited: waits for the rest of its error stream. -/
def awaitDrain (t : TransportId) (i : ChildId) : ClientM Next := do
  match (← transport t).drain with
  | some task =>
    onTransport t fun x => { x with drain := none }
    gather [task] (.closeDrained i)
  | none => return .become (.closeDrained i)

/-- The input of a process was closed some time ago. -/
def closeAwaited (t : TransportId) (i : ChildId) (o : Outcome) : ClientM Next := do
  match o with
  | .ok _ => awaitDrain t i
  | .error .timedOut =>
    logTransport .warning "Server process pid=1000 did not exit, terminating"
    terminate i
    awaitExitWithin t i (.closeTerminated t i)
  | .error f => throw f

/-- A process was asked to terminate some time ago. -/
def closeTerminated (t : TransportId) (i : ChildId) (o : Outcome) : ClientM Next := do
  match o with
  | .ok _ => awaitDrain t i
  | .error .timedOut =>
    kill i
    return .call (.awaitExit i) (.closeKilled t i)
  | .error f => throw f

/-- A process was killed. -/
def closeKilled (t : TransportId) (i : ChildId) (o : Outcome) : ClientM Next := do
  let _ ← valueOf o
  awaitDrain t i

/-- All is said about a process. -/
def closeDrained (i : ChildId) (o : Outcome) : ClientM Next := do
  let _ ← valueOf o
  logTransport .info ("Server process pid=1000 exited with code "
    ++ (Fault.codeValue (← child i).exitCode).text)
  return .done .null

/-- Closes a transport in memory at once; its server may take some time. -/
def closeMemory (t : TransportId) : ClientM Next := do
  match (← transport t).carrier with
  | .queue =>
    onTransport t fun x => { x with isOpen := false }
    deliver t .finished
  | _ =>
    serverFinishes t
    onTransport t fun x => { x with link := none }
  let p := (← get).peer
  if p.closeDelay.le (.int 0) then return .become (.closeDelayed t)
  else return .call (.sleep p.closeDelay) (.closeDelayed t)

/-- The server has closed its end. -/
def closeDelayed (o : Outcome) : ClientM Next := do
  let _ ← valueOf o
  match (← get).peer.closeBreakage with
  | some b => throw (Peer.closeFault b)
  | none => return .done .null

/-- Begins to close a transport; one that is not open is left alone. -/
def closeTransport (t : TransportId) : ClientM Next := do
  let x ← transport t
  match x.carrier with
  | .process _ =>
    onTransport t fun x => { x with link := none }
    match x.link with
    | some { child := some i, .. } =>
      closeInput i
      awaitExitWithin t i (.closeAwaited t i)
    | _ => return .done .null
  | .socket _ =>
    onTransport t fun x => { x with link := none }
    if x.link.isNone then return .done .null
    if (← get).peer.closeFailure = some .atOnce then throw (Peer.closeFault .system)
    note (.trace (.text "close"))
    return .done .null
  | _ => closeMemory t

end LspClient.Client
