/-
Transports carry messages between a session and its server. A transport is linked to at most one
server at a time: it reads from the server's stream and writes to it, and after it has been closed
it may be opened again.
-/
import LspClient.Frame.Reader
import LspClient.Loop
import LspClient.Peer

namespace LspClient

/-- The place of a transport among those made so far. -/
abbrev TransportId := Nat

/-- The place of a pipe among those made so far. -/
abbrev PipeId := Nat

/-- The place of a server process among those launched so far. -/
abbrev ChildId := Nat

/-- The reading end of a stream, and the promise of a reader that waits for octets. -/
structure Pipe where
  stream : Stream := {}
  waiter : Option PromiseId := none
  deriving Inhabited

/-- A server process that was launched. -/
structure Child where
  /-- How many launches came before it, failed ones included. -/
  number : Nat := 0
  output : PipeId
  errors : Option PipeId
  exitCode : Option Int := none
  /-- The promises of those who wait for the process to exit. -/
  waiters : List PromiseId := []
  /-- What the process does, if that is its own matter. -/
  peer : Option Peer := none
  deriving Inhabited

/-- How to launch a server process. -/
structure Launch where
  command : List String
  cwd : Option String := none
  /-- All environment variables, if they differ from those of the client. -/
  env : Option (List (String × Value)) := none
  closeTimeout : Number := .float 5.0
  deriving Inhabited

/-- Where a server listens. -/
structure Address where
  host : String
  port : Number
  connectTimeout : Number := .float 5.0
  deriving Inhabited

/-- What a transport is made of. -/
inductive Carrier where
  /-- Messages as they are, in memory. -/
  | queue
  /-- Frames over a stream in memory. -/
  | wire
  | process (launch : Launch)
  | socket (address : Address)
  deriving Inhabited

/-- Something that a server put into a queue. -/
inductive Delivery where
  | message (body : Octets)
  | finished
  | fault (f : Fault)
  deriving Inhabited

/-- What a transport is connected to. -/
structure Link where
  pipe : PipeId
  child : Option ChildId := none
  deriving DecidableEq, Inhabited

/-- Why a session writes a message. -/
inductive Purpose where
  /-- It is the first request. -/
  | handshake
  /-- The first request is answered. -/
  | initialized
  /-- A user sends a request. -/
  | request
  /-- A user sends a notification. -/
  | notification
  /-- A request was cancelled. -/
  | cancellation
  /-- It is the last request. -/
  | shutdown
  /-- The last request is answered, or given up. -/
  | exit
  /-- A request of the server is answered. -/
  | answer
  deriving DecidableEq, Inhabited

structure Transport where
  carrier : Carrier
  maxSize : Number
  /-- The streams, while the transport is open. -/
  link : Option Link := none
  /-- Whether a queue is open. -/
  isOpen : Bool := false
  /-- What a queue holds. -/
  inbox : List Delivery := []
  /-- The promises of those who wait for a queue. -/
  getters : List PromiseId := []
  /-- The task that forwards the error stream of a process. -/
  drain : Option PromiseId := none
  /-- The messages that sessions have tried to write, the oldest first. -/
  attempts : List (Purpose × String) := []
  deriving Inhabited

namespace Transport

/-- Whether messages can be written. -/
def canWrite (t : Transport) : Bool :=
  match t.carrier with
  | .queue => t.isOpen
  | _ => t.link.isSome

/-- A transport that launches a server; a command is needed. -/
def ofLaunch (launch : Launch) (maxSize : Number) : Except Fault Transport :=
  if launch.command.isEmpty then .error (.invalid "command must not be empty")
  else .ok { carrier := .process launch, maxSize }

/-- The variables of a server process: those of the client with the extra ones over them. -/
def mergedEnvironment (inherited extra : List (String × Value)) :
    Option (List (String × Value)) :=
  if extra.isEmpty then none
  else some (extra.foldl (fun vs (k, v) => Value.store k v vs) inherited)

/-- Using a transport that is not open. -/
def notOpen : Fault :=
  .connection "Transport is not open"

/-- Opening a transport twice. -/
def alreadyOpen : Fault :=
  .connection "Transport is already open"

/-- A write that failed, as a fault of the connection. -/
def writeFailed (f : Fault) : Fault :=
  .connection ("Write failed: " ++ f.message)

end Transport

end LspClient
