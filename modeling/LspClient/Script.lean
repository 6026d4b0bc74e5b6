/-
What users of a client do, as data: steps to execute, and reactions of handlers that execute steps
of their own and then answer.
-/
import LspClient.Conflict
import LspClient.Display
import LspClient.Peer
import LspClient.Telemetry.Sink
import LspClient.Transport

namespace LspClient

/-- The handlers that a session calls. -/
inductive Topic where
  /-- Notifications of the server. -/
  | notification
  /-- Requests of the server. -/
  | request
  /-- Events in the life of the session. -/
  | event
  /-- Telemetry records. -/
  | telemetry
  deriving DecidableEq, Inhabited

/-- How long a handler takes before it answers. -/
inductive Pause where
  | never
  | delay (seconds : Number)
  /-- Until the session has stopped. -/
  | stop
  deriving Inhabited

/-- What a handler answers. -/
inductive Ending where
  | returns (v : Value)
  | raises (f : Fault)
  deriving Inhabited

/-- What is done when a request is cancelled by its caller. -/
inductive CancelHook where
  /-- The server is told. -/
  | tellServer
  /-- The id is noted; then the hook fails, if it is to. -/
  | record (fails : Bool)
  deriving DecidableEq, Inhabited

/-- The timeout of a request. -/
inductive Patience where
  /-- That of the session. -/
  | default
  | atMost (timeout : Option Number)
  deriving Inhabited

mutual

/-- What a handler does when it is called. One that pauses does nothing until it is awaited. -/
inductive Reaction where
  | mk (label : String) (steps : List Step) (pause : Option Pause) (ending : Ending)

/-- Something a user of a client does. -/
inductive Step where
  -- Time and tasks
  | advance (seconds : Number)
  | batch (steps : List Step)
  | cancel (label : String)
  | await (label task : String) (timeout : Option Number)
  | cancelTask (task : String)
  | handle (label : String)
  | unsubscribe (label : String)
  | isActive (label : String)
  | subscribedWhile (label : String)
  -- A registry of its own
  | register (id : RequestId) (method label : String) (timeout : Option Number)
      (onCancel : Option CancelHook) (whenSettled : List Step)
  | resolve (id : RequestId) (result : Value)
  | resolveError (id : RequestId) (error : List (String × Value))
  | reject (id : RequestId) (fault : Fault)
  | cancelId (id : RequestId)
  | rejectAll (fault : Fault)
  | isPending (id : RequestId)
  | wasCancelled (id : RequestId)
  | pendingCount
  -- A router of its own
  | subscribe (method : String) (reaction : Reaction)
  | dispatch (method : String) (params : Value)
  | hasSubscribers (method : String)
  | handlers (method : String)
  | clearRouter
  -- A session
  | start (task : String)
  | stop (task : String) (clear : Bool)
  | request (label method : String) (params : Value) (patience : Patience)
  | notify (method : String) (params : Value)
  | push (body : Octets) (target : Option Nat)
  | feed (octets : Octets) (target : Option Nat)
  | finish (target : Option Nat)
  | readFault (fault : Fault) (target : Option Nat)
  | on (topic : Topic) (name : String) (reaction : Reaction)
  | setPeer (change : Peer → Peer)
  | resync
  | listenResync (label : Option String)
  | inspect
  -- A host
  | create
  | activate (task : String) (installed : List Component)
  | deactivate (task : String)
  | installed (components : List Component)
  | tellUser (message : String)
  | told
  | lines
  | showLine (text : String)
  | clearLines
  | backendKinds
  -- Telemetry
  | event (name : String) (properties : List (String × Value))
  | payload (payload : Value)
  | enable (enabled : Bool)
  | addBackend (backend : Except Fault Telemetry.Backend)
  | records (index : Nat)
  | named (index : Nat) (name : String)
  | forgetRecords (index : Nat)
  | flush (index : Nat) (task : String)
  | closeFile (index : Nat)
  | closeSink (task : String)
  -- A transport
  | openTransport (task : String)
  | read (task : String)
  | closeTransport (task : String)
  | write (text : String)
  | feedErrors (octets : Octets)
  | errorStreamFault (fault : Fault)
  | exit (code : Int)

end

instance : Inhabited Reaction := ⟨.mk "" [] none (.returns .null)⟩
instance : Inhabited Step := ⟨.inspect⟩

namespace Reaction

/-- The label under which a reaction notes what it is called with. -/
def label : Reaction → String
  | mk label .. => label

/-- The steps of a reaction. -/
def steps : Reaction → List Step
  | mk _ steps .. => steps

/-- How long a reaction takes. -/
def pause : Reaction → Option Pause
  | mk _ _ pause _ => pause

/-- What a reaction answers. -/
def ending : Reaction → Ending
  | mk _ _ _ ending => ending

end Reaction

end LspClient
