/-
What tasks are in the middle of. An activity is a point at which a task begins, or at which it
waits for something, together with what it needs to go on from there.
-/
import LspClient.Frame.Reader
import LspClient.Script

namespace LspClient

/-- The place of a session among those made so far. -/
abbrev SessionId := Nat

/-- Whose requests a registry holds. -/
inductive Owner where
  /-- No session: the registry stands alone. -/
  | alone
  | session (id : SessionId)
  deriving DecidableEq, Inhabited

inductive Activity where
  -- Waiting in general
  /-- Ends as what it called has ended. -/
  | relay
  | await (promise : PromiseId)
  | sleep (seconds : Number)
  | slept (timer : TimerId)
  /-- Does something, but for no longer than so many seconds. -/
  | within (inner : Activity) (limit : Option Number)
  | withinAwaited (task waiter : PromiseId) (timer : TimerId)
  /-- Cancels a task and waits until it has ended. -/
  | halt (task : PromiseId)
  | halted (task waiter : PromiseId)
  | overdue (task : PromiseId) (timer : Option TimerId)
  | abandoned (timer : TimerId) (fault : Fault)
  -- The life of a session
  | start (s : SessionId)
  | started (s : SessionId)
  | attempt (s : SessionId)
  | attemptReleased (s : SessionId)
  | attemptOpened (s : SessionId) (t : TransportId)
  | attemptAbandoned (s : SessionId)
  | attemptAnswered (s : SessionId) (t : TransportId)
  | attemptFailed (s : SessionId) (fault : Fault)
  | stop (s : SessionId) (clear : Bool)
  | stopAnnounced (s : SessionId) (clear : Bool)
  | stopReleased (s : SessionId) (clear : Bool) (fault : Option Fault)
  | shutDown (s : SessionId)
  | shutDownAnswered (s : SessionId)
  | fail (s : SessionId) (fault : Fault)
  | failReleased (s : SessionId) (fault : Fault)
  | release (s : SessionId)
  | releaseReader (s : SessionId) (t : Option TransportId)
  | releaseAnswers (s : SessionId) (t : Option TransportId)
  | releaseClosed (s : SessionId)
  | restart (s : SessionId) (delay : Number)
  | restartSlept (s : SessionId)
  | restartTried (s : SessionId)
  -- Messages of the server
  | readLoop (s : SessionId) (t : TransportId)
  | readLoopReceived (s : SessionId) (t : TransportId)
  | lostFailed (s : SessionId) (fault : Fault)
  | answer (s : SessionId) (id : RequestId) (method : String) (params : Value)
  | answered (s : SessionId) (id : RequestId) (method : String)
  /-- A handler that pauses. -/
  | react (reaction : Reaction) (argument : Display)
  | reacted (reaction : Reaction)
  -- Transports
  | openTransport (t : TransportId)
  | openDelayed (t : TransportId)
  | connect (t : TransportId)
  | connectDelayed (t : TransportId)
  | connected (t : TransportId)
  | receive (t : TransportId)
  | receiveQueued (t : TransportId) (getter : PromiseId)
  | receiveFramed
  | takeFrame (pipe : PipeId) (limit : Number) (phase : Frame.Phase)
  | takeFrameMore (pipe : PipeId) (limit : Number) (phase : Frame.Phase)
  | drain (pipe : PipeId)
  | drainMore (pipe : PipeId)
  | closeTransport (t : TransportId)
  | closeDelayed (t : TransportId)
  | awaitExit (child : ChildId)
  | closeAwaited (t : TransportId) (child : ChildId)
  | closeTerminated (t : TransportId) (child : ChildId)
  | closeKilled (t : TransportId) (child : ChildId)
  | closeDrained (child : ChildId)
  -- Telemetry
  | post (backend : Nat) (batch : List Telemetry.Record)
  | posted (batch : List Telemetry.Record) (answer : Except String Nat)
  | flush (backend : Nat)
  | closeBackend (backend : Nat)
  | closeSink (backend : Nat)
  | closeSinkOne (backend : Nat)
  -- Hosts
  | activate (installed : List Component)
  | activated (s : SessionId)
  | deactivate (s : SessionId)
  | deactivateOne (s : SessionId)
  -- The command line
  | runHost (resync : Bool)
  | runActivated (resync : Bool)
  | runGivenUp
  | runDeactivated (outcome : Outcome)
  deriving Inhabited

/-- What the loop tells the client. -/
inductive Event where
  /-- The time of a request is up. -/
  | requestExpired (owner : Owner) (id : RequestId) (timeout : Number)
  | requestSettled (owner : Owner) (id : RequestId) (promise : PromiseId)
  /-- A request with a label is settled; the steps wait for that. -/
  | handleSettled (label : String) (promise : PromiseId) (steps : List Step)
  | taskEnded (name : String) (promise : PromiseId)
  /-- A request of the server is answered. -/
  | answerEnded (s : SessionId) (promise : PromiseId)
  | postEnded (backend : Nat) (promise : PromiseId)
  | childExits (child : ChildId) (code : Int)
  deriving Inhabited

end LspClient
