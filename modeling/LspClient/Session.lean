/-
A session: one connection to a server at a time, with its requests, its handlers and its restarts.
-/
import LspClient.Activity
import LspClient.Lifecycle
import LspClient.Message
import LspClient.Output
import LspClient.Policy
import LspClient.Registry
import LspClient.Router

namespace LspClient

/-- What is called when something happens in a session. -/
inductive Handler where
  | script (reaction : Reaction)
  /-- Logs the answer of a server to a resync. -/
  | logResync (s : SessionId)
  /-- Ends the program. -/
  | giveUp
  deriving Inhabited

/-- Who shows messages to the user. -/
inductive Messenger where
  | nobody
  /-- Whoever watches the client; the messenger fails after that, if it is to. -/
  | watcher (fails : Bool)
  | host
  deriving DecidableEq, Inhabited

/-- How a session is set up. -/
structure SessionSettings where
  name : String
  label : String
  requestTimeout : Option Number := none
  initializeTimeout : Option Number := some (.float 30.0)
  shutdownTimeout : Option Number := some (.float 5.0)
  initializeParams : Value
  maxMessageSize : Number := Message.maxSize
  hasTelemetry : Bool := true
  hasOutput : Bool := true
  messenger : Messenger := .nobody
  deriving Inhabited

structure Session where
  settings : SessionSettings
  policy : RestartPolicy
  lifecycle : Lifecycle := {}
  registry : Registry CancelHook := {}
  notifications : Router Handler := {}
  events : Router Handler := {}
  telemetryHandlers : Router Handler := {}
  requestHandlers : Router Handler := {}
  /-- The id of the next request. -/
  nextId : Nat := 1
  transport : Option TransportId := none
  /-- The task that reads from the transport. -/
  reader : Option PromiseId := none
  /-- The task that starts the session again after a failure. -/
  restarting : Option PromiseId := none
  /-- The tasks that answer requests of the server. -/
  answering : List PromiseId := []
  failureNotified : Bool := false
  capabilities : Value := .object []
  deriving Inhabited

namespace Session

/-- The first request of a session. -/
def initializeMethod : String := "initialize"

/-- The notification after the answer to the first request. -/
def initializedMethod : String := "initialized"

/-- The last request of a session. -/
def shutdownMethod : String := "shutdown"

/-- The last notification of a session. -/
def exitMethod : String := "exit"

/-- The notification that a request is cancelled. -/
def cancelMethod : String := "$/cancelRequest"

/-- The notification with telemetry of the server. -/
def telemetryMethod : String := "telemetry/event"

/-- The notifications with messages for the output channel. -/
def outputMethods : List String := ["window/logMessage", "window/showMessage"]

/-- The notification for a resync of the inventory, and for the answer to it. -/
def resyncMethod : String := "resync/ansible-inventory"

/-- The events in the life of a session. -/
def startedEvent : String := "started"

/-- The session has stopped. -/
def stoppedEvent : String := "stopped"

/-- The session has lost its connection, or could not connect. -/
def failedEvent : String := "failed"

/-- The session is given up. -/
def fatalEvent : String := "fatal"

/-- The name under which handlers of telemetry subscribe. -/
def telemetryTopic : String := "telemetry"

/-- The state of a session. -/
def state (s : Session) : SessionState :=
  s.lifecycle.state

/-- The name of a session. -/
def name (s : Session) : String :=
  s.settings.name

/-- A session as texts show it. -/
def text (s : Session) : String :=
  "<Session " ++ Text.quoted s.name ++ " " ++ s.state.name ++ ">"

/-- The router of a topic. -/
def router (s : Session) : Topic → Router Handler
  | .notification => s.notifications
  | .request => s.requestHandlers
  | .event => s.events
  | .telemetry => s.telemetryHandlers

/-- Changes the router of a topic. -/
def setRouter (s : Session) (topic : Topic) (r : Router Handler) : Session :=
  match topic with
  | .notification => { s with notifications := r }
  | .request => { s with requestHandlers := r }
  | .event => { s with events := r }
  | .telemetry => { s with telemetryHandlers := r }

/-- The message when a session loses its connection for the first time. -/
def crashMessage (s : Session) : String :=
  "The " ++ s.settings.label ++ " server crashed. It will be restarted."

/-- The message when a session is given up. -/
def givenUpMessage (s : Session) (attempts : Nat) : String :=
  "The " ++ s.settings.label ++ " server crashed " ++ toString attempts
    ++ " times in a row. It will not be restarted."

/-- Why requests are given up when the session stops. -/
def stoppedFault (s : Session) : Fault :=
  .termination ("Session " ++ s.name ++ " stopped")

/-- Why an attempt to start is given up when the session stops. -/
def interruptedFault (s : Session) : Fault :=
  .termination ("Session " ++ s.name ++ " stopped while starting")

/-- The name of a kind of message for the output channel. -/
def severity : Value → Option String
  | .int 1 | .bool true => some "Error"
  | .int 2 => some "Warn"
  | .int 3 => some "Info"
  | .int 4 => some "Log"
  | .float x =>
    if x == 1.0 then some "Error" else if x == 2.0 then some "Warn"
    else if x == 3.0 then some "Info" else if x == 4.0 then some "Log" else none
  | _ => none

/-- The line for a message of the server at a time of day. -/
def outputLine (clock : String) (params : Value) : Except Fault String :=
  match params with
  | .object members =>
    let kind := (Value.lookup "type" members).getD .null
    if kind.isHashable then
      let message := (Value.lookup "message" members).getD (.str "")
      .ok ("[" ++ (severity kind).getD "Info" ++ " - " ++ clock ++ "] " ++ message.text)
    else .error (.type "unhashable type")
  | v => .ok v.text

end Session

end LspClient
