/-
Telemetry records: a name, properties and the time of the event.
-/
import LspClient.Calendar
import LspClient.Json.Printer

namespace LspClient.Telemetry

/-! ## The names of events -/

/-- A start succeeded or failed. -/
def startupEvent : String := "ls-session/startup"

/-- The connection failed. -/
def transportFailureEvent : String := "ls-session/transportFailure"

/-- The session was given up after too many failures. -/
def restartThresholdEvent : String := "ls-session/restartThresholdExceeded"

/-- The server or the connection broke the protocol. -/
def protocolErrorEvent : String := "ls-session/protocolError"

/-- An event of the server that has no name of its own. -/
def serverTelemetryEvent : String := "ls-session/serverTelemetry"

/-- The server wrote an error to its output channel. -/
def outputErrorEvent : String := "ls-session/outputError"

/-- A handler raised an error. -/
def handlerErrorEvent : String := "ls-session/handlerError"

/-- One telemetry event. -/
structure Record where
  event : String
  properties : List (String × Value)
  timestamp : String
  deriving Inhabited

namespace Record

/-- The record for what a server sends as telemetry. A payload with a name keeps it; anything else
becomes the data of a server event. -/
def ofPayload (payload : Value) (timestamp : String) : Record :=
  match payload.get? "eventName" with
  | some (.str name) =>
    ⟨name, ((payload.get? "properties").bind Value.asObject?).getD [], timestamp⟩
  | _ => ⟨serverTelemetryEvent, [("data", payload)], timestamp⟩

/-- A record as a value. -/
def toValue (r : Record) : Value :=
  .object [("eventName", .str r.event), ("properties", .object r.properties),
    ("timestamp", .str r.timestamp)]

/-- A record as JSON text. -/
def toJson (r : Record) : Except Json.PrintFault String :=
  Json.printLenient r.toValue

end Record

end LspClient.Telemetry
