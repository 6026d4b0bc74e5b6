/-
The sink that telemetry records are sent to, and the backends it hands them on to: a memory, a
file with a line for each record, and a collector that records are posted to in batches.
-/
import LspClient.Loop
import LspClient.Path
import LspClient.Telemetry.Record
import LspClient.Telemetry.Redaction

namespace LspClient.Telemetry

/-- A backend that posts records to a collector. -/
structure Poster where
  endpoint : String
  batchSize : Number := .int 20
  headers : List (String × Value) := []
  /-- The records that wait to be posted. -/
  buffer : List Record := []
  /-- The posts that are under way in the background. -/
  posts : List PromiseId := []
  deriving Inhabited

/-- How the client introduces itself to collectors. -/
def userAgent : String := "ls-session/1.0 (Telemetry)"

/-- A poster, if its batches have a size. -/
def Poster.new (endpoint : String) (batchSize : Number) (headers : List (String × Value)) :
    Except Fault Poster :=
  if batchSize.lt (.int 1) then .error (.invalid "batch_size must be positive")
  else .ok {
    endpoint, batchSize
    headers := headers.foldl (fun hs (k, v) => Value.store k v hs) [("User-Agent", .str userAgent)] }

inductive Backend where
  /-- Keeps the latest records. -/
  | memory (limit : Option Nat) (records : List Record)
  /-- Appends a line for each record to a file. -/
  | file (path : String) (isOpen : Bool)
  | http (poster : Poster)
  /-- Fails whenever it is used. -/
  | broken
  /-- Shows each record to whoever watches the client. -/
  | recorder
  deriving Inhabited

namespace Backend

/-- A memory without records. A limit may not be negative. -/
def memoryOf (limit : Option Int) : Except Fault Backend :=
  match limit with
  | some n =>
    if n < 0 then .error (.invalid "maxlen must be non-negative") else .ok (.memory n.toNat [])
  | none => .ok (.memory none [])

/-- A file that is open for new lines. -/
def fileOf (path : String) : Except Fault Backend :=
  let p := Path.ofText path
  if p.endsInDirectory then
    .error (.system .isDirectory [.int 21, .str "Is a directory", .str p.text])
  else .ok (.file p.text true)

/-- The file that a backend writes to. -/
def path? : Backend → Option String
  | file path _ => some path
  | _ => none

/-- The name of the kind of a backend. -/
def kind : Backend → String
  | memory .. => "MemoryTelemetryBackend"
  | file .. => "JsonLinesTelemetryBackend"
  | http .. => "HttpTelemetryBackend"
  | broken => "BrokenBackend"
  | recorder => "Recorder"

end Backend

/-- Adds a record to a memory, which forgets its oldest ones. -/
def remember (limit : Option Nat) (records : List Record) (r : Record) : List Record :=
  let records := records ++ [r]
  match limit with
  | some n => records.drop (records.length - n)
  | none => records

/-- The line of a record in a file. -/
def line (r : Record) : Except Json.PrintFault String :=
  Json.printLenient (.object [("timestamp", .str r.timestamp), ("eventName", .str r.event),
    ("properties", .object (redact r.properties))])

/-- A record as it is posted. -/
def posted (r : Record) : Value :=
  .object [("eventName", .str r.event), ("properties", .object (redact r.properties)),
    ("timestamp", .str r.timestamp)]

structure Sink where
  backends : List Backend := []
  /-- A sink that is not enabled drops all records. -/
  enabled : Bool := true
  deriving Inhabited

/-- Changes the backend at a place. -/
def Sink.setBackend (s : Sink) (index : Nat) (b : Backend) : Sink :=
  { s with backends := s.backends.set index b }

end LspClient.Telemetry
