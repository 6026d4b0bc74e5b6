/-
Sending telemetry records and showing lines of output. Neither ever fails for whoever calls it:
what goes wrong in a backend is logged.
-/
import LspClient.Client.Basic

namespace LspClient.Client

open Telemetry (Backend)

/-! ## Backends -/

/-- The text of a file. -/
def fileText (path : String) : ClientM String := do
  return ((← get).files.lookup path).getD ""

/-- Adds text at the end of a file. -/
def appendFile (path text : String) : ClientM Unit := do
  let old ← fileText path
  modify fun c => { c with files := label path (old ++ text) c.files }

/-- A client whose sink has more backends. Files that they write to are there from now on. -/
def withBackends (c : Client) (backends : List Backend) : Client :=
  let opened := (backends.filterMap Backend.path?).filter fun path => (c.files.lookup path).isNone
  { c with
    sink := { c.sink with backends := c.sink.backends ++ backends }
    files := c.files ++ opened.eraseDups.map fun path => (path, "") }

/-- Changes the backend at a place. -/
def setBackend (index : Nat) (b : Backend) : ClientM Unit :=
  modify fun c => { c with sink := c.sink.setBackend index b }

/-- The poster at a place, if there is one. -/
def poster? (index : Nat) : ClientM (Option Telemetry.Poster) := do
  match (← get).sink.backends[index]? with
  | some (.http p) => return some p
  | _ => return none

/-- Posts what a poster has in its buffer, in the background, if tasks can be made. -/
def schedulePost (index : Nat) (p : Telemetry.Poster) : ClientM Unit := do
  if (← get).hasLoop then
    let task ← spawn (.post index p.buffer)
    setBackend index (.http { p with buffer := [], posts := p.posts ++ [task] })
    onLoop fun l => l.observe task (.notify (.postEnded index task))

/-- Hands a record on to the backend at a place. -/
def emitTo (index : Nat) (b : Backend) (r : Telemetry.Record) : ClientM Unit :=
  match b with
  | .memory limit records => setBackend index (.memory limit (Telemetry.remember limit records r))
  | .file path isOpen =>
    if isOpen then
      match Telemetry.line r with
      | .ok line => appendFile path (line ++ "\n")
      | .error f => throw f.toFault
    else pure ()
  | .http p => do
    let p := { p with buffer := p.buffer ++ [r] }
    setBackend index (.http p)
    if p.batchSize.le (.int p.buffer.length) then schedulePost index p
  | .broken => throw (.runtime "emit failed")
  | .recorder => note (.telemetry r)

/-- Sends a record to every backend. -/
def send (r : Telemetry.Record) : ClientM Unit := do
  if (← get).sink.enabled then
    for index in List.range (← get).sink.backends.length do
      match (← get).sink.backends[index]? with
      | none => pure ()
      | some b =>
        match ← attempt (emitTo index b r) with
        | .ok () => pure ()
        | .error f =>
          log .warning .sink ("Telemetry backend " ++ b.kind ++ " failed for " ++ r.event) [] (some f)

/-- A record of this moment. -/
def recordOf (event : String) (properties : List (String × Value)) : ClientM Telemetry.Record := do
  return ⟨event, properties, timestamp (← time)⟩

/-! ## Output -/

/-- Shows a line in the output channel. -/
def showLine (text : String) : ClientM Unit := do
  match (← get).output with
  | none => pure ()
  | some channel =>
    modify fun c => { c with output := some (channel.append text) }
    log .info .output ("[" ++ channel.name ++ "] " ++ text)
    note (.output (channel.written text))
    if channel.reports text then
      send (← recordOf Telemetry.outputErrorEvent
        [("channel", .str channel.name), ("message", .str text)])

end LspClient.Client
