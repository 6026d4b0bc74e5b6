/-
The program: it loads settings as the command line asks, runs a host until its session is given up
or the program is interrupted, and ends with a code. The clock moves to the next timer whenever
nothing else is left to do; without timers the program is interrupted.
-/
import LspClient.Client.Steps
import LspClient.CommandLine
import LspClient.Log.Setup
import LspClient.Settings.File

namespace LspClient.Program

/-- What the program finds when it starts. -/
structure World where
  directory : Directory := {}
  environment : Settings.Environment
  /-- The time of the start, in microseconds since the start of 1970. -/
  origin : Int
  processId : Nat
  /-- The server at the other end of connections. -/
  peer : Peer
  /-- The servers behind the processes that are launched, the last one again and again. -/
  peers : List Peer := []

/-- How the program has ended, and what it has left behind. -/
structure Result where
  code : Nat
  /-- Whether the command line alone has ended it. -/
  early : Bool := false
  output : String := ""
  errors : String := ""
  client : Option Client := none

/-! ## Settings -/

/-- The settings that the command line asks for. -/
def settingsOf (w : World) (c : CommandLine.Choices) : Except Fault Settings := do
  let settings ← match c.config with
    | some path => Settings.load w.directory w.environment path
    | none => pure {}
  return { settings with
    debug := { settings.debug with enabled := settings.debug.enabled || c.debug }
    logging := { settings.logging with level := c.logLevel.getD settings.logging.level } }

/-! ## Running -/

open Client in
/-- Runs until a task is settled, and tells whether it was interrupted. -/
def runUntil (main : PromiseId) : Nat → Bool → ClientM Bool
  | 0, interrupted => return interrupted
  | fuel + 1, interrupted => do
    settleDown
    let loop := (← get).loop
    if loop.isSettled main then return interrupted
    match loop.nextDue? with
    | some due =>
      onLoop fun l => if Loop.isDue l.now due then l else { l with now := due }
      runUntil main fuel interrupted
    | none =>
      if interrupted then return true
      let _ ← cancelPromise main
      runUntil main fuel true

/-- How often the clock moves, at most. -/
def timerFuel : Nat := 1000000

open Client in
/-- Runs the host, and tells with which code the program ends. -/
def runHost (resyncs : Bool) : ClientM Nat := do
  let main ← spawn (.runHost resyncs)
  let interrupted ← runUntil main timerFuel false
  match (← get).loop.outcome? main with
  | some (.ok (.int n)) => return n.toNat
  | some (.ok _) => return 0
  | some (.error f) => if !(f.isCancellation && interrupted) then throw f
  | none => pure ()
  log .info .cli "Interrupted, shutting down"
  return 130

/-- What a note adds to the error stream. -/
def errorText (setup : Log.Setup) : Note → String
  | .log r => String.join ((setup.ofRecord r).map (·.2))
  | .output s => s
  | _ => ""

/-- The client that runs in a world. -/
def clientOf (w : World) (settings : Settings) : Except Fault Client :=
  Client.withHost {
    origin := w.origin
    processId := w.processId
    peer := w.peer
    peers := w.peers
    environment := w.environment.bindings.map fun (name, value) => (name, .str value)
    usesSettings := true } settings .nobody (some [])

/-- Runs the program with some words on its command line. -/
def run (w : World) (words : List String) : Except Fault Result := do
  match CommandLine.parse words with
  | .error e => return { code := e.code, early := true, output := e.output, errors := e.errors }
  | .ok choices =>
    match settingsOf w choices with
    | .error (.configuration message _) =>
      return { code := 1, errors := "Error loading settings: " ++ message ++ "\n" }
    | .error f => throw f
    | .ok settings =>
      let (_, setup) := Log.Setup.configure {} (.str settings.logging.level) settings.logging.json 0
      let client ← clientOf w settings
      let (code, client) := ExceptT.run (Client.perform (runHost choices.resync)) client
      let errors := String.join (client.notes.toList.map (errorText setup))
      return { code := ← code, errors, client := some client }

/-- What the program has appended to files, by their paths. -/
def appended (r : Result) : List (String × String) :=
  (r.client.map (·.files)).getD []

/-- What the files that the program has written contain at last, by their paths. -/
def written (w : World) (r : Result) : List (String × String) :=
  (appended r).map fun (path, text) =>
    match w.directory.find? (.ofText path) with
    | some (.file octets) => (path, Text.decodeLossy octets ++ text)
    | _ => (path, text)

end LspClient.Program
