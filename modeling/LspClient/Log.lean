/-
Log records: where they come from, how grave they are, and what they carry beside their text.
-/
import LspClient.Fault

namespace LspClient.Log

inductive Level where
  | debug
  | info
  | warning
  | error
  | critical
  deriving DecidableEq, Inhabited

namespace Level

/-- Every level, the least grave first. -/
def all : List Level :=
  [debug, info, warning, error, critical]

/-- The name of a level. -/
def name : Level → String
  | debug => "DEBUG"
  | info => "INFO"
  | warning => "WARNING"
  | error => "ERROR"
  | critical => "CRITICAL"

/-- The number of a level; graver levels have larger ones. -/
def number : Level → Nat
  | debug => 10
  | info => 20
  | warning => 30
  | error => 40
  | critical => 50

end Level

/-- The part of the program that a record comes from. -/
inductive Source where
  | session
  | registry
  | router
  | transport
  | stderr
  | sink
  | backends
  | output
  | conflicts
  | host
  | commands
  | cli
  deriving DecidableEq, Inhabited

/-- The name of the logger of every part of the program. -/
def root : String := "ls_session"

/-- The name of the logger that carries what servers write to their error streams. -/
def stderrLogger : String := "ls_session.server.stderr"

/-- The name of the logger of a part of the program. -/
def Source.logger : Source → String
  | session => "ls_session.session"
  | registry => "ls_session.protocol.registry"
  | router => "ls_session.protocol.router"
  | transport => "ls_session.protocol.transport"
  | stderr => stderrLogger
  | sink => "ls_session.telemetry.sink"
  | backends => "ls_session.telemetry.backends"
  | output => "ls_session.telemetry.output"
  | conflicts => "ls_session.conflicts"
  | host => "ls_session.host"
  | commands => "ls_session.commands"
  | cli => "ls_session.cli"

/-- A log record. -/
structure Record where
  level : Level
  source : Source
  message : String
  /-- What the record carries beside its text, in order. -/
  fields : List (String × Value) := []
  /-- The fault that the record reports. -/
  fault : Option Fault := none
  /-- Seconds since the start of 1970. -/
  created : Float := 0.0
  deriving Inhabited

end LspClient.Log
