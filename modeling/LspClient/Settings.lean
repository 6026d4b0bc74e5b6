/-
The settings of a session: sections of values with defaults for all that is missing. Settings come
from a mapping that keeps the schema; references to environment variables are replaced after the
mapping has been checked.
-/
import LspClient.Fault
import LspClient.Message
import LspClient.Policy
import LspClient.Settings.Expansion
import LspClient.Settings.Schema

namespace LspClient

namespace Settings

/-! ## Sections -/

/-- How to launch the server. -/
structure Server where
  command : List String := ["ansible-language-server", "--stdio"]
  cwd : Option String := none
  /-- Extra environment variables, a mapping. -/
  env : Value := .object []
  rootUri : Option String := none
  /-- Options for the server, a mapping. -/
  initializationOptions : Value := .object []
  deriving Inhabited

/-- A server that listens on a local port already. -/
structure Debug where
  enabled : Bool := false
  host : String := "127.0.0.1"
  port : Number := .int 6010
  connectTimeout : Number := .float 5.0
  deriving Inhabited

/-- Timeouts in seconds and the limit on messages in octets. -/
structure Requests where
  /-- No timeout means to wait without end. -/
  timeout : Option Number := none
  initializeTimeout : Number := .float 30.0
  shutdownTimeout : Number := .float 5.0
  maxMessageSize : Number := Message.maxSize
  deriving Inhabited

/-- Where telemetry goes. -/
structure Telemetry where
  enabled : Bool := true
  logFile : String := ""
  endpoint : String := ""
  batchSize : Number := .int 20
  timeout : Number := .float 10.0
  /-- Extra headers of posts, a mapping. -/
  headers : Value := .object []
  deriving Inhabited

/-- What is logged, and in which form. -/
structure Logging where
  level : String := "INFO"
  json : Bool := false
  deriving Inhabited

/-- Who we are among the installed components. -/
structure Conflicts where
  componentId : String := "ls-session"
  capability : String := "ansible"
  deriving Inhabited

end Settings

/-- All settings of a session. -/
structure Settings where
  version : String := "1.0"
  name : String := "ansibleServer"
  label : String := "Ansible Server"
  server : Settings.Server := {}
  debug : Settings.Debug := {}
  requests : Settings.Requests := {}
  restart : PolicySettings := {}
  telemetry : Settings.Telemetry := {}
  logging : Settings.Logging := {}
  conflicts : Settings.Conflicts := {}
  deriving Inhabited

namespace Settings

/-! ## The schema -/

/-- A number above zero. -/
def positiveNumber : Schema :=
  [.type [.number], .above 0]

/-- A number that is not negative. -/
def nonNegativeNumber : Schema :=
  [.type [.number], .minimum 0]

/-- A mapping with texts as values. -/
def textMap : Schema :=
  [.type [.object], .members [.type [.string]]]

/-- A text of at least one character. -/
def nonEmptyText : Schema :=
  [.type [.string], .nonEmptyText]

/-- A mapping with the given members and no others. -/
def sectionOf (members : List (String × Schema)) : Schema :=
  [.type [.object], .properties members, .noneBut (members.map (·.1))]

/-- The names of the log levels. -/
def levelNames : List String :=
  ["DEBUG", "INFO", "WARNING", "ERROR", "CRITICAL"]

/-- The members of the server section. -/
def Server.members : List (String × Schema) := [
  ("command", [.type [.array], .items nonEmptyText, .nonEmptyList]),
  ("cwd", [.type [.string, .null]]),
  ("env", textMap),
  ("root_uri", [.type [.string, .null]]),
  ("initialization_options", [.type [.object]])]

/-- The members of the debug section. -/
def Debug.members : List (String × Schema) := [
  ("enabled", [.type [.boolean]]),
  ("host", nonEmptyText),
  ("port", [.type [.integer], .minimum 1, .maximum 65535]),
  ("connect_timeout", positiveNumber)]

/-- The members of the requests section. -/
def Requests.members : List (String × Schema) := [
  ("timeout", [.anyOf [positiveNumber, [.type [.null]]]]),
  ("initialize_timeout", positiveNumber),
  ("shutdown_timeout", positiveNumber),
  ("max_message_size", [.type [.integer], .minimum 1])]

/-- The members of the restart section. -/
def restartMembers : List (String × Schema) := [
  ("max_consecutive_failures", [.type [.integer], .minimum 0]),
  ("backoff_initial", nonNegativeNumber),
  ("backoff_max", nonNegativeNumber),
  ("backoff_factor", [.type [.number], .minimum 1])]

/-- The members of the telemetry section. -/
def Telemetry.members : List (String × Schema) := [
  ("enabled", [.type [.boolean]]),
  ("log_file", [.type [.string]]),
  ("endpoint", [.type [.string]]),
  ("batch_size", [.type [.integer], .minimum 1]),
  ("timeout", positiveNumber),
  ("headers", textMap)]

/-- The members of the logging section. -/
def Logging.members : List (String × Schema) := [
  ("level", [.oneOf levelNames]),
  ("json", [.type [.boolean]])]

/-- The members of the conflicts section. -/
def Conflicts.members : List (String × Schema) := [
  ("component_id", nonEmptyText),
  ("capability", nonEmptyText)]

/-- The members of all settings. -/
def members : List (String × Schema) := [
  ("version", [.type [.string]]),
  ("name", nonEmptyText),
  ("label", nonEmptyText),
  ("server", sectionOf Server.members),
  ("debug", sectionOf Debug.members),
  ("requests", sectionOf Requests.members),
  ("restart", sectionOf restartMembers),
  ("telemetry", sectionOf Telemetry.members),
  ("logging", sectionOf Logging.members),
  ("conflicts", sectionOf Conflicts.members)]

/-- What settings have to keep. -/
def schema : Schema :=
  sectionOf members

/-- The error that lists violations. -/
def refusal (found : List Violation) : Fault :=
  let messages := found.map Violation.text
  .configuration ("Invalid settings: " ++ "; ".intercalate messages)
    [("errors", .list (messages.map .str))]

/-- Refuses a value that does not keep the schema, listing all that is wrong. The list cannot be
made if it has to show an integer of too many digits. -/
def validate (v : Value) : Except Fault Unit :=
  let found := schema.violations v
  if found.isEmpty then .ok ()
  else if found.all Violation.isTellable then .error (refusal found)
  else .error Json.PrintFault.tooManyDigits.toFault

/-! ## Reading -/

/-- A member that is not known, or whose value is of the wrong type. -/
def misfit (name : String) : Fault :=
  .type ("unexpected value of " ++ name)

/-- The text of a member. -/
def text (name : String) : Value → Except Fault String
  | .str s => .ok s
  | _ => .error (misfit name)

/-- The text of a member that may be null. -/
def optionalText (name : String) : Value → Except Fault (Option String)
  | .str s => .ok (some s)
  | .null => .ok none
  | _ => .error (misfit name)

/-- The truth value of a member. -/
def flag (name : String) : Value → Except Fault Bool
  | .bool b => .ok b
  | _ => .error (misfit name)

/-- The number of a member. -/
def number (name : String) (v : Value) : Except Fault Number :=
  match Number.ofValue? v with
  | some n => .ok n
  | none => .error (misfit name)

/-- The number of a member that may be null. -/
def optionalNumber (name : String) : Value → Except Fault (Option Number)
  | .null => .ok none
  | v => (number name v).map some

/-- The mapping of a member. -/
def mapping (name : String) (v : Value) : Except Fault Value :=
  if v.isMapping then .ok v else .error (misfit name)

/-- The texts of a list. -/
def texts (name : String) : Value → Except Fault (List String)
  | .list items => items.mapM (text name)
  | _ => .error (misfit name)

/-- The value of a member, or what stands for it in a mapping without such a member. -/
def member {α : Type} (v : Value) (name : String) (read : String → Value → Except Fault α)
    (initial : α) : Except Fault α :=
  match memberOf? v name with
  | some item => read name item
  | none => .ok initial

/-- Refuses what is no mapping, and mappings with members that are not known. -/
def onlyMembers (names : List String) (v : Value) : Except Fault Unit :=
  if v.isMapping then
    match unexpectedKeys names v with
    | [] => .ok ()
    | k :: _ => .error (misfit k.text)
  else .error (misfit "section")

/-- Reads the server section over defaults. -/
def Server.ofValue (d : Server) (v : Value) : Except Fault Server := do
  onlyMembers ["command", "cwd", "env", "root_uri", "initialization_options"] v
  return {
    command := ← member v "command" texts d.command
    cwd := ← member v "cwd" optionalText d.cwd
    env := ← member v "env" mapping d.env
    rootUri := ← member v "root_uri" optionalText d.rootUri
    initializationOptions := ← member v "initialization_options" mapping d.initializationOptions }

/-- Reads the debug section over defaults. -/
def Debug.ofValue (d : Debug) (v : Value) : Except Fault Debug := do
  onlyMembers ["enabled", "host", "port", "connect_timeout"] v
  return {
    enabled := ← member v "enabled" flag d.enabled
    host := ← member v "host" text d.host
    port := ← member v "port" number d.port
    connectTimeout := ← member v "connect_timeout" number d.connectTimeout }

/-- Reads the requests section over defaults. -/
def Requests.ofValue (d : Requests) (v : Value) : Except Fault Requests := do
  onlyMembers ["timeout", "initialize_timeout", "shutdown_timeout", "max_message_size"] v
  return {
    timeout := ← member v "timeout" optionalNumber d.timeout
    initializeTimeout := ← member v "initialize_timeout" number d.initializeTimeout
    shutdownTimeout := ← member v "shutdown_timeout" number d.shutdownTimeout
    maxMessageSize := ← member v "max_message_size" number d.maxMessageSize }

/-- Reads the restart section over defaults. -/
def restartOfValue (d : PolicySettings) (v : Value) : Except Fault PolicySettings := do
  onlyMembers ["max_consecutive_failures", "backoff_initial", "backoff_max", "backoff_factor"] v
  return {
    maxConsecutiveFailures := ←
      member v "max_consecutive_failures" number d.maxConsecutiveFailures
    backoffInitial := ← member v "backoff_initial" number d.backoffInitial
    backoffMax := ← member v "backoff_max" number d.backoffMax
    backoffFactor := ← member v "backoff_factor" number d.backoffFactor }

/-- Reads the telemetry section over defaults. -/
def Telemetry.ofValue (d : Telemetry) (v : Value) : Except Fault Telemetry := do
  onlyMembers ["enabled", "log_file", "endpoint", "batch_size", "timeout", "headers"] v
  return {
    enabled := ← member v "enabled" flag d.enabled
    logFile := ← member v "log_file" text d.logFile
    endpoint := ← member v "endpoint" text d.endpoint
    batchSize := ← member v "batch_size" number d.batchSize
    timeout := ← member v "timeout" number d.timeout
    headers := ← member v "headers" mapping d.headers }

/-- Reads the logging section over defaults. -/
def Logging.ofValue (d : Logging) (v : Value) : Except Fault Logging := do
  onlyMembers ["level", "json"] v
  return {
    level := ← member v "level" text d.level
    json := ← member v "json" flag d.json }

/-- Reads the conflicts section over defaults. -/
def Conflicts.ofValue (d : Conflicts) (v : Value) : Except Fault Conflicts := do
  onlyMembers ["component_id", "capability"] v
  return {
    componentId := ← member v "component_id" text d.componentId
    capability := ← member v "capability" text d.capability }

/-- Reads settings over defaults from a mapping whose references have been replaced. -/
def ofExpanded (d : Settings) (v : Value) : Except Fault Settings := do
  return {
    version := ← member v "version" text d.version
    name := ← member v "name" text d.name
    label := ← member v "label" text d.label
    server := ← member v "server" (fun _ => Server.ofValue d.server) d.server
    debug := ← member v "debug" (fun _ => Debug.ofValue d.debug) d.debug
    requests := ← member v "requests" (fun _ => Requests.ofValue d.requests) d.requests
    restart := ← member v "restart" (fun _ => restartOfValue d.restart) d.restart
    telemetry := ← member v "telemetry" (fun _ => Telemetry.ofValue d.telemetry) d.telemetry
    logging := ← member v "logging" (fun _ => Logging.ofValue d.logging) d.logging
    conflicts := ← member v "conflicts" (fun _ => Conflicts.ofValue d.conflicts) d.conflicts }

/-- Reads settings from a value: checks it, replaces references, fills in what is missing. -/
def ofValue (env : Environment) (v : Value) : Except Fault Settings := do
  validate v
  ofExpanded {} (expandValue env v)

/-! ## Writing -/

/-- A text or null. -/
def optionalTextValue : Option String → Value
  | some s => .str s
  | none => .null

/-- A number or null. -/
def optionalNumberValue : Option Number → Value
  | some n => n.toValue
  | none => .null

/-- The server section as a mapping. -/
def Server.toValue (s : Server) : Value :=
  .object [
    ("command", .list (s.command.map .str)),
    ("cwd", optionalTextValue s.cwd),
    ("env", s.env),
    ("root_uri", optionalTextValue s.rootUri),
    ("initialization_options", s.initializationOptions)]

/-- The debug section as a mapping. -/
def Debug.toValue (d : Debug) : Value :=
  .object [
    ("enabled", .bool d.enabled),
    ("host", .str d.host),
    ("port", d.port.toValue),
    ("connect_timeout", d.connectTimeout.toValue)]

/-- The requests section as a mapping. -/
def Requests.toValue (r : Requests) : Value :=
  .object [
    ("timeout", optionalNumberValue r.timeout),
    ("initialize_timeout", r.initializeTimeout.toValue),
    ("shutdown_timeout", r.shutdownTimeout.toValue),
    ("max_message_size", r.maxMessageSize.toValue)]

/-- The restart section as a mapping. -/
def restartToValue (p : PolicySettings) : Value :=
  .object [
    ("max_consecutive_failures", p.maxConsecutiveFailures.toValue),
    ("backoff_initial", p.backoffInitial.toValue),
    ("backoff_max", p.backoffMax.toValue),
    ("backoff_factor", p.backoffFactor.toValue)]

/-- The telemetry section as a mapping. -/
def Telemetry.toValue (t : Telemetry) : Value :=
  .object [
    ("enabled", .bool t.enabled),
    ("log_file", .str t.logFile),
    ("endpoint", .str t.endpoint),
    ("batch_size", t.batchSize.toValue),
    ("timeout", t.timeout.toValue),
    ("headers", t.headers)]

/-- The logging section as a mapping. -/
def Logging.toValue (l : Logging) : Value :=
  .object [
    ("level", .str l.level),
    ("json", .bool l.json)]

/-- The conflicts section as a mapping. -/
def Conflicts.toValue (c : Conflicts) : Value :=
  .object [
    ("component_id", .str c.componentId),
    ("capability", .str c.capability)]

/-- Settings written back as a mapping, with every member. -/
def toValue (s : Settings) : Value :=
  .object [
    ("version", .str s.version),
    ("name", .str s.name),
    ("label", .str s.label),
    ("server", s.server.toValue),
    ("debug", s.debug.toValue),
    ("requests", s.requests.toValue),
    ("restart", restartToValue s.restart),
    ("telemetry", s.telemetry.toValue),
    ("logging", s.logging.toValue),
    ("conflicts", s.conflicts.toValue)]

end Settings

end LspClient
