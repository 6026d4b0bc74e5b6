/-
What settings select: the transport to the server, the telemetry sink, and the set-up of sessions.
-/
import LspClient.Session
import LspClient.Settings

namespace LspClient.Settings

/-- The members of a mapping with texts as keys. -/
def membersOf (v : Value) : List (String × Value) :=
  v.asObject?.getD []

/-- The transport to the server: one that connects to a debug port, or one that launches it. -/
def transport (s : Settings) (environment : List (String × Value)) : Except Fault Transport :=
  if s.debug.enabled then
    .ok {
      carrier := .socket ⟨s.debug.host, s.debug.port, s.debug.connectTimeout⟩
      maxSize := s.requests.maxMessageSize }
  else
    Transport.ofLaunch {
      command := s.server.command
      cwd := s.server.cwd
      env := Transport.mergedEnvironment environment (membersOf s.server.env) }
      s.requests.maxMessageSize

/-- How many records the memory of a sink keeps. -/
def memoryRecords : Nat := 1000

/-- The backends of a sink: a memory, and the file and the collector if there are any. -/
def Telemetry.sink (s : Settings.Telemetry) : Except Fault LspClient.Telemetry.Sink := do
  let file ← if s.logFile.isEmpty then pure []
    else do pure [← LspClient.Telemetry.Backend.fileOf s.logFile]
  let http ← if s.endpoint.isEmpty then pure []
    else do
      let poster ← LspClient.Telemetry.Poster.new s.endpoint s.batchSize (membersOf s.headers)
      pure [.http poster]
  return ⟨.memory (some memoryRecords) [] :: file ++ http, s.enabled⟩

/-- The set-up of a session. -/
def session (s : Settings) (processId : Nat) : SessionSettings where
  name := s.name
  label := s.label
  requestTimeout := s.requests.timeout
  initializeTimeout := some s.requests.initializeTimeout
  shutdownTimeout := some s.requests.shutdownTimeout
  initializeParams := initializeParams processId (optionalTextValue s.server.rootUri)
    s.server.initializationOptions .null
  maxMessageSize := s.requests.maxMessageSize
  messenger := .host

end LspClient.Settings
