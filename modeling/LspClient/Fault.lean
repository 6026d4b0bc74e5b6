/-
What can go wrong, as causes. The faults of sessions carry what callers need to react; the faults
of the world outside (values, files, connections) are kept apart from them. Wording and kind names
are functions of the cause.
-/
import LspClient.Number
import LspClient.RequestId
import LspClient.SessionState
import LspClient.Text.Utf8

namespace LspClient

/-- The kinds of fault that the operating system reports. -/
inductive SystemKind where
  | general
  | connectionReset
  | connectionRefused
  | connectionAborted
  | brokenPipe
  | noSuchProcess
  | noSuchFile
  | isDirectory
  | permission
  deriving DecidableEq, Inhabited

namespace SystemKind

/-- The name of a kind. -/
def name : SystemKind → String
  | general => "OSError"
  | connectionReset => "ConnectionResetError"
  | connectionRefused => "ConnectionRefusedError"
  | connectionAborted => "ConnectionAbortedError"
  | brokenPipe => "BrokenPipeError"
  | noSuchProcess => "ProcessLookupError"
  | noSuchFile => "FileNotFoundError"
  | isDirectory => "IsADirectoryError"
  | permission => "PermissionError"

/-- Every kind. -/
def all : List SystemKind :=
  [general, connectionReset, connectionRefused, connectionAborted, brokenPipe, noSuchProcess,
    noSuchFile, isDirectory, permission]

/-- The kind that an error number stands for. -/
def ofNumber (n : Int) : SystemKind :=
  if n = 1 ∨ n = 13 then permission
  else if n = 2 then noSuchFile
  else if n = 3 then noSuchProcess
  else if n = 21 then isDirectory
  else if n = 32 then brokenPipe
  else if n = 103 then connectionAborted
  else if n = 104 then connectionReset
  else if n = 111 then connectionRefused
  else general

/-- Whether the fault is that of a connection. -/
def isConnection : SystemKind → Bool
  | connectionReset | connectionRefused | connectionAborted | brokenPipe => true
  | _ => false

end SystemKind

/-- The members that a fault keeps about itself, for callers to inspect. -/
abbrev Details := List (String × Value)

inductive Fault where
  /-- A fault of a session without a kind of its own. -/
  | general (message : String) (details : Details)
  /-- The connection to the server failed or was lost. -/
  | transport (message : String) (details : Details)
  /-- A message breaks the protocol; the id is that of the request it answers, if that is known. -/
  | protocol (message : String) (code : Option Int) (details : Details)
      (requestId : Option RequestId)
  /-- A message is larger than the limit. -/
  | messageTooLarge (size : Int) (limit : Number) (requestId : Option RequestId)
  /-- The operation needs a running session. -/
  | notRunning (state : SessionState) (operation : String)
  /-- The session stopped or failed while the request was pending. -/
  | terminated (message : String) (details : Details)
  /-- The id is that of a request which is still pending. -/
  | duplicateId (id : RequestId)
  /-- No response came in time. -/
  | requestTimeout (id : RequestId) (method : String) (timeout : Number)
  /-- The server answered with an error. -/
  | response (message : String) (code : Option Int) (data : Value)
  /-- The state may not follow the current one. -/
  | lifecycle (message : String) (details : Details)
  /-- Settings cannot be read or are not valid. -/
  | configuration (message : String) (details : Details)
  /-- A value is out of the range of what is accepted. -/
  | invalid (message : String)
  /-- Octets are no text. -/
  | undecodable (fault : Text.DecodeFault)
  /-- A key is missing. -/
  | missingKey (key : Value)
  /-- A number is beyond the range of its kind. -/
  | range (fault : Number.RangeFault)
  /-- The operation is not possible now. -/
  | runtime (message : String)
  /-- A value is of the wrong type. -/
  | type (message : String)
  /-- The operating system refused. -/
  | system (kind : SystemKind) (arguments : List Value)
  /-- An awaited thing did not happen in time. -/
  | timedOut
  /-- The task was cancelled. -/
  | cancelled
  /-- Any other kind of fault, as handlers may raise it. -/
  | other (kind message : String)
  deriving Inhabited

namespace Fault

/-- A fault of the connection. -/
abbrev connection (message : String) : Fault :=
  .transport message []

/-- A fault that says a request was given up. -/
abbrev termination (message : String) : Fault :=
  .terminated message []

/-- The name of the kind of a fault. -/
def kind : Fault → String
  | general .. => "SessionError"
  | transport .. => "TransportError"
  | protocol .. => "ProtocolError"
  | messageTooLarge .. => "MessageTooLargeError"
  | notRunning .. => "NotRunningError"
  | terminated .. => "TerminationError"
  | duplicateId .. => "DuplicateIdError"
  | requestTimeout .. => "RequestTimeoutError"
  | response .. => "ResponseError"
  | lifecycle .. => "LifecycleError"
  | configuration .. => "ConfigurationError"
  | invalid .. => "ValueError"
  | undecodable .. => "UnicodeDecodeError"
  | missingKey .. => "KeyError"
  | range .. => "OverflowError"
  | runtime .. => "RuntimeError"
  | type .. => "TypeError"
  | system kind _ => kind.name
  | timedOut => "TimeoutError"
  | cancelled => "CancelledError"
  | other kind _ => kind

/-- The text of a fault with several arguments: the number and the wording, if that is what they
are. -/
def argumentsText : List Value → String
  | [] => ""
  | [v] => v.text
  | [number, wording] => "[Errno " ++ number.text ++ "] " ++ wording.text
  | values => (Value.list values).literal

/-- The message of a fault. -/
def message : Fault → String
  | general message _ | transport message _ | protocol message .. | terminated message _
  | response message .. | lifecycle message _ | configuration message _ | invalid message
  | runtime message | type message | other _ message => message
  | messageTooLarge size limit _ =>
    "Message too large: " ++ toString size ++ " bytes exceeds " ++ limit.text ++ " limit"
  | notRunning state operation =>
    (if operation.isEmpty then "Operation not allowed" else "Cannot " ++ operation)
      ++ ": session is " ++ state.name
  | duplicateId id => "Request id already pending: " ++ id.text
  | requestTimeout id method timeout =>
    "Request " ++ Text.quoted method ++ " (id=" ++ id.text ++ ") timed out after " ++ timeout.text
      ++ "s"
  | undecodable fault => fault.message
  | missingKey key => key.literal
  | range fault => fault.message
  | system _ arguments => argumentsText arguments
  | timedOut | cancelled => ""

/-- A code or null. -/
def codeValue : Option Int → Value
  | some n => .int n
  | none => .null

/-- An id or null. -/
def idValue : Option RequestId → Value
  | some id => id.toValue
  | none => .null

/-- What a fault of a session keeps about itself. -/
def details : Fault → Details
  | general _ details | transport _ details | protocol _ _ details _ | terminated _ details
  | lifecycle _ details | configuration _ details => details
  | messageTooLarge size limit _ => [("size", .int size), ("limit", limit.toValue)]
  | notRunning state _ => [("state", .str state.name)]
  | duplicateId id => [("request_id", id.toValue)]
  | requestTimeout id method timeout =>
    [("request_id", id.toValue), ("method", .str method), ("timeout", timeout.toValue)]
  | response _ code data => [("code", codeValue code), ("data", data)]
  | _ => []

/-- Whether the fault is one of sessions, and not of the world outside. -/
def isSession : Fault → Bool
  | general .. | transport .. | protocol .. | messageTooLarge .. | notRunning .. | terminated ..
  | duplicateId .. | requestTimeout .. | response .. | lifecycle .. | configuration .. => true
  | _ => false

/-- Whether the fault is that of a message, which leaves the connection usable. -/
def isProtocol : Fault → Bool
  | protocol .. | messageTooLarge .. => true
  | _ => false

/-- Whether the fault is that of a connection. -/
def isTransport : Fault → Bool
  | transport .. => true
  | _ => false

/-- Whether the request was given up with its session. -/
def isTermination : Fault → Bool
  | terminated .. => true
  | _ => false

/-- Whether the operating system reported the fault; running out of time counts as such. -/
def isSystem : Fault → Bool
  | system .. | timedOut => true
  | _ => false

/-- Whether a task was cancelled; handlers of errors let this pass. -/
def isCancellation : Fault → Bool
  | cancelled => true
  | _ => false

/-- The id of the request that the fault belongs to, if the fault names one. -/
def requestId? : Fault → Option RequestId
  | protocol _ _ _ id | messageTooLarge _ _ id => id
  | _ => none

/-- The fault of a kind with a message, as handlers raise it. -/
def ofKind (kind message : String) : Fault :=
  match kind with
  | "SessionError" => .general message []
  | "TransportError" => .transport message []
  | "ProtocolError" => .protocol message none [] none
  | "TerminationError" => .terminated message []
  | "ResponseError" => .response message none .null
  | "LifecycleError" => .lifecycle message []
  | "ConfigurationError" => .configuration message []
  | "ValueError" => .invalid message
  | "KeyError" => .missingKey (.str message)
  | "RuntimeError" => .runtime message
  | "TypeError" => .type message
  | "TimeoutError" => .timedOut
  | "CancelledError" => .cancelled
  | _ =>
    match SystemKind.all.find? fun k => k.name = kind with
    | some k => .system k [.str message]
    | none => .other kind message

theorem isSession_of_isProtocol (f : Fault) (h : f.isProtocol = true) : f.isSession = true := by
  cases f <;> simp_all [isProtocol, isSession]

end Fault

end LspClient
