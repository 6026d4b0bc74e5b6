/-
Scripted servers: what a server does when a client connects, writes and closes, without any process
or socket behind it.
-/
import LspClient.Fault

namespace LspClient

/-- How a scripted write or close fails. -/
inductive Breakage where
  | connection
  | system
  | runtime
  deriving DecidableEq, Inhabited

/-- What makes a scripted process exit. -/
inductive ExitCause where
  | close
  | terminate
  | kill
  deriving DecidableEq, Inhabited

/-- When closing a scripted stream fails. -/
inductive CloseFailure where
  /-- As soon as it is closed. -/
  | atOnce
  /-- While the client waits until it is closed. -/
  | waiting
  deriving DecidableEq, Inhabited

structure Peer where
  /-- Messages travel in frames over a stream, and not as they are. -/
  framed : Bool := false
  /-- The largest message that framed transports accept. -/
  frameLimit : Number
  /-- The server answers the first and the last request of a session. -/
  autoReply : Bool := true
  initResult : Value := .object [("capabilities", .object [("hoverProvider", .bool true)])]
  initError : Option Value := none
  shutdownResult : Value := .null
  shutdownError : Option Value := none
  /-- How many of the next attempts to connect fail. -/
  openFailures : Nat := 0
  openError : String := "Failed to start server 'fake-server'"
  openDelay : Number := .int 0
  /-- The reason why no transport can be made; none if there is no text. -/
  factoryError : String := ""
  closeDelay : Number := .int 0
  closeBreakage : Option Breakage := none
  failWrites : Bool := false
  writeBreakage : Option Breakage := none
  /-- After how many of the next handshakes the server ends its stream. -/
  endsAfterInit : Nat := 0
  /-- The arguments of the fault with which the next processes cannot be launched. -/
  spawnError : Option (List Value) := none
  connectError : Option (List Value) := none
  connectDelay : Number := .int 0
  /-- How long the lines of the streams may be. -/
  lineLimit : Nat := 65536
  hasErrorStream : Bool := true
  closeFailure : Option CloseFailure := none
  exitOn : ExitCause := .close
  exitDelay : Number := .int 0
  exitCode : Int := 0
  terminateMissing : Bool := false
  killMissing : Bool := false
  /-- The process has exited before the client can use it. -/
  exitsAtOnce : Bool := false
  /-- The code with which the process exits after the handshake. -/
  crashCode : Option Int := none
  deriving Inhabited

namespace Peer

/-- The answer of the server to a request, if it answers. -/
def reply? (p : Peer) (method : String) : Option (String × Value) :=
  if !p.autoReply then none
  else if method = "initialize" then
    match p.initError with
    | some e => some ("error", e)
    | none => some ("result", p.initResult)
  else if method = "shutdown" then
    match p.shutdownError with
    | some e => some ("error", e)
    | none => some ("result", p.shutdownResult)
  else none

/-- What a scripted write fails with. -/
def writeFault : Breakage → Fault
  | .runtime => .runtime "scripted write error"
  | _ => .system .brokenPipe [.str "scripted write error"]

/-- What a scripted close fails with. -/
def closeFault : Breakage → Fault
  | .connection => .connection "scripted close error"
  | _ => .system .general [.str "scripted close error"]

end Peer

end LspClient
