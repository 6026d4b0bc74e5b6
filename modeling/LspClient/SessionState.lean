/-
The states a session passes through, and which may follow which.
-/

namespace LspClient

inductive SessionState where
  | stopped
  | starting
  | running
  | stopping
  | failed
  deriving DecidableEq, Inhabited

namespace SessionState

/-- Every state, in the order in which they are listed to users. -/
def all : List SessionState :=
  [stopped, starting, running, stopping, failed]

/-- The name of a state. -/
def name : SessionState → String
  | stopped => "stopped"
  | starting => "starting"
  | running => "running"
  | stopping => "stopping"
  | failed => "failed"

/-- The state with a name. -/
def ofName? (name : String) : Option SessionState :=
  all.find? fun s => s.name = name

/-- The states that may follow. Starting and failed sessions may be stopped too, so that their
connection can be released from every state. -/
def next : SessionState → List SessionState
  | stopped => [starting]
  | starting => [running, failed, stopping]
  | running => [stopping, failed]
  | stopping => [stopped]
  | failed => [starting, stopping]

/-- Whether a state may follow another. -/
def mayBecome (current target : SessionState) : Bool :=
  current.next.contains target

theorem ofName?_name (s : SessionState) : ofName? s.name = some s := by
  cases s <;> decide

theorem mayBecome_irrefl (s : SessionState) : s.mayBecome s = false := by
  cases s <;> rfl

end SessionState

end LspClient
