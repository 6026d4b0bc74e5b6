/-
The state of a session with its history, and the parameters of the first request. A state is only
reached along the allowed transitions.
-/
import LspClient.Fault

namespace LspClient

/-- The current state and the states before it, the oldest first. -/
structure Lifecycle where
  state : SessionState := .stopped
  history : List SessionState := []
  deriving DecidableEq, Inhabited

namespace Lifecycle

/-- Whether the session is running. -/
def isRunning (l : Lifecycle) : Bool :=
  l.state == .running

/-- Whether a state may follow now. -/
def canTransition (l : Lifecycle) (target : SessionState) : Bool :=
  l.state.mayBecome target

/-- Moves to a state that may follow. -/
def transition (l : Lifecycle) (target : SessionState) : Except Fault Lifecycle :=
  if l.canTransition target then .ok ⟨target, l.history ++ [l.state]⟩
  else
    .error (.lifecycle ("Invalid transition: " ++ l.state.name ++ " -> " ++ target.name)
      [("from", .str l.state.name), ("to", .str target.name)])

/-- Refuses an operation unless the session is running. -/
def requireRunning (l : Lifecycle) (operation : String) : Except Fault Unit :=
  if l.isRunning then .ok () else .error (.notRunning l.state operation)

/-- Whether each state of a path may follow the one before it. -/
def IsPath : List SessionState → Prop
  | a :: b :: rest => a.mayBecome b = true ∧ IsPath (b :: rest)
  | _ => True

/-- The states passed through, the current one at the end. -/
def path (l : Lifecycle) : List SessionState :=
  l.history ++ [l.state]

theorem isPath_concat {states : List SessionState} {a b : SessionState}
    (h : IsPath (states ++ [a])) (hab : a.mayBecome b = true) : IsPath (states ++ [a, b]) := by
  induction states with
  | nil => exact ⟨hab, trivial⟩
  | cons s rest ih =>
    cases rest with
    | nil => exact ⟨h.1, hab, trivial⟩
    | cons t rest => exact ⟨h.1, ih h.2⟩

/-- A transition keeps the path of states allowed. -/
theorem isPath_transition {l l' : Lifecycle} {target : SessionState} (h : IsPath l.path)
    (ht : l.transition target = .ok l') : IsPath l'.path := by
  unfold transition at ht
  split at ht
  · next hc =>
    cases ht
    simpa [path, List.append_assoc] using isPath_concat h hc
  · cases ht

/-- A transition leaves the first state as it was. -/
theorem head?_transition {l l' : Lifecycle} {target : SessionState} (ht : l.transition target = .ok l') :
    l'.path.head? = l.path.head? := by
  unfold transition at ht
  split at ht
  · cases ht
    simp [path, List.head?_append]
  · cases ht

end Lifecycle

/-- The name under which the client introduces itself. -/
def clientName : String := "ls-session"

/-- The version of the client. -/
def clientVersion : String := "1.0.0"

/-- The parameters of the first request. Capabilities and options that count as absent are left
empty or out. -/
def initializeParams (processId : Nat) (rootUri options capabilities : Value) : Value :=
  .object ([("processId", .int processId),
    ("clientInfo", .object [("name", .str clientName), ("version", .str clientVersion)]),
    ("rootUri", rootUri),
    ("capabilities", if capabilities.isTruthy then capabilities else .object [])]
    ++ if options.isTruthy then [("initializationOptions", options)] else [])

end LspClient
