/-
When a session whose connection failed is started again: the delays grow with every failure in a
row, and after too many of them the session is given up.
-/
import LspClient.Fault

namespace LspClient

/-- How a policy is set up. -/
structure PolicySettings where
  /-- How many failures in a row still lead to a restart. -/
  maxConsecutiveFailures : Number := .int 4
  /-- The delay before the first restart, in seconds. -/
  backoffInitial : Number := .float 1.0
  /-- The longest delay. -/
  backoffMax : Number := .float 30.0
  /-- By how much the delay grows from one failure to the next. -/
  backoffFactor : Number := .float 2.0
  deriving Inhabited

/-- What follows from a failure. -/
structure FailureDecision where
  attempt : Nat
  restart : Bool
  delay : Number
  threshold : Number
  deriving Inhabited

namespace FailureDecision

/-- Whether the session is given up. -/
def fatal (d : FailureDecision) : Bool :=
  !d.restart

/-- Whether this is the first failure in a row. -/
def firstInStreak (d : FailureDecision) : Bool :=
  d.attempt == 1

end FailureDecision

/-- The settings together with the number of failures in a row. -/
structure RestartPolicy where
  settings : PolicySettings
  failures : Nat := 0
  deriving Inhabited

namespace RestartPolicy

/-- A policy without failures, if its settings are in range. -/
def ofSettings (s : PolicySettings) : Except Fault RestartPolicy :=
  if s.maxConsecutiveFailures.lt (.int 0) then
    .error (.invalid "max_consecutive_failures must not be negative")
  else if s.backoffInitial.lt (.int 0) || s.backoffMax.lt (.int 0) then
    .error (.invalid "backoff delays must not be negative")
  else if s.backoffFactor.lt (.int 1) then
    .error (.invalid "backoff_factor must be at least 1")
  else .ok ⟨s, 0⟩

/-- How many failures in a row still lead to a restart. -/
def threshold (p : RestartPolicy) : Number :=
  p.settings.maxConsecutiveFailures

/-- Whether there were more failures in a row than the threshold. -/
def exhausted (p : RestartPolicy) : Bool :=
  p.threshold.lt (.int p.failures)

/-- The delay after the failure with the given number, counted from 1. -/
def backoffFor (p : RestartPolicy) (attempt : Int) : Except Fault Number :=
  if attempt < 1 then .ok (.float 0.0)
  else
    let delay := do
      p.settings.backoffInitial.mul (← p.settings.backoffFactor.pow (attempt - 1).toNat)
    match delay with
    | .ok delay => .ok (delay.min p.settings.backoffMax)
    | .error f => .error (.range f)

/-- Counts a failure. -/
def countFailure (p : RestartPolicy) : RestartPolicy :=
  { p with failures := p.failures + 1 }

/-- What follows from the failures counted so far. -/
def decide (p : RestartPolicy) : Except Fault FailureDecision :=
  if p.exhausted then
    .ok ⟨p.failures, false, .float 0.0, p.threshold⟩
  else do
    return ⟨p.failures, true, ← p.backoffFor p.failures, p.threshold⟩

/-- Forgets the failures, after a start that succeeded. -/
def reset (p : RestartPolicy) : RestartPolicy :=
  { p with failures := 0 }

end RestartPolicy

end LspClient
