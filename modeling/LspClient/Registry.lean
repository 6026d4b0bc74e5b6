/-
The requests that wait for their responses. Each has a promise of its own, which the registry
settles once: with the response, when its time is up, when the caller cancels it, or when the
session ends. The ids of requests that were cancelled or timed out are remembered for a while, so
that their late responses can be told from responses nobody asked for.
-/
import LspClient.Loop
import LspClient.Recency

namespace LspClient

/-- A request that waits for its response. -/
structure Pending (κ : Type) where
  id : RequestId
  method : String
  promise : PromiseId
  timer : Option TimerId
  /-- What is done when the caller cancels the request. -/
  onCancel : Option κ
  deriving Inhabited

structure Registry (κ : Type) where
  /-- The pending requests, in the order of registration. -/
  pending : List (Pending κ) := []
  remembered : Recency RequestId Unit := .empty 256

instance {κ : Type} : Inhabited (Registry κ) := ⟨{}⟩

namespace Registry

/-- What the loop tells the registry about a request. -/
structure Events (ω : Type) where
  /-- Its time is up. -/
  expire : RequestId → Number → ω
  /-- Its promise is settled. -/
  settled : RequestId → PromiseId → ω

/-- How an attempt to settle a request went. -/
inductive Settlement where
  | settled
  /-- The request was cancelled or timed out before. -/
  | late
  /-- No such request is known. -/
  | unknown
  deriving DecidableEq, Inhabited

/-- An operation on a registry and its loop. -/
abbrev Operation (κ φ ω : Type) :=
  ExceptT Fault (StateM (Registry κ × Loop φ ω))

variable {κ φ ω : Type}

/-- A registry without requests that remembers so many ids. -/
def empty (memory : Nat) : Registry κ :=
  { remembered := .empty memory }

/-! ## Questions -/

/-- The ids of the pending requests, in the order of registration. -/
def ids (r : Registry κ) : List RequestId :=
  r.pending.map (·.id)

/-- The pending request with an id. -/
def find? (r : Registry κ) (id : RequestId) : Option (Pending κ) :=
  r.pending.find? fun p => p.id = id

/-- Whether a request with the id is pending. -/
def contains (r : Registry κ) (id : RequestId) : Bool :=
  r.pending.any fun p => p.id = id

/-- Whether the id belongs to a request that was cancelled or timed out lately. -/
def wasCancelled (r : Registry κ) (id : RequestId) : Bool :=
  r.remembered.contains id

/-! ## Changes -/

/-- Removes the entry of an id. -/
def erase (r : Registry κ) (id : RequestId) : Registry κ :=
  { r with pending := r.pending.filter fun p => p.id ≠ id }

/-- Changes the loop. -/
def onLoop (f : Loop φ ω → Loop φ ω) : Operation κ φ ω Unit :=
  modify fun (r, l) => (r, f l)

/-- Remembers an id. A memory without room refuses. -/
def remember (id : RequestId) : Operation κ φ ω Unit := do
  let (r, l) ← get
  if r.remembered.canHold then set ({ r with remembered := r.remembered.insert id () }, l)
  else throw (.invalid "value too large")

/-- Stops the timer of an entry. -/
def stopTimer (p : Pending κ) : Operation κ φ ω Unit :=
  match p.timer with
  | some timer => onLoop (·.cancelTimer timer)
  | none => pure ()

/-- Registers a request and answers its promise. -/
def register (events : Events ω) (id : RequestId) (method : String) (timeout : Option Number)
    (onCancel : Option κ) : Operation κ φ ω PromiseId := do
  if (← get).1.contains id then throw (.duplicateId id)
  let promise ← modifyGet fun (r, l) =>
    let (promise, l) := l.newPromise
    (promise, (r, l.observe promise (.notify (events.settled id promise))))
  let timer ← match timeout with
    | none => pure none
    | some timeout =>
      match timeout.widen with
      | .error f => throw (.range f)
      | .ok seconds =>
        let timer ← modifyGet fun (r, l) =>
          let (timer, l) := l.callLater seconds (.notify (events.expire id timeout))
          (timer, (r, l))
        pure (some timer)
  modify fun (r, l) => ({ r with pending := r.pending ++ [⟨id, method, promise, timer, onCancel⟩] }, l)
  return promise

/-- Takes the entry of an id out. One whose promise was cancelled behind the registry's back is
remembered and not answered. -/
def take? (id : RequestId) : Operation κ φ ω (Option (Pending κ)) := do
  match (← get).1.find? id with
  | none => return none
  | some p =>
    modify fun (r, l) => (r.erase id, l)
    stopTimer p
    if (← get).2.isSettled p.promise then
      remember id
      return none
    return some p

/-- What it is to settle a promise twice. -/
def alreadySettled : Fault :=
  .other "InvalidStateError" "invalid state"

/-- Settles the promise of a request; one that is settled already refuses. -/
def settlePromise (promise : PromiseId) (outcome : Outcome) : Operation κ φ ω Unit := do
  if (← get).2.isSettled promise then throw alreadySettled
  onLoop (·.settle promise outcome)

/-- Settles a pending request. -/
def settle (id : RequestId) (outcome : Outcome) : Operation κ φ ω Settlement := do
  match ← take? id with
  | some p =>
    settlePromise p.promise outcome
    return .settled
  | none => return if (← get).1.wasCancelled id then .late else .unknown

/-- The fault that the error of a response stands for. -/
def responseFault (error : List (String × Value)) : Fault :=
  let code := match Value.lookup "code" error with
    | some (.int n) => some n
    | _ => none
  let message := match Value.lookup "message" error with
    | some (.str s) => s
    | _ => "Unknown error"
  .response message code ((Value.lookup "data" error).getD .null)

/-- Cancels a pending request; what its caller wants done then is answered, if it was pending. -/
def cancel (id : RequestId) : Operation κ φ ω (Option (Pending κ)) := do
  match ← take? id with
  | none => return none
  | some p =>
    remember id
    onLoop fun l => (l.cancel p.promise).2
    return some p

/-- Forgets a request whose promise was cancelled behind the registry's back. What its caller
wants done then is answered. -/
def forgetCancelled (id : RequestId) (promise : PromiseId) : Operation κ φ ω (Option (Pending κ)) := do
  let (r, l) ← get
  let cancelled := match l.outcome? promise with
    | some (.error f) => f.isCancellation
    | _ => false
  match r.find? id with
  | some p =>
    if cancelled && p.promise == promise then
      modify fun (r, l) => (r.erase id, l)
      stopTimer p
      remember id
      return some p
    else return none
  | none => return none

/-- Rejects every pending request and tells how many promises that settled. -/
def rejectAll (reason : Fault) : Operation κ φ ω Nat := do
  let pending := (← get).1.pending
  modify fun (r, l) => ({ r with pending := [] }, l)
  pending.foldlM (fun count p => do
    stopTimer p
    if (← get).2.isSettled p.promise then return count
    settlePromise p.promise (.error reason)
    return count + 1) 0

/-- The time of a request is up: it is rejected and remembered. How that went is answered. -/
def expire (id : RequestId) (timeout : Number) : Operation κ φ ω Settlement := do
  match (← get).1.find? id with
  | none => return .unknown
  | some p =>
    let settlement ← settle id (.error (.requestTimeout id p.method timeout))
    remember id
    return settlement

/-! ## Laws -/

theorem contains_erase_self (r : Registry κ) (id : RequestId) : (r.erase id).contains id = false := by
  simp [erase, contains]

theorem ids_erase (r : Registry κ) (id : RequestId) :
    (r.erase id).ids = r.ids.filter fun i => i ≠ id := by
  simp [erase, ids, List.filter_map, Function.comp_def]

end Registry

end LspClient
