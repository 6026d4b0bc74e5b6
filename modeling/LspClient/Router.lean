/-
Handlers by method. The handlers of a method are called in the order in which they subscribed; a
dispatch calls those that were subscribed when it began, whatever they change meanwhile.
-/
import LspClient.Fault

namespace LspClient

/-- A handler that is called for one method until it is unsubscribed. -/
structure Subscription (η : Type) where
  id : Nat
  handler : η
  deriving Inhabited

/-- Subscriptions by method; the methods are in the order of their first subscription, and each
has at least one. -/
structure Router (η : Type) where
  methods : List (String × List (Subscription η)) := []
  nextId : Nat := 0
  deriving Inhabited

namespace Router

variable {η : Type}

/-- The subscriptions to a method. -/
def subscriptions (r : Router η) (method : String) : List (Subscription η) :=
  (r.methods.lookup method).getD []

/-- The handlers of a method. -/
def handlers (r : Router η) (method : String) : List η :=
  (r.subscriptions method).map (·.handler)

/-- The methods with at least one handler. -/
def methodNames (r : Router η) : List String :=
  r.methods.map (·.1)

/-- Whether a method has a handler. -/
def hasSubscribers (r : Router η) (method : String) : Bool :=
  !(r.subscriptions method).isEmpty

/-- Whether a subscription to a method is still there. -/
def isSubscribed (r : Router η) (method : String) (id : Nat) : Bool :=
  (r.subscriptions method).any fun s => s.id = id

/-- Adds a subscription at the end of its method. -/
def insert (method : String) (s : Subscription η) :
    List (String × List (Subscription η)) → List (String × List (Subscription η))
  | [] => [(method, [s])]
  | (m, ss) :: rest => if m = method then (m, ss ++ [s]) :: rest else (m, ss) :: insert method s rest

/-- Subscribes a handler to a method, which must have a name. -/
def subscribe (r : Router η) (method : String) (handler : η) : Except Fault (Nat × Router η) :=
  if method.isEmpty then .error (.invalid "method must be a non-empty string")
  else .ok (r.nextId, ⟨insert method ⟨r.nextId, handler⟩ r.methods, r.nextId + 1⟩)

/-- Removes a subscription, if it is still there. -/
def unsubscribe (r : Router η) (method : String) (id : Nat) : Router η :=
  { r with methods := r.methods.filterMap fun (m, ss) =>
      if m = method then
        match ss.filter fun s => s.id ≠ id with
        | [] => none
        | ss => some (m, ss)
      else some (m, ss) }

/-- Removes all subscriptions. -/
def clear (r : Router η) : Router η :=
  { r with methods := [] }

/-- Calls the handlers of a method and tells how many did not fail. A failing handler is reported
and the others are still called; only cancelling passes through. -/
def dispatch {m : Type → Type} [Monad m] [MonadExcept Fault m] (r : Router η) (method : String)
    (call : η → m Unit) (report : Fault → m Unit) : m Nat :=
  (r.handlers method).foldlM (fun completed handler =>
    tryCatch (do call handler; return completed + 1) fun f =>
      if f.isCancellation then throw f
      else do report f; return completed) 0

end Router

end LspClient
