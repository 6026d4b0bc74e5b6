/-
Operations on a client, as functions from a client to an outcome and the client afterwards.
-/
import LspClient.Client.Basic
import LspClient.Proofs.Exec

namespace LspClient

variable {E : Executor} {α β : Type}

/-- What an operation does to a client, with a way to execute the steps of reactions. -/
def does (E : Executor) (op : ClientM α) (c : Client) : Except Fault α × Client :=
  exec (op E) c

@[simp] theorem does_pure (a : α) (c : Client) : does E (pure a) c = (.ok a, c) := rfl

@[simp] theorem does_throw (f : Fault) (c : Client) : does E (throw f : ClientM α) c = (.error f, c) := rfl

@[simp] theorem does_get (c : Client) : does E get c = (.ok c, c) := rfl

@[simp] theorem does_set (c c' : Client) : does E (set c') c = (.ok ⟨⟩, c') := rfl

/-- What follows is done where the first operation succeeds, and to what it leaves. -/
theorem does_bind (x : ClientM α) (f : α → ClientM β) (c : Client) :
    does E (x >>= f) c = match does E x c with
      | (.ok a, c') => does E (f a) c'
      | (.error e, c') => (.error e, c') := by
  show exec (x E >>= fun a => f a E) c = _
  rw [exec_bind]
  unfold does
  rcases exec (x E) c with ⟨e | a, c'⟩ <;> rfl

/-- Operations that do the same are the same. -/
theorem does_ext {x y : ClientM α} (h : ∀ E c, does E x c = does E y c) : x = y := by
  funext E
  exact funext (h E)

theorem does_bind_of_ok {x : ClientM α} {c c' : Client} {a : α} (h : does E x c = (.ok a, c'))
    (f : α → ClientM β) : does E (x >>= f) c = does E (f a) c' := by
  rw [does_bind, h]

theorem does_bind_congr {x y : ClientM α} {c d : Client} (h : does E x c = does E y d) (f : α → ClientM β) :
    does E (x >>= f) c = does E (y >>= f) d := by
  rw [does_bind, does_bind, h]

theorem does_bind_of_error {x : ClientM α} {c c' : Client} {e : Fault} (h : does E x c = (.error e, c'))
    (f : α → ClientM β) : does E (x >>= f) c = (.error e, c') := by
  rw [does_bind, h]

@[simp] theorem does_tryCatch (x : ClientM α) (f : Fault → ClientM α) (c : Client) :
    does E (tryCatch x f) c = match does E x c with
      | (.ok a, c') => (.ok a, c')
      | (.error e, c') => does E (f e) c' := by
  show exec (tryCatch (x E) fun e => f e E) c = _
  rw [exec_tryCatch]
  unfold does
  rcases exec (x E) c with ⟨e | a, c'⟩ <;> rfl

theorem does_catchTransport_congr {x y : ClientM Unit} {c d : Client} (h : does E x c = does E y d)
    (f : Fault → ClientM Unit) : does E (Client.catchTransport x f) c = does E (Client.catchTransport y f) d := by
  unfold Client.catchTransport
  rw [does_tryCatch, does_tryCatch, h]

theorem does_attempt_of_ok {op : ClientM α} {c c' : Client} {a : α} (h : does E op c = (.ok a, c')) :
    does E (Client.attempt op) c = (.ok (.ok a), c') := by
  unfold Client.attempt
  rw [does_tryCatch, does_bind_of_ok h, does_pure]

theorem does_attempt_of_cancelled {op : ClientM α} {c c' : Client} {f : Fault} (h : does E op c = (.error f, c'))
    (cancels : f.isCancellation = true) : does E (Client.attempt op) c = (.error f, c') := by
  unfold Client.attempt
  rw [does_tryCatch, does_bind_of_error h]
  simp [cancels]

theorem does_attempt_of_error {op : ClientM α} {c c' : Client} {f : Fault} (h : does E op c = (.error f, c'))
    (other : f.isCancellation = false) : does E (Client.attempt op) c = (.ok (.error f), c') := by
  unfold Client.attempt
  rw [does_tryCatch, does_bind_of_error h]
  simp [other]

/-- Only a cancellation is not caught. -/
theorem isCancellation_of_attempt {op : ClientM α} {c c' : Client} {f : Fault}
    (h : does E (Client.attempt op) c = (.error f, c')) : f.isCancellation = true := by
  rcases hx : does E op c with ⟨e | a, d⟩
  · cases cancels : e.isCancellation with
    | true =>
      rw [does_attempt_of_cancelled hx cancels] at h
      cases h
      exact cancels
    | false =>
      rw [does_attempt_of_error hx cancels] at h
      cases h
  · rw [does_attempt_of_ok hx] at h
    cases h

end LspClient
