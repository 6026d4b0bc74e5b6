/-
Closing a transport seals it: whatever else is done on the way, and whether closing succeeds or not, nothing can
be written on it once it has begun to be closed.
-/
import LspClient.Client.Transport
import LspClient.Proofs.Client.Does

namespace LspClient

variable {E : Executor} {α β : Type} {t : TransportId}

namespace Client

/-- A transport of a client. -/
def transportAt (c : Client) (t : TransportId) : Transport :=
  c.transports[t]?.getD default

/-- Nothing can be written on a transport. -/
def IsSealed (c : Client) (t : TransportId) : Prop :=
  (c.transportAt t).canWrite = false

theorem transportAt_modify (c : Client) (t u : TransportId) (f : Transport → Transport) :
    ({ c with transports := c.transports.modify u f } : Client).transportAt t = c.transportAt t ∨
      ({ c with transports := c.transports.modify u f } : Client).transportAt t = f (c.transportAt t) := by
  unfold transportAt
  rw [Array.getElem?_modify]
  split
  · cases c.transports[t]? with
    | none => exact .inl rfl
    | some x => exact .inr rfl
  · exact .inl rfl

end Client

/-- An operation that unseals no transport. -/
structure KeepsSealed (E : Executor) (op : ClientM α) : Prop where
  keeps : ∀ c t, c.IsSealed t → (does E op c).2.IsSealed t

/-! ## What unseals no transport -/

theorem keepsSealed_pure (a : α) : KeepsSealed E (pure a) :=
  ⟨fun _ _ h => h⟩

theorem keepsSealed_throw (f : Fault) : KeepsSealed E (throw f : ClientM α) :=
  ⟨fun _ _ h => h⟩

theorem keepsSealed_get : KeepsSealed E get :=
  ⟨fun _ _ h => h⟩

theorem KeepsSealed.bind {x : ClientM α} {f : α → ClientM β} (h : KeepsSealed E x) (hf : ∀ a, KeepsSealed E (f a)) :
    KeepsSealed E (x >>= f) := by
  constructor
  intro c t closed
  have first := h.keeps c t closed
  rw [does_bind]
  rcases hx : does E x c with ⟨e | a, d⟩
  all_goals rw [hx] at first
  · exact first
  · exact (hf a).keeps d t first

theorem keepsSealed_forIn {f : α → β → ClientM (ForInStep β)} (h : ∀ a b, KeepsSealed E (f a b)) (as : List α) (b : β) :
    KeepsSealed E (forIn as b f) := by
  induction as generalizing b with
  | nil => exact keepsSealed_pure b
  | cons a as ih =>
    rw [List.forIn_cons]
    refine (h a b).bind fun r => ?_
    split
    · exact keepsSealed_pure _
    · exact ih _

/-- What changes no transports. -/
theorem keepsSealed_modify {f : Client → Client} (h : ∀ c, (f c).transports = c.transports) :
    KeepsSealed E (modify f : ClientM PUnit) := by
  constructor
  intro c t closed
  show (f c).IsSealed t
  unfold Client.IsSealed Client.transportAt at closed ⊢
  rw [h c]
  exact closed

theorem keepsSealed_modifyGet {f : Client → α × Client} (h : ∀ c, (f c).2.transports = c.transports) :
    KeepsSealed E (modifyGet f : ClientM α) := by
  constructor
  intro c t closed
  show (f c).2.IsSealed t
  unfold Client.IsSealed Client.transportAt at closed ⊢
  rw [h c]
  exact closed

/-- What changes a transport but does not open it. -/
theorem keepsSealed_onTransport (u : TransportId) {f : Transport → Transport}
    (h : ∀ x, x.canWrite = false → (f x).canWrite = false) : KeepsSealed E (Client.onTransport u f) := by
  constructor
  intro c t closed
  show ({ c with transports := c.transports.modify u f } : Client).IsSealed t
  unfold Client.IsSealed
  rcases c.transportAt_modify t u f with e | e
  · rw [e]
    exact closed
  · rw [e]
    exact h _ closed

namespace Client

theorem keepsSealed_transport (u : TransportId) : KeepsSealed E (transport u) :=
  keepsSealed_get.bind fun _ => keepsSealed_pure _

theorem keepsSealed_onLoop (f : Loop Activity Event → Loop Activity Event) : KeepsSealed E (onLoop f) :=
  keepsSealed_modify fun _ => rfl

theorem keepsSealed_note (n : Note) : KeepsSealed E (note n) :=
  keepsSealed_modify fun _ => rfl

/-! ## Streams and processes -/

theorem keepsSealed_onPipe (p : PipeId) (f : Pipe → Pipe) : KeepsSealed E (onPipe p f) :=
  keepsSealed_modify fun _ => rfl

theorem keepsSealed_onChild (i : ChildId) (f : Child → Child) : KeepsSealed E (onChild i f) :=
  keepsSealed_modify fun _ => rfl

theorem keepsSealed_pipe (p : PipeId) : KeepsSealed E (pipe p) :=
  keepsSealed_get.bind fun _ => keepsSealed_pure _

theorem keepsSealed_wakeReader (p : PipeId) (o : Outcome) : KeepsSealed E (wakeReader p o) := by
  refine (keepsSealed_pipe p).bind fun _ => ?_
  split
  · exact (keepsSealed_onPipe p _).bind fun _ => keepsSealed_onLoop _
  · exact keepsSealed_pure _

theorem keepsSealed_finishPipe (p : PipeId) : KeepsSealed E (finishPipe p) :=
  (keepsSealed_onPipe p _).bind fun _ => keepsSealed_wakeReader p _

theorem keepsSealed_deliver (u : TransportId) (d : Delivery) : KeepsSealed E (deliver u d) := by
  unfold deliver
  refine KeepsSealed.bind (keepsSealed_onTransport u fun _ h => h) fun _ => keepsSealed_get.bind fun c => ?_
  refine (keepsSealed_transport u).bind fun x => ?_
  split
  · exact keepsSealed_onTransport u fun _ h => h
  · exact KeepsSealed.bind (keepsSealed_onTransport u fun _ h => h) fun _ => keepsSealed_onLoop _

theorem keepsSealed_child (i : ChildId) : KeepsSealed E (child i) :=
  keepsSealed_get.bind fun _ => keepsSealed_pure _

theorem keepsSealed_childExits (i : ChildId) (code : Int) : KeepsSealed E (childExits i code) := by
  unfold childExits
  refine (keepsSealed_child i).bind fun x => ?_
  have wakes : KeepsSealed E (do
      for waiter in x.waiters do
        onLoop fun l => l.settle waiter (.ok .null)) :=
    KeepsSealed.bind (keepsSealed_forIn (fun _ _ => (keepsSealed_onLoop _).bind fun _ => keepsSealed_pure _) _ _)
        fun _ =>
      keepsSealed_pure _
  split
  · refine (keepsSealed_onChild i _).bind fun _ => (keepsSealed_finishPipe _).bind fun _ => ?_
    split
    · exact (keepsSealed_finishPipe _).bind fun _ => wakes
    · exact wakes
  · exact keepsSealed_pure _

theorem keepsSealed_callLater (delay : Number) (job : Job Event) : KeepsSealed E (callLater delay job) := by
  refine KeepsSealed.bind ?_ fun _ => keepsSealed_modifyGet fun _ => rfl
  unfold seconds
  split
  · exact keepsSealed_pure _
  · exact keepsSealed_throw _

theorem keepsSealed_closeInput (i : ChildId) : KeepsSealed E (closeInput i) := by
  have peer : KeepsSealed E (childPeer i) :=
    (keepsSealed_child i).bind fun _ => keepsSealed_get.bind fun _ => keepsSealed_pure _
  refine peer.bind fun p => ?_
  split
  · exact keepsSealed_pure _
  · refine (keepsSealed_note _).bind fun _ => ?_
    split
    · unfold childExitsLater
      split
      · exact keepsSealed_childExits i _
      · exact (keepsSealed_callLater _ _).bind fun _ => keepsSealed_pure _
    · exact keepsSealed_pure _

theorem keepsSealed_awaitExitWithin (u : TransportId) (i : ChildId) (k : Activity) :
    KeepsSealed E (awaitExitWithin u i k) :=
  (keepsSealed_transport u).bind fun _ => keepsSealed_pure _

/-! ## Closing -/

/-- Changing a transport so that it cannot be written on seals it. -/
theorem isSealed_onTransport {f : Transport → Transport} {c : Client} (h : (f (c.transportAt t)).canWrite = false) :
    (does E (onTransport t f) c).2.IsSealed t := by
  show ({ c with transports := c.transports.modify t f } : Client).IsSealed t
  unfold IsSealed transportAt at *
  rw [Array.getElem?_modify, if_pos rfl]
  cases ht : c.transports[t]? with
  | none => rfl
  | some x =>
    rw [ht] at h
    exact h

/-- What follows the sealing of a transport leaves it sealed. -/
theorem isSealed_onTransport_bind {f : Transport → Transport} {next : PUnit → ClientM α} {c : Client}
    (h : (f (c.transportAt t)).canWrite = false) (keeps : KeepsSealed E (next ⟨⟩)) :
    (does E (onTransport t f >>= next) c).2.IsSealed t := by
  have done : does E (onTransport t f) c = (.ok ⟨⟩, (does E (onTransport t f) c).2) := rfl
  rw [does_bind_of_ok done]
  exact keeps.keeps _ t (isSealed_onTransport h)

/-- Ending a pipe leaves transports alone. -/
theorem does_finishPipe (p : PipeId) (c : Client) :
    ∃ c', does E (finishPipe p) c = (.ok ⟨⟩, c') ∧ c'.transports = c.transports := by
  obtain ⟨d, hd, same⟩ : ∃ d, does E (onPipe p fun x => { x with stream := x.stream.finish }) c = (.ok ⟨⟩, d) ∧
      d.transports = c.transports := ⟨_, rfl, rfl⟩
  have looked : does E (pipe p) d = (.ok (d.pipes[p]?.getD default), d) := rfl
  unfold finishPipe wakeReader
  rw [does_bind_of_ok hd, does_bind_of_ok looked]
  split
  · exact ⟨_, rfl, same⟩
  · exact ⟨d, rfl, same⟩

theorem isSealed_closeMemory (c : Client)
    (memory : (c.transportAt t).carrier = .queue ∨ (c.transportAt t).carrier = .wire) :
    (does E (closeMemory t) c).2.IsSealed t := by
  have waits : KeepsSealed E (do
      let p := (← get).peer
      if p.closeDelay.le (.int 0) then return Next.become (.closeDelayed t)
      else return .call (.sleep p.closeDelay) (.closeDelayed t)) := by
    refine keepsSealed_get.bind fun c => ?_
    dsimp only
    split
    · exact keepsSealed_pure _
    · exact keepsSealed_pure _
  have looked : does E (transport t) c = (.ok (c.transportAt t), c) := rfl
  unfold closeMemory
  rw [does_bind_of_ok looked]
  rcases memory with queue | wire
  · rw [queue]
    exact isSealed_onTransport_bind (by simp [Transport.canWrite, queue])
      ((keepsSealed_deliver t _).bind fun _ => waits)
  · rw [wire]
    obtain ⟨d, finishes, same⟩ : ∃ d, does E (serverFinishes t) c = (.ok ⟨⟩, d) ∧ d.transports = c.transports := by
      unfold serverFinishes
      rw [does_bind_of_ok looked, wire]
      cases (c.transportAt t).link with
      | none => exact ⟨c, rfl, rfl⟩
      | some link => exact does_finishPipe link.pipe c
    have wire' : (d.transportAt t).carrier = .wire := by
      unfold transportAt at wire ⊢
      rw [same, wire]
    dsimp only
    rw [does_bind_of_ok finishes]
    exact isSealed_onTransport_bind (by simp [Transport.canWrite, wire']) waits

/-- Once it has begun to be closed, nothing can be written on a transport. -/
theorem isSealed_closeTransport (t : TransportId) (c : Client) : (does E (closeTransport t) c).2.IsSealed t := by
  have looked : does E (transport t) c = (.ok (c.transportAt t), c) := rfl
  unfold closeTransport
  rw [does_bind_of_ok looked]
  cases carrier : (c.transportAt t).carrier with
  | process l =>
    refine isSealed_onTransport_bind (by simp [Transport.canWrite, carrier]) ?_
    split
    · exact (keepsSealed_closeInput _).bind fun _ => keepsSealed_awaitExitWithin t _ _
    · exact keepsSealed_pure _
  | socket a =>
    refine isSealed_onTransport_bind (by simp [Transport.canWrite, carrier]) ?_
    split
    · exact keepsSealed_pure _
    · refine keepsSealed_get.bind fun _ => ?_
      split
      · exact keepsSealed_throw _
      · exact (keepsSealed_note _).bind fun _ => keepsSealed_pure _
  | queue => exact isSealed_closeMemory c (.inl carrier)
  | wire => exact isSealed_closeMemory c (.inr carrier)

end Client

end LspClient
