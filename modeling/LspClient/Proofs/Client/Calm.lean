/-
Calm activities: those that leave the lives of sessions alone. They make minor changes, and what
they go on with is calm too, or begins something new in the life of a session.
-/
import LspClient.Proofs.Client.Steps

namespace LspClient

/-! ## Definitions -/

/-- The activities that a task goes on with, the innermost one first. -/
def Next.frames : Next → List Activity
  | .await _ k | .yield k => [k]
  | .call inner k => [inner, k]
  | .become a => [a]
  | .done _ => []

/-- A minor operation whose answer has a property together with the client afterwards. -/
structure CalmAt (E : Executor) {α : Type} (Q : α → Client → Prop) (op : ClientM α) (c : Client) : Prop where
  minor : MinorAt E op c
  answers : ∀ {a c'}, does E op c = (.ok a, c') → Q a c'

/-- An operation that is calm on every sound client. -/
structure IsCalm (E : Executor) {α : Type} (Q : α → Client → Prop) (op : ClientM α) : Prop where
  calmAt : ∀ c, c.Sound → CalmAt E Q op c

/-- Activities that a task may begin with at any time. -/
def Next.GoesOn (next : Next) (_ : Client) : Prop :=
  ∀ a ∈ next.frames, a.IsRoot

/-- What is left to do stirs no session but one, at most. -/
def Next.IsFree (of : Option SessionId) (next : Next) (_ : Client) : Prop :=
  ∀ a ∈ next.frames, a.IsFree of

/-- Nothing is left to do. -/
def Next.Ends (next : Next) (_ : Client) : Prop :=
  next.frames = []

section

variable {E : Executor} {α β : Type} {Q : α → Client → Prop} {R : β → Client → Prop} {c : Client}

theorem CalmAt.pure (s : c.Sound) {a : α} (h : Q a c) : CalmAt E Q (pure a) c :=
  ⟨minorAt_pure s a, fun hx => by cases hx; exact h⟩

theorem CalmAt.throw (s : c.Sound) (f : Fault) : CalmAt E Q (throw f : ClientM α) c :=
  ⟨minorAt_throw s f, fun hx => by cases hx⟩

theorem MinorAt.calm_bind {x : ClientM α} {f : α → ClientM β} (h : MinorAt E x c)
    (hf : ∀ a c', does E x c = (.ok a, c') → c.Minor c' → c'.Sound → CalmAt E R (f a) c') :
    CalmAt E R (x >>= f) c := by
  refine ⟨h.bind fun a c' hx m s => (hf a c' hx m s).minor, fun {b c''} hx => ?_⟩
  rw [does_bind] at hx
  obtain ⟨m, s⟩ := h
  rcases hy : does E x c with ⟨e | a, c'⟩
  · rw [hy] at hx
    cases hx
  · rw [hy] at hx m s
    exact (hf a c' hy m s).answers hx

theorem isCalm_pure {a : α} (h : ∀ c, Q a c) : IsCalm E Q (pure a) :=
  ⟨fun c s => CalmAt.pure s (h c)⟩

theorem isCalm_throw (f : Fault) : IsCalm E Q (throw f : ClientM α) :=
  ⟨fun _ s => CalmAt.throw s f⟩

theorem IsCalm.mono {Q' : α → Client → Prop} {op : ClientM α} (h : IsCalm E Q op) (w : ∀ a c, Q a c → Q' a c) :
    IsCalm E Q' op :=
  ⟨fun c s => ⟨(h.calmAt c s).minor, fun hx => w _ _ ((h.calmAt c s).answers hx)⟩⟩

/-- What a task may begin with stirs no session. -/
theorem IsCalm.free {op : ClientM Next} (h : IsCalm E Next.GoesOn op) (of : Option SessionId) :
    IsCalm E (Next.IsFree of) op :=
  h.mono fun _ _ goes a ha => (goes a ha).free of

theorem IsMinor.calm {x : ClientM α} {f : α → ClientM β} (h : IsMinor E x) (hf : ∀ a, IsCalm E R (f a)) :
    IsCalm E R (x >>= f) :=
  ⟨fun c s => (h.minorAt c s).calm_bind fun a c' _ _ s' => (hf a).calmAt c' s'⟩

end

namespace Client

variable {E : Executor}

/-! ## Outcomes -/

theorem does_valueOf_ok (v : Value) (c : Client) : does E (valueOf (.ok v)) c = (.ok v, c) := rfl

theorem isMinor_valueOf (o : Outcome) : IsMinor E (valueOf o) := by
  unfold valueOf
  split
  · exact isMinor_pure _
  · exact isMinor_throw _

theorem isCalm_beginning {Q : Next → Client → Prop} {o : Outcome} {next : ClientM Next} (h : IsCalm E Q next) :
    IsCalm E Q (beginning o next) :=
  (isMinor_valueOf o).calm fun _ => h

/-! ## Waiting -/

/-- Going on with a single activity that may begin at any time. -/
theorem goesOn_become {a : Activity} (h : a.IsRoot) (c : Client) : (Next.become a).GoesOn c :=
  List.forall_mem_singleton.2 h

theorem goesOn_await (p : PromiseId) {a : Activity} (h : a.IsRoot) (c : Client) : (Next.await p a).GoesOn c :=
  List.forall_mem_singleton.2 h

theorem goesOn_yield {a : Activity} (h : a.IsRoot) (c : Client) : (Next.yield a).GoesOn c :=
  List.forall_mem_singleton.2 h

theorem goesOn_call {a k : Activity} (h : a.IsRoot) (hk : k.IsRoot) (c : Client) : (Next.call a k).GoesOn c :=
  List.forall_mem_cons.2 ⟨h, List.forall_mem_singleton.2 hk⟩

theorem goesOn_done (v : Value) (c : Client) : (Next.done v).GoesOn c :=
  List.forall_mem_nil _

theorem isFree_call {of : Option SessionId} {a k : Activity} (h : a.IsFree of) (hk : k.IsFree of) (c : Client) :
    (Next.call a k).IsFree of c :=
  List.forall_mem_cons.2 ⟨h, List.forall_mem_singleton.2 hk⟩

theorem isCalm_done {op : ClientM Value} (h : IsMinor E op) : IsCalm E Next.GoesOn (do return .done (← op)) :=
  h.calm fun _ => isCalm_pure (goesOn_done _)

theorem isMinor_gather (promises : List PromiseId) (k : Activity) : IsMinor E (gather promises k) :=
  (isMinor_withLoop fun _ _ w => Loop.gather_spec w promises).bind fun _ => isMinor_pure _

theorem isCalm_gather (promises : List PromiseId) {k : Activity} (h : k.IsRoot) :
    IsCalm E Next.GoesOn (gather promises k) :=
  (isMinor_withLoop fun _ _ w => Loop.gather_spec w promises).calm fun _ => isCalm_pure (goesOn_await _ h)

theorem isMinor_outcomeOf (task : PromiseId) : IsMinor E (outcomeOf task) := by
  refine isMinor_get.bind fun _ => ?_
  split
  · exact isMinor_valueOf _
  · exact isMinor_throw _

theorem isCalm_within {inner : Activity} (h : inner.IsRoot) (limit : Option Number) :
    IsCalm E Next.GoesOn (within inner limit) := by
  unfold within
  split
  · exact isCalm_pure (goesOn_become h)
  · split
    · exact (isMinor_spawn h).calm fun _ => isCalm_pure (goesOn_call ⟨rfl, rfl⟩ ⟨rfl, rfl⟩)
    · exact isMinor_newPromise.calm fun waiter =>
        (isMinor_callLater _ (show Loop.IsTimed notices (.fulfil waiter) from trivial)).calm fun _ =>
          (isMinor_spawn h).calm fun task => (isMinor_observe_fulfil task waiter).calm fun _ =>
            isCalm_pure (goesOn_await _ ⟨rfl, rfl⟩)

theorem isCalm_withinAwaited (task waiter : PromiseId) (timer : TimerId) (o : Outcome) :
    IsCalm E Next.GoesOn (withinAwaited task waiter timer o) := by
  refine (isMinor_isSettled task).calm fun _ => ?_
  split
  · exact (isMinor_cancelTimer timer).calm fun _ => isCalm_done (isMinor_outcomeOf task)
  · refine (isMinor_unobserve task waiter).calm fun _ => ?_
    split
    · exact isCalm_pure (goesOn_call ⟨rfl, rfl⟩ ⟨rfl, rfl⟩)
    · exact isCalm_pure (goesOn_call ⟨rfl, rfl⟩ ⟨rfl, rfl⟩)

theorem isCalm_halt (task : PromiseId) : IsCalm E Next.GoesOn (halt task) :=
  isMinor_newPromise.calm fun waiter => (isMinor_observe_fulfil task waiter).calm fun _ =>
    (isMinor_cancelPromise task).calm fun _ => isCalm_pure (goesOn_await _ ⟨rfl, rfl⟩)

theorem isCalm_halted (task waiter : PromiseId) (o : Outcome) : IsCalm E Next.GoesOn (halted task waiter o) :=
  (isMinor_unobserve task waiter).calm fun _ => isCalm_done (isMinor_valueOf o)

theorem isMinor_stopTimer (timer : Option TimerId) : IsMinor E (stopTimer timer) := by
  cases timer with
  | none => exact isMinor_pure _
  | some timer => exact isMinor_cancelTimer timer

theorem isCalm_overdue (task : PromiseId) (timer : Option TimerId) (o : Outcome) :
    IsCalm E Next.GoesOn (overdue task timer o) := by
  refine (isMinor_stopTimer timer).calm fun _ => (isMinor_valueOf o).calm fun _ => isMinor_get.calm fun _ => ?_
  split
  · exact isCalm_throw _
  · exact isCalm_done (isMinor_outcomeOf task)

theorem isCalm_abandoned (timer : TimerId) (f : Fault) (o : Outcome) : IsCalm E Next.GoesOn (abandoned timer f o) :=
  (isMinor_cancelTimer timer).calm fun _ => (isMinor_valueOf o).calm fun _ => isCalm_throw f

/-! ## Opening transports -/

theorem isMinor_logTransport (level : Log.Level) (message : String) : IsMinor E (logTransport level message) :=
  isMinor_log _ _ _ _ _

theorem isCalm_launch (t : TransportId) (l : Launch) : IsCalm E Next.GoesOn (launch t l) := by
  unfold launch
  refine (isMinor_transport t).calm fun _ => ?_
  extract_lets started rest
  have hstarted : ∀ u, IsCalm E Next.GoesOn (started u) := fun _ =>
    (isMinor_logTransport _ _).calm fun _ => isCalm_pure (goesOn_done _)
  have hrest : ∀ u, IsCalm E Next.GoesOn (rest u) := fun _ => by
    refine (isMinor_note _).calm fun _ => ⟨fun c s => (isMinor_get.minorAt c s).calm_bind fun a c' hx _ s' => ?_⟩
    cases hx
    extract_lets own p
    have next : MinorAt E (set { c with
        peers := if 1 < c.peers.length then c.peers.drop 1 else c.peers, launches := c.launches + 1 }) c :=
      minor_of_eq s' rfl rfl rfl rfl rfl
    refine next.calm_bind fun _ c'' _ _ s'' => IsCalm.calmAt ?_ c'' s''
    split
    · exact isCalm_throw _
    · refine (isMinor_newPipe _).calm fun output => ?_
      extract_lets child
      have hchild : ∀ errors, IsCalm E Next.GoesOn (child errors) := fun errors => by
        refine IsMinor.calm (isMinor_modifyGet fun _ => ⟨rfl, rfl, rfl, rfl, rfl⟩) fun i =>
          IsMinor.calm (isMinor_onTransport fun _ => rfl) fun _ => ?_
        extract_lets drain
        have hdrain : ∀ u, IsCalm E Next.GoesOn (drain u) := fun _ => by
          dsimp only [drain]
          split
          · exact (isMinor_spawn ⟨rfl, rfl⟩).calm fun _ => IsMinor.calm (isMinor_onTransport fun _ => rfl) hstarted
          · exact hstarted ()
        split
        · exact (isMinor_childExits i _).calm hdrain
        · exact hdrain ()
      split
      · exact ((isMinor_newPipe _).map _).calm hchild
      · exact (isMinor_pure _).calm hchild
  split
  · exact (isMinor_throw _).calm hrest
  · exact hrest ()

theorem isCalm_connect (t : TransportId) : IsCalm E Next.GoesOn (connect t) := by
  refine (isMinor_transport t).calm fun _ => ?_
  split
  · refine (isMinor_note _).calm fun _ => isMinor_get.calm fun _ => ?_
    extract_lets p
    split
    · exact isCalm_pure (goesOn_become ⟨rfl, rfl⟩)
    · exact isCalm_pure (goesOn_call ⟨rfl, rfl⟩ ⟨rfl, rfl⟩)
  · exact isCalm_pure (goesOn_done _)

theorem isCalm_connectDelayed (o : Outcome) : IsCalm E Next.GoesOn (connectDelayed o) := by
  refine (isMinor_valueOf o).calm fun _ => isMinor_get.calm fun _ => ?_
  extract_lets p
  split
  · exact isCalm_throw _
  · exact (isMinor_newPipe _).calm fun _ => isCalm_pure (goesOn_done _)

theorem isCalm_connected (t : TransportId) (o : Outcome) : IsCalm E Next.GoesOn (connected t o) := by
  refine (isMinor_transport t).calm fun _ => ?_
  split
  · exact IsMinor.calm (isMinor_onTransport fun _ => rfl) fun _ => (isMinor_logTransport _ _).calm fun _ =>
      isCalm_pure (goesOn_done _)
  · split
    · exact isCalm_throw _
    · exact isCalm_throw _
  · exact isCalm_done (isMinor_valueOf _)

theorem isCalm_openTransport (t : TransportId) : IsCalm E Next.GoesOn (openTransport t) := by
  unfold openTransport
  refine (isMinor_transport t).calm fun _ => ?_
  split
  · exact isCalm_launch t _
  · have next : ∀ limit, IsCalm E Next.GoesOn (pure (.call (.within (.connect t) (some limit)) (.connected t))) :=
      fun _ => isCalm_pure (goesOn_call ⟨rfl, rfl⟩ ⟨rfl, rfl⟩)
    split
    · exact (isMinor_throw _).calm fun _ => next _
    · exact next _
  · refine isMinor_get.calm fun _ => ?_
    extract_lets p
    split
    · exact isCalm_pure (goesOn_become ⟨rfl, rfl⟩)
    · exact isCalm_pure (goesOn_call ⟨rfl, rfl⟩ ⟨rfl, rfl⟩)

theorem isCalm_openDelayed (t : TransportId) (o : Outcome) : IsCalm E Next.GoesOn (openDelayed t o) := by
  unfold openDelayed
  refine (isMinor_valueOf o).calm fun _ => isMinor_get.calm fun _ => ?_
  extract_lets p opened opens
  have hopened : ∀ u, IsCalm E Next.GoesOn (opened u) := fun _ => isCalm_pure (goesOn_done _)
  have hopens : ∀ u, IsCalm E Next.GoesOn (opens u) := fun _ => by
    refine (isMinor_transport t).calm fun _ => ?_
    split
    · exact IsMinor.calm (isMinor_onTransport fun _ => rfl) hopened
    · exact (isMinor_newPipe _).calm fun _ => IsMinor.calm (isMinor_onTransport fun _ => rfl) hopened
  split
  · exact (isMinor_onPeer _).calm fun _ => (isMinor_throw _).calm hopens
  · exact hopens ()

/-! ## Error streams of processes -/

theorem goesOn_awaitOctets (p : PipeId) (reader : String) {k : Activity} (h : k.IsRoot) :
    IsCalm E Next.GoesOn (awaitOctets p reader k) := by
  have waits : IsCalm E Next.GoesOn (do
      let waiter ← newPromise
      onPipe p fun x => { x with waiter := some waiter }
      return .await waiter k) :=
    isMinor_newPromise.calm fun _ => (isMinor_onPipe p _).calm fun _ => isCalm_pure (goesOn_await _ h)
  refine (isMinor_pipe p).calm fun _ => ?_
  split
  · exact (isMinor_throw _).calm fun _ => waits
  · exact waits

theorem isCalm_drainFailed (f : Fault) : IsCalm E Next.GoesOn (drainFailed f) := by
  unfold drainFailed
  extract_lets known
  split
  · exact (isMinor_log _ _ _ _ _).calm fun _ => isCalm_pure (goesOn_done _)
  · exact isCalm_throw _

theorem isMinor_logErrorLine (line : Octets) : IsMinor E (logErrorLine line) := by
  unfold logErrorLine
  extract_lets text
  split
  · exact isMinor_log _ _ _ _ _
  · exact isMinor_pure _

theorem isCalm_drainLines (fuel : Nat) (p : PipeId) : IsCalm E Next.GoesOn (drainLines fuel p) := by
  induction fuel with
  | zero => exact isCalm_pure (goesOn_yield ⟨rfl, rfl⟩)
  | succ fuel ih =>
    refine (isMinor_pipe p).calm fun _ => ?_
    extract_lets stream
    split
    · exact goesOn_awaitOctets p _ ⟨rfl, rfl⟩
    · exact (isMinor_onPipe p _).calm fun _ => isCalm_drainFailed _
    · refine (isMinor_onPipe p _).calm fun _ => ?_
      split
      · exact isCalm_pure (goesOn_done _)
      · exact (isMinor_logErrorLine _).calm fun _ => ih
    · refine (isMinor_onPipe p _).calm fun _ => (isMinor_logErrorLine _).calm fun _ => ?_
      split
      · exact isCalm_drainFailed _
      · exact ih

theorem isCalm_drain (p : PipeId) : IsCalm E Next.GoesOn (drain p) := by
  refine (isMinor_pipe p).calm fun _ => ?_
  extract_lets stream
  split
  · exact isCalm_drainFailed _
  · exact isCalm_drainLines _ p

theorem isCalm_drainMore (p : PipeId) (o : Outcome) : IsCalm E Next.GoesOn (drainMore p o) := by
  refine (isMinor_stopWaiting p).calm fun _ => ?_
  split
  · exact isCalm_drainFailed _
  · exact (isMinor_pipe p).calm fun _ => isCalm_drainLines _ p

/-! ## Closing transports -/

theorem isCalm_awaitExit (i : ChildId) : IsCalm E Next.GoesOn (awaitExit i) := by
  refine (isMinor_child i).calm fun _ => ?_
  split
  · exact isCalm_pure (goesOn_done _)
  · exact isMinor_newPromise.calm fun _ => (isMinor_onChild i _).calm fun _ => isCalm_pure (goesOn_await _ ⟨rfl, rfl⟩)

theorem isCalm_awaitExitWithin (t : TransportId) (i : ChildId) {k : Activity} (h : k.IsRoot) :
    IsCalm E Next.GoesOn (awaitExitWithin t i k) :=
  (isMinor_transport t).calm fun _ => isCalm_pure (goesOn_call ⟨rfl, rfl⟩ h)

theorem isMinor_closeInput (i : ChildId) : IsMinor E (closeInput i) := by
  unfold closeInput
  refine (isMinor_childPeer i).bind fun _ => ?_
  split
  · exact isMinor_pure _
  · refine (isMinor_note _).bind fun _ => ?_
    split
    · exact isMinor_childExitsLater i _
    · exact isMinor_pure _

theorem isMinor_terminate (i : ChildId) : IsMinor E (terminate i) := by
  refine (isMinor_childPeer i).bind fun _ => (isMinor_note _).bind fun _ => ?_
  split
  · exact isMinor_childExitsLater i _
  · exact isMinor_pure _

theorem isMinor_kill (i : ChildId) : IsMinor E (kill i) :=
  (isMinor_note _).bind fun _ => isMinor_childExits i _

theorem isCalm_awaitDrain (t : TransportId) (i : ChildId) : IsCalm E Next.GoesOn (awaitDrain t i) := by
  refine (isMinor_transport t).calm fun _ => ?_
  split
  · exact IsMinor.calm (isMinor_onTransport fun _ => rfl) fun _ => isCalm_gather _ ⟨rfl, rfl⟩
  · exact isCalm_pure (goesOn_become ⟨rfl, rfl⟩)

theorem isCalm_closeAwaited (t : TransportId) (i : ChildId) (o : Outcome) :
    IsCalm E Next.GoesOn (closeAwaited t i o) := by
  unfold closeAwaited
  split
  · exact isCalm_awaitDrain t i
  · exact (isMinor_logTransport _ _).calm fun _ => (isMinor_terminate i).calm fun _ =>
      isCalm_awaitExitWithin t i ⟨rfl, rfl⟩
  · exact isCalm_throw _

theorem isCalm_closeTerminated (t : TransportId) (i : ChildId) (o : Outcome) :
    IsCalm E Next.GoesOn (closeTerminated t i o) := by
  unfold closeTerminated
  split
  · exact isCalm_awaitDrain t i
  · exact (isMinor_kill i).calm fun _ => isCalm_pure (goesOn_call ⟨rfl, rfl⟩ ⟨rfl, rfl⟩)
  · exact isCalm_throw _

theorem isCalm_closeKilled (t : TransportId) (i : ChildId) (o : Outcome) :
    IsCalm E Next.GoesOn (closeKilled t i o) :=
  (isMinor_valueOf o).calm fun _ => isCalm_awaitDrain t i

theorem isCalm_closeDrained (i : ChildId) (o : Outcome) : IsCalm E Next.GoesOn (closeDrained i o) :=
  (isMinor_valueOf o).calm fun _ => (isMinor_child i).calm fun _ => (isMinor_logTransport _ _).calm fun _ =>
    isCalm_pure (goesOn_done _)

theorem isCalm_closeMemory (t : TransportId) : IsCalm E Next.GoesOn (closeMemory t) := by
  unfold closeMemory
  refine (isMinor_transport t).calm fun _ => ?_
  extract_lets closes
  have hcloses : ∀ u, IsCalm E Next.GoesOn (closes u) := fun _ => by
    refine isMinor_get.calm fun _ => ?_
    extract_lets p
    split
    · exact isCalm_pure (goesOn_become ⟨rfl, rfl⟩)
    · exact isCalm_pure (goesOn_call ⟨rfl, rfl⟩ ⟨rfl, rfl⟩)
  split
  · exact IsMinor.calm (isMinor_onTransport fun _ => rfl) fun _ => (isMinor_deliver t _).calm hcloses
  · exact (isMinor_serverFinishes t).calm fun _ => IsMinor.calm (isMinor_onTransport fun _ => rfl) hcloses

theorem isCalm_closeDelayed (o : Outcome) : IsCalm E Next.GoesOn (closeDelayed o) := by
  refine (isMinor_valueOf o).calm fun _ => isMinor_get.calm fun _ => ?_
  split
  · exact isCalm_throw _
  · exact isCalm_pure (goesOn_done _)

theorem isCalm_closeTransport (t : TransportId) : IsCalm E Next.GoesOn (closeTransport t) := by
  unfold closeTransport
  refine (isMinor_transport t).calm fun x => ?_
  split
  · refine IsMinor.calm (isMinor_onTransport fun _ => rfl) fun _ => ?_
    split
    · exact (isMinor_closeInput _).calm fun _ => isCalm_awaitExitWithin t _ ⟨rfl, rfl⟩
    · exact isCalm_pure (goesOn_done _)
  · refine IsMinor.calm (isMinor_onTransport fun _ => rfl) fun _ => ?_
    have closes : IsCalm E Next.GoesOn (do
        note (.trace (.text "close"))
        return .done .null) := (isMinor_note _).calm fun _ => isCalm_pure (goesOn_done _)
    split
    · exact isCalm_pure (goesOn_done _)
    · refine isMinor_get.calm fun _ => ?_
      split
      · exact (isMinor_throw _).calm fun _ => closes
      · exact closes
  · exact isCalm_closeMemory t

/-! ## Closing telemetry -/

theorem isCalm_post (index : Nat) (batch : List Telemetry.Record) : IsCalm E Next.GoesOn (post index batch) := by
  unfold post
  refine (isMinor_poster? index).calm fun _ => ?_
  split
  · exact isCalm_pure (goesOn_done _)
  · next p =>
    extract_lets body
    split
    · exact isCalm_throw _
    · have posts : IsCalm E Next.GoesOn (do
          note (.posted p.endpoint p.headers body)
          let answer := (← get).collector.headD { result := .ok 204 }
          modify fun c => { c with collector := c.collector.drop 1 }
          if answer.delay.le (.int 0) then return .become (.posted batch answer.result)
          else return .call (.sleep answer.delay) (.posted batch answer.result)) := by
        refine (isMinor_note _).calm fun _ => isMinor_get.calm fun _ =>
          IsMinor.calm (isMinor_modify fun _ => ⟨rfl, rfl, rfl, rfl, rfl⟩) fun _ => ?_
        split
        · exact isCalm_pure (goesOn_become ⟨rfl, rfl⟩)
        · exact isCalm_pure (goesOn_call ⟨rfl, rfl⟩ ⟨rfl, rfl⟩)
      split
      · exact (isMinor_throw _).calm fun _ => posts
      · exact posts

theorem isCalm_posted (batch : List Telemetry.Record) (answer : Except String Nat) (o : Outcome) :
    IsCalm E Next.GoesOn (posted batch answer o) := by
  refine (isMinor_valueOf o).calm fun _ => ?_
  split
  · split
    · exact (isMinor_log _ _ _ _ _).calm fun _ => isCalm_pure (goesOn_done _)
    · exact isCalm_pure (goesOn_done _)
  · exact (isMinor_log _ _ _ _ _).calm fun _ => isCalm_pure (goesOn_done _)

theorem isCalm_flush (index : Nat) : IsCalm E Next.GoesOn (flush index) := by
  refine (isMinor_poster? index).calm fun _ => ?_
  split
  · exact isCalm_pure (goesOn_done _)
  · refine (isMinor_setBackend _ _).calm fun _ => ?_
    split
    · exact isCalm_pure (goesOn_done _)
    · exact isCalm_pure (goesOn_become ⟨rfl, rfl⟩)

theorem isCalm_closeBackend (index : Nat) : IsCalm E Next.GoesOn (closeBackend index) := by
  refine isMinor_get.calm fun _ => ?_
  split
  · split
    · exact isCalm_pure (goesOn_become ⟨rfl, rfl⟩)
    · exact isCalm_gather _ ⟨rfl, rfl⟩
  · exact (isMinor_setBackend _ _).calm fun _ => isCalm_pure (goesOn_done _)
  · exact isCalm_throw _
  · exact isCalm_pure (goesOn_done _)

theorem isCalm_closeSink (index : Nat) : IsCalm E Next.GoesOn (closeSink index) := by
  refine isMinor_get.calm fun _ => ?_
  split
  · exact isCalm_pure (goesOn_call ⟨rfl, rfl⟩ ⟨rfl, rfl⟩)
  · exact isCalm_pure (goesOn_done _)

theorem isCalm_closeSinkOne (index : Nat) (o : Outcome) : IsCalm E Next.GoesOn (closeSinkOne index o) := by
  unfold closeSinkOne
  have next : ∀ u : Unit, IsCalm E Next.GoesOn (pure (.become (.closeSink (index + 1)))) := fun _ =>
    isCalm_pure (goesOn_become ⟨rfl, rfl⟩)
  split
  · exact next ()
  · split
    · exact isCalm_throw _
    · exact isMinor_get.calm fun _ => (isMinor_log _ _ _ _ _).calm next

/-! ## Reading messages -/

theorem isCalm_received (d : Delivery) : IsCalm E Next.GoesOn (received d) := by
  cases d with
  | message body => exact isCalm_pure (goesOn_done _)
  | finished => exact isCalm_pure (goesOn_done _)
  | fault f => exact isCalm_throw f

theorem isCalm_receiveQueue (t : TransportId) : IsCalm E Next.GoesOn (receiveQueue t) := by
  refine (isMinor_transport t).calm fun _ => ?_
  split
  · exact IsMinor.calm (isMinor_onTransport fun _ => rfl) fun _ => isCalm_received _
  · exact isMinor_newPromise.calm fun getter => IsMinor.calm (isMinor_onTransport fun _ => rfl) fun _ =>
      isCalm_pure (goesOn_await getter ⟨rfl, rfl⟩)

theorem isCalm_receiveQueued (t : TransportId) (getter : PromiseId) (o : Outcome) :
    IsCalm E Next.GoesOn (receiveQueued t getter o) := by
  unfold receiveQueued
  split
  · exact isCalm_receiveQueue t
  · refine isMinor_get.calm fun _ => ?_
    extract_lets cancelled
    refine IsMinor.calm (isMinor_onTransport fun _ => rfl) fun _ => (isMinor_transport t).calm fun _ => ?_
    split
    · refine isMinor_get.calm fun _ => (isMinor_transport t).calm fun _ => ?_
      split
      · exact isCalm_throw _
      · exact IsMinor.calm (isMinor_onTransport fun _ => rfl) fun _ => (isMinor_settle _ _).calm fun _ => isCalm_throw _
    · exact isCalm_throw _

theorem isCalm_receive (t : TransportId) : IsCalm E Next.GoesOn (receive t) := by
  refine (isMinor_transport t).calm fun _ => ?_
  split
  · exact isCalm_receiveQueue t
  · exact isCalm_pure (goesOn_call ⟨rfl, rfl⟩ ⟨rfl, rfl⟩)
  · exact isCalm_throw _

theorem isCalm_receiveFramed (o : Outcome) : IsCalm E Next.GoesOn (receiveFramed o) := by
  unfold receiveFramed
  split
  · exact isCalm_pure (goesOn_done _)
  · split
    · split
      · exact isCalm_throw _
      · exact isCalm_throw _
    · exact isCalm_throw _

theorem isCalm_takeFrame (p : PipeId) (limit : Number) (phase : Frame.Phase) (resumed : Bool) :
    IsCalm E Next.GoesOn (takeFrame p limit phase resumed) := by
  refine (isMinor_pipe p).calm fun _ => ?_
  split
  · exact (isMinor_onPipe p _).calm fun _ => goesOn_awaitOctets p _ ⟨rfl, rfl⟩
  · refine (isMinor_onPipe p _).calm fun _ => ?_
    split
    · exact isCalm_pure (goesOn_done _)
    · exact isCalm_pure (goesOn_done _)
    · exact isCalm_throw _

theorem isCalm_takeFrameMore (p : PipeId) (limit : Number) (phase : Frame.Phase) (o : Outcome) :
    IsCalm E Next.GoesOn (takeFrameMore p limit phase o) :=
  (isMinor_stopWaiting p).calm fun _ => (isMinor_valueOf o).calm fun _ => isCalm_takeFrame p limit phase true

/-! ## Taking time -/

theorem isCalm_sleep (delay : Number) : IsCalm E Next.GoesOn (sleep delay) := by
  unfold sleep
  have waits : IsCalm E Next.GoesOn (do
      let p ← newPromise
      let timer ← callLater delay (.fulfil p)
      return .await p (.slept timer)) := by
    refine isMinor_newPromise.calm fun p => ?_
    have timed : IsMinor E (callLater delay (.fulfil p)) := isMinor_callLater delay trivial
    exact timed.calm fun _ => isCalm_pure (goesOn_await p ⟨rfl, rfl⟩)
  split
  · exact isCalm_pure (goesOn_yield ⟨rfl, rfl⟩)
  · exact waits

theorem isCalm_slept (timer : TimerId) (o : Outcome) : IsCalm E Next.GoesOn (slept timer o) :=
  (isMinor_cancelTimer timer).calm fun _ => (isMinor_valueOf o).calm fun _ => isCalm_pure (goesOn_done _)

theorem isCalm_relay (o : Outcome) : IsCalm E Next.GoesOn (goOn .relay o) :=
  (isMinor_valueOf o).calm fun _ => isCalm_pure (goesOn_done _)

theorem isCalm_reactSlowly (hE : E.IsTame) {r : Reaction} (tame : r.isTame = true) (argument : Display) :
    IsCalm E Next.GoesOn (reactSlowly r argument) := by
  have reacted : (Activity.reacted r).IsRoot := ⟨tame, rfl⟩
  refine (isMinor_beginReaction hE tame argument).calm fun _ => ?_
  split
  · exact isMinor_newPromise.calm fun p => isCalm_pure (goesOn_await p reacted)
  · exact isCalm_pure (goesOn_call ⟨rfl, rfl⟩ reacted)
  · exact isMinor_lastSession.calm fun _ => isCalm_pure (goesOn_call ⟨rfl, rfl⟩ reacted)
  · exact isCalm_pure (goesOn_become reacted)

theorem isCalm_reacted (r : Reaction) (o : Outcome) : IsCalm E Next.GoesOn (reacted r o) := by
  unfold reacted
  split
  · split
    · exact (isMinor_note _).calm fun _ => isCalm_throw _
    · exact isCalm_throw _
  · exact (isMinor_endReaction r).calm fun _ => isCalm_pure (goesOn_done _)

end Client

end LspClient
