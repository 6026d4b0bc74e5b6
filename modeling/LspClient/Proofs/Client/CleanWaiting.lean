/-
Activities that wait, and those of transports and telemetry: the clean ones keep clients clean, raise no
breach, and what they leave to do may be put down.
-/
import LspClient.Proofs.Client.CleanSteps
import LspClient.Proofs.Frame.Takes

namespace LspClient.Client

variable [Breaches] {E : Executor}

/-! ## Outcomes -/

theorem isClean_valueOf {o : Outcome} (ho : Fault.Spares o) : IsClean E (valueOf o) := by
  cases o with
  | ok v => exact isClean_return v
  | error f => exact isClean_throw (ho f rfl)

theorem isClean_beginning {Q : Next → Prop} {o : Outcome} (ho : Fault.Spares o) {next : ClientM Next}
    (h : IsClean E next Q) :
    IsClean E (beginning o next) Q :=
  (isClean_valueOf ho).bind fun _ => h

/-! ## What may be put down -/

theorem parks_become {a : Activity} (h : a.IsParked) : (Next.become a).Parks := by
  simpa [Next.Parks, Next.frames] using h

theorem parks_await (p : PromiseId) {a : Activity} (h : a.IsParked) : (Next.await p a).Parks := by
  simpa [Next.Parks, Next.frames] using h

theorem parks_yield {a : Activity} (h : a.IsParked) : (Next.yield a).Parks := by
  simpa [Next.Parks, Next.frames] using h

theorem parks_call {a k : Activity} (h : a.IsParked) (hk : k.IsParked) : (Next.call a k).Parks := by
  simpa [Next.Parks, Next.frames] using ⟨h, hk⟩

theorem parks_done (v : Value) : (Next.done v).Parks := by
  simp [Next.Parks, Next.frames]

theorem isClean_done {op : ClientM Value} (h : IsClean E op) : IsClean E (do return .done (← op)) Next.Parks :=
  h.bind fun _ => isClean_pure (parks_done _)

/-! ## Waiting -/

theorem isClean_gather (promises : List PromiseId) {k : Activity} (h : k.IsParked) :
    IsClean E (gather promises k) Next.Parks :=
  (isClean_withLoop fun _ h => h.gather promises).bind fun _ => isClean_pure (parks_await _ h)

theorem isClean_outcomeOf (task : PromiseId) : IsClean E (outcomeOf task) := by
  refine isClean_get.bindWith fun c hc => ?_
  split
  · next ended => exact isClean_valueOf (hc.loop.outcome? ended)
  · exact isClean_throw rfl

theorem fulfils (p : PromiseId) : Job.Holds cleanly (.fulfil p : Job Event) :=
  trivial

theorem isClean_within {inner : Activity} (h : inner.IsParked) (limit : Option Number) :
    IsClean E (within inner limit) Next.Parks := by
  unfold within
  split
  · exact isClean_pure (parks_become h)
  · split
    · exact (isClean_spawn h).bind fun _ => isClean_pure (parks_call ⟨rfl, rfl⟩ ⟨rfl, rfl⟩)
    · exact isClean_newPromise.bind fun waiter =>
        (isClean_callLater _ (fulfils waiter)).bind fun _ =>
          (isClean_spawn h).bind fun task => (isClean_observe _ (fulfils waiter)).bind fun _ =>
            isClean_pure (parks_await _ ⟨rfl, rfl⟩)

theorem isClean_withinAwaited (task waiter : PromiseId) (timer : TimerId) {o : Outcome} (ho : Fault.Spares o) :
    IsClean E (withinAwaited task waiter timer o) Next.Parks := by
  refine (isClean_isSettled task).bind fun _ => ?_
  split
  · exact (isClean_cancelTimer timer).bind fun _ => isClean_done (isClean_outcomeOf task)
  · refine (isClean_unobserve task waiter).bind fun _ => ?_
    split
    · exact isClean_pure (parks_call ⟨rfl, rfl⟩ ⟨rfl, rfl⟩)
    · next f =>
      have fair : f.isBreach = false := ho f rfl
      have later : (Activity.abandoned timer f).IsParked := ⟨by simp [Activity.isClean, fair], rfl⟩
      exact isClean_pure (parks_call ⟨rfl, rfl⟩ later)

theorem isClean_halt (task : PromiseId) : IsClean E (halt task) Next.Parks :=
  isClean_newPromise.bind fun waiter => (isClean_observe _ (fulfils waiter)).bind fun _ =>
    (isClean_cancelPromise task).bind fun _ => isClean_pure (parks_await _ ⟨rfl, rfl⟩)

theorem isClean_halted (task waiter : PromiseId) {o : Outcome} (ho : Fault.Spares o) :
    IsClean E (halted task waiter o) Next.Parks :=
  (isClean_unobserve task waiter).bind fun _ => isClean_done (isClean_valueOf ho)

theorem isClean_stopTimer (timer : Option TimerId) : IsClean E (stopTimer timer) := by
  cases timer with
  | none => exact isClean_return _
  | some timer => exact isClean_cancelTimer timer

theorem isClean_overdue (task : PromiseId) (timer : Option TimerId) {o : Outcome} (ho : Fault.Spares o) :
    IsClean E (overdue task timer o) Next.Parks := by
  refine (isClean_stopTimer timer).bind fun _ => (isClean_valueOf ho).bind fun _ => isClean_get.bindWith fun c hc => ?_
  split
  · next f ended =>
    have fair : f.isBreach = false := hc.loop.outcome? ended f rfl
    refine isClean_throw ?_
    split
    · rfl
    · exact fair
  · exact isClean_done (isClean_outcomeOf task)

theorem isClean_abandoned (timer : TimerId) {f : Fault} (hf : f.isBreach = false) {o : Outcome} (ho : Fault.Spares o) :
    IsClean E (abandoned timer f o) Next.Parks :=
  (isClean_cancelTimer timer).bind fun _ => (isClean_valueOf ho).bind fun _ => isClean_throw hf

/-! ## Opening transports -/

theorem isClean_logTransport (level : Log.Level) (message : String) : IsClean E (logTransport level message) :=
  isClean_log ..

theorem isClean_launch (t : TransportId) (l : Launch) : IsClean E (launch t l) Next.Parks := by
  unfold launch
  refine (isClean_transport t).bind fun _ => ?_
  extract_lets started rest
  have hstarted : ∀ u, IsClean E (started u) Next.Parks := fun _ =>
    (isClean_logTransport _ _).bind fun _ => isClean_pure (parks_done _)
  have hrest : ∀ u, IsClean E (rest u) Next.Parks := fun _ => by
    refine (isClean_note _).bind fun _ => isClean_get.bindWith fun c hc => ?_
    extract_lets own p
    refine IsClean.bind (isClean_set (hc.of_eq rfl rfl rfl rfl)) fun _ => ?_
    split
    · exact isClean_throw rfl
    · refine (isClean_newPipe _).bind fun output => ?_
      extract_lets child
      have hchild : ∀ errors, IsClean E (child errors) Next.Parks := fun errors => by
        refine IsClean.bind (isClean_modifyGet fun _ hc => hc.of_eq rfl rfl rfl rfl) fun i =>
          IsClean.bind (isClean_onTransport _ fun _ h => by exact h) fun _ => ?_
        extract_lets drain
        have hdrain : ∀ u, IsClean E (drain u) Next.Parks := fun _ => by
          dsimp only [drain]
          split
          · exact (isClean_spawn ⟨rfl, rfl⟩).bind fun _ =>
              IsClean.bind (isClean_onTransport _ fun _ h => by exact h) hstarted
          · exact hstarted ()
        split
        · exact (isClean_childExits i _).bind hdrain
        · exact hdrain ()
      split
      · exact ((isClean_newPipe _).map _).bind hchild
      · exact (isClean_return _).bind hchild
  split
  · exact isClean_throw_bind rfl _
  · exact hrest ()

theorem isClean_connect (t : TransportId) : IsClean E (connect t) Next.Parks := by
  refine (isClean_transport t).bind fun _ => ?_
  split
  · refine (isClean_note _).bind fun _ => isClean_get.bind fun _ => ?_
    extract_lets p
    split
    · exact isClean_pure (parks_become ⟨rfl, rfl⟩)
    · exact isClean_pure (parks_call ⟨rfl, rfl⟩ ⟨rfl, rfl⟩)
  · exact isClean_pure (parks_done _)

theorem isClean_connectDelayed {o : Outcome} (ho : Fault.Spares o) : IsClean E (connectDelayed o) Next.Parks := by
  refine (isClean_valueOf ho).bind fun _ => isClean_get.bind fun _ => ?_
  extract_lets p
  split
  · exact isClean_throw rfl
  · exact (isClean_newPipe _).bind fun _ => isClean_pure (parks_done _)

theorem isClean_connected (t : TransportId) {o : Outcome} (ho : Fault.Spares o) :
    IsClean E (connected t o) Next.Parks := by
  refine (isClean_transport t).bind fun _ => ?_
  split
  · exact IsClean.bind (isClean_onTransport _ fun _ h => by exact h) fun _ => (isClean_logTransport _ _).bind fun _ =>
      isClean_pure (parks_done _)
  · next f _ =>
    split
    · exact isClean_throw rfl
    · exact isClean_throw (ho f rfl)
  · exact isClean_done (isClean_valueOf ho)

theorem isClean_openTransport (t : TransportId) : IsClean E (openTransport t) Next.Parks := by
  unfold openTransport
  refine (isClean_transport t).bind fun _ => ?_
  split
  · exact isClean_launch t _
  · have next : ∀ limit, IsClean E (pure (.call (.within (.connect t) (some limit)) (.connected t))) Next.Parks :=
      fun _ => isClean_pure (parks_call ⟨rfl, rfl⟩ ⟨rfl, rfl⟩)
    split
    · exact isClean_throw_bind rfl _
    · exact next _
  · refine isClean_get.bind fun _ => ?_
    extract_lets p
    split
    · exact isClean_pure (parks_become ⟨rfl, rfl⟩)
    · exact isClean_pure (parks_call ⟨rfl, rfl⟩ ⟨rfl, rfl⟩)

theorem isClean_openDelayed (t : TransportId) {o : Outcome} (ho : Fault.Spares o) :
    IsClean E (openDelayed t o) Next.Parks := by
  unfold openDelayed
  refine (isClean_valueOf ho).bind fun _ => isClean_get.bind fun _ => ?_
  extract_lets p opened opens
  have hopened : ∀ u, IsClean E (opened u) Next.Parks := fun _ => isClean_pure (parks_done _)
  have hopens : ∀ u, IsClean E (opens u) Next.Parks := fun _ => by
    refine (isClean_transport t).bind fun _ => ?_
    split
    · exact IsClean.bind (isClean_onTransport _ fun _ h => by exact h) hopened
    · exact (isClean_newPipe _).bind fun _ => IsClean.bind (isClean_onTransport _ fun _ h => by exact h) hopened
  split
  · exact (isClean_onPeer _).bind fun _ => isClean_throw_bind rfl _
  · exact hopens ()

/-! ## Error streams of processes -/

theorem isClean_awaitOctets (p : PipeId) (reader : String) {k : Activity} (h : k.IsParked) :
    IsClean E (awaitOctets p reader k) Next.Parks := by
  have waits : IsClean E (do
      let waiter ← newPromise
      onPipe p fun x => { x with waiter := some waiter }
      return .await waiter k) Next.Parks :=
    isClean_newPromise.bind fun _ => IsClean.bind (isClean_onPipe p fun _ h => by exact h) fun _ =>
      isClean_pure (parks_await _ h)
  refine (isClean_pipe p).bind fun _ => ?_
  split
  · exact isClean_throw_bind rfl _
  · exact waits

theorem isClean_drainFailed {f : Fault} (hf : f.isBreach = false) : IsClean E (drainFailed f) Next.Parks := by
  unfold drainFailed
  extract_lets known
  split
  · exact (isClean_log ..).bind fun _ => isClean_pure (parks_done _)
  · exact isClean_throw hf

theorem isClean_logErrorLine (line : Octets) : IsClean E (logErrorLine line) := by
  unfold logErrorLine
  extract_lets text
  split
  · exact isClean_log ..
  · exact isClean_return _

/-- A pipe that has another stream, broken as the one before. -/
theorem isClean_setStream (p : PipeId) {s s' : Stream} (hs : s.IsClean) (same : s'.fault = s.fault) :
    IsClean E (onPipe p fun x => { x with stream := s' }) := by
  have clean : s'.IsClean := by rwa [Stream.IsClean, same]
  exact isClean_onPipe p fun _ _ => clean

theorem isClean_drainLines (fuel : Nat) (p : PipeId) : IsClean E (drainLines fuel p) Next.Parks := by
  induction fuel with
  | zero => exact isClean_pure (parks_yield ⟨rfl, rfl⟩)
  | succ fuel ih =>
    refine (isClean_pipe p).bindWith fun x hx => ?_
    have kept : ∀ {r s'}, x.stream.takeLine? [0x0a] = some (r, s') → s'.fault = x.stream.fault := by
      intro r s' taken
      obtain ⟨n, took, _⟩ := Stream.takeLine?_took (by simp) taken
      exact took.fault
    extract_lets stream
    split
    · exact isClean_awaitOctets p _ ⟨rfl, rfl⟩
    · have dropped : ∀ y : Pipe, y.stream.IsClean → (y.stream.dropLine [0x0a]).IsClean := by
        intro y hy
        unfold Stream.dropLine
        split
        · exact hy
        · exact hy
      exact IsClean.bind (isClean_onPipe p dropped) fun _ => isClean_drainFailed rfl
    · next taken =>
      refine (isClean_setStream p hx (kept taken)).bind fun _ => ?_
      split
      · exact isClean_pure (parks_done _)
      · exact (isClean_logErrorLine _).bind fun _ => ih
    · next taken =>
      refine (isClean_setStream p hx (kept taken)).bind fun _ => (isClean_logErrorLine _).bind fun _ => ?_
      split
      · next f broken => exact isClean_drainFailed (hx f ((kept taken).symm.trans broken))
      · exact ih

theorem isClean_drain (p : PipeId) : IsClean E (drain p) Next.Parks := by
  refine (isClean_pipe p).bindWith fun x hx => ?_
  extract_lets stream
  split
  · next f broken => exact isClean_drainFailed (hx f broken)
  · exact isClean_drainLines _ p

theorem isClean_drainMore (p : PipeId) {o : Outcome} (ho : Fault.Spares o) : IsClean E (drainMore p o) Next.Parks := by
  refine (isClean_stopWaiting p).bind fun _ => ?_
  split
  · next f => exact isClean_drainFailed (ho f rfl)
  · exact (isClean_pipe p).bind fun _ => isClean_drainLines _ p

/-! ## Closing transports -/

theorem isClean_awaitExit (i : ChildId) : IsClean E (awaitExit i) Next.Parks := by
  refine (isClean_child i).bind fun _ => ?_
  split
  · exact isClean_pure (parks_done _)
  · exact isClean_newPromise.bind fun _ => (isClean_onChild i _).bind fun _ => isClean_pure (parks_await _ ⟨rfl, rfl⟩)

theorem isClean_awaitExitWithin (t : TransportId) (i : ChildId) {k : Activity} (h : k.IsParked) :
    IsClean E (awaitExitWithin t i k) Next.Parks :=
  (isClean_transport t).bind fun _ => isClean_pure (parks_call ⟨rfl, rfl⟩ h)

theorem isClean_closeInput (i : ChildId) : IsClean E (closeInput i) := by
  unfold closeInput
  refine (isClean_childPeer i).bind fun _ => ?_
  split
  · exact isClean_return _
  · refine (isClean_note _).bind fun _ => ?_
    split
    · exact isClean_childExitsLater i _
    · exact isClean_return _

theorem isClean_terminate (i : ChildId) : IsClean E (terminate i) := by
  refine (isClean_childPeer i).bind fun _ => (isClean_note _).bind fun _ => ?_
  split
  · exact isClean_childExitsLater i _
  · exact isClean_return _

theorem isClean_kill (i : ChildId) : IsClean E (kill i) :=
  (isClean_note _).bind fun _ => isClean_childExits i _

theorem isClean_awaitDrain (t : TransportId) (i : ChildId) : IsClean E (awaitDrain t i) Next.Parks := by
  refine (isClean_transport t).bind fun _ => ?_
  split
  · exact IsClean.bind (isClean_onTransport _ fun _ h => by exact h) fun _ => isClean_gather _ ⟨rfl, rfl⟩
  · exact isClean_pure (parks_become ⟨rfl, rfl⟩)

theorem isClean_closeAwaited (t : TransportId) (i : ChildId) {o : Outcome} (ho : Fault.Spares o) :
    IsClean E (closeAwaited t i o) Next.Parks := by
  unfold closeAwaited
  split
  · exact isClean_awaitDrain t i
  · exact (isClean_logTransport _ _).bind fun _ => (isClean_terminate i).bind fun _ =>
      isClean_awaitExitWithin t i ⟨rfl, rfl⟩
  · next f _ => exact isClean_throw (ho f rfl)

theorem isClean_closeTerminated (t : TransportId) (i : ChildId) {o : Outcome} (ho : Fault.Spares o) :
    IsClean E (closeTerminated t i o) Next.Parks := by
  unfold closeTerminated
  split
  · exact isClean_awaitDrain t i
  · exact (isClean_kill i).bind fun _ => isClean_pure (parks_call ⟨rfl, rfl⟩ ⟨rfl, rfl⟩)
  · next f _ => exact isClean_throw (ho f rfl)

theorem isClean_closeKilled (t : TransportId) (i : ChildId) {o : Outcome} (ho : Fault.Spares o) :
    IsClean E (closeKilled t i o) Next.Parks :=
  (isClean_valueOf ho).bind fun _ => isClean_awaitDrain t i

theorem isClean_closeDrained (i : ChildId) {o : Outcome} (ho : Fault.Spares o) :
    IsClean E (closeDrained i o) Next.Parks :=
  (isClean_valueOf ho).bind fun _ => (isClean_child i).bind fun _ => (isClean_logTransport _ _).bind fun _ =>
    isClean_pure (parks_done _)

theorem isClean_closeMemory (t : TransportId) : IsClean E (closeMemory t) Next.Parks := by
  unfold closeMemory
  refine (isClean_transport t).bind fun _ => ?_
  extract_lets closes
  have hcloses : ∀ u, IsClean E (closes u) Next.Parks := fun _ => by
    refine isClean_get.bind fun _ => ?_
    extract_lets p
    split
    · exact isClean_pure (parks_become ⟨rfl, rfl⟩)
    · exact isClean_pure (parks_call ⟨rfl, rfl⟩ ⟨rfl, rfl⟩)
  split
  · have finished : Delivery.finished.IsClean := trivial
    exact IsClean.bind (isClean_onTransport _ fun _ h => by exact h) fun _ => (isClean_deliver t finished).bind hcloses
  · exact (isClean_serverFinishes t).bind fun _ => IsClean.bind (isClean_onTransport _ fun _ h => by exact h) hcloses

theorem isClean_closeDelayed {o : Outcome} (ho : Fault.Spares o) : IsClean E (closeDelayed o) Next.Parks := by
  refine (isClean_valueOf ho).bind fun _ => isClean_get.bind fun _ => ?_
  split
  · next b _ => exact isClean_throw (by cases b <;> rfl)
  · exact isClean_pure (parks_done _)

theorem isClean_closeTransport (t : TransportId) : IsClean E (closeTransport t) Next.Parks := by
  unfold closeTransport
  refine (isClean_transport t).bind fun x => ?_
  split
  · refine IsClean.bind (isClean_onTransport _ fun _ h => by exact h) fun _ => ?_
    split
    · exact (isClean_closeInput _).bind fun _ => isClean_awaitExitWithin t _ ⟨rfl, rfl⟩
    · exact isClean_pure (parks_done _)
  · refine IsClean.bind (isClean_onTransport _ fun _ h => by exact h) fun _ => ?_
    have closes : IsClean E (do
        note (.trace (.text "close"))
        return .done .null) Next.Parks := (isClean_note _).bind fun _ => isClean_pure (parks_done _)
    split
    · exact isClean_pure (parks_done _)
    · refine isClean_get.bind fun _ => ?_
      split
      · exact isClean_throw_bind rfl _
      · exact closes
  · exact isClean_closeMemory t

/-! ## Sending telemetry -/

theorem isClean_post (index : Nat) (batch : List Telemetry.Record) : IsClean E (post index batch) Next.Parks := by
  unfold post
  refine (isClean_poster? index).bind fun _ => ?_
  split
  · exact isClean_pure (parks_done _)
  · next p =>
    extract_lets body
    split
    · exact isClean_throw (isBreach_toFault _)
    · have posts : IsClean E (do
          note (.posted p.endpoint p.headers body)
          let answer := (← get).collector.headD { result := .ok 204 }
          modify fun c => { c with collector := c.collector.drop 1 }
          if answer.delay.le (.int 0) then return .become (.posted batch answer.result)
          else return .call (.sleep answer.delay) (.posted batch answer.result)) Next.Parks := by
        refine (isClean_note _).bind fun _ => isClean_get.bind fun _ =>
          IsClean.bind (isClean_modify fun _ => ⟨rfl, rfl, rfl, rfl⟩) fun _ => ?_
        split
        · exact isClean_pure (parks_become ⟨rfl, rfl⟩)
        · exact isClean_pure (parks_call ⟨rfl, rfl⟩ ⟨rfl, rfl⟩)
      split
      · exact isClean_throw_bind rfl _
      · exact posts

theorem isClean_posted (batch : List Telemetry.Record) (answer : Except String Nat) {o : Outcome}
    (ho : Fault.Spares o) :
    IsClean E (posted batch answer o) Next.Parks := by
  refine (isClean_valueOf ho).bind fun _ => ?_
  split
  · split
    · exact (isClean_log ..).bind fun _ => isClean_pure (parks_done _)
    · exact isClean_pure (parks_done _)
  · exact (isClean_log ..).bind fun _ => isClean_pure (parks_done _)

/-! ## Reading messages -/

theorem isClean_received {d : Delivery} (hd : d.IsClean) : IsClean E (received d) Next.Parks := by
  cases d with
  | message body => exact isClean_pure (parks_done _)
  | finished => exact isClean_pure (parks_done _)
  | fault f => exact isClean_throw hd

theorem isClean_receiveQueue (t : TransportId) : IsClean E (receiveQueue t) Next.Parks := by
  refine (isClean_transport t).bindWith fun x hx => ?_
  split
  · next d rest inbox =>
    rw [Transport.IsClean, inbox] at hx
    have left : ∀ y : Transport, y.IsClean → Transport.IsClean { y with inbox := rest } :=
      fun _ _ d hd => hx d (List.mem_cons_of_mem _ hd)
    exact (isClean_onTransport t left).bind fun _ => isClean_received (hx d (List.mem_cons_self ..))
  · exact isClean_newPromise.bind fun getter => IsClean.bind (isClean_onTransport _ fun _ h => by exact h) fun _ =>
      isClean_pure (parks_await getter ⟨rfl, rfl⟩)

theorem isClean_receiveQueued (t : TransportId) (getter : PromiseId) {o : Outcome} (ho : Fault.Spares o) :
    IsClean E (receiveQueued t getter o) Next.Parks := by
  unfold receiveQueued
  split
  · exact isClean_receiveQueue t
  · next f =>
    have fails : IsClean E (throw f : ClientM Next) Next.Parks := isClean_throw (ho f rfl)
    refine isClean_get.bind fun _ => ?_
    extract_lets cancelled
    refine IsClean.bind (isClean_onTransport _ fun _ h => by exact h) fun _ => (isClean_transport t).bind fun _ => ?_
    split
    · refine isClean_get.bind fun _ => (isClean_transport t).bind fun _ => ?_
      split
      · exact fails
      · exact IsClean.bind (isClean_onTransport _ fun _ h => by exact h) fun _ =>
          (isClean_settle _ (Fault.only_ok _)).bind fun _ => fails
    · exact fails

theorem isClean_receive (t : TransportId) : IsClean E (receive t) Next.Parks := by
  refine (isClean_transport t).bind fun _ => ?_
  split
  · exact isClean_receiveQueue t
  · exact isClean_pure (parks_call ⟨rfl, rfl⟩ ⟨rfl, rfl⟩)
  · exact isClean_throw rfl

theorem isClean_receiveFramed {o : Outcome} (ho : Fault.Spares o) : IsClean E (receiveFramed o) Next.Parks := by
  unfold receiveFramed
  split
  · exact isClean_pure (parks_done _)
  · next f =>
    have fair : f.isBreach = false := ho f rfl
    split
    · split
      · exact isClean_throw rfl
      · exact isClean_throw fair
    · exact isClean_throw fair

theorem isClean_takeFrame (p : PipeId) (limit : Number) (phase : Frame.Phase) (resumed : Bool) :
    IsClean E (takeFrame p limit phase resumed) Next.Parks := by
  refine (isClean_pipe p).bindWith fun x hx => ?_
  obtain ⟨waits, ends⟩ := Frame.runFrom_fault limit (Frame.takesOf x.stream) resumed phase x.stream
  split
  · next stopped =>
    exact (isClean_setStream p hx (waits _ _ stopped)).bind fun _ => isClean_awaitOctets p _ ⟨rfl, rfl⟩
  · next stopped =>
    obtain ⟨same, fault⟩ := ends _ _ stopped
    refine (isClean_setStream p hx same).bind fun _ => ?_
    split
    · exact isClean_pure (parks_done _)
    · exact isClean_pure (parks_done _)
    · next f =>
      refine isClean_throw ?_
      rcases fault f rfl with broken | connection | size
      · exact hx f broken
      · cases f <;> first | rfl | cases connection
      · cases f <;> first | rfl | cases size

theorem isClean_takeFrameMore (p : PipeId) (limit : Number) (phase : Frame.Phase) {o : Outcome} (ho : Fault.Spares o) :
    IsClean E (takeFrameMore p limit phase o) Next.Parks :=
  (isClean_stopWaiting p).bind fun _ => (isClean_valueOf ho).bind fun _ => isClean_takeFrame p limit phase true

/-! ## Taking time -/

theorem isClean_sleep (delay : Number) : IsClean E (sleep delay) Next.Parks := by
  unfold sleep
  have waits : IsClean E (do
      let p ← newPromise
      let timer ← callLater delay (.fulfil p)
      return .await p (.slept timer)) Next.Parks := by
    refine isClean_newPromise.bind fun p => ?_
    have timed : IsClean E (callLater delay (.fulfil p)) := isClean_callLater delay (fulfils p)
    exact timed.bind fun _ => isClean_pure (parks_await p ⟨rfl, rfl⟩)
  split
  · exact isClean_pure (parks_yield ⟨rfl, rfl⟩)
  · exact waits

theorem isClean_slept (timer : TimerId) {o : Outcome} (ho : Fault.Spares o) : IsClean E (slept timer o) Next.Parks :=
  (isClean_cancelTimer timer).bind fun _ => (isClean_valueOf ho).bind fun _ => isClean_pure (parks_done _)

theorem isClean_relay {o : Outcome} (ho : Fault.Spares o) : IsClean E (goOn .relay o) Next.Parks :=
  (isClean_valueOf ho).bind fun _ => isClean_pure (parks_done _)

theorem isClean_reactSlowly (hE : E.IsClean) {r : Reaction} (clean : r.isClean = true) (argument : Display) :
    IsClean E (reactSlowly r argument) Next.Parks := by
  have reacted : (Activity.reacted r).IsParked := ⟨clean, rfl⟩
  refine (isClean_beginReaction hE clean argument).bind fun _ => ?_
  split
  · exact isClean_newPromise.bind fun p => isClean_pure (parks_await p reacted)
  · exact isClean_pure (parks_call ⟨rfl, rfl⟩ reacted)
  · exact isClean_lastSession.bind fun _ => isClean_pure (parks_call ⟨rfl, rfl⟩ reacted)
  · exact isClean_pure (parks_become reacted)

theorem isClean_reacted {r : Reaction} (clean : r.isClean = true) {o : Outcome} (ho : Fault.Spares o) :
    IsClean E (reacted r o) Next.Parks := by
  unfold reacted
  split
  · next f =>
    have fair : f.isBreach = false := ho f rfl
    split
    · exact (isClean_note _).bind fun _ => isClean_throw fair
    · exact isClean_throw fair
  · exact (isClean_endReaction clean).bind fun _ => isClean_pure (parks_done _)

end LspClient.Client
