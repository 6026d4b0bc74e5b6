/-
What other tasks do when they open, read and close the transports of processes, from one activity to the next, and what
the loop does for them: all of it happens beside a task that has its share to itself.
-/
import LspClient.Client.Run
import LspClient.Proofs.Client.Moments
import LspClient.Proofs.Process.Aside

namespace LspClient

open Client

/-! ## Definitions -/

/-- An activity that minds what it holds on to. -/
def Client.Minds (S : Share) (c : Client) (a : Activity) : Prop :=
  a.Minds (c.loop.Known S) (c.loop.KnownTimer S) S.transports

/-- What an activity leaves to do minds what it holds on to, and waits for nothing of the share. -/
def Next.Minds (S : Share) (c : Client) : Next → Prop
  | .await r k => c.loop.Known S r ∧ c.Minds S k
  | .yield k => c.Minds S k
  | .call inner k => c.Minds S inner ∧ c.Minds S k
  | .become a => c.Minds S a
  | .done _ => True

variable {E : Executor} {S : Share} {α β : Type} {c c' c'' : Client} {R : Client → α → Prop} {r : PromiseId}
  {t : TransportId} {i : ChildId} {p : PipeId} {o : Outcome}

/-- An activity that goes on beside a task. -/
abbrev GoesAside (E : Executor) (S : Share) (op : ClientM Next) (c : Client) : Prop :=
  Aside E S op (Next.Minds S) c

/-- What is done first is beside the task, and so is what is done then. -/
theorem Aside.after {x y : ClientM α} (c' : Client) (same : does E x c = does E y c')
    (first : c.Apart S → c.Beside S c') (h : Aside E S y R c') : Aside E S x R c := by
  refine ⟨fun apart => ?_⟩
  have beside := first apart
  obtain ⟨rest, told⟩ := h.keeps beside.apart
  rw [same]
  exact ⟨beside.trans rest, told⟩

theorem goesAside_done (v : Value) : GoesAside E S (pure (.done v)) c :=
  aside_pure _ trivial

namespace Client

theorem Beside.minds (b : c.Beside S c') {a : Activity} (h : c.Minds S a) : c'.Minds S a :=
  b.elsewhere.minds h

theorem Beside.known (b : c.Beside S c') (h : c.loop.Known S r) : c'.loop.Known S r :=
  b.elsewhere.known h

theorem Beside.knownTimer (b : c.Beside S c') {k : TimerId} (h : c.loop.KnownTimer S k) : c'.loop.KnownTimer S k :=
  h.mono b.elsewhere.size.2.1

theorem Apart.transportAt (h : c.Apart S) (lt : t < S.transports) :
    (c.transportAt t).carrier.isProcess = true ∧ ∀ d, (c.transportAt t).drain = some d → c.loop.Known S d := by
  have known : t < c.transports.size := h.count ▸ lt
  unfold Client.transportAt
  rw [Array.getElem?_eq_getElem known]
  exact h.transports (Array.getElem?_eq_getElem known)

end Client

/-- Transports of processes are the only ones. -/
theorem aside_process (lt : t < S.transports) :
    Aside E S (transport t) (fun c' x => (∃ l, x.carrier = .process l) ∧ ∀ d, x.drain = some d → c'.loop.Known S d)
    c := by
  refine (aside_transport t).bind fun x c' b e => ?_
  refine .of_apart fun apart => aside_pure x ?_
  obtain ⟨process, drain⟩ := apart.transportAt lt
  rw [← e] at process drain
  refine ⟨?_, drain⟩
  cases hc : x.carrier with
  | process l => exact ⟨l, rfl⟩
  | queue => rw [hc] at process; cases process
  | wire => rw [hc] at process; cases process
  | socket a => rw [hc] at process; cases process

/-! ## Servers -/

theorem aside_peerOf (t : TransportId) : Aside E S (peerOf t) Untold c := by
  unfold peerOf
  refine (aside_transport t).andThen fun x c' _ => ?_
  split
  · exact aside_childPeer _
  · exact aside_get.andThen fun _ _ _ => aside_pure _ trivial

theorem aside_serverSends (lt : t < S.transports) (body : Octets) : Aside E S (serverSends t body) Untold c := by
  unfold serverSends
  refine (aside_process lt).bind fun x c' _ ⟨⟨l, hl⟩, _⟩ => ?_
  rw [hl]
  split
  · next h => cases h
  · exact aside_feedPipe _
  · exact aside_pure _ trivial

theorem aside_serverFinishes (lt : t < S.transports) : Aside E S (serverFinishes t) Untold c := by
  unfold serverFinishes
  refine (aside_process lt).bind fun x c' _ ⟨⟨l, hl⟩, _⟩ => ?_
  rw [hl]
  split
  · next h => cases h
  · exact aside_finishPipe
  · exact aside_pure _ trivial

theorem aside_afterHandshake (lt : t < S.transports) : Aside E S (afterHandshake t) Untold c := by
  unfold afterHandshake
  refine (aside_peerOf t).andThen fun p c' _ => ?_
  extract_lets crash
  have crashes : ∀ u {c}, Aside E S (crash u) Untold c := fun u c => by
    refine (aside_transport t).andThen fun x c' _ => ?_
    split
    · exact aside_childExits _ _
    · exact aside_pure _ trivial
  split
  · exact (aside_onPeer _).andThen fun _ _ _ => (aside_serverFinishes lt).andThen fun u _ _ => crashes u
  · exact crashes ()

theorem aside_serverReceives (lt : t < S.transports) (text : String) : Aside E S (serverReceives t text) Untold c := by
  unfold serverReceives
  refine (aside_transport t).andThen fun _ _ _ => ?_
  extract_lets hear
  have hears : ∀ place {c}, Aside E S (hear place) Untold c := fun place c => by
    refine (aside_note _).andThen fun _ _ _ => ?_
    split
    · exact aside_pure _ trivial
    · split
      · refine (aside_peerOf t).andThen fun _ _ _ => ?_
        extract_lets after
        have afters : ∀ u {c}, Aside E S (after u) Untold c := fun _ c => by
          dsimp only [after]
          split
          · exact aside_afterHandshake lt
          · exact aside_pure _ trivial
        split
        · split
          · exact (aside_serverSends lt _).andThen fun u _ _ => afters u
          · exact afters ()
        · exact afters ()
      · exact aside_pure _ trivial
  split
  · exact (aside_child _).andThen fun _ _ _ => hears _
  · exact hears _

theorem aside_write (lt : t < S.transports) (text : String) : Aside E S (write t text) Untold c := by
  unfold write
  refine (aside_process lt).bind fun x _ _ ⟨⟨l, hl⟩, _⟩ => ?_
  extract_lets receives rest
  have received : ∀ u {c}, Aside E S (receives u) Untold c := fun _ _ => aside_serverReceives lt text
  have rests : ∀ u {c}, Aside E S (rest u) Untold c := fun _ c => by
    refine (aside_peerOf t).andThen fun _ _ _ => ?_
    rw [hl]
    dsimp only
    split
    · exact aside_throw _
    · exact (aside_note _).andThen fun u _ _ => received u
  split
  · exact aside_throw _
  · exact rests ()

/-! ## Opening -/

/-- The task that forwards an error stream is noted, or forgotten. -/
theorem aside_setDrain (t : TransportId) (drain : Option PromiseId) (known : ∀ d, drain = some d → c.loop.Known S d) :
    Aside E S (onTransport t fun x => { x with drain }) Untold c :=
  aside_modify fun apart => apart.modifyTransport t (fun _ => rfl) (fun _ d _ e => known d e) fun _ _ h => h

/-- The link of a transport is given up. -/
theorem aside_unlink (t : TransportId) : Aside E S (onTransport t fun x => { x with link := none }) Untold c :=
  aside_modify fun apart => apart.modifyTransport t (fun _ => rfl) (fun _ d hx e => (apart.transports hx).2 d e) nofun

/-- The stream of a pipe is changed. -/
theorem aside_setStream (p : PipeId) (f : Pipe → Stream) :
    Aside E S (onPipe p fun x => { x with stream := f x }) Untold c :=
  aside_onPipe fun _ => .inl rfl

namespace Client

theorem childAt_push (c : Client) (x : Child) (j : ChildId) :
    ({ c with children := c.children.push x } : Client).childAt j = if j = c.children.size then x else c.childAt j := by
  unfold childAt
  rw [Array.getElem?_push]
  split <;> rfl

theorem childAt_of_size_le (h : c.children.size ≤ i) : c.childAt i = default := by
  unfold childAt
  rw [Array.getElem?_eq_none h]
  rfl

/-- A process is launched, and a transport is linked to it. -/
theorem Apart.launch (h : c.Apart S) (t : TransportId) (number : Nat) (output : PipeId) (errors : Option PipeId)
    (peer : Option Peer) :
    c.Beside S { c with
      children := c.children.push { number, output, errors, peer }
      transports := c.transports.modify t fun x => { x with link := some ⟨output, some c.children.size⟩ } } := by
  have same : ∀ j,
    (({ c with children := c.children.push { number, output, errors, peer } } : Client).childAt j).exitCode =
      (c.childAt j).exitCode ∧
      (({ c with children := c.children.push { number, output, errors, peer } } : Client).childAt j).waiters =
          (c.childAt j).waiters :=
    fun j => by
      rw [childAt_push]
      split
      · next new =>
        rw [childAt_of_size_le (Nat.le_of_eq new.symm)]
        exact ⟨rfl, rfl⟩
      · exact ⟨rfl, rfl⟩
  refine ⟨⟨.inl ⟨(same S.child).1, ?_, .refl S c.loop⟩, fun u => ?_, fun u l hl => ?_, ?_⟩, h.loop, h.pipes, ?_, ?_,
    ?_, ?_, h.tasks⟩
  · exact congrArg (List.filter S.own.contains) (same S.child).2
  · rcases transportAt_modify c u t fun x => { x with link := some ⟨output, some c.children.size⟩ } with e | e
    · exact congrArg Transport.carrier e
    · exact (congrArg Transport.carrier e).trans rfl
  · rcases transportAt_modify c u t fun x => { x with link := some ⟨output, some c.children.size⟩ } with e | e
    · exact .inl ((congrArg Transport.link e).symm.trans hl)
    · cases (congrArg Transport.link e).symm.trans hl
      exact .inr ⟨_, rfl, Nat.le_refl _⟩
  · rw [Array.size_push]
    exact Nat.le_succ _
  · exact (Array.size_modify ..).trans h.count
  · intro u x hx
    have hx : (c.transports.modify t _)[u]? = some x := hx
    rw [Array.getElem?_modify] at hx
    split at hx
    · obtain ⟨y, hy, rfl⟩ := Option.map_eq_some_iff.1 hx
      have old := h.transports hy
      exact ⟨old.1, old.2⟩
    · exact h.transports hx
  · intro u x l j hx hl hj
    rw [Array.size_push]
    have hx : (c.transports.modify t _)[u]? = some x := hx
    rw [Array.getElem?_modify] at hx
    split at hx
    · obtain ⟨y, hy, rfl⟩ := Option.map_eq_some_iff.1 hx
      cases hl
      cases hj
      exact Nat.lt_succ_self _
    · exact Nat.lt_succ_of_lt (h.links hx hl hj)
  · intro j x w hx hw
    have hx : (c.children.push _)[j]? = some x := hx
    rw [Array.getElem?_push] at hx
    split at hx
    · cases hx
      cases hw
    · exact h.children hx hw

end Client

/-- What follows the launch of a process. -/
theorem aside_launched (t : TransportId) (output : PipeId) (errors : Option PipeId) (own : Option Peer)
    {k : ChildId → ClientM α} (h : ∀ i c', Aside E S (k i) R c') : Aside E S (do
      let i ← modifyGet fun c =>
        (c.children.size, { c with
          children := c.children.push { number := c.launches - 1, output, errors, peer := own } })
      onTransport t fun x => { x with link := some ⟨output, some i⟩ }
      k i) R c :=
  Aside.after (y := k c.children.size) _ rfl (fun apart => apart.launch t (c.launches - 1) output errors own) (h _ _)

theorem goesAside_launch (t : TransportId) (l : Launch) : GoesAside E S (launch t l) c := by
  unfold launch
  refine (aside_transport t).andThen fun _ _ _ => ?_
  extract_lets tell start
  have tells : ∀ u {c}, GoesAside E S (tell u) c := fun _ _ => (aside_logTransport _ _).andThen fun _ _ _ =>
    goesAside_done _
  have starts : ∀ u {c}, GoesAside E S (start u) c := fun _ c => by
    refine (aside_note _).andThen fun _ _ _ => aside_get.bind fun a _ _ e => ?_
    subst e
    extract_lets own peer
    refine .after ({ a with
      peers := if 1 < a.peers.length then a.peers.drop 1 else a.peers
      launches := a.launches + 1 }) rfl (fun apart => apart.same rfl rfl rfl rfl rfl) ?_
    split
    · exact aside_throw _
    · refine (aside_newPipe _).andThen fun output _ _ => ?_
      extract_lets rest
      have rests : ∀ errors {c}, GoesAside E S (rest errors) c := fun errors c => by
        refine aside_launched t output errors own fun i _ => ?_
        extract_lets drains
        have drained : ∀ u {c}, GoesAside E S (drains u) c := fun _ c => by
          dsimp only [drains]
          split
          · refine (aside_spawn (a := .drain _) trivial).bind fun task _ _ known => ?_
            exact (aside_setDrain t (some task) fun d e => by cases e; exact known).andThen fun u _ _ => tells u
          · exact tells ()
        split
        · exact (aside_childExits _ _).andThen fun u _ _ => drained u
        · exact drained ()
      split
      · exact (aside_newPipe _).andThen fun _ _ _ => rests _
      · exact rests none
  split
  · exact aside_throw _
  · exact starts ()

theorem goesAside_openTransport (lt : t < S.transports) : GoesAside E S (openTransport t) c := by
  unfold openTransport
  refine (aside_process lt).bind fun x _ _ ⟨⟨l, hl⟩, _⟩ => ?_
  rw [hl]
  exact goesAside_launch t l

/-! ## Reading -/

theorem goesAside_awaitOctets (reader : String) {k : Activity} (minds : c.Minds S k) :
    GoesAside E S (awaitOctets p reader k) c := by
  have waits : ∀ {c'}, c.Beside S c' → GoesAside E S (do
      let waiter ← newPromise
      onPipe p fun x => { x with waiter := some waiter }
      return .await waiter k) c' := fun {c'} b => by
    refine aside_newPromise.bind fun waiter c₁ b₁ known => ?_
    have waiting : Aside E S (onPipe p fun x => { x with waiter := some waiter }) Untold c₁ :=
      aside_modify fun apart => apart.modifyPipe p fun x w _ e => by cases e; exact known
    exact waiting.andThen fun _ _ b₂ => aside_pure _ ⟨b₂.known known, (b.trans (b₁.trans b₂)).minds minds⟩
  unfold awaitOctets
  refine (aside_pipe p).andThen fun _ _ b => ?_
  split
  · exact aside_throw _
  · exact waits b

theorem goesAside_receive (lt : t < S.transports) : GoesAside E S (receive t) c := by
  unfold receive
  refine (aside_process lt).bind fun x _ _ ⟨⟨l, hl⟩, _⟩ => ?_
  rw [hl]
  split
  · next h => cases h
  · exact aside_pure _ ⟨trivial, trivial⟩
  · exact aside_throw _

theorem goesAside_receiveFramed (o : Outcome) : GoesAside E S (receiveFramed o) c := by
  unfold receiveFramed
  split
  · exact goesAside_done _
  · split
    · split <;> exact aside_throw _
    · exact aside_throw _

theorem goesAside_takeFrame (limit : Number) (phase : Frame.Phase) (resumed : Bool) :
    GoesAside E S (takeFrame p limit phase resumed) c := by
  unfold takeFrame
  refine (aside_pipe p).andThen fun x _ _ => ?_
  split
  · exact (aside_setStream p _).andThen fun _ _ _ => goesAside_awaitOctets _ (k := .takeFrameMore ..) trivial
  · refine (aside_setStream p _).andThen fun _ _ _ => ?_
    split
    · exact goesAside_done _
    · exact goesAside_done _
    · exact aside_throw _

theorem goesAside_takeFrameMore (limit : Number) (phase : Frame.Phase) (o : Outcome) :
    GoesAside E S (takeFrameMore p limit phase o) c :=
  aside_stopWaiting.andThen fun _ _ _ => (aside_valueOf o).andThen fun _ _ _ => goesAside_takeFrame limit phase true

/-! ## Error streams -/

theorem goesAside_drainFailed (f : Fault) : GoesAside E S (drainFailed f) c := by
  unfold drainFailed
  extract_lets known
  split
  · exact (aside_log ..).andThen fun _ _ _ => goesAside_done _
  · exact aside_throw _

theorem aside_logErrorLine (line : Octets) : Aside E S (logErrorLine line) Untold c := by
  unfold logErrorLine
  extract_lets text
  split
  · exact aside_log ..
  · exact aside_pure _ trivial

theorem goesAside_drainLines (fuel : Nat) : GoesAside E S (drainLines fuel p) c := by
  induction fuel generalizing c with
  | zero => exact aside_pure _ trivial
  | succ fuel ih =>
    unfold drainLines
    refine (aside_pipe p).andThen fun x _ _ => ?_
    extract_lets stream
    split
    · exact goesAside_awaitOctets _ (k := .drainMore p) trivial
    · exact (aside_setStream p _).andThen fun _ _ _ => goesAside_drainFailed _
    · refine (aside_setStream p _).andThen fun _ _ _ => ?_
      split
      · exact goesAside_done _
      · exact (aside_logErrorLine _).andThen fun _ _ _ => ih
    · refine (aside_setStream p _).andThen fun _ _ _ => (aside_logErrorLine _).andThen fun _ _ _ => ?_
      split
      · exact goesAside_drainFailed _
      · exact ih

theorem goesAside_drain : GoesAside E S (drain p) c := by
  unfold drain
  refine (aside_pipe p).andThen fun x _ _ => ?_
  extract_lets stream
  split
  · exact goesAside_drainFailed _
  · exact goesAside_drainLines _

theorem goesAside_drainMore (o : Outcome) : GoesAside E S (drainMore p o) c := by
  unfold drainMore
  refine aside_stopWaiting.andThen fun _ _ _ => ?_
  split
  · exact goesAside_drainFailed _
  · exact (aside_pipe p).andThen fun _ _ _ => goesAside_drainLines _

/-! ## Closing -/

theorem goesAside_awaitExit (i : ChildId) : GoesAside E S (awaitExit i) c := by
  unfold awaitExit
  refine (aside_child i).andThen fun x _ _ => ?_
  split
  · exact goesAside_done _
  · refine aside_newPromise.bind fun waiter c₁ _ known => ?_
    have waits : Aside E S (onChild i fun x => { x with waiters := x.waiters ++ [waiter] }) Untold c₁ :=
      aside_modify fun apart => apart.await i known
    exact waits.andThen fun _ _ b => aside_pure _ ⟨b.known known, trivial⟩

theorem goesAside_awaitExitWithin (t : TransportId) (i : ChildId) {k : Activity} (minds : c.Minds S k) :
    GoesAside E S (awaitExitWithin t i k) c := by
  unfold awaitExitWithin
  exact (aside_transport t).andThen fun _ _ b => aside_pure _ ⟨⟨i, rfl⟩, b.minds minds⟩

theorem aside_closeInput (i : ChildId) : Aside E S (closeInput i) Untold c := by
  unfold closeInput
  refine (aside_childPeer i).andThen fun peer _ _ => ?_
  split
  · exact aside_pure _ trivial
  · refine (aside_note _).andThen fun _ _ _ => ?_
    split
    · exact aside_childExitsLater i peer
    · exact aside_pure _ trivial

theorem aside_terminate (i : ChildId) : Aside E S (terminate i) Untold c := by
  unfold terminate
  refine (aside_childPeer i).andThen fun peer _ _ => (aside_note _).andThen fun _ _ _ => ?_
  split
  · exact aside_childExitsLater i peer
  · exact aside_pure _ trivial

theorem aside_kill (i : ChildId) : Aside E S (kill i) Untold c :=
  (aside_note _).andThen fun _ _ _ => aside_childExits i _

theorem goesAside_awaitDrain (lt : t < S.transports) (i : ChildId) : GoesAside E S (awaitDrain t i) c := by
  unfold awaitDrain
  refine (aside_process lt).bind fun x c₁ _ ⟨_, known⟩ => ?_
  split
  · next task ht =>
    refine (aside_setDrain t none nofun).andThen fun _ _ b => ?_
    exact (aside_gather (List.forall_mem_singleton.2 (b.known (known task ht))) _).mono fun _ next _ ⟨g, h, e⟩ => by
      subst e
      exact ⟨h, trivial⟩
  · exact aside_pure _ trivial

theorem goesAside_closeAwaited (lt : t < S.transports) (i : ChildId) (o : Outcome) :
    GoesAside E S (closeAwaited t i o) c := by
  unfold closeAwaited
  split
  · exact goesAside_awaitDrain lt i
  · exact (aside_logTransport _ _).andThen fun _ _ _ => (aside_terminate i).andThen fun _ _ _ =>
      goesAside_awaitExitWithin t i (k := .closeTerminated t i) lt
  · exact aside_throw _

theorem goesAside_closeTerminated (lt : t < S.transports) (i : ChildId) (o : Outcome) :
    GoesAside E S (closeTerminated t i o) c := by
  unfold closeTerminated
  split
  · exact goesAside_awaitDrain lt i
  · exact (aside_kill i).andThen fun _ _ _ => aside_pure _ ⟨trivial, lt⟩
  · exact aside_throw _

theorem goesAside_closeKilled (lt : t < S.transports) (i : ChildId) (o : Outcome) :
    GoesAside E S (closeKilled t i o) c :=
  (aside_valueOf o).andThen fun _ _ _ => goesAside_awaitDrain lt i

theorem goesAside_closeDrained (i : ChildId) (o : Outcome) : GoesAside E S (closeDrained i o) c :=
  (aside_valueOf o).andThen fun _ _ _ => (aside_child i).andThen fun _ _ _ => (aside_logTransport _ _).andThen
      fun _ _ _ =>
    goesAside_done _

theorem goesAside_closeTransport (lt : t < S.transports) : GoesAside E S (closeTransport t) c := by
  unfold closeTransport
  refine (aside_process lt).bind fun x _ _ ⟨⟨l, hl⟩, _⟩ => ?_
  rw [hl]
  refine (aside_unlink t).andThen fun _ _ _ => ?_
  split
  · exact (aside_closeInput _).andThen fun _ _ _ => goesAside_awaitExitWithin t _ (k := .closeAwaited t _) lt
  · exact goesAside_done _

/-! ## Waiting -/

/-- A job that does something to a promise that others may know of. -/
theorem concerns_of_known (job : Job Event) (target : job.target? = some r) (known : c.loop.Known S r) :
    job.Fits c.loop.promises.size ∧ job.concerns S.own = false :=
  ⟨Job.fits_of_target? target known.1, Job.concerns_eq_false.2 fun _ e => by cases target.symm.trans e; exact known.2⟩

theorem goesAside_within (i : ChildId) (limit : Option Number) : GoesAside E S (within (.awaitExit i) limit) c := by
  unfold within
  split
  · exact aside_pure _ trivial
  · split
    · exact (aside_spawn (a := .awaitExit i) trivial).bind fun task _ _ known =>
        aside_pure _ ⟨known, known, nofun⟩
    · refine aside_newPromise.bind fun waiter c₁ _ waits => ?_
      obtain ⟨fits, other⟩ := concerns_of_known (.fulfil waiter) rfl waits
      refine (aside_callLater fits other).bind fun timer c₂ b₂ rings => ?_
      refine (aside_spawn (a := .awaitExit i) trivial).bind fun task c₃ b₃ known => ?_
      have waits₃ : c₃.loop.Known S waiter := b₃.known (b₂.known waits)
      obtain ⟨fits₃, other₃⟩ := concerns_of_known (.fulfil waiter) rfl waits₃
      refine (aside_observe known fits₃ other₃).andThen fun _ c₄ b₄ => ?_
      exact aside_pure _ ⟨b₄.known waits₃, b₄.known known, b₄.known waits₃, b₄.knownTimer (b₃.knownTimer rings)⟩

theorem goesAside_withinAwaited {task waiter : PromiseId} {timer : TimerId} (known : c.loop.Known S task)
    (rings : c.loop.KnownTimer S timer) (o : Outcome) : GoesAside E S (withinAwaited task waiter timer o) c := by
  unfold withinAwaited
  refine (aside_isSettled task).andThen fun settled c₁ b₁ => ?_
  split
  · exact (aside_cancelTimer (b₁.knownTimer rings).2).andThen fun _ _ _ => (aside_outcomeOf task).andThen fun _ _ _ =>
      goesAside_done _
  · refine (aside_unobserve (b₁.known known).2).andThen fun _ c₂ b₂ => ?_
    have b := b₁.trans b₂
    split
    · exact aside_pure _ ⟨b.known known, b.known known, fun k e => by cases e; exact b.knownTimer rings⟩
    · exact aside_pure _ ⟨b.known known, b.knownTimer rings⟩

theorem goesAside_halt {task : PromiseId} (known : c.loop.Known S task) : GoesAside E S (halt task) c := by
  unfold halt
  refine aside_newPromise.bind fun waiter c₁ b₁ waits => ?_
  obtain ⟨fits, other⟩ := concerns_of_known (.fulfil waiter) rfl waits
  refine (aside_observe (b₁.known known) fits other).andThen fun _ c₂ b₂ => ?_
  refine (aside_cancelPromise (b₂.known (b₁.known known)).2).andThen fun _ c₃ b₃ => ?_
  exact aside_pure _ ⟨b₃.known (b₂.known waits), b₃.known (b₂.known (b₁.known known)), b₃.known (b₂.known waits)⟩

theorem goesAside_halted {task waiter : PromiseId} (known : c.loop.Known S task) (o : Outcome) :
    GoesAside E S (halted task waiter o) c :=
  (aside_unobserve known.2).andThen fun _ _ _ => (aside_valueOf o).andThen fun _ _ _ => goesAside_done _

theorem aside_stopTimer {timer : Option TimerId} (rings : ∀ k, timer = some k → c.loop.KnownTimer S k) :
    Aside E S (stopTimer timer) Untold c := by
  unfold stopTimer
  split
  · exact aside_cancelTimer (rings _ rfl).2
  · exact aside_pure _ trivial

theorem goesAside_overdue {timer : Option TimerId} (rings : ∀ k, timer = some k → c.loop.KnownTimer S k)
    (task : PromiseId) (o : Outcome) : GoesAside E S (overdue task timer o) c := by
  unfold overdue
  refine (aside_stopTimer rings).andThen fun _ _ _ => (aside_valueOf o).andThen fun _ _ _ =>
    aside_get.andThen fun _ _ _ => ?_
  split
  · split <;> exact aside_throw _
  · exact (aside_outcomeOf task).andThen fun _ _ _ => goesAside_done _

theorem goesAside_abandoned {timer : TimerId} (rings : c.loop.KnownTimer S timer) (f : Fault) (o : Outcome) :
    GoesAside E S (abandoned timer f o) c :=
  (aside_cancelTimer rings.2).andThen fun _ _ _ => (aside_valueOf o).andThen fun _ _ _ => aside_throw _

/-! ## Any activity -/

theorem goesAside_beginning {next : ClientM Next} (h : ∀ {c'}, c.Beside S c' → GoesAside E S next c') (o : Outcome) :
    GoesAside E S (beginning o next) c :=
  (aside_valueOf o).andThen fun _ _ b => h b

/-- An activity that minds what it holds on to goes on beside the task that has its share to itself. -/
theorem goesAside_goOn {a : Activity} (minds : c.Minds S a) (o : Outcome) : GoesAside E S (goOn a o) c := by
  cases a with
  | relay => exact (aside_valueOf o).andThen fun _ _ _ => goesAside_done _
  | openTransport t => exact goesAside_beginning (fun _ => goesAside_openTransport minds) o
  | receive t => exact goesAside_beginning (fun _ => goesAside_receive minds) o
  | receiveFramed => exact goesAside_receiveFramed o
  | takeFrame p limit phase => exact goesAside_beginning (fun _ => goesAside_takeFrame limit phase false) o
  | takeFrameMore p limit phase => exact goesAside_takeFrameMore limit phase o
  | drain p => exact goesAside_beginning (fun _ => goesAside_drain) o
  | drainMore p => exact goesAside_drainMore o
  | closeTransport t => exact goesAside_beginning (fun _ => goesAside_closeTransport minds) o
  | awaitExit i => exact goesAside_beginning (fun _ => goesAside_awaitExit i) o
  | closeAwaited t i => exact goesAside_closeAwaited minds i o
  | closeTerminated t i => exact goesAside_closeTerminated minds i o
  | closeKilled t i => exact goesAside_closeKilled minds i o
  | closeDrained i => exact goesAside_closeDrained i o
  | within inner limit =>
    obtain ⟨i, rfl⟩ := minds
    exact goesAside_beginning (fun _ => goesAside_within i limit) o
  | withinAwaited task waiter timer => exact goesAside_withinAwaited minds.1 minds.2.2 o
  | halt task => exact goesAside_beginning (fun b => goesAside_halt (b.known minds)) o
  | halted task waiter => exact goesAside_halted minds.1 o
  | overdue task timer => exact goesAside_overdue minds.2 task o
  | abandoned timer f => exact goesAside_abandoned minds f o
  | _ => exact minds.elim

/-! ## Turns of other tasks -/

theorem aside_follow {q : PromiseId} (known : c.loop.Known S q) {rest : List Activity} (minds : ∀ a ∈ rest, c.Minds S a)
    {next : Except Fault Next} (left : ∀ n, next = .ok n → n.Minds S c) :
    Aside E S (follow q rest next) (fun c' r => ∀ stack o, r = some (stack, o) → ∀ a ∈ stack, c'.Minds S a) c := by
  have stays : ∀ (stack : List Activity) (o : Outcome), (∀ a ∈ stack, c.Minds S a) →
      Aside E S (pure (some (stack, o))) (fun c' r => ∀ stack o, r = some (stack, o) → ∀ a ∈ stack, c'.Minds S a) c :=
    fun stack o h => aside_pure _ fun _ _ e => by cases e; exact h
  cases next with
  | error f => exact stays _ _ minds
  | ok next =>
    have left := left next rfl
    cases next with
    | done v => exact stays _ _ minds
    | become b => exact stays _ _ (List.forall_mem_cons.2 ⟨left, minds⟩)
    | call inner k => exact stays _ _ (List.forall_mem_cons.2 ⟨left.1, List.forall_mem_cons.2 ⟨left.2, minds⟩⟩)
    | yield k =>
      refine (aside_onLoop fun apart => ?_).andThen fun _ _ _ => aside_pure _ nofun
      exact apart.loop.pause known.2 (List.forall_mem_cons.2 ⟨left, minds⟩) known.1
    | await r k =>
      refine aside_get.bind fun a c' b e => ?_
      subst e
      have all : ∀ x ∈ k :: rest, a.Minds S x :=
        List.forall_mem_cons.2 ⟨b.minds left.2, fun x hx => b.minds (minds x hx)⟩
      split
      · exact aside_pure _ fun _ _ e => by cases e; exact all
      · refine (aside_onLoop fun apart => ?_).andThen fun _ _ _ => aside_pure _ nofun
        exact apart.loop.suspend known.2 all (b.known left.1) (b.known known).1

theorem aside_runActivity {q : PromiseId} (known : c.loop.Known S q) {a : Activity} {rest : List Activity}
    (minds : ∀ x ∈ a :: rest, c.Minds S x) (o : Outcome) :
    Aside E S (runActivity q a rest o) (fun c' r => ∀ stack o, r = some (stack, o) → ∀ a ∈ stack, c'.Minds S a) c := by
  have caught : Aside E S (tryCatch (do return Except.ok (← goOn a o)) fun f => return Except.error f)
      (fun c' (r : Except Fault Next) => ∀ n, r = .ok n → n.Minds S c') c := by
    refine .tryCatch ?_ fun f c' _ => aside_pure _ nofun
    exact (goesAside_goOn (minds a (List.mem_cons_self ..)) o).bind fun n c' _ left =>
      aside_pure _ fun _ e => by cases e; exact left
  exact caught.bind fun next c' b left =>
    aside_follow (b.known known) (fun x hx => b.minds (minds x (List.mem_cons_of_mem _ hx))) left

theorem aside_runStack {q : PromiseId} (fuel : Nat) (known : c.loop.Known S q) {stack : List Activity}
    (minds : ∀ x ∈ stack, c.Minds S x) (o : Outcome) : Aside E S (runStack q fuel stack o) Untold c := by
  induction fuel generalizing c stack o with
  | zero => exact aside_pure _ trivial
  | succ fuel ih =>
    cases stack with
    | nil => exact aside_onLoop fun apart => apart.loop.finish known.2 o
    | cons a rest =>
      refine (aside_runActivity known minds o).bind fun r c' b left => ?_
      split
      · exact ih (b.known known) (left _ _ rfl) _
      · exact aside_pure _ trivial

/-- A turn of another task. -/
theorem aside_runTask {q : PromiseId} (known : c.loop.Known S q) (o : Outcome) : Aside E S (runTask q o) Untold c := by
  unfold runTask
  refine (aside_withLoop (R := fun c' a => ∀ x ∈ a.1, c'.Minds S x) fun apart => ?_).bind fun a c₁ b₁ minds => ?_
  · obtain ⟨resumed, minds⟩ := apart.loop.resume known.2
    exact ⟨resumed, fun x hx => resumed.minds (minds x hx)⟩
  · refine (aside_modify fun h => h.same rfl rfl rfl rfl rfl).bind fun _ c₂ b₂ _ => ?_
    refine (aside_runStack taskFuel (b₂.known (b₁.known known)) (fun x hx => b₂.minds (minds x hx)) _).andThen
      fun _ _ _ => ?_
    exact aside_modify fun h => h.same rfl rfl rfl rfl rfl

theorem aside_handleEvent {e : Event} (mild : e.isMild = true) : Aside E S (handleEvent e) Untold c := by
  cases e with
  | taskEnded name promise =>
    refine aside_get.andThen fun _ _ _ => ?_
    split
    · exact aside_note _
    · exact aside_pure _ trivial
  | childExits i code => exact aside_childExits i code
  | _ => cases mild

/-- A job that does nothing to a promise of the share. -/
theorem aside_runJob {job : Job Event} (fits : job.Fits c.loop.promises.size) (other : job.concerns S.own = false) :
    Aside E S (runJob job) Untold c := by
  have known : ∀ {r}, job.target? = some r → c.loop.Known S r := fun {r} h =>
    ⟨fits.1 r h, Job.concerns_eq_false.1 other r h⟩
  cases job with
  | step q => exact aside_runTask (known rfl) _
  | wake q source =>
    refine aside_get.bind fun _ _ b _ => ?_
    split
    · exact aside_runTask (b.known (known rfl)) _
    · exact aside_pure _ trivial
  | fulfil w => exact aside_settle (known rfl).2
  | member g m =>
    exact aside_onLoop (f := fun l => l.memberSettled g) fun apart => apart.loop.memberSettled (known rfl).2
  | notify e => exact .tryCatch (aside_handleEvent (fits.2 e rfl)) fun _ _ _ => aside_pure _ trivial
  | idle => exact aside_pure _ trivial

end LspClient
