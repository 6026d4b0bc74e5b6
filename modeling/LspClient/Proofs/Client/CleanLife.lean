/-
Activities in the life of a session that are clean: they keep clients clean and raise no breach, for a session
moves to another state only where that state may follow. What they call next is ready at once, and what they
put down is ready whenever it is taken up.
-/
import LspClient.Proofs.Client.CleanWaiting

namespace LspClient

theorem Client.state_of_sessions {c c' : Client} {s : SessionId} (same : c'.sessions = c.sessions) :
    (c'.sessionAt s).state = (c.sessionAt s).state := by
  rw [sessionAt, same, sessionAt]

/-- Nothing is in the queue of the transport that settings select. -/
theorem inbox_of_transport {settings : Settings} {environment : List (String × Value)} {x : Transport}
    (h : settings.transport environment = .ok x) : x.inbox = [] := by
  unfold Settings.transport Transport.ofLaunch at h
  split at h
  · cases h
    rfl
  · split at h
    · cases h
    · cases h
      rfl

variable [Breaches]

/-- An operation that keeps a client clean and raises no breach, and leaves to do what is clean. -/
abbrev Passes (E : Executor) (op : ClientM Next) (c : Client) : Prop :=
  CleanAt E op (fun next c => next.IsClean c) c

/-- Whether an activity looks at the state of its session, or moves it to another one. -/
def Activity.looks : Activity → Bool
  | .start .. | .attempt .. | .attemptReleased .. | .attemptOpened .. | .attemptAbandoned .. | .attemptAnswered ..
  | .stop .. | .stopReleased .. | .fail .. | .restartSlept .. | .readLoopReceived .. => true
  | _ => false

theorem IsClean.passes {E : Executor} {c : Client} {op : ClientM Next} (h : IsClean E op Next.Parks) (hc : c.Clean) :
    Passes E op c :=
  KeepsAt.mono (h.cleanAt c hc) fun _ c' parks => parks.isClean c'

namespace Client

variable {E : Executor} {c : Client} {s : SessionId} {o : Outcome} {f : Fault}

/-! ## Moving to another state -/

/-- A session that moves to a state that may follow raises no breach. -/
theorem cleanAt_transition (hc : c.Clean) {target : SessionState}
    (may : (c.sessionAt s).state.mayBecome target = true) :
    CleanAt E (transition s target) (fun _ _ => True) c := by
  rcases does_transition (E := E) s target c with ⟨never, _⟩ | ⟨l, _, moved⟩
  · rw [may] at never
    cases never
  · exact .of_ok moved (hc.onSession ((hc.sessions s).of_router fun topic => by cases topic <;> rfl)) trivial

/-- A change of a session that leaves its state and its handlers. -/
theorem cleanAt_onSession (hc : c.Clean) {f : Session → Session}
    (routers : ∀ x topic, (f x).router topic = x.router topic) (state : ∀ x : Session, (f x).state = x.state) :
    CleanAt E (onSession s f) (fun _ c' => (c'.sessionAt s).state = (c.sessionAt s).state) c := by
  refine .of_ok (exec_modify _ c) (hc.onSession ((hc.sessions s).of_router (routers _))) ?_
  rcases sessionAt_modify c s s f with e | ⟨_, _, e⟩
  · rw [e]
  · rw [e, state]

theorem cleanAt_logSession (hc : c.Clean) (s : SessionId) (level : Log.Level) (message : String)
    (fields : List (String × Value)) (fault : Option Fault) :
    CleanAt E (logSession s level message fields fault) (fun _ c' => c'.sessions = c.sessions) c :=
  .of_ok (a := ()) (does_bind_of_ok (does_session s c) _) (hc.of_eq rfl rfl rfl rfl) rfl

/-- A session whose restart is called off stays in its state. -/
theorem cleanAt_cancelRestart (hc : c.Clean) (s : SessionId) :
    CleanAt E (cancelRestart s) (fun _ c' => (c'.sessionAt s).state = (c.sessionAt s).state) c := by
  refine cleanAt_bind_of_ok (does_session s c) ?_
  refine (cleanAt_onSession hc (fun _ topic => by cases topic <;> rfl) fun _ => by rfl).bind fun _ c' state hc' => ?_
  split
  · refine cleanAt_bind_of_ok (does_get c') ?_
    split
    · next task _ _ =>
      have cancels : CleanAt E (cancelPromise task) (fun _ c'' => c''.sessions = c'.sessions) c' :=
        .of_ok (exec_modifyGet _ c') (hc'.withLoop (hc'.loop.cancel task)) rfl
      exact cancels.bind fun _ c'' same hc'' => cleanAt_pure hc'' ((state_of_sessions same).trans state)
    · exact cleanAt_pure hc' state
  · exact cleanAt_pure hc' state

theorem ready_attempt (may : (c.sessionAt s).state.mayBecome .starting = true) : (Activity.attempt s).IsReady c :=
  ⟨rfl, fun _ _ e => by cases e; exact may⟩

theorem ready_fail (may : (c.sessionAt s).state.mayBecome .failed = true) (f : Fault) : (Activity.fail s f).IsReady c :=
  ⟨rfl, fun _ _ e => by cases e; exact may⟩

/-- What is called next is ready, and what follows may be put down. -/
theorem passes_call (hc : c.Clean) {a k : Activity} (ready : a.IsReady c) (hk : k.IsParked) :
    Passes E (pure (.call a k)) c :=
  cleanAt_pure hc ⟨ready, hk⟩

theorem isClean_stateName (s : SessionId) : IsClean E (stateName s) :=
  (isClean_session s).bind fun _ => isClean_return _

theorem isClean_done_stateName (s : SessionId) : IsClean E (do return .done (← stateName s)) Next.Parks :=
  isClean_done (isClean_stateName s)

/-! ## Messages for the user -/

theorem isClean_tellUser (message : String) : IsClean E (tellUser message) := by
  refine IsClean.bind (isClean_modify fun _ => ⟨rfl, rfl, rfl, rfl⟩) fun _ => isClean_get.bind fun _ => ?_
  split
  · refine (isClean_note _).bind fun _ => ?_
    split
    · exact isClean_throw rfl
    · exact isClean_return _
  · exact isClean_log ..

theorem isClean_tell (s : SessionId) (message : String) : IsClean E (tell s message) := by
  unfold tell
  refine (isClean_session s).bind fun y => ?_
  extract_lets x shown rest
  have hshown : IsClean E shown := by
    dsimp only [shown]
    split
    · exact isClean_return _
    · refine (isClean_note _).bind fun _ => ?_
      split
      · exact isClean_throw rfl
      · exact isClean_return _
    · exact isClean_tellUser message
  have hrest : ∀ u, IsClean E (rest u) := fun _ => by
    refine hshown.attempt.bind fun _ => ?_
    split
    · exact isClean_return _
    · exact isClean_logSession ..
  split
  · exact (isClean_showLine message).bind hrest
  · exact hrest ()

/-! ## Releasing -/

theorem isClean_release (s : SessionId) : IsClean E (release s) Next.Parks := by
  refine (isClean_session s).bind fun _ => (isClean_onSession fun _ topic => by cases topic <;> rfl).bind fun _ => ?_
  split
  · refine isClean_get.bind fun _ => ?_
    split
    · exact isClean_pure (parks_become ⟨rfl, rfl⟩)
    · exact (isClean_cancelPromise _).bind fun _ => isClean_gather _ ⟨rfl, rfl⟩
  · exact isClean_pure (parks_become ⟨rfl, rfl⟩)

theorem isClean_releaseReader (s : SessionId) (t : Option TransportId) (ho : Fault.Spares o) :
    IsClean E (releaseReader s t o) Next.Parks := by
  refine (isClean_valueOf ho).bind fun _ => isClean_get.bind fun _ => (isClean_session s).bind fun _ =>
    (isClean_onSession fun _ topic => by cases topic <;> rfl).bind fun _ =>
      IsClean.bind (IsClean.forIn (fun task _ _ => ?_) _) fun _ => ?_
  · exact (isClean_cancelPromise task).bind fun _ => isClean_return _
  · split
    · exact isClean_pure (parks_become ⟨rfl, rfl⟩)
    · exact isClean_gather _ ⟨rfl, rfl⟩

theorem isClean_releaseAnswers (s : SessionId) (t : Option TransportId) (ho : Fault.Spares o) :
    IsClean E (releaseAnswers s t o) Next.Parks := by
  refine (isClean_valueOf ho).bind fun _ => ?_
  split
  · exact isClean_pure (parks_call ⟨rfl, rfl⟩ ⟨rfl, rfl⟩)
  · exact isClean_pure (parks_done _)

theorem isClean_releaseClosed (s : SessionId) (ho : Fault.Spares o) : IsClean E (releaseClosed s o) Next.Parks := by
  unfold releaseClosed
  split
  · exact isClean_pure (parks_done _)
  · next f =>
    split
    · exact (isClean_session s).bind fun _ => (isClean_logSession ..).bind fun _ => isClean_pure (parks_done _)
    · exact isClean_throw (ho f rfl)

/-! ## Failures -/

theorem isBreach_of_decide {p : RestartPolicy} (h : p.decide = .error f) : f.isBreach = false := by
  have late : ∀ {n g}, p.backoffFor n = .error g → g.isBreach = false := by
    intro n g hg
    unfold RestartPolicy.backoffFor at hg
    split at hg
    · cases hg
    · dsimp only at hg
      split at hg
      · cases hg
      · cases hg
        rfl
  unfold RestartPolicy.decide at h
  split at h
  · cases h
  · cases delay : p.backoffFor p.failures with
    | ok n => rw [delay] at h; cases h
    | error g =>
      rw [delay] at h
      cases h
      exact late delay

theorem isClean_applyPolicy (hE : E.IsClean) (s : SessionId) (f : Fault) (autoRestart : Bool) :
    IsClean E (applyPolicy s f autoRestart) := by
  unfold applyPolicy
  refine (isClean_onSession fun _ topic => by cases topic <;> rfl).bind fun _ => (isClean_session s).bind fun x => ?_
  extract_lets decided
  have hdecided : ∀ d, IsClean E (decided d) := fun d => by
    refine (isClean_recordOf _ _).bind fun _ => (isClean_emitTelemetry hE s _).bind fun _ => ?_
    split
    · split
      · exact isClean_return _
      · refine (isClean_session s).bind fun _ => ?_
        extract_lets restarts
        have hrestarts : ∀ u, IsClean E (restarts u) := fun _ =>
          (isClean_logSession ..).bind fun _ => (isClean_spawn ⟨rfl, rfl⟩).bind fun _ =>
            isClean_onSession fun _ topic => by cases topic <;> rfl
        split
        · exact (isClean_onSession fun _ topic => by cases topic <;> rfl).bind fun _ =>
            (isClean_tell s _).bind hrestarts
        · exact hrestarts ()
    · exact (isClean_logSession ..).bind fun _ => (isClean_recordOf _ _).bind fun _ =>
        (isClean_emitTelemetry hE s _).bind fun _ => (isClean_tell s _).bind fun _ => isClean_dispatchEvent hE s _ _
  split
  · exact (isClean_return _).bind hdecided
  · next late => exact isClean_throw_bind (isBreach_of_decide late) _

theorem passes_fail (hc : c.Clean) (may : (c.sessionAt s).state.mayBecome .failed = true) (f : Fault) :
    Passes E (fail s f) c := by
  refine (cleanAt_transition hc may).bind fun _ c' _ hc' => IsClean.passes ?_ hc'
  have given : ∀ x : Session, Fault.isBreach (.termination ("Session " ++ x.name ++ " terminated: " ++ f.message)) =
      false :=
    fun _ => rfl
  exact (isClean_session s).bind fun x => (isClean_rejectAll _ (given x)).bind fun _ =>
    isClean_pure (parks_call ⟨rfl, rfl⟩ ⟨rfl, rfl⟩)

theorem isClean_failReleased (hE : E.IsClean) (s : SessionId) (f : Fault) (ho : Fault.Spares o) :
    IsClean E (failReleased s f o) Next.Parks :=
  (isClean_valueOf ho).bind fun _ => (isClean_dispatchEvent hE s _ _).bind fun _ => isClean_pure (parks_done _)

theorem isClean_lostFailed (hE : E.IsClean) (s : SessionId) (f : Fault) (ho : Fault.Spares o) :
    IsClean E (lostFailed s f o) Next.Parks :=
  (isClean_valueOf ho).bind fun _ => (isClean_applyPolicy hE s _ _).bind fun _ => isClean_pure (parks_done _)

/-- A connection is lost: the session fails if it runs. -/
theorem passes_connectionLost (hc : c.Clean) (s : SessionId) (t : TransportId) (f : Fault) :
    Passes E (connectionLost s t f) c := by
  have ends : ∀ {c : Client}, c.Clean → Passes E (pure (.done .null)) c := fun hc =>
    IsClean.passes (isClean_pure (parks_done _)) hc
  refine cleanAt_bind_of_ok (does_session s c) ?_
  split
  · exact ends hc
  · split
    · have given : Fault.isBreach (.termination ("Connection lost: " ++ f.message)) = false := rfl
      exact (isClean_rejectAll _ given).bindAt hc fun _ c' _ hc' => ends hc'
    · next running =>
      -- Only a log record comes between the test and the failure, so the session runs still.
      refine (cleanAt_logSession hc ..).bind fun _ c' same hc' => passes_call hc' (ready_fail ?_ f) ⟨rfl, rfl⟩
      rw [state_of_sessions same, running]
      rfl
    · exact ends hc

/-- A message is handled, or not: the reader reads on, or the connection is lost. -/
theorem passes_bodyHandled (hc : c.Clean) (s : SessionId) (t : TransportId) {r : Except Fault Unit}
    (hr : Fault.Spares r) :
    Passes E (bodyHandled s t r) c := by
  cases r with
  | ok u => exact IsClean.passes (isClean_pure (parks_become ⟨rfl, rfl⟩)) hc
  | error f =>
    show Passes E (if f.isTransport then connectionLost s t f else throw f) c
    split
    · exact passes_connectionLost hc s t f
    · exact cleanAt_throw hc (hr f rfl)

theorem passes_readLoopReceived (hE : E.IsClean) (hc : c.Clean) (s : SessionId) (t : TransportId)
    (ho : Fault.Spares o) :
    Passes E (readLoopReceived s t o) c := by
  unfold readLoopReceived
  split
  · exact (isClean_handleBody hE s _).attempt.bindAt hc fun r c' hr hc' => passes_bodyHandled hc' s t hr
  · exact passes_connectionLost hc s t _
  · next f =>
    have fair : f.isBreach = false := ho f rfl
    split
    · exact IsClean.passes ((isClean_rejectBadMessage hE s fair).bind fun _ => isClean_pure (parks_become ⟨rfl, rfl⟩))
        hc
    · split
      · exact passes_connectionLost hc s t f
      · exact cleanAt_throw hc fair

/-! ## Restarting -/

/-- Only a session that has failed is started again. -/
theorem passes_restartSlept (hc : c.Clean) (s : SessionId) (ho : Fault.Spares o) : Passes E (restartSlept s o) c := by
  -- The state is looked at when the sleep is over, and the attempt begins in the same turn.
  refine (isClean_valueOf ho).bindAt hc fun _ c' _ hc' => cleanAt_bind_of_ok (does_session s c') ?_
  split
  · next failed => exact passes_call hc' (ready_attempt (by rw [failed]; rfl)) ⟨rfl, rfl⟩
  · exact IsClean.passes (isClean_pure (parks_done _)) hc'

theorem isClean_restartTried (hE : E.IsClean) (s : SessionId) (ho : Fault.Spares o) :
    IsClean E (restartTried s o) Next.Parks := by
  unfold restartTried
  split
  · exact isClean_pure (parks_done _)
  · next f =>
    split
    · exact isClean_pure (parks_done _)
    · split
      · refine (isClean_session s).bind fun _ => ?_
        split
        · exact (isClean_applyPolicy hE s _ _).bind fun _ => isClean_pure (parks_done _)
        · exact isClean_pure (parks_done _)
      · exact isClean_throw (ho f rfl)

/-! ## Starting -/

theorem isClean_sendStartup (s : SessionId) (success : Bool) (error : List (String × Value)) :
    IsClean E (sendStartup s success error) := by
  refine (isClean_session s).bind fun _ => ?_
  split
  · exact (isClean_recordOf _ _).bind fun _ => isClean_send _
  · exact isClean_return _

/-- Only a session that has stopped or failed is started. -/
theorem passes_start (hc : c.Clean) (s : SessionId) : Passes E (start s) c := by
  refine cleanAt_bind_of_ok (does_session s c) ?_
  split
  · exact (isClean_done_stateName s).passes hc
  · exact (isClean_done_stateName s).passes hc
  · exact cleanAt_throw hc rfl
  · next starting running stopping =>
    refine (cleanAt_cancelRestart hc s).bind fun _ c' state hc' => passes_call hc' (ready_attempt ?_) ⟨rfl, rfl⟩
    rw [state]
    cases h : (c.sessionAt s).state with
    | stopped => rfl
    | failed => rfl
    | starting => exact absurd h starting
    | running => exact absurd h running
    | stopping => exact absurd h stopping

theorem isClean_started (hE : E.IsClean) (s : SessionId) (ho : Fault.Spares o) :
    IsClean E (started s o) Next.Parks := by
  unfold started
  split
  · exact (isClean_sendStartup s _ _).bind fun _ => isClean_done_stateName s
  · next f =>
    have fair : f.isBreach = false := ho f rfl
    split
    · exact isClean_done_stateName s
    · split
      · exact (isClean_sendStartup s _ _).bind fun _ => (isClean_applyPolicy hE s _ _).bind fun _ => isClean_throw fair
      · exact isClean_throw fair

theorem passes_beginAttempt (hc : c.Clean) (may : (c.sessionAt s).state.mayBecome .starting = true) :
    Passes E (beginAttempt s) c :=
  (cleanAt_transition hc may).bind fun _ _ _ hc' =>
    IsClean.passes (isClean_pure (parks_call ⟨rfl, rfl⟩ ⟨rfl, rfl⟩)) hc'

/-- An attempt that goes wrong makes the session fail only if it still starts. -/
theorem passes_attemptFault (hc : c.Clean) (s : SessionId) (hf : f.isBreach = false) :
    Passes E (attemptFault s f) c := by
  unfold attemptFault
  split
  · exact cleanAt_throw hc hf
  · refine cleanAt_bind_of_ok (does_session s c) ?_
    split
    · exact cleanAt_throw hc rfl
    · next starting =>
      refine passes_call hc (ready_fail ?_ f) ⟨rfl, rfl⟩
      rw [Decidable.not_not.1 starting]
      rfl

theorem isClean_attemptFailed (s : SessionId) (f : Fault) (ho : Fault.Spares o) :
    IsClean E (attemptFailed s f o) Next.Parks :=
  (isClean_valueOf ho).bind fun _ => (isClean_session s).bind fun _ => isClean_throw rfl

theorem passes_attemptAbandoned (hc : c.Clean) (s : SessionId) (ho : Fault.Spares o) :
    Passes E (attemptAbandoned s o) c := by
  unfold attemptAbandoned
  split
  · next f => exact passes_attemptFault hc s (ho f rfl)
  · exact (isClean_session s).bindAt hc fun x c' _ hc' => passes_attemptFault hc' s rfl

theorem spares_transport (settings : Settings) (environment : List (String × Value)) :
    Fault.Spares (settings.transport environment) := by
  intro f h
  unfold Settings.transport Transport.ofLaunch at h
  split at h
  · cases h
  · split at h
    · cases h
      rfl
    · cases h

theorem isClean_makeTransport : IsClean E makeTransport := by
  have makes : ∀ {x : Transport}, x.inbox = [] → IsClean E (newTransport x) := by
    intro x none
    refine isClean_newTransport fun d hd => ?_
    rw [none] at hd
    cases hd
  unfold makeTransport
  refine isClean_get.bind fun c => ?_
  split
  · next host _ _ =>
    have selected : IsClean E (answerOf (host.settings.transport c.environment) >>= newTransport) := by
      cases ht : host.settings.transport c.environment with
      | error f => exact isClean_throw_bind (spares_transport _ _ f ht) _
      | ok x => exact makes (inbox_of_transport ht)
    dsimp only
    split
    · exact (isClean_log ..).bind fun _ => selected
    · exact selected
  · extract_lets made
    have hmade : IsClean E (made ()) := makes rfl
    split
    · exact isClean_throw_bind rfl _
    · exact hmade

theorem passes_attemptMade (hc : c.Clean) (s : SessionId) {r : Except Fault TransportId} (hr : Fault.Spares r) :
    Passes E (attemptMade s r) c := by
  cases r with
  | error f => exact passes_attemptFault hc s (hr f rfl)
  | ok t =>
    have keeps : IsClean E (onSession s fun x => { x with transport := some t }) :=
      isClean_onSession fun _ topic => by cases topic <;> rfl
    exact (keeps.bind fun _ => isClean_pure (parks_call ⟨rfl, rfl⟩ ⟨rfl, rfl⟩)).passes hc

theorem passes_attemptReleased (hc : c.Clean) (s : SessionId) (ho : Fault.Spares o) :
    Passes E (attemptReleased s o) c :=
  (isClean_valueOf ho).bindAt hc fun _ _ _ hc => (isClean_session s).bindAt hc fun _ _ _ hc =>
    (isClean_logSession ..).bindAt hc fun _ _ _ hc => isClean_makeTransport.attempt.bindAt hc fun _ _ hr hc =>
      passes_attemptMade hc s hr

theorem passes_attemptSent (hc : c.Clean) (s : SessionId) (t : TransportId) {r : Except Fault Handle}
    (hr : Fault.Spares r) :
    Passes E (attemptSent s t r) c := by
  cases r with
  | error f => exact passes_attemptFault hc s (hr f rfl)
  | ok handle => exact IsClean.passes (isClean_pure (parks_await _ ⟨rfl, rfl⟩)) hc

theorem passes_attemptOpened (hE : E.IsClean) (hc : c.Clean) (s : SessionId) (t : TransportId) (ho : Fault.Spares o) :
    Passes E (attemptOpened s t o) c := by
  unfold attemptOpened
  split
  · next f => exact passes_attemptFault hc s (ho f rfl)
  · refine (isClean_session s).bindAt hc fun x c _ hc => ?_
    split
    · exact IsClean.passes (isClean_pure (parks_call ⟨rfl, rfl⟩ ⟨rfl, rfl⟩)) hc
    · refine (isClean_spawn ⟨rfl, rfl⟩).bindAt hc fun reader c _ hc => ?_
      have reads : IsClean E (onSession s fun x => { x with reader := some reader }) :=
        isClean_onSession fun _ topic => by cases topic <;> rfl
      exact reads.bindAt hc fun _ c _ hc => (isClean_sendUnchecked hE ..).attempt.bindAt hc fun r c hr hc =>
        passes_attemptSent hc s t hr

/-- A session that starts may run. -/
theorem passes_beginRunning (hE : E.IsClean) (hc : c.Clean) (starting : (c.sessionAt s).state = .starting)
    (capabilities : Value) : Passes E (beginRunning s capabilities) c := by
  refine (cleanAt_onSession hc (fun _ topic => by cases topic <;> rfl) fun _ => by rfl).bind fun _ c state hc => ?_
  have may : (c.sessionAt s).state.mayBecome .running = true := by rw [state, starting]; rfl
  refine (cleanAt_transition hc may).bind fun _ c _ hc => IsClean.passes ?_ hc
  exact (isClean_onSession fun _ topic => by cases topic <;> rfl).bind fun _ => (isClean_session s).bind fun _ =>
    (isClean_logSession ..).bind fun _ => (isClean_dispatchEvent hE s _ _).bind fun _ => isClean_pure (parks_done _)

theorem passes_attemptTold (hE : E.IsClean) (hc : c.Clean) (s : SessionId) (result : Value) {r : Except Fault Unit}
    (hr : Fault.Spares r) : Passes E (attemptTold s result r) c := by
  cases r with
  | error f => exact passes_attemptFault hc s (hr f rfl)
  | ok u =>
    -- The server has been waited for, so the session may have been stopped meanwhile: it is looked at again.
    refine cleanAt_bind_of_ok (does_session s c) ?_
    split
    · exact cleanAt_throw hc rfl
    · next starting => exact passes_beginRunning hE hc (Decidable.not_not.1 starting) _

theorem passes_attemptAnswered (hE : E.IsClean) (hc : c.Clean) (s : SessionId) (ho : Fault.Spares o) :
    Passes E (attemptAnswered s o) c := by
  unfold attemptAnswered
  split
  · next f => exact passes_attemptFault hc s (ho f rfl)
  · exact (isClean_writeText s _ (spares_printObject _)).attempt.bindAt hc fun r c hr hc =>
      passes_attemptTold hE hc s _ hr

/-! ## Stopping -/

theorem isClean_clearNotifications (s : SessionId) (clear : Bool) : IsClean E (clearNotifications s clear) := by
  unfold clearNotifications
  split
  · refine ⟨fun c hc => .of_ok (exec_modify _ c) (hc.onSession ?_) trivial⟩
    intro topic h hh
    cases topic with
    | notification => cases hh
    | request => exact hc.sessions s .request h hh
    | event => exact hc.sessions s .event h hh
    | telemetry => exact hc.sessions s .telemetry h hh
  · exact isClean_return _

theorem isClean_stopRelease (s : SessionId) (clear : Bool) {f : Option Fault}
    (hf : ∀ g, f = some g → g.isBreach = false) :
    IsClean E (stopRelease s clear f) Next.Parks := by
  have later : (Activity.stopReleased s clear f).IsParked := by
    cases f with
    | none => exact ⟨rfl, rfl⟩
    | some g => exact ⟨by simp [Activity.isClean, hf g rfl], rfl⟩
  have given : ∀ x : Session, x.stoppedFault.isBreach = false := fun _ => rfl
  exact (isClean_session s).bind fun x => (isClean_rejectAll _ (given x)).bind fun _ =>
    isClean_pure (parks_call ⟨rfl, rfl⟩ later)

/-- Every session that stops may do so: one that starts, runs or has failed. -/
theorem passes_stop (hc : c.Clean) (s : SessionId) (clear : Bool) : Passes E (stop s clear) c := by
  have none : ∀ g : Fault, (Option.none : Option Fault) = some g → g.isBreach = false := fun _ e => by cases e
  refine cleanAt_bind_of_ok (does_session s c) ?_
  unfold stopFrom
  split
  · exact (isClean_done_stateName s).passes hc
  · exact IsClean.passes ((isClean_clearNotifications s clear).bind fun _ => isClean_done_stateName s) hc
  · next stopping stopped =>
    refine (cleanAt_cancelRestart hc s).bind fun _ c' state hc' => ?_
    have may : (c'.sessionAt s).state.mayBecome .stopping = true := by
      rw [state]
      cases h : (c.sessionAt s).state with
      | stopping => exact absurd h stopping
      | stopped => exact absurd h stopped
      | starting => rfl
      | running => rfl
      | failed => rfl
    refine (cleanAt_transition hc' may).bind fun _ c _ hc => IsClean.passes ?_ hc
    refine (isClean_session s).bind fun _ => (isClean_logSession ..).bind fun _ => ?_
    split
    · exact isClean_pure (parks_call ⟨rfl, rfl⟩ ⟨rfl, rfl⟩)
    · exact isClean_stopRelease s clear none

theorem isClean_stopAnnounced (s : SessionId) (clear : Bool) (ho : Fault.Spares o) :
    IsClean E (stopAnnounced s clear o) Next.Parks := by
  cases o with
  | ok v => exact isClean_stopRelease s clear fun _ e => by cases e
  | error f => exact isClean_stopRelease s clear fun _ e => by cases e; exact ho f rfl

/-- A session that is stopping may be stopped. -/
theorem passes_stopReleased (hE : E.IsClean) (hc : c.Clean) (clear : Bool) {f : Option Fault}
    (hf : ∀ g, f = some g → g.isBreach = false) (stopping : (c.sessionAt s).state = .stopping) (ho : Fault.Spares o) :
    Passes E (stopReleased s clear f o) c := by
  cases o with
  | error g => exact cleanAt_throw hc (ho g rfl)
  | ok v =>
    -- The state is not looked at again after the release: that it is stopping comes from outside.
    have may : (c.sessionAt s).state.mayBecome .stopped = true := by rw [stopping]; rfl
    refine (cleanAt_transition hc may).bind fun _ c _ hc => IsClean.passes ?_ hc
    refine (isClean_clearNotifications s clear).bind fun _ => ?_
    cases f with
    | some g => exact isClean_throw (hf g rfl)
    | none =>
      exact (isClean_session s).bind fun _ => (isClean_logSession ..).bind fun _ =>
        (isClean_dispatchEvent hE s _ _).bind fun _ => isClean_done_stateName s

theorem isClean_shutDown (hE : E.IsClean) (s : SessionId) : IsClean E (shutDown s) Next.Parks :=
  (isClean_session s).bind fun _ => (isClean_sendUnchecked hE ..).bind fun _ => isClean_pure (parks_await _ ⟨rfl, rfl⟩)

theorem isClean_shutDownAnswered (s : SessionId) (ho : Fault.Spares o) :
    IsClean E (shutDownAnswered s o) Next.Parks := by
  have exits : ∀ name : String, IsClean E (do
      catchTransport (writeText s .exit (Message.formatNotification Session.exitMethod)) fun f =>
        logSession s .debug ("Exit notification for " ++ name ++ " failed: " ++ f.message)
      return Next.done .null) Next.Parks := by
    intro name
    refine IsClean.bind ((isClean_writeText s _ (spares_printObject _)).catchTransport fun _ _ => ?_) fun _ =>
      isClean_pure (parks_done _)
    exact isClean_logSession ..
  refine (isClean_session s).bind fun x => ?_
  split
  · exact exits _
  · next f =>
    split
    · exact (isClean_logSession ..).bind fun _ => exits _
    · exact isClean_throw_bind (ho f rfl) _

/-! ## Answering requests of the server -/

theorem isClean_sendAnswer (hE : E.IsClean) (s : SessionId) (method : String) {text : Except Fault String}
    (ht : Fault.Spares text) : IsClean E (sendAnswer s method text) Next.Parks :=
  IsClean.bind ((isClean_writeText s _ ht).catchTransport fun _ _ => isClean_reportProtocolFault hE s _ _) fun _ =>
    isClean_pure (parks_done _)

theorem isClean_answerFault (hE : E.IsClean) (s : SessionId) (id : RequestId) (method : String) (f : Fault) :
    IsClean E (answerFault s id method f) Next.Parks := by
  unfold answerFault
  split
  · exact isClean_sendAnswer hE s method (spares_printObject _)
  · exact isClean_throw rfl
  · exact (isClean_logSession ..).bind fun _ => (isClean_reportHandlerFault hE s _ _).bind fun _ =>
      isClean_sendAnswer hE s method (spares_printObject _)

theorem isClean_answered (hE : E.IsClean) (s : SessionId) (id : RequestId) (method : String) (o : Outcome) :
    IsClean E (answered s id method o) Next.Parks := by
  cases o with
  | error f => exact isClean_answerFault hE s id method f
  | ok v =>
    show IsClean E (answerResult s id method v) Next.Parks
    unfold answerResult
    split
    · exact isClean_sendAnswer hE s method (Fault.only_ok _)
    · exact isClean_answerFault hE s id method _

theorem isClean_answer (hE : E.IsClean) (s : SessionId) (id : RequestId) (method : String) (params : Value) :
    IsClean E (answer s id method params) Next.Parks := by
  refine (isClean_session s).bindWith fun x hx => ?_
  unfold answerBy
  split
  · next r last =>
    have clean : r.isClean = true :=
      hx .request (.script r) (handlers_subset_all _ method (List.mem_of_getLast? last))
    split
    · exact isClean_pure (parks_call ⟨clean, rfl⟩ ⟨rfl, rfl⟩)
    · exact (isClean_react hE clean _).attempt.bind fun _ => isClean_answered hE s id method _
  · exact isClean_sendAnswer hE s method (spares_printObject _)

/-! ## Going on -/

theorem passes_beginning (hc : c.Clean) (ho : Fault.Spares o) {next : ClientM Next} (h : Passes E next c) :
    Passes E (beginning o next) c := by
  cases o with
  | error f => exact cleanAt_throw hc (ho f rfl)
  | ok v => exact cleanAt_bind_of_ok (does_valueOf_ok v c) h

/-- Activities that do not look at the state of a session keep all clean clients clean. -/
theorem isClean_goOn (hE : E.IsClean) {a : Activity} (clean : a.isClean = true) (looks : a.looks = false)
    (ho : Fault.Spares o) : IsClean E (goOn a o) Next.Parks := by
  cases a with
  | relay => exact isClean_relay ho
  | sleep delay => exact isClean_beginning ho (isClean_sleep delay)
  | slept timer => exact isClean_slept timer ho
  | react r argument => exact isClean_beginning ho (isClean_reactSlowly hE clean argument)
  | reacted r => exact isClean_reacted clean ho
  | receive t => exact isClean_beginning ho (isClean_receive t)
  | receiveQueued t getter => exact isClean_receiveQueued t getter ho
  | receiveFramed => exact isClean_receiveFramed ho
  | takeFrame p limit phase => exact isClean_beginning ho (isClean_takeFrame p limit phase false)
  | takeFrameMore p limit phase => exact isClean_takeFrameMore p limit phase ho
  | await p => exact isClean_beginning ho (isClean_pure (parks_await p ⟨rfl, rfl⟩))
  | within inner limit =>
    obtain ⟨inner, slow⟩ := Bool.and_eq_true_iff.1 clean
    exact isClean_beginning ho (isClean_within ⟨inner, Option.isNone_iff_eq_none.1 slow⟩ limit)
  | withinAwaited task waiter timer => exact isClean_withinAwaited task waiter timer ho
  | halt task => exact isClean_beginning ho (isClean_halt task)
  | halted task waiter => exact isClean_halted task waiter ho
  | overdue task timer => exact isClean_overdue task timer ho
  | abandoned timer f => exact isClean_abandoned timer (by simpa [Activity.isClean] using clean) ho
  | started s => exact isClean_started hE s ho
  | attemptFailed s f => exact isClean_attemptFailed s f ho
  | failReleased s f => exact isClean_failReleased hE s f ho
  | stopAnnounced s clear => exact isClean_stopAnnounced s clear ho
  | shutDown s => exact isClean_beginning ho (isClean_shutDown hE s)
  | shutDownAnswered s => exact isClean_shutDownAnswered s ho
  | release s => exact isClean_beginning ho (isClean_release s)
  | releaseReader s t => exact isClean_releaseReader s t ho
  | releaseAnswers s t => exact isClean_releaseAnswers s t ho
  | releaseClosed s => exact isClean_releaseClosed s ho
  | restart s delay => exact isClean_beginning ho (isClean_pure (parks_call ⟨rfl, rfl⟩ ⟨rfl, rfl⟩))
  | restartTried s => exact isClean_restartTried hE s ho
  | readLoop s t => exact isClean_beginning ho (isClean_pure (parks_call ⟨rfl, rfl⟩ ⟨rfl, rfl⟩))
  | lostFailed s f => exact isClean_lostFailed hE s f ho
  | answer s id method params => exact isClean_beginning ho (isClean_answer hE s id method params)
  | answered s id method => exact isClean_answered hE s id method o
  | openTransport t => exact isClean_beginning ho (isClean_openTransport t)
  | openDelayed t => exact isClean_openDelayed t ho
  | connect t => exact isClean_beginning ho (isClean_connect t)
  | connectDelayed t => exact isClean_connectDelayed ho
  | connected t => exact isClean_connected t ho
  | drain p => exact isClean_beginning ho (isClean_drain p)
  | drainMore p => exact isClean_drainMore p ho
  | closeTransport t => exact isClean_beginning ho (isClean_closeTransport t)
  | closeDelayed t => exact isClean_closeDelayed ho
  | awaitExit i => exact isClean_beginning ho (isClean_awaitExit i)
  | closeAwaited t i => exact isClean_closeAwaited t i ho
  | closeTerminated t i => exact isClean_closeTerminated t i ho
  | closeKilled t i => exact isClean_closeKilled t i ho
  | closeDrained i => exact isClean_closeDrained i ho
  | post index batch => exact isClean_beginning ho (isClean_post index batch)
  | posted batch answer => exact isClean_posted batch answer ho
  | _ => first | exact Bool.noConfusion clean | exact Bool.noConfusion looks

/-- A clean activity that is ready keeps a clean client clean, raises no breach, and leaves to do what is clean. What
stops a session at last needs it to be stopping. -/
theorem passes_goOn (hE : E.IsClean) (hc : c.Clean) {a : Activity} (ready : a.IsReady c) (ho : Fault.Spares o)
    (stopping : ∀ s clear f, a = .stopReleased s clear f → (c.sessionAt s).state = .stopping) :
    Passes E (goOn a o) c := by
  cases hl : a.looks with
  | false => exact (isClean_goOn hE ready.1 hl ho).passes hc
  | true =>
    cases a with
    | start s => exact passes_beginning hc ho (passes_start hc s)
    | attempt s => exact passes_beginning hc ho (passes_beginAttempt hc (ready.2 s _ rfl))
    | attemptReleased s => exact passes_attemptReleased hc s ho
    | attemptOpened s t => exact passes_attemptOpened hE hc s t ho
    | attemptAbandoned s => exact passes_attemptAbandoned hc s ho
    | attemptAnswered s t => exact passes_attemptAnswered hE hc s ho
    | stop s clear => exact passes_beginning hc ho (passes_stop hc s clear)
    | stopReleased s clear f =>
      refine passes_stopReleased hE hc clear (fun g hg => ?_) (stopping s clear f rfl) ho
      have fair := ready.1
      rw [hg] at fair
      simpa [Activity.isClean] using fair
    | fail s f => exact passes_beginning hc ho (passes_fail hc (ready.2 s _ rfl) f)
    | restartSlept s => exact passes_restartSlept hc s ho
    | readLoopReceived s t => exact passes_readLoopReceived hE hc s t ho
    | _ => cases hl

end Client

end LspClient
