/-
What each activity in the life of a session does: which of them are calm, and how the others change
the state of the session, its transport, its reader, its answering tasks and what it has written.
-/
import LspClient.Proofs.Client.Calm

namespace LspClient

/-- Whether an activity takes part in the life of a session: it may change its state, its transport, its
reader or its answering tasks, count its failures, or it writes for it. -/
def Activity.isVital : Activity → Bool
  | .attempt .. | .attemptReleased .. | .attemptOpened .. | .attemptAnswered .. | .started .. | .stop ..
  | .stopAnnounced .. | .stopReleased .. | .shutDown .. | .shutDownAnswered .. | .fail .. | .release ..
  | .releaseReader .. | .restartTried .. | .readLoop .. | .readLoopReceived .. | .lostFailed .. | .answer ..
  | .answered .. => true
  | _ => false

namespace Client

variable {E : Executor}

/-! ## Parts that make minor changes -/

/-- A change of a session besides its life, its handlers and its requests. -/
theorem isMinor_onSession_of_alike {s : SessionId} {f : Session → Session} (alike : ∀ y : Session, y.Alike (f y))
    (routers : ∀ y topic, (f y).router topic = y.router topic) : IsMinor E (onSession s f) :=
  isMinor_onSession alike fun y h => (alike y).isSound (routers y) h

theorem isMinor_stateName (s : SessionId) : IsMinor E (stateName s) :=
  (isMinor_session s).bind fun _ => isMinor_pure _

theorem isMinor_tellUser (message : String) : IsMinor E (tellUser message) := by
  refine IsMinor.bind (isMinor_modify fun _ => ⟨rfl, rfl, rfl, rfl, rfl⟩) fun _ => isMinor_get.bind fun _ => ?_
  split
  · refine (isMinor_note _).bind fun _ => ?_
    split
    · exact isMinor_throw _
    · exact isMinor_pure _
  · exact isMinor_log _ _ _ _ _

theorem isMinor_tell (s : SessionId) (message : String) : IsMinor E (tell s message) := by
  unfold tell
  refine (isMinor_session s).bind fun y => ?_
  extract_lets x shown rest
  have hshown : IsMinor E shown := by
    dsimp only [shown]
    split
    · exact isMinor_pure _
    · refine (isMinor_note _).bind fun _ => ?_
      split
      · exact isMinor_throw _
      · exact isMinor_pure _
    · exact isMinor_tellUser message
  have hrest : ∀ u, IsMinor E (rest u) := fun _ => by
    refine hshown.attempt.bind fun _ => ?_
    split
    · exact isMinor_pure _
    · exact isMinor_logSession _ _ _ _ _
  split
  · exact (isMinor_showLine message).bind hrest
  · exact hrest ()

theorem isMinor_cancelRestart (s : SessionId) : IsMinor E (cancelRestart s) := by
  have idle : IsMinor E (onSession s fun x => { x with restarting := none }) :=
    isMinor_onSession_of_alike (fun _ => ⟨rfl, rfl, rfl, rfl, rfl, rfl, rfl, Nat.le_refl _⟩) fun _ topic => by
      cases topic <;> rfl
  refine (isMinor_session s).bind fun x => idle.bind fun _ => ?_
  split
  · refine isMinor_get.bind fun _ => ?_
    split
    · exact (isMinor_cancelPromise _).bind fun _ => isMinor_pure _
    · exact isMinor_pure _
  · exact isMinor_pure _

theorem isMinor_sendStartup (s : SessionId) (success : Bool) (error : List (String × Value)) :
    IsMinor E (sendStartup s success error) := by
  refine (isMinor_session s).bind fun _ => ?_
  split
  · exact (isMinor_recordOf _ _).bind fun _ => isMinor_send _
  · exact isMinor_pure _

theorem isMinor_clearNotifications (s : SessionId) (clear : Bool) : IsMinor E (clearNotifications s clear) := by
  unfold clearNotifications
  split
  · refine isMinor_onSession (fun _ => ⟨rfl, rfl, rfl, rfl, rfl, rfl, rfl, Nat.le_refl _⟩) fun y h =>
      ⟨fun topic g hg => ?_, h.ids⟩
    cases topic with
    | notification => cases hg
    | request => exact h.tame .request g hg
    | event => exact h.tame .event g hg
    | telemetry => exact h.tame .telemetry g hg
  · exact isMinor_pure _

/-! ## Calm activities -/

theorem isCalm_done_stateName (s : SessionId) : IsCalm E Next.GoesOn (do return .done (← stateName s)) :=
  isCalm_done (isMinor_stateName s)

theorem isCalm_start (s : SessionId) : IsCalm E (Next.IsFree (some s)) (start s) := by
  refine (isMinor_session s).calm fun _ => ?_
  split
  · exact (isCalm_done_stateName s).free _
  · exact (isCalm_done_stateName s).free _
  · exact isCalm_throw _
  · exact (isMinor_cancelRestart s).calm fun _ =>
      isCalm_pure (isFree_call ⟨rfl, rfl, rfl, .inr rfl⟩ ⟨rfl, rfl, rfl, .inr rfl⟩)

theorem isCalm_attemptFault (s : SessionId) (f : Fault) : IsCalm E (Next.IsFree (some s)) (attemptFault s f) := by
  have next : IsCalm E (Next.IsFree (some s)) (pure (.call (.fail s f) (.attemptFailed s f))) :=
    isCalm_pure (isFree_call ⟨rfl, rfl, rfl, .inr rfl⟩ ⟨rfl, rfl, rfl, .inr rfl⟩)
  have fails : IsCalm E (Next.IsFree (some s)) (do
      let x ← session s
      if x.state ≠ .starting then throw x.interruptedFault
      return .call (.fail s f) (.attemptFailed s f)) := by
    refine (isMinor_session s).calm fun _ => ?_
    split
    · exact (isMinor_throw _).calm fun _ => next
    · exact next
  unfold attemptFault
  split
  · exact (isMinor_throw _).calm fun _ => fails
  · exact fails

theorem isCalm_attemptAbandoned (s : SessionId) (o : Outcome) :
    IsCalm E (Next.IsFree (some s)) (attemptAbandoned s o) := by
  unfold attemptAbandoned
  split
  · exact isCalm_attemptFault s _
  · exact (isMinor_session s).calm fun _ => isCalm_attemptFault s _

theorem isCalm_attemptFailed (s : SessionId) (f : Fault) (o : Outcome) :
    IsCalm E Next.GoesOn (attemptFailed s f o) :=
  (isMinor_valueOf o).calm fun _ => (isMinor_session s).calm fun _ => isCalm_throw _

theorem isCalm_failReleased (hE : E.IsTame) (s : SessionId) (f : Fault) (o : Outcome) :
    IsCalm E Next.GoesOn (failReleased s f o) :=
  (isMinor_valueOf o).calm fun _ => (isMinor_dispatchEvent hE s _ _).calm fun _ => isCalm_pure (goesOn_done _)

theorem isCalm_releaseAnswers (s : SessionId) (t : Option TransportId) (o : Outcome) :
    IsCalm E Next.GoesOn (releaseAnswers s t o) := by
  refine (isMinor_valueOf o).calm fun _ => ?_
  split
  · exact isCalm_pure (goesOn_call ⟨rfl, rfl⟩ ⟨rfl, rfl⟩)
  · exact isCalm_pure (goesOn_done _)

theorem isCalm_releaseClosed (s : SessionId) (o : Outcome) : IsCalm E Next.GoesOn (releaseClosed s o) := by
  unfold releaseClosed
  split
  · exact isCalm_pure (goesOn_done _)
  · split
    · exact (isMinor_session s).calm fun _ => (isMinor_logSession s _ _ _ _).calm fun _ => isCalm_pure (goesOn_done _)
    · exact isCalm_throw _

theorem isCalm_restart (s : SessionId) (delay : Number) :
    IsCalm E (Next.IsFree (some s)) (pure (.call (.sleep delay) (.restartSlept s))) :=
  isCalm_pure (isFree_call (Activity.IsRoot.free ⟨rfl, rfl⟩ _) ⟨rfl, rfl, rfl, .inr rfl⟩)

theorem isCalm_restartSlept (s : SessionId) (o : Outcome) : IsCalm E (Next.IsFree (some s)) (restartSlept s o) := by
  refine (isMinor_valueOf o).calm fun _ => (isMinor_session s).calm fun _ => ?_
  split
  · exact isCalm_pure (isFree_call ⟨rfl, rfl, rfl, .inr rfl⟩ ⟨rfl, rfl, rfl, .inr rfl⟩)
  · exact (isCalm_pure (goesOn_done _)).free _

theorem isCalm_awaitGoesOn (p : PromiseId) : IsCalm E Next.GoesOn (pure (.await p .relay)) :=
  isCalm_pure (goesOn_await p ⟨rfl, rfl⟩)

/-- Every tame activity is calm, unless it takes part in the life of a session or stirs one. -/
theorem isCalm_goOn (hE : E.IsTame) {a : Activity} (tame : a.isTame = true) (h : a.isVital = false)
    (still : a.rouses = none) (o : Outcome) : IsCalm E Next.GoesOn (goOn a o) := by
  cases a with
  | relay => exact isCalm_relay o
  | sleep delay => exact isCalm_beginning (isCalm_sleep delay)
  | slept timer => exact isCalm_slept timer o
  | react r argument => exact isCalm_beginning (isCalm_reactSlowly hE tame argument)
  | reacted r => exact isCalm_reacted r o
  | receive t => exact isCalm_beginning (isCalm_receive t)
  | receiveQueued t getter => exact isCalm_receiveQueued t getter o
  | receiveFramed => exact isCalm_receiveFramed o
  | takeFrame p limit phase => exact isCalm_beginning (isCalm_takeFrame p limit phase false)
  | takeFrameMore p limit phase => exact isCalm_takeFrameMore p limit phase o
  | await p => exact isCalm_beginning (isCalm_awaitGoesOn p)
  | within inner limit =>
    exact isCalm_beginning (isCalm_within (Bool.and_eq_true_iff.1 tame) limit)
  | withinAwaited task waiter timer => exact isCalm_withinAwaited task waiter timer o
  | halt task => exact isCalm_beginning (isCalm_halt task)
  | halted task waiter => exact isCalm_halted task waiter o
  | overdue task timer => exact isCalm_overdue task timer o
  | abandoned timer f => exact isCalm_abandoned timer f o
  | releaseAnswers s t => exact isCalm_releaseAnswers s t o
  | releaseClosed s => exact isCalm_releaseClosed s o
  | openTransport t => exact isCalm_beginning (isCalm_openTransport t)
  | openDelayed t => exact isCalm_openDelayed t o
  | connect t => exact isCalm_beginning (isCalm_connect t)
  | connectDelayed t => exact isCalm_connectDelayed o
  | connected t => exact isCalm_connected t o
  | drain p => exact isCalm_beginning (isCalm_drain p)
  | drainMore p => exact isCalm_drainMore p o
  | closeTransport t => exact isCalm_beginning (isCalm_closeTransport t)
  | closeDelayed t => exact isCalm_closeDelayed o
  | awaitExit i => exact isCalm_beginning (isCalm_awaitExit i)
  | closeAwaited t i => exact isCalm_closeAwaited t i o
  | closeTerminated t i => exact isCalm_closeTerminated t i o
  | closeKilled t i => exact isCalm_closeKilled t i o
  | closeDrained i => exact isCalm_closeDrained i o
  | post index batch => exact isCalm_beginning (isCalm_post index batch)
  | posted batch answer => exact isCalm_posted batch answer o
  | flush index => exact isCalm_beginning (isCalm_flush index)
  | closeBackend index => exact isCalm_beginning (isCalm_closeBackend index)
  | closeSink index => exact isCalm_beginning (isCalm_closeSink index)
  | closeSinkOne index => exact isCalm_closeSinkOne index o
  | _ => first | exact Bool.noConfusion h | exact Bool.noConfusion tame | cases still

/-- What stirs a session is calm, too, unless it takes part in its life: it leaves to do what stirs that session. -/
theorem isCalm_goOn_of_rouses (hE : E.IsTame) {a : Activity} {s : SessionId} (h : a.isVital = false)
    (stirs : a.rouses = some s) (o : Outcome) : IsCalm E (Next.IsFree (some s)) (goOn a o) := by
  cases a with
  | start x =>
    cases stirs
    exact isCalm_beginning (isCalm_start s)
  | attemptAbandoned x =>
    cases stirs
    exact isCalm_attemptAbandoned s o
  | attemptFailed x f =>
    cases stirs
    exact (isCalm_attemptFailed s f o).free _
  | failReleased x f =>
    cases stirs
    exact (isCalm_failReleased hE s f o).free _
  | restart x delay =>
    cases stirs
    exact isCalm_beginning (isCalm_restart s delay)
  | restartSlept x =>
    cases stirs
    exact isCalm_restartSlept s o
  | _ => first | exact Bool.noConfusion h | cases stirs

theorem isCalm_goOn_free (hE : E.IsTame) {a : Activity} (tame : a.isTame = true) (h : a.isVital = false) (o : Outcome) :
    IsCalm E (Next.IsFree a.rouses) (goOn a o) := by
  cases stirs : a.rouses with
  | none => exact (isCalm_goOn hE tame h stirs o).free none
  | some s => exact isCalm_goOn_of_rouses hE h stirs o

end Client

end LspClient
