/-
What the activities in the life of a session do: failing and stopping it, giving up its transport, and
starting it again. They change the state or the transport of one session, or let it begin a request of
its own.
-/
import LspClient.Proofs.Client.Changes

namespace LspClient

open Activity (IsRoot)

/-! ## Definitions -/

/-- The session of which an activity may count a failure. -/
def Activity.counts : Activity → Option SessionId
  | .started s | .restartTried s | .lostFailed s _ => some s
  | _ => none

namespace Client

/-- What new tasks begin with while an activity goes on: an attempt to start lets one read from the
transport of its session, a reader lets some answer requests of the server, and what counts a failure lets
one start the session again after the delay that the policy has decided on, unless a user waits for the start. -/
inductive Begins (c : Client) : Activity → Activity → Prop
  | root {a b : Activity} (root : b.IsRoot) : Begins c a b
  | reader {s : SessionId} {t : TransportId} (connected : (c.sessionAt s).transport = some t) :
    Begins c (.attemptOpened s t) (.readLoop s t)
  | answer {s : SessionId} {t : TransportId} {id : RequestId} {method : String} {params : Value} :
    Begins c (.readLoopReceived s t) (.answer s id method params)
  | restart {a : Activity} {s : SessionId} {d : FailureDecision} (counts : a.counts = some s)
    (automatic : a ≠ .started s)
    (decided : s < c.sessions.size → (c.sessionAt s).policy.countFailure.decide = .ok d ∧ d.restart = true) :
    Begins c a (.restart s d.delay)

/-- What new tasks begin with while an activity goes on, unless it counts a failure. -/
def BeginsFree (c : Client) (a b : Activity) : Prop :=
  c.Begins a b ∧ b.stirs = none

/-- The requests of a session are given up: those that are open are settled, for the session ends. -/
def GivesUp (s : SessionId) (c c' : Client) : Prop :=
  ∃ message, ∀ p ∈ (c.sessionAt s).registry.pending,
    c'.loop.outcome? p.promise = some ((c.loop.outcome? p.promise).getD (.error (.termination message)))

/-- What a session that begins to stop does first: if it runs, it takes leave of its server, and
otherwise it gives up its requests, and then its transport. -/
def Stops (s : SessionId) (clear : Bool) (c : Client) (r : Except Fault Next) (c' : Client) : Prop :=
  r = .ok (.call (.shutDown s) (.stopAnnounced s clear)) ∧ c.Changes s (Session.Enters .stopping) c' ∨
    r = .ok (.call (.release s) (.stopReleased s clear none)) ∧
      c.Changes s (Session.EntersQuiet .stopping) c'

/-- An operation that makes a new transport, and leaves sessions alone. -/
structure MakesAt (E : Executor) (op : ClientM TransportId) (c : Client) : Prop where
  still : StillAt E IsRoot none op c
  makes : ∀ t, (does E op c).1 = .ok t → c.transports.size ≤ t ∧ t < (does E op c).2.transports.size

variable {E : Executor} {but : Option SessionId} {c : Client}

/-! ## New tasks -/

theorem Begins.isTame {a b : Activity} (h : c.Begins a b) : b.isTame = true := by
  cases h with
  | root root => exact root.1
  | reader => rfl
  | answer => rfl
  | restart => rfl

theorem Begins.not_isInner {a b : Activity} (h : c.Begins a b) : b.isInner = false := by
  cases h with
  | root root => exact (root.free none).not_isInner
  | reader => rfl
  | answer => rfl
  | restart => rfl

/-- Only an attempt that has opened the transport of its session lets a new task read from it. -/
theorem Begins.of_reads {a b : Activity} {s : SessionId} {t : TransportId} (h : c.Begins a b)
    (reading : b.reads = some (s, t)) :
    a = .attemptOpened s t ∧ (c.sessionAt s).transport = some t := by
  cases h with
  | root root =>
    rw [(root.free none).not_serves.1] at reading
    cases reading
  | reader connected =>
    cases reading
    exact ⟨rfl, connected⟩
  | answer => cases reading
  | restart => cases reading

/-- Only a reader lets a new task answer requests, those of its server. -/
theorem Begins.of_answers {a b : Activity} {s : SessionId} {id : RequestId} (h : c.Begins a b)
    (request : b.answers = some (s, id)) : ∃ t, a = .readLoopReceived s t := by
  cases h with
  | root root =>
    rw [(root.free none).not_serves.2] at request
    cases request
  | reader => cases request
  | answer =>
    cases request
    exact ⟨_, rfl⟩
  | restart => cases request

/-- Nothing stirs a session that a new task begins with, unless a failure of the session is counted: then it may be
started again later. -/
theorem Begins.of_stirs {a b : Activity} {s : SessionId} (h : c.Begins a b) (stirs : b.stirs = some s) :
    a.counts = some s ∧ a ≠ .started s ∧ ∃ d : FailureDecision, b = .restart s d.delay ∧
      (s < c.sessions.size → (c.sessionAt s).policy.countFailure.decide = .ok d ∧ d.restart = true) := by
  cases h with
  | root root =>
    rcases (root.free none).stirs with none | none
    all_goals
      rw [none] at stirs
      cases stirs
  | reader => cases stirs
  | answer => cases stirs
  | restart counts automatic decided =>
    cases stirs
    exact ⟨counts, automatic, _, rfl, decided⟩

theorem beginsFree_root {a b : Activity} (root : b.IsRoot) : c.BeginsFree a b :=
  ⟨.root root, (root.free none).stirs.elim id id⟩

/-- What counts no failure lets no task start a session again. -/
theorem Begins.beginsFree {a b : Activity} (h : c.Begins a b) (counts : a.counts = none) : c.BeginsFree a b := by
  refine ⟨h, ?_⟩
  cases stirs : b.stirs with
  | none => rfl
  | some s =>
    obtain ⟨never, _⟩ := h.of_stirs stirs
    rw [counts] at never
    cases never

/-! ## Parts that always succeed -/

theorem does_logSession (s : SessionId) (level : Log.Level) (message : String) (fields : List (String × Value))
    (fault : Option Fault) (c : Client) :
    ∃ c', does E (logSession s level message fields fault) c = (.ok (), c') := by
  unfold logSession
  rw [does_bind_of_ok (does_session s c)]
  exact ⟨_, rfl⟩

theorem does_cancelRestart (s : SessionId) (c : Client) : ∃ c', does E (cancelRestart s) c = (.ok (), c') := by
  unfold cancelRestart
  rw [does_bind_of_ok (does_session s c), does_bind_of_ok (does_onSession s _ c)]
  cases (c.sessionAt s).restarting with
  | none => exact ⟨_, rfl⟩
  | some task =>
    dsimp only
    rw [does_bind_of_ok (does_get _)]
    split
    · exact ⟨_, rfl⟩
    · exact ⟨_, rfl⟩

/-! ## Giving up requests -/

/-- Rejecting all requests of a session: none is pending any more, and those that are open are settled
with the reason. -/
theorem does_rejectAll (hc : c.Sound) (s : SessionId) (f : Fault) :
    ∃ n c', does E (rejectAll (.session s) f) c = (.ok n, c') ∧ c.Minor c' ∧ c'.Sound ∧
      (c'.sessionAt s).registry.pending = [] ∧
      ∀ p ∈ (c.sessionAt s).registry.pending,
        c'.loop.outcome? p.promise = some ((c.loop.outcome? p.promise).getD (.error f)) := by
  obtain ⟨n, l, hx, _, _, ho⟩ := Registry.exec_rejectAll (A := Activity.IsRoot) hc.wf (hc.registries s) f
  have whole : does E (rejectAll (.session s) f) c =
      (.ok n, c.withRequests s { (c.sessionAt s).registry with pending := [] } l) := by
    unfold rejectAll
    rewrite [does_withRegistry, hx]
    rfl
  obtain ⟨m, hc'⟩ := (isMinor_rejectAll (.session s) f).of_ok hc whole
  refine ⟨n, _, whole, m, hc', ?_, ho⟩
  unfold withRequests
  by_cases inside : s < c.sessions.size
  · have e := sessionAt_modify_self c inside fun x =>
      { x with registry := { (c.sessionAt s).registry with pending := [] } }
    exact congrArg (·.registry.pending) e
  · unfold sessionAt
    rw [Array.getElem?_eq_none (by simpa using inside)]
    rfl

/-! ## Failing -/

/-- A session that fails gives up its requests, and then its transport. -/
theorem does_fail (hc : c.Sound) (s : SessionId) (f : Fault) :
    (c.sessionAt s).state.mayBecome .failed = false ∧ (∃ e, does E (fail s f) c = (.error e, c)) ∨
      ∃ c', does E (fail s f) c = (.ok (.call (.release s) (.failReleased s f)), c') ∧ c'.Sound ∧ c.GivesUp s c' ∧
        c.Changes s (Session.EntersQuiet .failed) c' := by
  unfold fail
  rcases does_transition (E := E) s .failed c with ⟨never, e, hx⟩ | ⟨l, hl, hx⟩
  · exact .inl ⟨never, e, does_bind_of_error hx _⟩
  · right
    obtain ⟨n, c', hr, m, hc', none, ho⟩ := does_rejectAll (E := E) (hc.enter s l) s
      (.termination ("Session " ++ ((c.alter s (enter l)).sessionAt s).name ++ " terminated: " ++ f.message))
    refine ⟨c', ?_, hc', ?_, ?_⟩
    · rw [does_bind_of_ok hx, does_bind_of_ok (does_session s _), does_bind_of_ok hr, does_pure]
    · refine ⟨_, fun p hp => ho p ?_⟩
      rcases sessionAt_alter c s s (enter l) with e | ⟨_, _, e⟩
      · rw [e]
        exact hp
      · rw [e]
        exact hp
    · have changes := changes_enter (lt_size_of_transition hl (by decide)) hl m.still
      exact { changes with session := ⟨changes.session, none⟩ }

/-! ## Stopping -/

/-- A session that stops gives up its requests, and then its transport. -/
theorem does_stopRelease (hc : c.Sound) (s : SessionId) (clear : Bool) (f : Option Fault) :
    ∃ c', does E (stopRelease s clear f) c = (.ok (.call (.release s) (.stopReleased s clear f)), c') ∧
      c.Minor c' ∧ c'.Sound ∧ c.GivesUp s c' ∧ (c'.sessionAt s).registry.pending = [] := by
  obtain ⟨n, c', hr, m, hc', none, ho⟩ := does_rejectAll (E := E) hc s (c.sessionAt s).stoppedFault
  refine ⟨c', ?_, m, hc', ⟨_, ho⟩, none⟩
  unfold stopRelease
  rw [does_bind_of_ok (does_session s c), does_bind_of_ok hr, does_pure]

/-- A session that begins to stop: its restart is called off, and then it does what is next. -/
theorem does_stopping (hc : c.Sound) {s : SessionId} (may : (c.sessionAt s).state.mayBecome .stopping = true)
    (next : ClientM Next) :
    ∃ c', c.Changes s (Session.Enters .stopping) c' ∧ c'.Sound ∧ does E (do
      cancelRestart s
      transition s .stopping
      logSession s .info ("Stopping session " ++ (← session s).name)
      next) c = does E next c' := by
  obtain ⟨c₁, h₁⟩ := does_cancelRestart (E := E) s c
  obtain ⟨m₁, hc₁⟩ := (isMinor_cancelRestart s).of_ok hc h₁
  rcases does_transition (E := E) s .stopping c₁ with ⟨never, _⟩ | ⟨l, hl, h₂⟩
  · rw [(m₁.sessions s).state, may] at never
    cases never
  · obtain ⟨c₂, h₃⟩ := does_logSession (E := E) s .info
      ("Stopping session " ++ ((c₁.alter s (enter l)).sessionAt s).name) [] none (c₁.alter s (enter l))
    obtain ⟨m₂, hc₂⟩ := (isMinor_logSession s _ _ _ _).of_ok (hc₁.enter s l) h₃
    have enters := changes_enter (lt_size_of_transition hl (by decide)) hl m₂.still
    refine ⟨c₂, (m₁.still.changes s).trans enters fun _ _ _ stays enters => stays.enters enters, hc₂, ?_⟩
    · rw [does_bind_of_ok h₁, does_bind_of_ok h₂, does_bind_of_ok (does_session s _), does_bind_of_ok h₃]

/-- Stopping a session leaves it alone if it has stopped, or is about to. -/
theorem does_stop (hc : c.Sound) (s : SessionId) (clear : Bool) :
    SteadyAt E none none (stop s clear) c ∨
      ∃ r c', does E (stop s clear) c = (r, c') ∧ c'.Sound ∧ c.Stops s clear r c' := by
  have first : does E (stop s clear) c = does E (stopFrom s clear (c.sessionAt s).state) c :=
    does_bind_of_ok (does_session s c) _
  -- Sessions that start and sessions that have failed stop in the same way.
  have idle : (c.sessionAt s).state.mayBecome .stopping = true →
      does E (stop s clear) c = does E (do
        cancelRestart s
        transition s .stopping
        logSession s .info ("Stopping session " ++ (← session s).name)
        stopRelease s clear none) c →
      ∃ r c', does E (stop s clear) c = (r, c') ∧ c'.Sound ∧ c.Stops s clear r c' := by
    intro may e
    obtain ⟨c₁, enters, hc₁, h₁⟩ := does_stopping (E := E) hc may (stopRelease s clear none)
    obtain ⟨c', h', m, hc', _, none⟩ := does_stopRelease (E := E) hc₁ s clear none
    refine ⟨_, c', by rw [e, h₁, h'], hc', .inr ⟨rfl, ?_⟩⟩
    have changes : c.Changes s (Session.Enters .stopping) c' :=
      enters.trans (m.still.changes s) fun _ _ _ enters stays => enters.stays stays
    exact { changes with session := ⟨changes.session, none⟩ }
  cases hs : (c.sessionAt s).state with
  | stopping =>
    rw [hs] at first
    exact .inl ((((isCalm_done_stateName s).free none).steady hc).of_eq first)
  | stopped =>
    rw [hs] at first
    have calm : IsCalm E Next.GoesOn (stopFrom s clear .stopped) :=
      (isMinor_clearNotifications s clear).calm fun _ => isCalm_done_stateName s
    exact .inl (((calm.free none).steady hc).of_eq first)
  | starting =>
    rw [hs] at first
    exact .inr (idle (by rw [hs]; rfl) first)
  | failed =>
    rw [hs] at first
    exact .inr (idle (by rw [hs]; rfl) first)
  | running =>
    rw [hs] at first
    obtain ⟨c', enters, hc', h⟩ := does_stopping (E := E) (s := s) hc (by rw [hs]; rfl)
      (pure (.call (.shutDown s) (.stopAnnounced s clear)))
    exact .inr ⟨_, c', first.trans h, hc', .inl ⟨rfl, enters⟩⟩

/-- A stopping session whose transport is released has stopped. -/
theorem does_stopReleased (hE : E.IsTame) (hc : c.Sound) (s : SessionId) (clear : Bool) (f : Option Fault) (v : Value) :
    ((c.sessionAt s).state.mayBecome .stopped = false ∧
      ∃ e, does E (stopReleased s clear f (.ok v)) c = (.error e, c)) ∨
      ∃ r c', does E (stopReleased s clear f (.ok v)) c = (r, c') ∧ c'.Sound ∧ framesOf r = [] ∧
        c.Changes s Session.Halts c' := by
  unfold stopReleased
  rcases does_transition (E := E) s .stopped c with ⟨never, e, hx⟩ | ⟨l, hl, hx⟩
  · exact .inl ⟨never, e, (does_bind_of_ok (does_valueOf_ok v c) _).trans (does_bind_of_error hx _)⟩
  · right
    have rest : IsCalm E Next.Ends (do
        clearNotifications s clear
        stopEnded s f) := by
      refine (isMinor_clearNotifications s clear).calm fun _ => ?_
      cases f with
      | some f => exact isCalm_throw f
      | none =>
        exact (isMinor_session s).calm fun _ => (isMinor_logSession s _ _ _ _).calm fun _ =>
          (isMinor_dispatchEvent hE s _ _).calm fun _ => (isMinor_stateName s).calm fun _ => isCalm_pure fun _ => rfl
    have calm := rest.calmAt _ (hc.enter s l)
    have inside := lt_size_of_transition hl (by decide)
    have changes := changes_enter inside hl calm.minor.1.still
    have few : (c.alter s (enter l)).sessionAt s = enter l (c.sessionAt s) := sessionAt_alter_self c inside _
    have fewer := (calm.minor.1.still.stays_false s).pending_subset (by
      rw [few, show (enter l (c.sessionAt s)).state = .stopped from (enters_of_transition hl).state]
      decide)
    rw [few] at fewer
    refine ⟨_, _, (does_bind_of_ok (does_valueOf_ok v c) _).trans (does_bind_of_ok hx _), calm.minor.2, calm.ends, ?_⟩
    exact { changes with session := ⟨changes.session, fewer⟩ }

/-! ## Releasing -/

/-- A session without transport and reader. -/
def disconnect (x : Session) : Session :=
  { x with reader := none, transport := none }

theorem changes_disconnect (c : Client) (s : SessionId) : c.Changes s Session.Disconnects (c.alter s disconnect) := by
  by_cases inside : s < c.sessions.size
  · exact changes_alter inside ⟨id, rfl, Nat.le_refl _, fun _ hp => .inl hp⟩ rfl
      ⟨⟨rfl, rfl⟩, rfl, fun _ => List.Subset.refl _⟩
  · rw [alter_of_size_le c (Nat.le_of_not_lt inside)]
    have none : (c.sessionAt s).transport = none := by
      unfold sessionAt
      rw [Array.getElem?_eq_none (Nat.le_of_not_lt inside)]
      rfl
    exact { (Still.refl _ c).changes s with session := ⟨⟨rfl, rfl⟩, none, fun _ => List.Subset.refl _⟩ }

/-- A session that gives up its transport does so at once; its reader is waited for. -/
theorem does_release (hc : c.Sound) (s : SessionId) :
    ∃ r c', does E (release s) c = (r, c') ∧ c'.Sound ∧ framesOf r = [.releaseReader s (c.sessionAt s).transport] ∧
      c.Changes s Session.Disconnects c' := by
  -- Whatever is done once the transport is given up leaves the states of sessions alone.
  have goes : ∀ {rest : ClientM Next}, does E (release s) c = does E rest (c.alter s disconnect) → IsMinor E rest →
      framesOf (does E rest (c.alter s disconnect)).1 = [.releaseReader s (c.sessionAt s).transport] →
      ∃ r c', does E (release s) c = (r, c') ∧ c'.Sound ∧ framesOf r = [.releaseReader s (c.sessionAt s).transport] ∧
        c.Changes s Session.Disconnects c' := by
    intro rest hx minor next
    have sound : (c.alter s disconnect).Sound :=
      hc.alter s (fun _ topic => by cases topic <;> rfl) (fun _ => rfl) fun _ => rfl
    obtain ⟨m, hc'⟩ := minor.minorAt _ sound
    refine ⟨_, _, hx, hc', next, ?_⟩
    refine (changes_disconnect c s).trans (m.still.changes s) ?_
    rintro x y z ⟨remains, transport, fewer⟩ stays
    refine ⟨remains.trans stays.remains, by rw [stays.transport, transport], fun idle => ?_⟩
    exact List.Subset.trans (stays.pending_subset (by rwa [remains.1])) (fewer idle)
  refine goes ((does_bind_of_ok (does_session s c) _).trans (does_bind_of_ok (does_onSession s disconnect c) _)) ?_ ?_
  · split
    · refine isMinor_get.bind fun _ => ?_
      split
      · exact isMinor_pure _
      · exact (isMinor_cancelPromise _).bind fun _ => isMinor_gather _ _
    · exact isMinor_pure _
  · split
    · rw [does_bind_of_ok (does_get _)]
      split
      · rfl
      · rfl
    · rfl

/-- Cancelling tasks always succeeds. -/
theorem does_cancelEach (tasks : List PromiseId) (c : Client) :
    ∃ c', does E (forIn tasks PUnit.unit fun task _ => do
      let _ ← cancelPromise task
      pure (ForInStep.yield PUnit.unit)) c = (.ok ⟨⟩, c') := by
  induction tasks generalizing c with
  | nil => exact ⟨c, rfl⟩
  | cons task tasks ih =>
    obtain ⟨c', hx⟩ := ih (does E (cancelPromise task) c).2
    refine ⟨c', ?_⟩
    rw [List.forIn_cons]
    exact hx

/-- Once its reader has ended, the answering tasks of a session are cancelled, and waited for. -/
theorem does_releaseReader (hc : c.Sound) (s : SessionId) (t : Option TransportId) (v : Value) :
    ∃ r c', does E (releaseReader s t (.ok v)) c = (r, c') ∧ c.Still IsRoot none c' ∧ c'.Sound ∧
      framesOf r = [.releaseAnswers s t] := by
  obtain ⟨tasks, rest, e, hrest⟩ : ∃ (tasks : List PromiseId) (rest : ClientM Next),
      does E (releaseReader s t (.ok v)) c = does E ((forIn tasks PUnit.unit fun task _ => do
          let _ ← cancelPromise task
          pure (ForInStep.yield PUnit.unit)) >>= fun _ => rest)
        (c.alter s fun x => { x with answering := x.answering.filter fun task => !tasks.contains task }) ∧
      (rest = pure (.become (.releaseAnswers s t)) ∨ rest = gather tasks (.releaseAnswers s t)) := by
    refine ⟨(c.sessionAt s).answering.filter fun task => c.running ≠ some task,
      if ((c.sessionAt s).answering.filter fun task => c.running ≠ some task).isEmpty then
        pure (.become (.releaseAnswers s t))
      else gather ((c.sessionAt s).answering.filter fun task => c.running ≠ some task) (.releaseAnswers s t), ?_, ?_⟩
    · rfl
    · split
      · exact .inl rfl
      · exact .inr rfl
  have left : c.Still IsRoot none
      (c.alter s fun x => { x with answering := x.answering.filter fun task => !tasks.contains task }) :=
    still_alter s ⟨rfl, rfl, rfl, Nat.le_refl _, fun _ hp => .inl hp⟩ rfl
  have sound : (c.alter s fun x => { x with answering := x.answering.filter fun task => !tasks.contains task }).Sound :=
    hc.alter s (fun _ topic => by cases topic <;> rfl) (fun _ => rfl) fun _ => rfl
  have cancels : IsMinor E (forIn tasks PUnit.unit fun task _ => do
      let _ ← cancelPromise task
      pure (ForInStep.yield PUnit.unit)) :=
    IsMinor.forIn (fun task _ _ => (isMinor_cancelPromise task).bind fun _ => isMinor_pure _) _
  obtain ⟨d, hd⟩ := does_cancelEach (E := E) tasks
    (c.alter s fun x => { x with answering := x.answering.filter fun task => !tasks.contains task })
  obtain ⟨m, hd'⟩ := cancels.of_ok sound hd
  rw [does_bind_of_ok hd] at e
  have waits : IsMinor E rest := by
    rcases hrest with rfl | rfl
    · exact isMinor_pure _
    · exact isMinor_gather _ _
  obtain ⟨m', hc'⟩ := waits.minorAt d hd'
  refine ⟨_, _, e, (left.trans m.still).trans m'.still, hc', ?_⟩
  rcases hrest with rfl | rfl
  · rfl
  · rfl

/-! ## Writing -/

/-- Whatever a session writes leaves its state alone, unless it answers a request. -/
theorem stillAt_writeText (hc : c.Sound) (but : Option SessionId) (s : SessionId) {purpose : Purpose}
    (other : purpose ≠ .answer) (text : Except Fault String) : StillAt E IsRoot but (writeText s purpose text) c := by
  unfold StillAt
  rcases does_writeText (E := E) s purpose text c with ⟨f, hx, _⟩ | ⟨x, t, _, _, hw⟩
  · rw [hx]
    exact ⟨Still.refl but c, hc⟩
  · obtain ⟨m, hc'⟩ := (isMinor_write (E := E) t x).minorAt _ (hc.record t (purpose, x))
    rw [hw]
    exact ⟨(still_record c t other).trans (m.near but).still, hc'⟩

/-- Sending a request begins it, whatever state the session is in. -/
theorem stillAt_sendUnchecked (hE : E.IsTame) (hc : c.Sound) (s : SessionId) {purpose : Purpose}
    (other : purpose ≠ .answer) (method : String) (params : Value) (timeout : Option Number) :
    StillAt E IsRoot (some s) (sendUnchecked s purpose method params timeout) c := by
  unfold StillAt
  obtain ⟨r, c', hx, hc', ⟨_, _, m⟩ | ⟨m, _⟩ | ⟨c₁, x, t, m, _, _, m'⟩⟩ :=
    sendUnchecked_spec hE hc s purpose method params timeout
  all_goals rw [hx]
  · exact ⟨(m.near _).still, hc'⟩
  · exact ⟨m.still, hc'⟩
  · exact ⟨(m.still.trans (still_record c₁ t other)).trans (m'.near _).still, hc'⟩

/-! ## Leaving -/

/-- A session that takes leave of its server sends its last request, and then waits for the answer. -/
theorem does_shutDown (hE : E.IsTame) (hc : c.Sound) (s : SessionId) :
    ∃ r c', does E (shutDown s) c = (r, c') ∧ c.Still IsRoot (some s) c' ∧ c'.Sound ∧
      (framesOf r = [] ∨ framesOf r = [.shutDownAnswered s]) := by
  have other : Purpose.shutdown ≠ .answer := by decide
  have sends := stillAt_sendUnchecked hE hc s other Session.shutdownMethod .null
    (c.sessionAt s).settings.shutdownTimeout
  have first := does_bind_of_ok (E := E) (does_session s c) fun x => do
    let handle ← sendUnchecked s .shutdown Session.shutdownMethod .null x.settings.shutdownTimeout
    return Next.await handle.promise (.shutDownAnswered s)
  obtain ⟨still, hc'⟩ := sends
  rcases hx : does E (sendUnchecked s .shutdown Session.shutdownMethod .null
      (c.sessionAt s).settings.shutdownTimeout) c with ⟨f | handle, c'⟩
  all_goals rw [hx] at still hc'
  · exact ⟨.error f, c', first.trans (does_bind_of_error hx _), still, hc', .inl rfl⟩
  · exact ⟨.ok (.await handle.promise (.shutDownAnswered s)), c', first.trans (does_bind_of_ok hx _), still, hc',
      .inr rfl⟩

theorem steadyAt_shutDownAnswered (hc : c.Sound) (s : SessionId) (o : Outcome) :
    SteadyAt E but none (shutDownAnswered s o) c := by
  have exits : ∀ name d, d.Sound → SteadyAt E but none (do
      catchTransport (writeText s .exit (Message.formatNotification Session.exitMethod)) fun f =>
        logSession s .debug ("Exit notification for " ++ name ++ " failed: " ++ f.message)
      return Next.done .null) d := by
    intro name d hd
    have writes : StillAt E IsRoot but (writeText s .exit (Message.formatNotification Session.exitMethod)) d :=
      stillAt_writeText hd but s (by decide) _
    have told := writes.catchTransport fun f =>
      isMinor_logSession s .debug ("Exit notification for " ++ name ++ " failed: " ++ f.message) [] none
    exact told.steady_bind fun _ d _ hd => steadyAt_pure hd nofun
  refine (isMinor_session s).steady_bind hc fun x d hd => ?_
  split
  · exact exits _ d hd
  · split
    · exact (isMinor_logSession s _ _ _ _).steady_bind hd fun _ d hd => exits _ d hd
    · exact (isMinor_throw _).steady_bind hd fun _ d hd => exits _ d hd

/-! ## Starting -/

/-- An attempt begins if the session may start. -/
theorem does_beginAttempt (hc : c.Sound) (s : SessionId) :
    (∃ f, does E (beginAttempt s) c = (.error f, c)) ∨
      ∃ c', does E (beginAttempt s) c = (.ok (.call (.release s) (.attemptReleased s)), c') ∧ c'.Sound ∧
        (c.Changes s (Session.Enters .starting) c' ∨ c.Still IsRoot none c') := by
  unfold beginAttempt
  rcases does_transition (E := E) s .starting c with ⟨_, f, hx⟩ | ⟨l, hl, hx⟩
  · exact .inl ⟨f, does_bind_of_error hx _⟩
  · refine .inr ⟨c.alter s (enter l), by rw [does_bind_of_ok hx, does_pure], hc.enter s l, ?_⟩
    by_cases inside : s < c.sessions.size
    · exact .inl (changes_enter inside hl (Still.refl _ _))
    · rw [alter_of_size_le c (Nat.le_of_not_lt inside)]
      exact .inr (Still.refl _ c)

/-- A new transport, on which nothing has been written, leaves sessions alone. -/
theorem stillAt_newTransport (hc : c.Sound) {x : Transport} (blank : x.attempts = []) :
    StillAt E A but (newTransport x) c := by
  have answers : ∀ t, (does E (newTransport x) c).2.answersOn t = c.answersOn t := by
    intro t
    unfold answersOn
    suffices same : (does E (newTransport x) c).2.attemptsOn t = c.attemptsOn t by rw [same]
    show ((c.transports.push x)[t]?.map (·.attempts)).getD [] = c.attemptsOn t
    rw [Array.getElem?_push]
    split
    · next e => rw [attemptsOn_of_size_le c (Nat.le_of_eq e.symm), Option.map_some, Option.getD_some, blank]
    · rfl
  have grows : c.transports.size ≤ (does E (newTransport x) c).2.transports.size := by
    show c.transports.size ≤ (c.transports.push x).size
    rw [Array.size_push]
    exact Nat.le_succ _
  exact ⟨⟨Loop.Moves.refl _, rfl, rfl, grows, fun _ => Session.Stays.refl _, fun _ => .refl _ _, answers⟩,
    hc.wf, hc.sessions, hc.alone, hc.registries⟩

/-- On the transport that settings select nothing has been written. -/
theorem attempts_of_transport {settings : Settings} {environment : List (String × Value)} {x : Transport}
    (h : settings.transport environment = .ok x) : x.attempts = [] := by
  unfold Settings.transport Transport.ofLaunch at h
  split at h
  · cases h
    rfl
  · split at h
    · cases h
    · cases h
      rfl

theorem makesAt_newTransport (hc : c.Sound) {x : Transport} (blank : x.attempts = []) :
    MakesAt E (newTransport x) c := by
  refine ⟨stillAt_newTransport hc blank, fun t e => ?_⟩
  cases e
  refine ⟨Nat.le_refl _, ?_⟩
  show c.transports.size < (c.transports.push x).size
  rw [Array.size_push]
  exact Nat.lt_succ_self _

theorem makesAt_throw (hc : c.Sound) (f : Fault) : MakesAt E (throw f) c :=
  ⟨stillAt_throw hc f, fun _ e => by cases e⟩

theorem makesAt_bind {α : Type} {x : ClientM α} {f : α → ClientM TransportId} (h : IsMinor E x) (hc : c.Sound)
    (hf : ∀ a d, d.Sound → MakesAt E (f a) d) : MakesAt E (x >>= f) c := by
  have still : StillAt E IsRoot none x c := (h.minorAt c hc).still none
  refine ⟨still.bind fun a d _ hd => (hf a d hd).still, fun t e => ?_⟩
  obtain ⟨grows, hd⟩ := still
  rw [does_bind] at e ⊢
  rcases hx : does E x c with ⟨r | a, d⟩
  all_goals rw [hx] at e grows hd
  · cases e
  · obtain ⟨new, made⟩ := (hf a d hd).makes t e
    exact ⟨Nat.le_trans grows.grows new, made⟩

theorem makesAt_makeTransport (hc : c.Sound) : MakesAt E makeTransport c := by
  unfold makeTransport
  refine makesAt_bind isMinor_get hc fun c' d hd => ?_
  split
  · next host _ _ =>
    have selected : ∀ d, d.Sound →
        MakesAt E (answerOf (host.settings.transport c'.environment) >>= newTransport) d := by
      intro d hd
      cases ht : host.settings.transport c'.environment with
      | error f => exact makesAt_throw hd f
      | ok x => exact makesAt_newTransport hd (attempts_of_transport ht)
    dsimp only
    split
    · exact makesAt_bind (isMinor_log .info .host _ [] none) hd fun _ d hd => selected d hd
    · exact selected d hd
  · extract_lets made
    have makes : MakesAt E (made ()) d := makesAt_newTransport hd rfl
    split
    · exact makesAt_throw hd _
    · exact makes

/-- A session with a transport. -/
def connectTo (t : TransportId) (x : Session) : Session :=
  { x with transport := some t }

/-- The old transport of a session is released: it has a new one, which is opened next, or the attempt fails. -/
theorem does_attemptReleased (hc : c.Sound) (s : SessionId) (v : Value) :
    SteadyAt E none (some s) (attemptReleased s (.ok v)) c ∨
      ∃ t c', does E (attemptReleased s (.ok v)) c = (.ok (.call (.openTransport t) (.attemptOpened s t)), c') ∧
        c'.Sound ∧ c.Changes s Session.Remains c' ∧ c.transports.size ≤ t ∧ t < c'.transports.size ∧
        (s < c.sessions.size → (c'.sessionAt s).transport = some t) := by
  obtain ⟨c₁, hl⟩ := does_logSession (E := E) s .info ("Starting session " ++ (c.sessionAt s).name) [] none c
  obtain ⟨m, hc₁⟩ := (isMinor_logSession s _ _ _ _).of_ok hc hl
  obtain ⟨⟨still, hc₂⟩, new⟩ := makesAt_makeTransport (E := E) hc₁
  rcases hx : does E makeTransport c₁ with ⟨r, c₂⟩
  rw [hx] at still hc₂ new
  have first : does E (attemptReleased s (.ok v)) c = does E (attempt makeTransport >>= attemptMade s) c₁ := by
    unfold attemptReleased
    rw [does_bind_of_ok (does_valueOf_ok v c), does_bind_of_ok (does_session s c), does_bind_of_ok hl]
  cases r with
  | error f =>
    left
    have made : StillAt E IsRoot none (attempt makeTransport) c₁ := by
      refine StillAt.attempt ?_
      unfold StillAt
      rw [hx]
      exact ⟨still, hc₂⟩
    have steady : SteadyAt E none (some s) (attempt makeTransport >>= attemptMade s) c₁ := by
      refine made.steady_bind fun r d hy hd => ?_
      cases r with
      | error f => exact (isCalm_attemptFault s f).steady hd
      | ok t =>
        -- There is no transport, so none is answered.
        unfold attempt at hy
        rw [does_tryCatch, does_bind_of_error hx] at hy
        dsimp only at hy
        split at hy <;> cases hy
    refine ⟨?_, ?_⟩
    · obtain ⟨still', hd⟩ := steady.still
      unfold StillAt
      rw [first]
      exact ⟨m.still.trans still', hd⟩
    · rw [first]
      exact steady.free
  | ok t =>
    obtain ⟨old, made⟩ := new t rfl
    refine .inr ⟨t, c₂.alter s (connectTo t), ?_, ?_, ?_, ?_, made, ?_⟩
    · rw [first, does_bind_of_ok (does_attempt_of_ok hx)]
      rfl
    · exact hc₂.alter s (fun _ topic => by cases topic <;> rfl) (fun _ => rfl) fun _ => rfl
    · have before : c.Changes s Session.Remains c₂ :=
        ((m.still.trans still).changes s).weaken fun _ _ stays => stays.remains
      by_cases inside : s < c₂.sessions.size
      · have connects : c₂.Changes s Session.Remains (c₂.alter s (connectTo t)) :=
          changes_alter inside ⟨id, rfl, Nat.le_refl _, fun _ hp => .inl hp⟩ rfl ⟨rfl, rfl⟩
        exact before.trans connects fun _ _ _ remains remains' => remains.trans remains'
      · rw [alter_of_size_le c₂ (Nat.le_of_not_lt inside)]
        exact before
    · rw [← m.transports]
      exact old
    · intro inside
      rw [sessionAt_alter_self c₂ (by rw [still.count, m.count]; exact inside)]
      rfl

/-- The first request of a session is sent, and its answer is waited for. -/
theorem steadyAt_greeting (hE : E.IsTame) (hc : c.Sound) (s : SessionId) (t : TransportId) (params : Value)
    (timeout : Option Number) : SteadyAt E (some s) (some s) (do
      attemptSent s t (← attempt (sendUnchecked s .handshake Session.initializeMethod params timeout))) c := by
  refine (stillAt_sendUnchecked hE hc s (by decide) _ _ _).attempt.steady_bind fun r d _ hd => ?_
  cases r with
  | error f => exact (isCalm_attemptFault s f).steady hd
  | ok handle => exact steadyAt_pure hd fun b hb => by cases List.mem_singleton.1 hb; exact ⟨rfl, rfl, rfl, .inr rfl⟩

/-- The transport of a session is open. If it is still its transport, the session reads from it, and
the first request is sent. -/
theorem does_attemptOpened (hE : E.IsTame) (hc : c.Sound) (s : SessionId) (t : TransportId) (o : Outcome) :
    SteadyAt E none (some s) (attemptOpened s t o) c ∨
      (c.sessionAt s).transport = some t ∧ ∃ r c', does E (attemptOpened s t o) c = (r, c') ∧
        c.Still (c.Begins (.attemptOpened s t)) (some s) c' ∧ c'.Sound ∧ ∀ b ∈ framesOf r, b.IsFree (some s) := by
  cases o with
  | error f => exact .inl ((isCalm_attemptFault s f).steady hc)
  | ok v =>
    by_cases ht : (c.sessionAt s).transport = some t
    · refine .inr ⟨ht, ?_⟩
      -- Reading begins first; whatever follows begins nothing but what may begin at any time.
      obtain ⟨reader, c₁, h₁⟩ : ∃ reader c₁, does E (spawn (.readLoop s t)) c = (.ok reader, c₁) := ⟨_, _, rfl⟩
      have spawned : StillAt E (c.Begins (.attemptOpened s t)) (some s) (spawn (.readLoop s t)) c :=
        stillAt_spawn hc (.reader ht)
      obtain ⟨still₁, hc₁⟩ := spawned
      rw [h₁] at still₁ hc₁
      have still₂ : c₁.Still IsRoot (some s) (c₁.alter s fun x => { x with reader := some reader }) :=
        (still_alter s ⟨rfl, rfl, rfl, Nat.le_refl _, fun _ hp => .inl hp⟩ rfl).weaken _
      have hc₂ : (c₁.alter s fun x => { x with reader := some reader }).Sound :=
        hc₁.alter s (fun _ topic => by cases topic <;> rfl) (fun _ => rfl) fun _ => rfl
      obtain ⟨r, c', hx, still, hc', free⟩ := (steadyAt_greeting hE hc₂ s t _ _).parts
      refine ⟨r, c', ?_, still₁.trans ((still₂.trans still).mono fun b root => .root root), hc', free⟩
      refine (does_bind_of_ok (does_session s c) _).trans ?_
      rw [if_neg (by simp [ht]), does_bind_of_ok h₁, does_bind_of_ok (does_onSession s _ c₁)]
      exact hx
    · left
      refine steadyAt_bind_of_ok (does_session s c) ?_
      rw [if_pos ht]
      exact steadyAt_pure hc (isFree_call (Activity.IsRoot.free ⟨rfl, rfl⟩ _) ⟨rfl, rfl, rfl, .inr rfl⟩ c)

/-- A session whose failures are forgotten. -/
def renew (x : Session) : Session :=
  { x with policy := x.policy.reset, failureNotified := false }

/-- A session that starts begins to run. -/
theorem does_beginRunning (hE : E.IsTame) (hc : c.Sound) {s : SessionId} (starting : (c.sessionAt s).state = .starting)
    (able : Value) :
    ∃ r c', does E (beginRunning s able) c = (r, c') ∧ c'.Sound ∧ framesOf r = [] ∧ c.Changes s Session.Runs c' := by
  have capable : IsMinor E (onSession s fun x => { x with capabilities := able }) :=
    isMinor_onSession_of_alike (fun _ => ⟨rfl, rfl, rfl, rfl, rfl, rfl, rfl, Nat.le_refl _⟩) fun _ topic => by
      cases topic <;> rfl
  obtain ⟨c₁, h₁⟩ : ∃ c₁, does E (onSession s fun x => { x with capabilities := able }) c = (.ok ⟨⟩, c₁) := ⟨_, rfl⟩
  obtain ⟨m₁, hc₁⟩ := capable.of_ok hc h₁
  rcases does_transition (E := E) s .running c₁ with ⟨never, _⟩ | ⟨l, hl, h₂⟩
  · rw [(m₁.sessions s).state, starting] at never
    cases never
  · have inside := lt_size_of_transition hl (by decide)
    have enters : c₁.Changes s (fun x x' => x.Enters .running x' ∧ x'.policy = x.policy) (c₁.alter s (enter l)) := by
      have moved := changes_enter inside hl (Still.refl none _)
      exact { moved with session := ⟨moved.session, by rw [sessionAt_alter_self c₁ inside]; rfl⟩ }
    have renewed : (c₁.alter s (enter l)).Changes s
        (fun x x' => x'.state = x.state ∧ x'.transport = x.transport ∧ x'.streak = (x.policy.reset, false))
        ((c₁.alter s (enter l)).alter s renew) :=
      changes_alter (by simpa [alter] using inside) ⟨id, rfl, Nat.le_refl _, fun _ hp => .inl hp⟩ rfl ⟨rfl, rfl, rfl⟩
    have runs : c₁.Changes s Session.Runs ((c₁.alter s (enter l)).alter s renew) := by
      refine enters.trans renewed ?_
      rintro x y z ⟨enters, policy⟩ ⟨state, transport, streak⟩
      refine ⟨⟨enters.may, by rw [state, enters.state], by rw [transport, enters.transport], fun other => absurd rfl other⟩, ?_⟩
      rw [streak, policy]
    -- The session remembers nothing of what follows.
    have rest : IsCalm E Next.Ends (do
        logSession s .info ("Session " ++ (← session s).name ++ " running")
        dispatchEvent s Session.startedEvent .none
        return .done .null) :=
      (isMinor_session s).calm fun _ => (isMinor_logSession s _ _ _ _).calm fun _ =>
        (isMinor_dispatchEvent hE s _ _).calm fun _ => isCalm_pure fun _ => rfl
    have calm := rest.calmAt ((c₁.alter s (enter l)).alter s renew)
      ((hc₁.enter s l).alter s (fun _ topic => by cases topic <;> rfl) (fun _ => rfl) fun _ => rfl)
    have h₃ : does E (onSession s fun x => { x with policy := x.policy.reset, failureNotified := false })
        (c₁.alter s (enter l)) = (.ok ⟨⟩, (c₁.alter s (enter l)).alter s renew) := rfl
    refine ⟨_, _, ?_, calm.minor.2, calm.ends, ?_⟩
    · unfold beginRunning
      rw [does_bind_of_ok h₁, does_bind_of_ok h₂, does_bind_of_ok h₃]
    · refine ((m₁.still.changes s).trans runs fun _ _ _ stays runs => stays.runs runs).trans
        (calm.minor.1.still.changes s) ?_
      rintro x y z ⟨enters, streak⟩ stays
      exact ⟨enters.stays stays, by rw [stays.streak, streak]⟩

/-- The first request is answered: the session runs, unless it does not start any more. -/
theorem does_attemptAnswered (hE : E.IsTame) (hc : c.Sound) (s : SessionId) (o : Outcome) :
    SteadyAt E none (some s) (attemptAnswered s o) c ∨
      ∃ r c', does E (attemptAnswered s o) c = (r, c') ∧ c'.Sound ∧ framesOf r = [] ∧
        c.Changes s Session.Runs c' := by
  cases o with
  | error f => exact .inl ((isCalm_attemptFault s f).steady hc)
  | ok v =>
    have writes : StillAt E IsRoot none (writeText s .initialized
        (Message.formatNotification Session.initializedMethod (.object []))) c :=
      stillAt_writeText hc none s (by decide) _
    have told := writes.attempt
    by_cases able : ∃ d, does E (attempt (writeText s .initialized
        (Message.formatNotification Session.initializedMethod (.object [])))) c = (.ok (.ok ()), d) ∧
        (d.sessionAt s).state = .starting
    · obtain ⟨d, hx, starting⟩ := able
      obtain ⟨m, hd⟩ := told
      rw [hx] at m hd
      obtain ⟨r, c', hr, hc', ends, runs⟩ := does_beginRunning hE hd starting (capabilitiesOf v)
      refine .inr ⟨r, c', ?_, hc', ends, (m.changes s).trans runs fun _ _ _ stays runs => stays.runs runs⟩
      refine (does_bind_of_ok hx _).trans ?_
      unfold attemptTold
      rw [does_bind_of_ok (does_session s d), if_neg (by simp [starting]), hr]
    · left
      refine told.steady_bind fun r d hx hd => ?_
      cases r with
      | error f => exact (isCalm_attemptFault s f).steady hd
      | ok u =>
        refine steadyAt_bind_of_ok (does_session s d) ?_
        rw [if_pos fun starting => able ⟨d, hx, starting⟩]
        exact steadyAt_throw hd _

end Client

end LspClient
