/-
What users write while an activity goes on. Most operations leave sessions in their states with their transports, and
write messages of users only, those of sessions that run. Where sessions change, users write before that and after it.
-/
import LspClient.Proofs.Client.Attended

namespace LspClient

open Client

/-! ## Definitions -/

namespace Client

/-- Sessions go on in their states with their transports, and write messages of users only. -/
structure Chats (c c' : Client) : Prop where
  state : ∀ s, (c'.sessionAt s).state = (c.sessionAt s).state
  transport : ∀ s, (c'.sessionAt s).transport = (c.sessionAt s).transport
  grows : c.transports.size ≤ c'.transports.size
  writes : ∀ t, ∃ us, c'.attemptsOn t = c.attemptsOn t ++ us ∧ ∀ m ∈ us, c.IsUse t m

/-- Whatever becomes of sessions, nothing is written but messages of users, before it and after it. -/
def ChatsOn (c c' : Client) : Prop :=
  ∃ d e : Client, c.Chats d ∧ d.transports.size ≤ e.transports.size ∧ (∀ t, e.attemptsOn t = d.attemptsOn t) ∧
    e.Chats c'

end Client

variable {E : Executor} {α β : Type} {s : SessionId} {t : TransportId} {a : Activity} {o : Outcome} {c c' c'' : Client}

/-- An operation on whose way users write, while sessions go on as they are. -/
structure IsChatty (E : Executor) (op : ClientM α) : Prop where
  chats : ∀ {c : Client}, c.Sound → c.Chats (does E op c).2
  sound : ∀ {c : Client}, c.Sound → (does E op c).2.Sound

/-! ## Going on -/

namespace Client

theorem Chats.refl (c : Client) : c.Chats c :=
  ⟨fun _ => rfl, fun _ => rfl, Nat.le_refl _, fun _ => ⟨[], (List.append_nil _).symm, by simp⟩⟩

/-- What users may write depends on the states of sessions and their transports only. -/
theorem IsUse.of_chats (h : c.Chats c') {m : Purpose × String} (use : c'.IsUse t m) : c.IsUse t m := by
  obtain ⟨user, fits, s, running, connected⟩ := use
  exact ⟨user, fits, s, by rw [← h.state, running], by rw [← h.transport, connected]⟩

theorem Chats.trans (h : c.Chats c') (h' : c'.Chats c'') : c.Chats c'' where
  state s := (h'.state s).trans (h.state s)
  transport s := (h'.transport s).trans (h.transport s)
  grows := Nat.le_trans h.grows h'.grows
  writes t := by
    obtain ⟨us, e, hus⟩ := h.writes t
    obtain ⟨vs, e', hvs⟩ := h'.writes t
    refine ⟨us ++ vs, by rw [e', e, List.append_assoc], fun m hm => ?_⟩
    rcases List.mem_append.1 hm with hm | hm
    · exact hus m hm
    · exact .of_chats h (hvs m hm)

theorem Near.chats {but : Option SessionId} (h : c.Near but c') : c.Chats c' :=
  ⟨fun s => (h.sessions s).state, fun s => (h.sessions s).transport, Nat.le_of_eq h.transports.symm, h.attempts⟩

/-- Sessions go on as they are, and nothing is written. -/
theorem chats_of_eq (state : ∀ s, (c'.sessionAt s).state = (c.sessionAt s).state)
    (transport : ∀ s, (c'.sessionAt s).transport = (c.sessionAt s).transport)
    (grows : c.transports.size ≤ c'.transports.size) (same : ∀ t, c'.attemptsOn t = c.attemptsOn t) : c.Chats c' :=
  ⟨state, transport, grows, fun t => ⟨[], by rw [same, List.append_nil], by simp⟩⟩

/-- A change of a session besides its state and its transport. -/
theorem chats_alter (c : Client) (s : SessionId) {f : Session → Session} (state : ∀ x, (f x).state = x.state)
    (transport : ∀ x, (f x).transport = x.transport) : c.Chats (c.alter s f) := by
  have both : ∀ x, ((c.alter s f).sessionAt x).state = (c.sessionAt x).state ∧
      ((c.alter s f).sessionAt x).transport = (c.sessionAt x).transport := by
    intro x
    rcases sessionAt_alter c s x f with e | ⟨_, _, e⟩
    · rw [e]
      exact ⟨rfl, rfl⟩
    · rw [e]
      exact ⟨state _, transport _⟩
  exact chats_of_eq (fun x => (both x).1) (fun x => (both x).2) (Nat.le_refl _) fun _ => rfl

theorem Chats.chatsOn (h : c.Chats c') : c.ChatsOn c' :=
  ⟨c', c', h, Nat.le_refl _, fun _ => rfl, .refl c'⟩

/-- Users may write before sessions change. -/
theorem Chats.trans_chatsOn (h : c.Chats c') (h' : c'.ChatsOn c'') : c.ChatsOn c'' := by
  obtain ⟨d, e, first, more, same, last⟩ := h'
  exact ⟨d, e, h.trans first, more, same, last⟩

/-- A session changes, whatever it becomes, and then users write. -/
theorem chatsOn_alter {f : Session → Session} (h : (c.alter s f).Chats c') : c.ChatsOn c' :=
  ⟨c, c.alter s f, .refl c, Nat.le_refl _, fun _ => rfl, h⟩

end Client

/-! ## Putting operations together -/

section

theorem IsMinor.chatty {op : ClientM α} (h : IsMinor E op) : IsChatty E op :=
  ⟨fun hc => (h.minorAt _ hc).1.chats, fun hc => (h.minorAt _ hc).2⟩

theorem IsCalm.chatty {Q : α → Client → Prop} {op : ClientM α} (h : IsCalm E Q op) : IsChatty E op :=
  ⟨fun hc => (h.calmAt _ hc).minor.1.chats, fun hc => (h.calmAt _ hc).minor.2⟩

theorem isChatty_pure (a : α) : IsChatty E (pure a) :=
  (isMinor_pure a).chatty

theorem isChatty_throw (f : Fault) : IsChatty E (throw f : ClientM α) :=
  (isMinor_throw f).chatty

theorem IsChatty.bind {x : ClientM α} {f : α → ClientM β} (h : IsChatty E x) (hf : ∀ a, IsChatty E (f a)) :
    IsChatty E (x >>= f) := by
  have both : ∀ c, c.Sound → c.Chats (does E (x >>= f) c).2 ∧ (does E (x >>= f) c).2.Sound := by
    intro c hc
    have m := h.chats hc
    have s := h.sound hc
    rw [does_bind]
    rcases hx : does E x c with ⟨e | a, d⟩
    all_goals rw [hx] at m s
    · exact ⟨m, s⟩
    · exact ⟨m.trans ((hf a).chats s), (hf a).sound s⟩
  exact ⟨fun hc => (both _ hc).1, fun hc => (both _ hc).2⟩

theorem IsChatty.tryCatch {x : ClientM α} {f : Fault → ClientM α} (h : IsChatty E x) (hf : ∀ e, IsChatty E (f e)) :
    IsChatty E (tryCatch x f) := by
  have both : ∀ c, c.Sound → c.Chats (does E (MonadExcept.tryCatch x f) c).2 ∧
      (does E (MonadExcept.tryCatch x f) c).2.Sound := by
    intro c hc
    have m := h.chats hc
    have s := h.sound hc
    rw [does_tryCatch]
    rcases hx : does E x c with ⟨e | a, d⟩
    all_goals rw [hx] at m s
    · exact ⟨m.trans ((hf e).chats s), (hf e).sound s⟩
    · exact ⟨m, s⟩
  exact ⟨fun hc => (both _ hc).1, fun hc => (both _ hc).2⟩

theorem IsChatty.attempt {x : ClientM α} (h : IsChatty E x) : IsChatty E (Client.attempt x) := by
  refine (h.bind fun a => isChatty_pure _).tryCatch fun f => ?_
  split
  · exact isChatty_throw f
  · exact isChatty_pure _

/-- Users may write on the way before sessions change. -/
theorem IsChatty.chatsOn_bind {x : ClientM α} {f : α → ClientM β} (h : IsChatty E x) (hc : c.Sound)
    (hf : ∀ a (d : Client), d.Sound → d.ChatsOn (does E (f a) d).2) : c.ChatsOn (does E (x >>= f) c).2 := by
  have m := h.chats hc
  have s := h.sound hc
  rw [does_bind]
  rcases hx : does E x c with ⟨e | a, d⟩
  all_goals rw [hx] at m s
  · exact m.chatsOn
  · exact m.trans_chatsOn (hf a d s)

end

namespace Client

/-! ## Changes of sessions -/

/-- A change of a session besides its state, its transport, its handlers and its requests. -/
theorem isChatty_onSession (s : SessionId) {f : Session → Session} (state : ∀ x, (f x).state = x.state)
    (transport : ∀ x, (f x).transport = x.transport) (routers : ∀ x topic, (f x).router topic = x.router topic)
    (registry : ∀ x, (f x).registry = x.registry) (nextId : ∀ x, (f x).nextId = x.nextId) :
    IsChatty E (onSession s f) :=
  ⟨fun _ => chats_alter _ s state transport, fun hc => hc.alter s routers registry nextId⟩

theorem isChatty_spawn (a : Activity) : IsChatty E (spawn a) := by
  refine ⟨fun _ => chats_of_eq (fun _ => rfl) (fun _ => rfl) (Nat.le_refl _) fun _ => rfl, fun hc => ?_⟩
  have spawned : StillAt E (fun _ => True) none (spawn a) _ := stillAt_spawn hc trivial
  exact spawned.2

/-- A session changes, whatever it becomes, and then users write. -/
theorem chatsOn_onSession_bind {f : Session → Session} (sound : (c.alter s f).Sound) {g : Unit → ClientM β}
    (h : IsChatty E (g ())) : c.ChatsOn (does E (onSession s f >>= g) c).2 := by
  rw [does_bind_of_ok (does_onSession s f c)]
  exact chatsOn_alter (h.chats sound)

/-- A session moves to another state, if it may, and then users write. -/
theorem chatsOn_transition (hc : c.Sound) (s : SessionId) (target : SessionState) {f : Unit → ClientM β}
    (hf : IsChatty E (f ())) : c.ChatsOn (does E (transition s target >>= f) c).2 := by
  rcases does_transition (E := E) s target c with ⟨_, e, hx⟩ | ⟨l, _, hx⟩
  · rw [does_bind_of_error hx]
    exact (Chats.refl c).chatsOn
  · rw [does_bind_of_ok hx]
    exact chatsOn_alter (hf.chats (hc.enter s l))

/-- What begins does so with a value only. -/
theorem chatsOn_beginning {next : ClientM Next} (h : c.ChatsOn (does E next c).2) (o : Outcome) :
    c.ChatsOn (does E (beginning o next) c).2 := by
  cases o with
  | ok v => exact h
  | error f => exact (Chats.refl c).chatsOn

theorem isChatty_beginning {next : ClientM Next} (h : IsChatty E next) (o : Outcome) :
    IsChatty E (beginning o next) :=
  (isMinor_valueOf o).chatty.bind fun _ => h

/-! ## Losing a connection -/

/-- What the policy has decided on follows. -/
theorem isChatty_decided (hE : E.IsTame) (s : SessionId) (x : Session) (d : FailureDecision) (f : Fault)
    (autoRestart : Bool) : IsChatty E (do
      emitTelemetry s (← recordOf Telemetry.transportFailureEvent
        [("session", .str x.name), ("errorType", .str "TransportError"),
          ("attempt", .int d.attempt), ("error", .str f.message)])
      if d.restart then
        if !autoRestart then return
        if !(← session s).failureNotified then
          onSession s fun x => { x with failureNotified := true }
          tell s x.crashMessage
        logSession s .info ("Restarting session " ++ x.name ++ " in "
          ++ Decimal.fixed 1 d.delay.toFloat ++ "s (failure " ++ toString d.attempt
          ++ " of " ++ d.threshold.wholeText ++ ")")
        let task ← spawn (.restart s d.delay)
        onSession s fun x => { x with restarting := some task }
      else
        logSession s .error ("Session " ++ x.name ++ " failed " ++ toString d.attempt
          ++ " consecutive times, giving up")
        emitTelemetry s (← recordOf Telemetry.restartThresholdEvent
          [("session", .str x.name), ("attempts", .int d.attempt),
            ("threshold", d.threshold.toValue), ("error", .str f.message)])
        tell s (x.givenUpMessage d.attempt)
        dispatchEvent s Session.fatalEvent (.fault f)) := by
  refine (isMinor_recordOf _ _).chatty.bind fun _ => (isMinor_emitTelemetry hE s _).chatty.bind fun _ => ?_
  split
  · split
    · exact isChatty_pure _
    · refine (isMinor_session s).chatty.bind fun _ => ?_
      extract_lets restarts
      have again : IsChatty E (restarts ⟨⟩) :=
        (isMinor_logSession s _ _ _ _).chatty.bind fun _ => (isChatty_spawn _).bind fun _ =>
          isChatty_onSession s (fun _ => rfl) (fun _ => rfl) (fun _ topic => by cases topic <;> rfl) (fun _ => rfl)
            fun _ => rfl
      split
      · exact .bind (isChatty_onSession s (fun _ => rfl) (fun _ => rfl) (fun _ topic => by cases topic <;> rfl)
          (fun _ => rfl) fun _ => rfl) fun _ => (isMinor_tell s _).chatty.bind fun _ => again
      · exact again
  · exact ((isMinor_logSession s _ _ _ _).bind fun _ => (isMinor_recordOf _ _).bind fun _ =>
      (isMinor_emitTelemetry hE s _).bind fun _ => (isMinor_tell s _).bind fun _ =>
        isMinor_dispatchEvent hE s _ _).chatty

theorem isChatty_applyPolicy (hE : E.IsTame) (s : SessionId) (f : Fault) (autoRestart : Bool) :
    IsChatty E (applyPolicy s f autoRestart) := by
  unfold applyPolicy
  refine .bind (isChatty_onSession s (fun _ => rfl) (fun _ => rfl) (fun _ topic => by cases topic <;> rfl)
    (fun _ => rfl) fun _ => rfl) fun _ => (isMinor_session s).chatty.bind fun x => ?_
  extract_lets follows
  split
  · exact (isChatty_pure _).bind fun d => isChatty_decided hE s x d f autoRestart
  · exact isChatty_throw _

theorem isChatty_lostFailed (hE : E.IsTame) (s : SessionId) (f : Fault) (o : Outcome) :
    IsChatty E (lostFailed s f o) :=
  (isMinor_valueOf o).chatty.bind fun _ => (isChatty_applyPolicy hE s f true).bind fun _ => isChatty_pure _

theorem isChatty_restartTried (hE : E.IsTame) (s : SessionId) (o : Outcome) : IsChatty E (restartTried s o) := by
  unfold restartTried
  split
  · exact isChatty_pure _
  · split
    · exact isChatty_pure _
    · split
      · refine (isMinor_session s).chatty.bind fun _ => ?_
        split
        · exact (isChatty_applyPolicy hE s _ true).bind fun _ => isChatty_pure _
        · exact isChatty_pure _
      · exact isChatty_throw _

theorem isChatty_started (hE : E.IsTame) (s : SessionId) (o : Outcome) : IsChatty E (started s o) := by
  unfold started
  split
  · exact (isMinor_sendStartup s _ _).chatty.bind fun _ => (isCalm_done_stateName s).chatty
  · split
    · exact (isCalm_done_stateName s).chatty
    · split
      · exact (isMinor_sendStartup s _ _).chatty.bind fun _ => (isChatty_applyPolicy hE s _ false).bind fun _ =>
          isChatty_throw _
      · exact isChatty_throw _

/-! ## Reading -/

theorem isChatty_handleRequest (s : SessionId) (id : RequestId) (method : String) (params : Value) :
    IsChatty E (handleRequest s id method params) := by
  refine (isChatty_spawn _).bind fun task => .bind (isChatty_onSession s (fun _ => rfl) (fun _ => rfl)
    (fun _ topic => by cases topic <;> rfl) (fun _ => rfl) fun _ => rfl) fun _ => ?_
  have hears : notices.hears task (.answerEnded s task) := rfl
  exact (isMinor_observe_notify hears).chatty

theorem isChatty_handleMessage (hE : E.IsTame) (s : SessionId) (m : Except Fault Message) :
    IsChatty E (handleMessage s m) := by
  unfold handleMessage
  split
  · split
    · exact (isMinor_rejectBadMessage hE s _).chatty
    · exact isChatty_throw _
  · exact (isMinor_handleResponse hE s _ _).chatty
  · exact (isMinor_handleResponse hE s _ _).chatty
  · exact isChatty_handleRequest s _ _ _
  · exact (isMinor_handleNotification hE s _ _).chatty

theorem isChatty_readLoopReceived (hE : E.IsTame) (s : SessionId) (t : TransportId) (o : Outcome) :
    IsChatty E (readLoopReceived s t o) := by
  have loses : ∀ f, IsChatty E (connectionLost s t f) := fun f => (isCalm_connectionLost s t f).chatty
  have handles : ∀ body, IsChatty E (handleBody s body) := fun body =>
    (isMinor_session s).chatty.bind fun _ => isChatty_handleMessage hE s _
  unfold readLoopReceived
  split
  · refine (handles _).attempt.bind fun handled => ?_
    cases handled with
    | ok u => exact isChatty_pure _
    | error f =>
      simp only [bodyHandled]
      split
      · exact loses f
      · exact isChatty_throw f
  · exact loses _
  · split
    · exact (isMinor_rejectBadMessage hE s _).chatty.bind fun _ => isChatty_pure _
    · split
      · exact loses _
      · exact isChatty_throw _

/-! ## Stopping and failing -/

theorem isChatty_stopRelease (s : SessionId) (clear : Bool) (f : Option Fault) : IsChatty E (stopRelease s clear f) :=
  (isMinor_session s).chatty.bind fun _ => (isMinor_rejectAll _ _).chatty.bind fun _ => isChatty_pure _

theorem chatsOn_stop (hc : c.Sound) (s : SessionId) (clear : Bool) : c.ChatsOn (does E (stop s clear) c).2 := by
  refine (isMinor_session s).chatty.chatsOn_bind hc fun x d hd => ?_
  have goes : ∀ {next : ClientM Next}, IsChatty E next → d.ChatsOn (does E (do
      cancelRestart s
      transition s .stopping
      logSession s .info ("Stopping session " ++ (← session s).name)
      next) d).2 := by
    intro next h
    exact (isMinor_cancelRestart s).chatty.chatsOn_bind hd fun _ e he => chatsOn_transition he s .stopping
      ((isMinor_session s).chatty.bind fun _ => (isMinor_logSession s _ _ _ _).chatty.bind fun _ => h)
  cases x.state with
  | stopping => exact ((isCalm_done_stateName s).chatty.chats hd).chatsOn
  | stopped =>
    refine (IsChatty.chats ?_ hd).chatsOn
    exact (isMinor_clearNotifications s clear).chatty.bind fun _ => (isCalm_done_stateName s).chatty
  | starting => exact goes (isChatty_stopRelease s clear none)
  | failed => exact goes (isChatty_stopRelease s clear none)
  | running => exact goes (isChatty_pure _)

theorem chatsOn_stopReleased (hE : E.IsTame) (hc : c.Sound) (s : SessionId) (clear : Bool) (f : Option Fault)
    (o : Outcome) : c.ChatsOn (does E (stopReleased s clear f o) c).2 := by
  refine (isMinor_valueOf o).chatty.chatsOn_bind hc fun _ d hd => chatsOn_transition hd s .stopped ?_
  refine (isMinor_clearNotifications s clear).chatty.bind fun _ => ?_
  cases f with
  | some f => exact isChatty_throw f
  | none =>
    exact (isMinor_session s).chatty.bind fun _ => (isMinor_logSession s _ _ _ _).chatty.bind fun _ =>
      (isMinor_dispatchEvent hE s _ _).chatty.bind fun _ => (isCalm_done_stateName s).chatty

theorem chatsOn_fail (hc : c.Sound) (s : SessionId) (f : Fault) : c.ChatsOn (does E (fail s f) c).2 :=
  chatsOn_transition hc s .failed ((isMinor_session s).chatty.bind fun _ =>
    (isMinor_rejectAll _ _).chatty.bind fun _ => isChatty_pure _)

/-! ## Releasing -/

theorem chatsOn_release (hc : c.Sound) (s : SessionId) : c.ChatsOn (does E (release s) c).2 := by
  have sound : (c.alter s disconnect).Sound :=
    hc.alter s (fun _ topic => by cases topic <;> rfl) (fun _ => rfl) fun _ => rfl
  unfold release
  rw [does_bind_of_ok (does_session s c)]
  refine chatsOn_onSession_bind sound (IsMinor.chatty ?_)
  split
  · refine isMinor_get.bind fun _ => ?_
    split
    · exact isMinor_pure _
    · exact (isMinor_cancelPromise _).bind fun _ => isMinor_gather _ _
  · exact isMinor_pure _

theorem isChatty_releaseReader (s : SessionId) (t : Option TransportId) (o : Outcome) :
    IsChatty E (releaseReader s t o) := by
  refine (isMinor_valueOf o).chatty.bind fun _ => isMinor_get.chatty.bind fun _ =>
    (isMinor_session s).chatty.bind fun _ => .bind (isChatty_onSession s (fun _ => rfl) (fun _ => rfl)
      (fun _ topic => by cases topic <;> rfl) (fun _ => rfl) fun _ => rfl) fun _ => IsMinor.chatty ?_
  refine (IsMinor.forIn (fun task _ _ => (isMinor_cancelPromise task).bind fun _ => isMinor_pure _) _).bind fun _ => ?_
  split
  · exact isMinor_pure _
  · exact isMinor_gather _ _

/-! ## Starting -/

theorem isChatty_newTransport {x : Transport} (blank : x.attempts = []) : IsChatty E (newTransport x) := by
  refine ⟨fun {c} hc => ?_, fun hc => ?_⟩
  · refine chats_of_eq (fun _ => rfl) (fun _ => rfl) ?_ fun t => ?_
    · show c.transports.size ≤ (c.transports.push x).size
      rw [Array.size_push]
      exact Nat.le_succ _
    · show ((c.transports.push x)[t]?.map (·.attempts)).getD [] = c.attemptsOn t
      rw [Array.getElem?_push]
      split
      · next e => rw [attemptsOn_of_size_le c (Nat.le_of_eq e.symm), Option.map_some, Option.getD_some, blank]
      · rfl
  · exact ⟨hc.wf, hc.sessions, hc.alone, hc.registries⟩

theorem isChatty_makeTransport : IsChatty E makeTransport := by
  refine isMinor_get.chatty.bind fun c => ?_
  split
  · next host _ _ =>
    have selected : IsChatty E (answerOf (host.settings.transport c.environment) >>= newTransport) := by
      cases ht : host.settings.transport c.environment with
      | error f => exact isChatty_throw f
      | ok x =>
        show IsChatty E (newTransport x)
        exact isChatty_newTransport (attempts_of_transport ht)
    dsimp only
    split
    · exact (isMinor_log .info .host _ [] none).chatty.bind fun _ => selected
    · exact selected
  · extract_lets made
    have makes : IsChatty E (made ()) := isChatty_newTransport rfl
    split
    · exact isChatty_throw _
    · exact makes

theorem chatsOn_attemptReleased (hc : c.Sound) (s : SessionId) (o : Outcome) :
    c.ChatsOn (does E (attemptReleased s o) c).2 := by
  refine (isMinor_valueOf o).chatty.chatsOn_bind hc fun _ d hd => (isMinor_session s).chatty.chatsOn_bind hd
    fun _ d hd => (isMinor_logSession s _ _ _ _).chatty.chatsOn_bind hd fun _ d hd =>
      isChatty_makeTransport.attempt.chatsOn_bind hd fun made d hd => ?_
  cases made with
  | error f => exact ((isCalm_attemptFault s f).chatty.chats hd).chatsOn
  | ok t => exact chatsOn_alter (f := connectTo t) (Chats.refl _)

end Client

end LspClient
