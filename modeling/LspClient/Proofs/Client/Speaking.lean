/-
What is written when an activity goes on: messages of users of sessions that run, and one more message at most, which
is for the activity to write, on the transport of its session.
-/
import LspClient.Proofs.Client.Chatting

namespace LspClient

open Client

/-! ## Definitions -/

/-- What an activity that goes on with an outcome may write besides messages of users: for which session, on which
transport, and what for. -/
inductive Activity.MaySay : Activity → Outcome → SessionId → TransportId → Purpose → Prop
  | handshake {s : SessionId} {t : TransportId} {v : Value} : MaySay (.attemptOpened s t) (.ok v) s t .handshake
  | initialized {s : SessionId} {t u : TransportId} {v : Value} : MaySay (.attemptAnswered s u) (.ok v) s t .initialized
  | shutdown {s : SessionId} {t : TransportId} {o : Outcome} : MaySay (.shutDown s) o s t .shutdown
  | exit {s : SessionId} {t : TransportId} {o : Outcome} : MaySay (.shutDownAnswered s) o s t .exit
  | answer {a : Activity} {s : SessionId} {id : RequestId} {t : TransportId} {o : Outcome}
    (request : a.answers = some (s, id)) : MaySay a o s t .answer

/-- A session whose first request cannot be sent: its time has no double near it, or the request has no text. -/
def Session.CannotGreet (x : Session) : Prop :=
  (∃ n e, x.settings.initializeTimeout = some n ∧ n.widen = .error e) ∨
    ∃ f, Message.formatRequest (.int x.nextId) Session.initializeMethod x.settings.initializeParams = .error f

namespace Client

/-- A session writes a message for a purpose on its transport, among messages of users. -/
def Speaks (s : SessionId) (q : Purpose) (t : TransportId) (c c' : Client) : Prop :=
  (c.sessionAt s).transport = some t ∧
    ∃ (d : Client) (text : String), c.Chats d ∧ q.Fits text ∧ (d.record t (q, text)).ChatsOn c'

/-- Messages of users are written, and one more at most, if the activity that goes on may write it. No session begins to
run without a word. -/
inductive Utters (a : Activity) (o : Outcome) (c c' : Client) : Prop
  | quiet (chats : c.ChatsOn c') (still : ∀ s, (c'.sessionAt s).state = .running → (c.sessionAt s).state = .running)
  | spoken {s : SessionId} {t : TransportId} {q : Purpose} (may : a.MaySay o s t q) (speaks : c.Speaks s q t c')

/-- Messages that fit their purposes are written on the transports of sessions, before something happens or after it. -/
def Writes (c c' : Client) : Prop :=
  ∀ t, ∃ ms, c'.attemptsOn t = c.attemptsOn t ++ ms ∧
    ∀ m ∈ ms, m.1.Fits m.2 ∧ ∃ s, (c.sessionAt s).transport = some t ∨ (c'.sessionAt s).transport = some t

end Client

variable {E : Executor} {α β : Type} {s : SessionId} {t : TransportId} {q : Purpose} {a : Activity} {o : Outcome}
  {c c' c'' : Client}

/-- An operation on whose way a session writes a message for a purpose, if it does, while users write theirs. -/
def SpeaksAt (E : Executor) (s : SessionId) (q : Purpose) (op : ClientM α) (c : Client) : Prop :=
  c.Chats (does E op c).2 ∨ ∃ t, c.Speaks s q t (does E op c).2

/-! ## Messages of sessions -/

theorem does_attempt_congr {x y : ClientM α} {c d : Client} (h : does E x c = does E y d) :
    does E (Client.attempt x) c = does E (Client.attempt y) d := by
  unfold Client.attempt
  rw [does_tryCatch, does_tryCatch, does_bind_congr h]

theorem Client.Chats.trans_speaks (h : c.Chats c') (h' : c'.Speaks s q t c'') : c.Speaks s q t c'' := by
  obtain ⟨connected, d, text, first, fits, last⟩ := h'
  exact ⟨by rw [← h.transport, connected], d, text, h.trans first, fits, last⟩

theorem IsChatty.speaks {op : ClientM α} (h : IsChatty E op) (hc : c.Sound) : SpeaksAt E s q op c :=
  .inl (h.chats hc)

/-- Users may write on the way before the session does. -/
theorem IsChatty.speaks_bind {x : ClientM α} {f : α → ClientM β} (h : IsChatty E x) (hc : c.Sound)
    (hf : ∀ a (d : Client), d.Sound → SpeaksAt E s q (f a) d) : SpeaksAt E s q (x >>= f) c := by
  have m := h.chats hc
  have sound := h.sound hc
  unfold SpeaksAt
  rw [does_bind]
  rcases hx : does E x c with ⟨e | a, d⟩
  all_goals rw [hx] at m sound
  · exact .inl m
  · rcases hf a d sound with quiet | ⟨t, spoken⟩
    · exact .inl (m.trans quiet)
    · exact .inr ⟨t, m.trans_speaks spoken⟩

theorem Client.Chats.utters (h : c.Chats c') : c.Utters a o c' :=
  .quiet h.chatsOn fun s running => by rw [← h.state, running]

theorem SpeaksAt.utters {op : ClientM α} (h : SpeaksAt E s q op c) (may : ∀ t, a.MaySay o s t q) :
    c.Utters a o (does E op c).2 := by
  rcases h with quiet | ⟨t, spoken⟩
  · exact quiet.utters
  · exact .spoken (may t) spoken

namespace Client

/-- A session writes on its transport, and then users do. -/
theorem speaks_of_record {text : String} (connected : (c.sessionAt s).transport = some t) (fits : q.Fits text)
    (next : (c.record t (q, text)).ChatsOn c') : c.Speaks s q t c' :=
  ⟨connected, c, text, .refl c, fits, next⟩

/-- A text is written, if it can be, and failures of the connection are caught. -/
theorem speaksAt_catchTransport (hc : c.Sound) (s : SessionId) {text : Except Fault String}
    (fits : ∀ x, text = .ok x → q.Fits x) {handle : Fault → ClientM Unit} (hh : ∀ f, IsMinor E (handle f)) :
    SpeaksAt E s q (do catchTransport (writeText s q text) handle; return Next.done .null) c := by
  have catches : ∀ {op : ClientM Unit}, IsMinor E op →
      IsChatty E (do catchTransport op handle; return Next.done .null) := by
    intro op h
    refine ((h.tryCatch fun f => ?_).bind fun _ => isMinor_pure _).chatty
    split
    · exact hh f
    · exact isMinor_throw f
  unfold SpeaksAt
  rcases does_writeText (E := E) s q text c with ⟨f, hx, _⟩ | ⟨x, t, hx, connected, hw⟩
  · have fails : does E (writeText s q text) c = does E (throw f) c := hx
    rw [does_bind_congr (does_catchTransport_congr fails handle) fun _ => pure (Next.done .null)]
    exact .inl ((catches (isMinor_throw f)).chats hc)
  · rw [does_bind_congr (does_catchTransport_congr hw handle) fun _ => pure (Next.done .null)]
    have chats := (catches (isMinor_write t x)).chats (hc.record t (q, x))
    exact .inr ⟨t, speaks_of_record connected (fits x hx) chats.chatsOn⟩

/-! ### Answers -/

theorem speaksAt_sendAnswer (hE : E.IsTame) (hc : c.Sound) (s : SessionId) {id : RequestId} (method : String)
    {text : Except Fault String} (drafts : Message.Drafts id text) :
    SpeaksAt E s .answer (sendAnswer s method text) c :=
  have fits : ∀ x, text = .ok x → Purpose.Fits x .answer := fun x hx => ⟨id, drafts.fits x hx⟩
  speaksAt_catchTransport hc s fits fun _ => isMinor_reportProtocolFault hE s _ _

theorem speaksAt_answerFault (hE : E.IsTame) (hc : c.Sound) (s : SessionId) (id : RequestId) (method : String)
    (f : Fault) : SpeaksAt E s .answer (answerFault s id method f) c := by
  unfold answerFault
  split
  · exact speaksAt_sendAnswer hE hc s method (Message.drafts_formatError id _ _ _)
  · exact (isChatty_throw _).speaks hc
  · exact (isMinor_logSession s _ _ _ _).chatty.speaks_bind hc fun _ d hd =>
      (isMinor_reportHandlerFault hE s method f).chatty.speaks_bind hd fun _ d hd =>
        speaksAt_sendAnswer hE hd s method (Message.drafts_formatError id _ _ _)

theorem speaksAt_answered (hE : E.IsTame) (hc : c.Sound) (s : SessionId) (id : RequestId) (method : String)
    (o : Outcome) : SpeaksAt E s .answer (answered s id method o) c := by
  cases o with
  | error f => exact speaksAt_answerFault hE hc s id method f
  | ok v =>
    have drafts := Message.drafts_formatResult id v
    unfold answered answerResult
    dsimp only
    split
    · next x hx =>
      rw [hx] at drafts
      exact speaksAt_sendAnswer hE hc s method drafts
    · exact speaksAt_answerFault hE hc s id method _

theorem speaksAt_answer (hE : E.IsTame) (hc : c.Sound) (s : SessionId) (id : RequestId) (method : String)
    (params : Value) : SpeaksAt E s .answer (answer s id method params) c := by
  have unhandled : SpeaksAt E s .answer (sendAnswer s method
      (Message.formatError id methodNotFound ("Unhandled method: " ++ method))) c :=
    speaksAt_sendAnswer hE hc s method (Message.drafts_formatError id _ _ _)
  unfold SpeaksAt answer
  rw [does_bind_of_ok (does_session s c)]
  cases hh : ((c.sessionAt s).requestHandlers.handlers method).getLast? with
  | none => exact unhandled
  | some h =>
    have tame : h.IsTame := (hc.sessions s).tame .request _ (handlers_subset_all _ method (List.mem_of_getLast? hh))
    cases h with
    | logResync x => exact unhandled
    | giveUp => exact unhandled
    | script r =>
      have called : SpeaksAt E s .answer (do answered s id method (← attempt (react r (.value params)))) c :=
        (isMinor_react hE tame _).attempt.chatty.speaks_bind hc fun o d hd => speaksAt_answered hE hd s id method o
      unfold answerBy
      dsimp only
      split
      · exact .inl (Chats.refl c)
      · exact called

/-! ### Leaving -/

theorem speaksAt_shutDownAnswered (hc : c.Sound) (s : SessionId) (o : Outcome) :
    SpeaksAt E s .exit (shutDownAnswered s o) c := by
  have exits : ∀ name d, d.Sound → SpeaksAt E s .exit (do
      catchTransport (writeText s .exit (Message.formatNotification Session.exitMethod)) fun f =>
        logSession s .debug ("Exit notification for " ++ name ++ " failed: " ++ f.message)
      return Next.done .null) d := fun name d hd =>
    have fits : ∀ x, Message.formatNotification Session.exitMethod = .ok x → Purpose.Fits x .exit := fun _ hx => hx
    speaksAt_catchTransport hd s fits fun f => isMinor_logSession s _ _ _ _
  refine (isMinor_session s).chatty.speaks_bind hc fun x d hd => ?_
  split
  · exact exits _ d hd
  · split
    · exact (isMinor_logSession s _ _ _ _).chatty.speaks_bind hd fun _ d hd => exits _ d hd
    · exact (isChatty_throw _).speaks_bind hd fun _ d hd => exits _ d hd

/-- A session that takes leave of its server and waits for the answer has written its last request, if it has a
transport. -/
theorem speaks_shutDown (hE : E.IsTame) (hc : c.Sound) (s : SessionId) {r : Except Fault Next}
    (hx : does E (shutDown s) c = (r, c')) :
    c.Chats c' ∧ (framesOf r = [] ∨ (c.sessionAt s).transport = none) ∨ ∃ t, c.Speaks s .shutdown t c' := by
  have first := does_bind_of_ok (E := E) (does_session s c) fun x => do
    let handle ← sendUnchecked s .shutdown Session.shutdownMethod .null x.settings.shutdownTimeout
    return Next.await handle.promise (.shutDownAnswered s)
  obtain ⟨sent, d, hs, _, why⟩ := sendUnchecked_spec hE hc s .shutdown Session.shutdownMethod .null
    (c.sessionAt s).settings.shutdownTimeout
  -- Whether or not the request is sent, nothing more is done.
  have ends : c' = d ∧ (∀ f, sent = .error f → framesOf r = []) := by
    cases sent with
    | error f =>
      have whole := hx.symm.trans (first.trans (does_bind_of_error hs _))
      cases whole
      exact ⟨rfl, fun _ _ => rfl⟩
    | ok handle =>
      have whole := hx.symm.trans (first.trans (does_bind_of_ok hs _))
      cases whole
      exact ⟨rfl, nofun⟩
  obtain ⟨rfl, fails⟩ := ends
  rcases why with ⟨⟨f, failed⟩, _, m⟩ | ⟨m, none | ⟨⟨f, failed⟩, _⟩⟩ | ⟨c₁, x, t, m, format, connected, m'⟩
  · exact .inl ⟨m.chats, .inl (fails f failed)⟩
  · exact .inl ⟨m.chats, .inr none⟩
  · exact .inl ⟨m.chats, .inl (fails f failed)⟩
  · exact .inr ⟨t, connected, c₁, x, m.chats, ⟨_, format⟩, m'.chats.chatsOn⟩

/-! ### Starting -/

theorem chatsOn_beginRunning (hE : E.IsTame) (hc : c.Sound) (s : SessionId) (able : Value) :
    c.ChatsOn (does E (beginRunning s able) c).2 := by
  have capable : IsChatty E (onSession s fun x => { x with capabilities := able }) :=
    isChatty_onSession s (fun _ => rfl) (fun _ => rfl) (fun _ topic => by cases topic <;> rfl) (fun _ => rfl)
      fun _ => rfl
  refine capable.chatsOn_bind hc fun _ d hd => chatsOn_transition hd s .running ?_
  refine .bind (isChatty_onSession s (fun _ => rfl) (fun _ => rfl) (fun _ topic => by cases topic <;> rfl)
    (fun _ => rfl) fun _ => rfl) fun _ => (isMinor_session s).chatty.bind fun _ => (isMinor_logSession s _ _ _ _).chatty.bind fun _ =>
      (isMinor_dispatchEvent hE s _ _).chatty.bind fun _ => isChatty_pure _

/-- An attempt that goes on with an answer tells the server so, unless there is no transport to do so; only then the
session may run. -/
theorem speaks_attemptAnswered (hE : E.IsTame) (hc : c.Sound) (s : SessionId) (o : Outcome) :
    c.Chats (does E (attemptAnswered s o) c).2 ∨
      (∃ v, o = .ok v) ∧ ∃ t, c.Speaks s .initialized t (does E (attemptAnswered s o) c).2 := by
  have goes : ∀ v r (d : Client), d.Sound → d.ChatsOn (does E (attemptTold s v r) d).2 := by
    intro v r d hd
    cases r with
    | error f => exact ((isCalm_attemptFault s f).chatty.chats hd).chatsOn
    | ok u =>
      refine (isMinor_session s).chatty.chatsOn_bind hd fun x d hd => ?_
      split
      · exact ((isChatty_throw _).chats hd).chatsOn
      · exact chatsOn_beginRunning hE hd s _
  cases o with
  | error f => exact .inl ((isCalm_attemptFault s f).chatty.chats hc)
  | ok v =>
    have whole : does E (attemptAnswered s (.ok v)) c = does E (attempt (writeText s .initialized
        (Message.formatNotification Session.initializedMethod (.object []))) >>= attemptTold s v) c := rfl
    rw [whole]
    rcases does_writeText (E := E) s .initialized (Message.formatNotification Session.initializedMethod (.object [])) c
      with ⟨f, hx, _⟩ | ⟨x, t, hx, connected, hw⟩
    · left
      cases cancels : f.isCancellation with
      | true =>
        rw [does_bind_of_error (does_attempt_of_cancelled hx cancels)]
        exact .refl c
      | false =>
        rw [does_bind_of_ok (does_attempt_of_error hx cancels)]
        exact (isCalm_attemptFault s f).chatty.chats hc
    · refine .inr ⟨⟨v, rfl⟩, t, speaks_of_record connected hx ?_⟩
      rw [does_bind_congr (does_attempt_congr hw)]
      exact (isMinor_write t x).chatty.attempt.chatsOn_bind (hc.record t (.initialized, x)) fun r d hd => goes v r d hd

/-- The first request is written on the transport of its session, unless it cannot be sent. Then nobody waits for the
answer. -/
theorem speaks_greeting (hE : E.IsTame) (hc : c.Sound) (connected : (c.sessionAt s).transport = some t)
    {params : Value} {timeout : Option Number} {r : Except Fault Next}
    (hx : does E (do
      attemptSent s t (← attempt (sendUnchecked s .handshake Session.initializeMethod params timeout))) c = (r, c')) :
    c.Chats c' ∧ .attemptAnswered s t ∉ framesOf r ∧ ((∃ n e, timeout = some n ∧ n.widen = .error e) ∨
        ∃ f, Message.formatRequest (.int (c.sessionAt s).nextId) Session.initializeMethod params = .error f) ∨
      c.Speaks s .handshake t c' := by
  obtain ⟨sent, d, hs, hd, why⟩ :=
    sendUnchecked_spec hE hc s .handshake Session.initializeMethod params timeout
  -- Whatever has come of the request, users go on.
  have next : d.Chats c' ∧ ∀ f, sent = .error f → .attemptAnswered s t ∉ framesOf r := by
    cases sent with
    | ok handle =>
      rw [does_bind_of_ok (does_attempt_of_ok hs)] at hx
      cases hx
      exact ⟨.refl _, nofun⟩
    | error f =>
      cases cancels : f.isCancellation with
      | true =>
        rw [does_bind_of_error (does_attempt_of_cancelled hs cancels)] at hx
        cases hx
        exact ⟨.refl _, fun _ _ => List.not_mem_nil⟩
      | false =>
        rw [does_bind_of_ok (does_attempt_of_error hs cancels)] at hx
        have chats := (isCalm_attemptFault (E := E) s f).chatty.chats hd
        have gone := leavesOut_attemptFault (E := E) (b := .attemptAnswered s t) s f nofun nofun d
        rw [show does E (attemptFault s f) d = (r, c') from hx] at chats gone
        exact ⟨chats, fun _ _ => gone⟩
  obtain ⟨chats, fails⟩ := next
  rcases why with ⟨⟨f, failed⟩, late, m⟩ | ⟨m, none | ⟨⟨f, failed⟩, format⟩⟩ | ⟨c₁, x, u, m, format, here, m'⟩
  · exact .inl ⟨m.chats.trans chats, fails f failed, .inl late⟩
  · rw [connected] at none
    cases none
  · exact .inl ⟨m.chats.trans chats, fails f failed, .inr format⟩
  · rw [connected] at here
    cases here
    exact .inr ⟨connected, c₁, x, m.chats, ⟨_, _, format⟩, (m'.chats.trans chats).chatsOn⟩

/-- An attempt whose transport is open sends its first request on it, if that is still the transport of its session. If
the request cannot be sent, then nobody waits for the answer. -/
theorem speaks_attemptOpened (hE : E.IsTame) (hc : c.Sound) (s : SessionId) (t : TransportId) (o : Outcome)
    {r : Except Fault Next} (hx : does E (attemptOpened s t o) c = (r, c')) :
    (∃ v, o = .ok v) ∧ c.Speaks s .handshake t c' ∨ .attemptAnswered s t ∉ framesOf r ∧ (c.Minor c' ∨
      c.Chats c' ∧ (∃ v, o = .ok v) ∧ (c.sessionAt s).transport = some t ∧ (c.sessionAt s).CannotGreet) := by
  cases o with
  | error f =>
    have minor := ((isCalm_attemptFault (E := E) s f).calmAt c hc).minor.1
    have gone := leavesOut_attemptFault (E := E) (b := .attemptAnswered s t) s f nofun nofun c
    rw [show does E (attemptFault s f) c = (r, c') from hx] at minor gone
    exact .inr ⟨gone, .inl minor⟩
  | ok v =>
    unfold attemptOpened at hx
    dsimp only at hx
    rw [does_bind_of_ok (does_session s c)] at hx
    by_cases connected : (c.sessionAt s).transport = some t
    · rw [if_neg (by simp [connected])] at hx
      -- Reading begins first.
      obtain ⟨reader, c₁, h₁⟩ : ∃ reader c₁, does E (spawn (.readLoop s t)) c = (.ok reader, c₁) := ⟨_, _, rfl⟩
      have reads : IsChatty E (onSession s fun x => { x with reader := some reader }) :=
        isChatty_onSession s (fun _ => rfl) (fun _ => rfl) (fun _ topic => by cases topic <;> rfl) (fun _ => rfl)
          fun _ => rfl
      have first := (isChatty_spawn (E := E) (.readLoop s t)).chats hc
      have hc₁ := (isChatty_spawn (E := E) (.readLoop s t)).sound hc
      rw [h₁] at first hc₁
      rw [does_bind_of_ok h₁, does_bind_of_ok (does_onSession s _ c₁)] at hx
      have before := first.trans (reads.chats hc₁)
      have sameId : ((c₁.alter s fun x => { x with reader := some reader }).sessionAt s).nextId =
          (c.sessionAt s).nextId := by
        have spawned : c₁.sessionAt s = c.sessionAt s := by
          cases h₁
          rfl
        rcases sessionAt_alter c₁ s s fun x => { x with reader := some reader } with e | ⟨_, _, e⟩
        · rw [e, spawned]
        · rw [e, spawned]
      rcases speaks_greeting hE (reads.sound hc₁) ((before.transport s).trans connected) hx with
        ⟨chats, gone, cannot⟩ | spoken
      · rw [show ((does E (onSession s fun x => { x with reader := some reader }) c₁).2.sessionAt s).nextId =
          (c.sessionAt s).nextId from sameId] at cannot
        exact .inr ⟨gone, .inr ⟨before.trans chats, ⟨v, rfl⟩, connected, cannot⟩⟩
      · exact .inl ⟨⟨v, rfl⟩, before.trans_speaks spoken⟩
    · rw [if_pos connected] at hx
      cases hx
      exact .inr ⟨by simp [framesOf, Next.frames], .inl (Minor.refl c)⟩

/-! ## Going on with an activity -/

/-- Whatever tame activity goes on, users write what they may, and it writes one message more at most. -/
theorem utters_goOn (hE : E.IsTame) (hc : c.Sound) {a : Activity} (tame : a.isTame = true) (o : Outcome) :
    c.Utters a o (does E (goOn a o) c).2 := by
  have quiet : ∀ {op : ClientM Next}, IsChatty E op → c.Utters a o (does E op c).2 := fun h => (h.chats hc).utters
  -- Only an answer to a first request lets a session run.
  have changes : c.ChatsOn (does E (goOn a o) c).2 → (∀ s, a.leadsTo ≠ some (s, .running)) →
      c.Utters a o (does E (goOn a o) c).2 := by
    intro chats other
    obtain ⟨r, c', hx, _, proceeds⟩ := does_goOn hE hc tame o
    rw [hx] at chats ⊢
    refine .quiet chats fun s running => Classical.byContradiction fun idle => ?_
    have moves : (c'.sessionAt s).state ≠ (c.sessionAt s).state := by
      rw [running]
      exact Ne.symm idle
    have leads := (alters_of_proceeds proceeds).leadsTo moves
    rw [running] at leads
    exact other s leads
  by_cases vital : a.isVital = true
  · cases a with
    | attempt s =>
      exact changes (chatsOn_beginning (chatsOn_transition hc s .starting (isChatty_pure _)) o) fun _ => by
        simp [Activity.leadsTo]
    | attemptReleased s => exact changes (chatsOn_attemptReleased hc s o) nofun
    | attemptOpened s t =>
      rcases speaks_attemptOpened hE hc s t o rfl with ⟨⟨v, rfl⟩, spoken⟩ | ⟨_, minor | ⟨chats, _⟩⟩
      · exact .spoken .handshake spoken
      · exact minor.chats.utters
      · exact chats.utters
    | attemptAnswered s t =>
      rcases speaks_attemptAnswered hE hc s o with chats | ⟨⟨v, rfl⟩, u, spoken⟩
      · exact chats.utters
      · exact .spoken .initialized spoken
    | started s => exact quiet (isChatty_started hE s o)
    | stop s clear =>
      exact changes (chatsOn_beginning (chatsOn_stop hc s clear) o) fun _ => by simp [Activity.leadsTo]
    | stopAnnounced s clear =>
      cases o with
      | ok v => exact quiet (isChatty_stopRelease s clear none)
      | error f => exact quiet (isChatty_stopRelease s clear (some f))
    | stopReleased s clear f =>
      exact changes (chatsOn_stopReleased hE hc s clear f o) fun _ => by simp [Activity.leadsTo]
    | shutDown s =>
      cases o with
      | error f => exact (Chats.refl c).utters
      | ok v =>
        rcases speaks_shutDown hE hc s rfl with ⟨chats, _⟩ | ⟨t, spoken⟩
        · exact chats.utters
        · exact .spoken .shutdown spoken
    | shutDownAnswered s => exact (speaksAt_shutDownAnswered hc s o).utters fun _ => .exit
    | fail s f => exact changes (chatsOn_beginning (chatsOn_fail hc s f) o) fun _ => by simp [Activity.leadsTo]
    | release s => exact changes (chatsOn_beginning (chatsOn_release hc s) o) nofun
    | releaseReader s t => exact quiet (isChatty_releaseReader s t o)
    | restartTried s => exact quiet (isChatty_restartTried hE s o)
    | readLoop s t => exact quiet (isChatty_beginning (isChatty_pure _) o)
    | readLoopReceived s t => exact quiet (isChatty_readLoopReceived hE s t o)
    | lostFailed s f => exact quiet (isChatty_lostFailed hE s f o)
    | answer s id method params =>
      cases o with
      | error f => exact (Chats.refl c).utters
      | ok v => exact (speaksAt_answer hE hc s id method params).utters fun _ => .answer rfl
    | answered s id method => exact (speaksAt_answered hE hc s id method o).utters fun _ => .answer rfl
    | _ => cases vital
  · exact quiet (isCalm_goOn_free hE tame (by simpa using vital) o).chatty

/-! ## What has been written -/

/-- Users write on the transports of sessions that run. -/
theorem Chats.trans_writes (h : c.Chats c') (h' : c'.Writes c'') : c.Writes c'' := by
  intro t
  obtain ⟨us, e, uses⟩ := h.writes t
  obtain ⟨ms, e', written⟩ := h' t
  refine ⟨us ++ ms, by rw [e', e, List.append_assoc], fun m hm => ?_⟩
  rcases List.mem_append.1 hm with hm | hm
  · obtain ⟨_, fits, s, _, connected⟩ := uses m hm
    exact ⟨fits, s, .inl connected⟩
  · obtain ⟨fits, s, connected⟩ := written m hm
    rw [h.transport] at connected
    exact ⟨fits, s, connected⟩

theorem writes_of_chatsOn (h : c.ChatsOn c') : c.Writes c' := by
  obtain ⟨d, e, first, _, same, last⟩ := h
  refine first.trans_writes fun t => ?_
  obtain ⟨us, e', uses⟩ := last.writes t
  refine ⟨us, by rw [e', same], fun m hm => ?_⟩
  obtain ⟨_, fits, s, _, connected⟩ := uses m hm
  exact ⟨fits, s, .inr ((last.transport s).trans connected)⟩

theorem writes_of_speaks (h : c.Speaks s q t c') : c.Writes c' := by
  obtain ⟨connected, d, text, first, fits, last⟩ := h
  refine first.trans_writes fun u => ?_
  obtain ⟨ms, e, written⟩ := writes_of_chatsOn last u
  -- Nothing is written on a transport that was never made.
  by_cases made : u = t ∧ t < d.transports.size
  · obtain ⟨rfl, inside⟩ := made
    refine ⟨(q, text) :: ms, ?_, fun m hm => ?_⟩
    · rw [e, attemptsOn_record_self d inside, List.append_assoc]
      rfl
    · rcases List.mem_cons.1 hm with rfl | hm
      · exact ⟨fits, s, .inl ((first.transport s).trans connected)⟩
      · exact written m hm
  · refine ⟨ms, ?_, written⟩
    rw [e]
    by_cases same : u = t
    · have beyond : d.transports.size ≤ u := Nat.le_of_not_lt fun inside => made ⟨same, same ▸ inside⟩
      rw [attemptsOn_of_size_le d beyond, attemptsOn_of_size_le]
      exact Nat.le_trans (Nat.le_of_eq Array.size_modify) beyond
    · rw [attemptsOn_record_of_ne d same]

/-- Whatever is written fits its purpose, and it is written on the transport of a session. -/
theorem Utters.writes (h : c.Utters a o c') : c.Writes c' := by
  cases h with
  | quiet chats _ => exact writes_of_chatsOn chats
  | spoken _ speaks => exact writes_of_speaks speaks

end Client

end LspClient
