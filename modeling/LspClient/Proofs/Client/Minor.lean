/-
Minor changes of a client: the sessions keep their states, transports, readers and answering tasks,
only running ones begin new requests, and on their transports nothing is written but the messages of
users of a running session. Operations that make no other changes are minor, and so is what is put
together from them.
-/
import LspClient.Client.Steps
import LspClient.Proofs.Client.Does
import LspClient.Proofs.Registry.History
import LspClient.Proofs.Registry.Quiet

namespace LspClient

/-! ## Tame steps -/

mutual

/-- Whether a step is one that users of a session or its servers take: it does not move the clock by
itself, and it uses no registry, router or host besides those of the session. -/
def Step.isTame : Step → Bool
  | .batch steps => Step.areTame steps
  | .on _ _ r => r.isTame
  | .cancel .. | .await .. | .cancelTask .. | .handle .. | .unsubscribe .. | .isActive .. | .subscribedWhile ..
  | .start .. | .stop .. | .request .. | .notify .. | .push .. | .feed .. | .finish .. | .readFault ..
  | .setPeer .. | .resync | .listenResync .. | .inspect | .feedErrors .. | .errorStreamFault .. | .exit .. => true
  | _ => false

/-- Whether all steps are tame. -/
def Step.areTame : List Step → Bool
  | [] => true
  | step :: steps => step.isTame && Step.areTame steps

/-- Whether a reaction takes tame steps. -/
def Reaction.isTame : Reaction → Bool
  | .mk _ steps _ _ => Step.areTame steps

end

theorem Step.areTame_iff {steps : List Step} : Step.areTame steps = true ↔ ∀ step ∈ steps, step.isTame = true := by
  induction steps with
  | nil => simp [Step.areTame]
  | cons step steps ih => simp [Step.areTame, ih]

theorem Reaction.isTame_eq (r : Reaction) : r.isTame = Step.areTame r.steps := by
  cases r
  simp [Reaction.isTame, Reaction.steps]

/-- A handler that takes tame steps. -/
def Handler.IsTame : Handler → Prop
  | .script r => r.isTame = true
  | _ => True

/-! ## Activities -/

/-- Reading the messages of the server of a session from a transport. -/
def Activity.reads : Activity → Option (SessionId × TransportId)
  | .readLoop s t | .readLoopReceived s t => some (s, t)
  | _ => none

/-- Answering a request of the server of a session. -/
def Activity.answers : Activity → Option (SessionId × RequestId)
  | .answer s id _ _ | .answered s id _ => some (s, id)
  | _ => none

/-- Serving the server of a session: reading its messages, or answering its requests. -/
def Activity.serves (a : Activity) : Bool :=
  a.reads.isSome || a.answers.isSome

/-- Stopping a session that stops already. -/
def Activity.stops : Activity → Option SessionId
  | .stopAnnounced s _ | .stopReleased s _ _ => some s
  | _ => none

/-- Having a transport of a session in hand: it is being opened, or given up. -/
def Activity.handles : Activity → Option (SessionId × TransportId)
  | .attemptOpened s t | .releaseReader s (some t) | .releaseAnswers s (some t) => some (s, t)
  | _ => none

/-- Whether a session is about to give up its transport, or to take leave of its server. -/
def Activity.isBrief : Activity → Bool
  | .release _ | .shutDown _ => true
  | _ => false

/-- Taking leave of the server of a session: its answer to the last request is waited for. -/
def Activity.takesLeave : Activity → Option SessionId
  | .shutDownAnswered s => some s
  | _ => none

/-- Whether an activity is in the middle of the life of a session: only other activities of that
session go on with it. -/
def Activity.isInner (a : Activity) : Bool :=
  a.stops.isSome || a.handles.isSome || a.isBrief || a.takesLeave.isSome

/-- Starting a session, failing it, or starting it again after a failure. Nothing else stirs a session that is at
rest. -/
def Activity.stirs : Activity → Option SessionId
  | .attempt s | .attemptReleased s | .attemptOpened s _ | .attemptAbandoned s | .attemptAnswered s _
  | .attemptFailed s _ | .started s | .fail s _ | .failReleased s _ | .lostFailed s _ | .restart s _ | .restartSlept s
  | .restartTried s => some s
  | _ => none

/-- The session that an activity begins to stir, or stirs. -/
def Activity.rouses : Activity → Option SessionId
  | .start s => some s
  | a => a.stirs

/-- Whether an activity is none that only its session may begin. -/
def Activity.isPlain (a : Activity) : Bool :=
  !a.isInner && !a.serves && a.stirs.isNone

/-- Whether an activity takes tame steps, and belongs to no host. -/
def Activity.isTame : Activity → Bool
  | .react r _ | .reacted r => r.isTame
  | .within inner _ => inner.isTame && inner.isPlain
  | .activate .. | .activated .. | .deactivate .. | .deactivateOne .. | .runHost .. | .runActivated .. | .runGivenUp
  | .runDeactivated .. => false
  | _ => true

/-- What new tasks begin with, unless they serve the server of a session or start it again. -/
def Activity.IsRoot (a : Activity) : Prop :=
  a.isTame = true ∧ a.isPlain = true

/-- What is left to do by what stirs no session but one, unless that is in the middle of its life or serves its
server. -/
structure Activity.IsFree (of : Option SessionId) (a : Activity) : Prop where
  tame : a.isTame = true
  not_isInner : a.isInner = false
  plain : a.serves = false
  stirs : a.stirs = none ∨ a.stirs = of

theorem Activity.isInner_eq_false {a : Activity} :
    a.isInner = false ↔ a.stops = none ∧ a.handles = none ∧ a.isBrief = false ∧ a.takesLeave = none := by
  simp [isInner, and_assoc]

theorem Activity.IsRoot.free {a : Activity} (h : a.IsRoot) (of : Option SessionId) : a.IsFree of := by
  obtain ⟨tame, plain⟩ := h
  simp only [isPlain, Bool.and_eq_true, Bool.not_eq_true', Option.isNone_iff_eq_none] at plain
  exact ⟨tame, plain.1.1, plain.1.2, .inl plain.2⟩

namespace Activity.IsFree

variable {of : Option SessionId} {a : Activity}

theorem not_stops (h : a.IsFree of) : a.stops = none :=
  (isInner_eq_false.1 h.not_isInner).1

theorem not_handles (h : a.IsFree of) : a.handles = none :=
  (isInner_eq_false.1 h.not_isInner).2.1

theorem not_isBrief (h : a.IsFree of) : a.isBrief = false :=
  (isInner_eq_false.1 h.not_isInner).2.2.1

theorem not_takesLeave (h : a.IsFree of) : a.takesLeave = none :=
  (isInner_eq_false.1 h.not_isInner).2.2.2

theorem not_serves (h : a.IsFree of) : a.reads = none ∧ a.answers = none := by
  simpa [serves] using h.plain

/-- What stirs no session. -/
theorem weaken (h : a.IsFree none) (of : Option SessionId) : a.IsFree of :=
  { h with stirs := .inl (h.stirs.elim id id) }

end Activity.IsFree

/-- The events of a client: those of timers come by themselves, the others when a promise is
settled. -/
def notices : Loop.Notices Event where
  free
    | .requestExpired .. | .childExits .. => True
    | _ => False
  hears q
    | .answerEnded _ p => p = q
    | .handleSettled _ _ steps => Step.areTame steps = true
    | _ => True

/-! ## What sessions write -/

/-- Whether a message is one of a user: a request, a notification, or the news that a request was
cancelled. -/
def Purpose.isUser : Purpose → Bool
  | .request | .notification | .cancellation => true
  | _ => false

/-- Whether a text answers the request with an id, by a result or an error. -/
def Message.Answers (id : RequestId) (text : String) : Prop :=
  (∃ v, Message.formatResult id v = .ok text) ∨ ∃ code message data, Message.formatError id code message data = .ok text

/-- What has no text is no fault of the connection. -/
theorem Message.isTransport_of_printObject {members : List (String × Value)} {f : Fault}
    (h : Message.printObject members = .error f) : f.isTransport = false := by
  unfold Message.printObject at h
  cases hp : Json.print (.object members) with
  | ok x =>
    rw [hp] at h
    cases h
  | error e =>
    rw [hp] at h
    cases h
    cases e <;> rfl

/-- Whether a text is that of a message with a purpose. -/
def Purpose.Fits (text : String) : Purpose → Prop
  | .handshake => ∃ id params, Message.formatRequest id Session.initializeMethod params = .ok text
  | .initialized => Message.formatNotification Session.initializedMethod (.object []) = .ok text
  | .request => ∃ id method params, Message.formatRequest id method params = .ok text
  | .notification => ∃ method params, Message.formatNotification method params = .ok text
  | .cancellation => ∃ id : RequestId,
      Message.formatNotification Session.cancelMethod (.object [("id", id.toValue)]) = .ok text
  | .shutdown => ∃ id, Message.formatRequest id Session.shutdownMethod .null = .ok text
  | .exit => Message.formatNotification Session.exitMethod = .ok text
  | .answer => ∃ id, Message.Answers id text

namespace Client

/-- A session of a client. -/
def sessionAt (c : Client) (s : SessionId) : Session :=
  c.sessions[s]?.getD default

/-- The messages that sessions have tried to write on a transport. -/
def attemptsOn (c : Client) (t : TransportId) : List (Purpose × String) :=
  (c.transports[t]?.map (·.attempts)).getD []

end Client

/-! ## Definitions -/

/-- The handlers of a router, whatever method they are for. -/
def Router.all {η : Type} (r : Router η) : List η :=
  r.methods.flatMap fun m => m.2.map (·.handler)

namespace Session

/-- What a session knows of its failures in a row: how many there were, and whether the user was told. -/
def streak (x : Session) : RestartPolicy × Bool :=
  (x.policy, x.failureNotified)

/-- A session that goes on in the same state, with the same transport, and counts no failure. It begins no
requests unless it is running, or is free to; those it begins have new ids. -/
structure Stays (free : Prop) (x x' : Session) : Prop where
  lifecycle : x'.lifecycle = x.lifecycle
  transport : x'.transport = x.transport
  streak : x'.streak = x.streak
  nextId : x.nextId ≤ x'.nextId
  pending : ∀ p ∈ x'.registry.pending, p ∈ x.registry.pending ∨
    (free ∨ x.state = .running) ∧ ∃ n : Nat, x.nextId ≤ n ∧ p.id = .int n

/-- A session that goes on with the same reader and the same answering tasks, too. -/
structure Same (free : Prop) (x x' : Session) : Prop extends Stays free x x' where
  settings : x'.settings = x.settings
  reader : x'.reader = x.reader
  answering : x'.answering = x.answering

/-- Two sessions with the same life and the same requests. -/
structure Alike (x x' : Session) : Prop where
  settings : x'.settings = x.settings
  lifecycle : x'.lifecycle = x.lifecycle
  transport : x'.transport = x.transport
  streak : x'.streak = x.streak
  reader : x'.reader = x.reader
  answering : x'.answering = x.answering
  registry : x'.registry = x.registry
  nextId : x.nextId ≤ x'.nextId

/-- A session whose handlers are tame, and whose pending requests have ids that it gave them. -/
structure IsSound (x : Session) : Prop where
  tame : ∀ topic, ∀ h ∈ (x.router topic).all, h.IsTame
  ids : ∀ p ∈ x.registry.pending, ∃ n : Nat, n < x.nextId ∧ p.id = .int n

end Session

namespace Client

/-- A client whose tasks are driven by one job each, with sound sessions and fit registries. -/
structure Sound (c : Client) : Prop where
  wf : c.loop.WF notices c.running
  sessions : ∀ s, (c.sessionAt s).IsSound
  alone : c.registry.Fit c.loop
  registries : ∀ s, (c.sessionAt s).registry.Fit c.loop

/-- Messages of a user that a session may write. -/
def IsUse (c : Client) (t : TransportId) (m : Purpose × String) : Prop :=
  m.1.isUser = true ∧ m.1.Fits m.2 ∧
    ∃ s, (c.sessionAt s).state = .running ∧ (c.sessionAt s).transport = some t

/-- A change that leaves sessions as they are but for one, which may begin requests. Those that run
may write messages of users. -/
structure Near (but : Option SessionId) (c c' : Client) : Prop where
  loop : c.loop.Moves Activity.IsRoot none c'.loop
  running : c'.running = c.running
  count : c'.sessions.size = c.sessions.size
  sessions : ∀ s, (c.sessionAt s).Same (but = some s) (c'.sessionAt s)
  endures : ∀ s, Registry.Endures (c.sessionAt s).registry c.loop (c'.sessionAt s).registry c'.loop
  transports : c'.transports.size = c.transports.size
  attempts : ∀ t, ∃ us, c'.attemptsOn t = c.attemptsOn t ++ us ∧ ∀ m ∈ us, c.IsUse t m

/-- A minor change: all sessions stay as they are. -/
abbrev Minor (c c' : Client) : Prop :=
  c.Near none c'

end Client

/-- An operation that makes a minor change of a client, and keeps it sound. -/
def MinorAt (E : Executor) {α : Type} (op : ClientM α) (c : Client) : Prop :=
  c.Minor (does E op c).2 ∧ (does E op c).2.Sound

/-- An operation that makes minor changes only. -/
structure IsMinor (E : Executor) {α : Type} (op : ClientM α) : Prop where
  minorAt : ∀ c, c.Sound → MinorAt E op c

/-- A way to execute steps that makes minor changes for tame ones. -/
def Executor.IsTame (E : Executor) : Prop :=
  ∀ step, step.isTame = true → IsMinor E (Client.execute step)

/-! ## Minor changes are a preorder -/

namespace Session

variable {free free' : Prop} {x x' x'' : Session}

theorem Stays.refl (x : Session) : x.Stays free x :=
  ⟨rfl, rfl, rfl, Nat.le_refl _, fun _ hp => .inl hp⟩

theorem Stays.state (h : x.Stays free x') : x'.state = x.state := by
  unfold Session.state
  rw [h.lifecycle]

theorem Stays.trans (h : x.Stays free x') (h' : x'.Stays free x'') : x.Stays free x'' := by
  refine ⟨h'.lifecycle.trans h.lifecycle, h'.transport.trans h.transport, h'.streak.trans h.streak,
    Nat.le_trans h.nextId h'.nextId, ?_⟩
  intro p hp
  rcases h'.pending p hp with hp | ⟨may, n, hn, e⟩
  · exact h.pending p hp
  · rw [h.state] at may
    exact .inr ⟨may, n, Nat.le_trans h.nextId hn, e⟩

theorem Stays.weaken (h : x.Stays free x') (w : free → free') : x.Stays free' x' := by
  refine { h with pending := fun p hp => ?_ }
  rcases h.pending p hp with hp | ⟨may, new⟩
  · exact .inl hp
  · exact .inr ⟨may.imp_left w, new⟩

theorem Same.refl (x : Session) : x.Same free x :=
  ⟨Stays.refl x, rfl, rfl, rfl⟩

theorem Same.trans (h : x.Same free x') (h' : x'.Same free x'') : x.Same free x'' :=
  ⟨h.toStays.trans h'.toStays, h'.settings.trans h.settings, h'.reader.trans h.reader,
    h'.answering.trans h.answering⟩

theorem Same.weaken (h : x.Same free x') (w : free → free') : x.Same free' x' :=
  ⟨h.toStays.weaken w, h.settings, h.reader, h.answering⟩

theorem Alike.same (h : x.Alike x') : x.Same free x' := by
  refine ⟨⟨h.lifecycle, h.transport, h.streak, h.nextId, fun p hp => ?_⟩, h.settings, h.reader, h.answering⟩
  rw [h.registry] at hp
  exact .inl hp

/-- A session with the same handlers as a sound one. -/
theorem Alike.isSound (h : x.Alike x') (routers : ∀ topic, x'.router topic = x.router topic) (s : x.IsSound) :
    x'.IsSound := by
  refine ⟨fun topic g hg => s.tame topic g (by rwa [routers] at hg), fun p hp => ?_⟩
  rw [h.registry] at hp
  obtain ⟨n, hn, e⟩ := s.ids p hp
  exact ⟨n, Nat.lt_of_lt_of_le hn h.nextId, e⟩

end Session

namespace Client

variable {but : Option SessionId} {c c' c'' : Client}

theorem Near.refl (but : Option SessionId) (c : Client) : c.Near but c :=
  ⟨Loop.Moves.refl _, rfl, rfl, fun _ => Session.Same.refl _, fun _ => .refl _ _, rfl,
    fun _ => ⟨[], (List.append_nil _).symm, by simp⟩⟩

theorem Minor.refl (c : Client) : c.Minor c :=
  Near.refl none c

theorem Near.trans (h : c.Near but c') (h' : c'.Near but c'') : c.Near but c'' where
  loop := h.loop.trans h'.loop
  running := h'.running.trans h.running
  count := h'.count.trans h.count
  sessions s := (h.sessions s).trans (h'.sessions s)
  endures s := (h.endures s).trans (h'.endures s) fun _ _ => h'.loop.outcome
  transports := h'.transports.trans h.transports
  attempts t := by
    obtain ⟨us, e, hus⟩ := h.attempts t
    obtain ⟨vs, e', hvs⟩ := h'.attempts t
    refine ⟨us ++ vs, by rw [e', e, List.append_assoc], fun m hm => ?_⟩
    rcases List.mem_append.1 hm with hm | hm
    · exact hus m hm
    · obtain ⟨hu, hf, s, hs, ht⟩ := hvs m hm
      exact ⟨hu, hf, s, by rw [← (h.sessions s).state, hs], by rw [← (h.sessions s).transport, ht]⟩

theorem Minor.near (h : c.Minor c') (but : Option SessionId) : c.Near but c' :=
  { h with sessions := fun s => (h.sessions s).weaken fun e => absurd e (by simp) }

/-- A running session may begin requests in any case. -/
theorem Near.minor {s : SessionId} (h : c.Near (some s) c') (running : (c.sessionAt s).state = .running) :
    c.Minor c' := by
  refine { h with sessions := fun x => ?_ }
  have same := h.sessions x
  refine { same with pending := fun p hp => ?_ }
  rcases same.pending p hp with hp | ⟨may, new⟩
  · exact .inl hp
  · refine .inr ⟨.inr ?_, new⟩
    rcases may with e | e
    · cases e
      exact running
    · exact e

end Client

/-! ## Putting operations together -/

section

variable {E : Executor} {α β : Type} {c : Client}

theorem minorAt_pure (s : c.Sound) (a : α) : MinorAt E (pure a) c :=
  ⟨Client.Minor.refl c, s⟩

theorem minorAt_throw (s : c.Sound) (f : Fault) : MinorAt E (throw f : ClientM α) c :=
  ⟨Client.Minor.refl c, s⟩

theorem MinorAt.bind {x : ClientM α} {f : α → ClientM β} (h : MinorAt E x c)
    (hf : ∀ a c', does E x c = (.ok a, c') → c.Minor c' → c'.Sound → MinorAt E (f a) c') :
    MinorAt E (x >>= f) c := by
  obtain ⟨m, s⟩ := h
  unfold MinorAt
  rw [does_bind]
  rcases hx : does E x c with ⟨e | a, c'⟩
  · rw [hx] at m s
    exact ⟨m, s⟩
  · rw [hx] at m s
    obtain ⟨m', s'⟩ := hf a c' hx m s
    exact ⟨m.trans m', s'⟩

/-- What is only looked at makes no change. -/
theorem minorAt_bind_of_ok {x : ClientM α} {a : α} (hx : does E x c = (.ok a, c)) {f : α → ClientM β}
    (hf : MinorAt E (f a) c) : MinorAt E (x >>= f) c := by
  unfold MinorAt
  rw [does_bind_of_ok hx]
  exact hf

theorem MinorAt.tryCatch {x : ClientM α} {f : Fault → ClientM α} (h : MinorAt E x c)
    (hf : ∀ e c', c.Minor c' → c'.Sound → MinorAt E (f e) c') : MinorAt E (tryCatch x f) c := by
  obtain ⟨m, s⟩ := h
  unfold MinorAt
  rw [does_tryCatch]
  rcases hx : does E x c with ⟨e | a, c'⟩
  · rw [hx] at m s
    obtain ⟨m', s'⟩ := hf e c' m s
    exact ⟨m.trans m', s'⟩
  · rw [hx] at m s
    exact ⟨m, s⟩

theorem isMinor_pure (a : α) : IsMinor E (pure a) :=
  ⟨fun _ s => minorAt_pure s a⟩

theorem isMinor_throw (f : Fault) : IsMinor E (throw f : ClientM α) :=
  ⟨fun _ s => minorAt_throw s f⟩

theorem isMinor_get : IsMinor E get :=
  ⟨fun c s => ⟨Client.Minor.refl c, s⟩⟩

/-- An operation that succeeds makes minor changes. -/
theorem IsMinor.of_ok {op : ClientM α} (h : IsMinor E op) {c' : Client} (hc : c.Sound) {a : α}
    (hx : does E op c = (.ok a, c')) : c.Minor c' ∧ c'.Sound := by
  have hm := h.minorAt c hc
  unfold MinorAt at hm
  rwa [hx] at hm

theorem IsMinor.bind {x : ClientM α} {f : α → ClientM β} (h : IsMinor E x) (hf : ∀ a, IsMinor E (f a)) :
    IsMinor E (x >>= f) :=
  ⟨fun c s => (h.minorAt c s).bind fun a c' _ _ s' => (hf a).minorAt c' s'⟩

theorem IsMinor.map {x : ClientM α} (h : IsMinor E x) (f : α → β) : IsMinor E (f <$> x) := by
  rw [← bind_pure_comp]
  exact h.bind fun a => isMinor_pure (f a)

theorem IsMinor.tryCatch {x : ClientM α} {f : Fault → ClientM α} (h : IsMinor E x) (hf : ∀ e, IsMinor E (f e)) :
    IsMinor E (tryCatch x f) :=
  ⟨fun c s => (h.minorAt c s).tryCatch fun e c' _ s' => (hf e).minorAt c' s'⟩

theorem MinorAt.attempt {x : ClientM α} (h : MinorAt E x c) : MinorAt E (Client.attempt x) c := by
  refine (h.bind fun a c' _ _ s => minorAt_pure s _).tryCatch fun e c' _ s => ?_
  split
  · exact minorAt_throw s e
  · exact minorAt_pure s _

theorem IsMinor.attempt {x : ClientM α} (h : IsMinor E x) : IsMinor E (Client.attempt x) :=
  ⟨fun c s => (h.minorAt c s).attempt⟩

theorem MinorAt.catchTransport {x : ClientM Unit} {f : Fault → ClientM Unit} (h : MinorAt E x c)
    (hf : ∀ e, IsMinor E (f e)) : MinorAt E (Client.catchTransport x f) c := by
  refine h.tryCatch fun e c' _ s => ?_
  split
  · exact (hf e).minorAt c' s
  · exact minorAt_throw s e

theorem IsMinor.forM {f : α → ClientM Unit} {as : List α} (h : ∀ a ∈ as, IsMinor E (f a)) : IsMinor E (as.forM f) := by
  induction as with
  | nil => exact isMinor_pure _
  | cons a as ih =>
    show IsMinor E (f a >>= fun _ => as.forM f)
    exact (h a (List.mem_cons_self ..)).bind fun _ => ih fun b hb => h b (List.mem_cons_of_mem _ hb)

theorem IsMinor.mapM {f : α → ClientM β} {as : List α} (h : ∀ a ∈ as, IsMinor E (f a)) : IsMinor E (as.mapM f) := by
  induction as with
  | nil => exact isMinor_pure _
  | cons a as ih =>
    rw [List.mapM_cons]
    exact (h a (List.mem_cons_self ..)).bind fun _ =>
      (ih fun b hb => h b (List.mem_cons_of_mem _ hb)).bind fun _ => isMinor_pure _

theorem IsMinor.foldlM {f : β → α → ClientM β} {as : List α} (h : ∀ b, ∀ a ∈ as, IsMinor E (f b a)) (b : β) :
    IsMinor E (as.foldlM f b) := by
  induction as generalizing b with
  | nil => exact isMinor_pure _
  | cons a as ih =>
    rw [List.foldlM_cons]
    exact (h b a (List.mem_cons_self ..)).bind fun b => ih (fun b a ha => h b a (List.mem_cons_of_mem _ ha)) b

theorem IsMinor.forIn {f : α → β → ClientM (ForInStep β)} {as : List α} (h : ∀ a ∈ as, ∀ b, IsMinor E (f a b)) (b : β) :
    IsMinor E (forIn as b f) := by
  induction as generalizing b with
  | nil => exact isMinor_pure _
  | cons a as ih =>
    rw [List.forIn_cons]
    refine (h a (List.mem_cons_self ..) b).bind fun r => ?_
    split
    · exact isMinor_pure _
    · exact ih (fun a ha => h a (List.mem_cons_of_mem _ ha)) _

end

/-! ## Changes of parts of a client -/

namespace Client

variable {E : Executor} {α : Type} {c c' : Client}

/-- A change of what neither tasks nor sessions depend on. -/
theorem minor_of_eq (s : c.Sound) (loop : c'.loop = c.loop) (running : c'.running = c.running)
    (sessions : c'.sessions = c.sessions) (transports : c'.transports = c.transports)
    (registry : c'.registry = c.registry) : c.Minor c' ∧ c'.Sound := by
  have hs : ∀ x, c'.sessionAt x = c.sessionAt x := fun x => by rw [sessionAt, sessionAt, sessions]
  have ht : ∀ t, c'.attemptsOn t = c.attemptsOn t := fun t => by rw [attemptsOn, attemptsOn, transports]
  constructor
  · refine ⟨?_, running, by rw [sessions], fun x => ?_, fun x => ?_, by rw [transports], fun t => ?_⟩
    · rw [loop]
      exact Loop.Moves.refl _
    · rw [hs]
      exact Session.Same.refl _
    · rw [hs, loop]
      exact .refl _ _
    · exact ⟨[], by rw [ht, List.append_nil], by simp⟩
  · refine ⟨?_, fun x => ?_, ?_, fun x => ?_⟩
    · rw [loop, running]
      exact s.wf
    · rw [hs]
      exact s.sessions x
    · rw [registry, loop]
      exact s.alone
    · rw [hs, loop]
      exact s.registries x

/-- A change of the loop. -/
theorem minor_loop (s : c.Sound) {l : Loop Activity Event} (m : c.loop.Moves Activity.IsRoot none l)
    (w : l.WF notices c.running) : c.Minor { c with loop := l } ∧ Sound { c with loop := l } :=
  ⟨{ Minor.refl c with loop := m, endures := fun _ => .elsewhere _ fun _ _ => m.outcome }, w, s.sessions,
    s.alone.moves m, fun x => (s.registries x).moves m⟩

theorem isMinor_modify {f : Client → Client}
    (h : ∀ c, (f c).loop = c.loop ∧ (f c).running = c.running ∧ (f c).sessions = c.sessions ∧
      (f c).transports = c.transports ∧ (f c).registry = c.registry) : IsMinor E (modify f) := by
  refine ⟨fun c s => ?_⟩
  obtain ⟨loop, running, sessions, transports, registry⟩ := h c
  exact minor_of_eq s loop running sessions transports registry

theorem isMinor_modifyGet {f : Client → α × Client}
    (h : ∀ c, (f c).2.loop = c.loop ∧ (f c).2.running = c.running ∧ (f c).2.sessions = c.sessions ∧
      (f c).2.transports = c.transports ∧ (f c).2.registry = c.registry) : IsMinor E (modifyGet f) := by
  refine ⟨fun c s => ?_⟩
  obtain ⟨loop, running, sessions, transports, registry⟩ := h c
  exact minor_of_eq s loop running sessions transports registry

theorem isMinor_withLoop {f : Loop Activity Event → α × Loop Activity Event}
    (h : ∀ (l : Loop Activity Event) running, l.WF notices running →
      l.Moves Activity.IsRoot none (f l).2 ∧ (f l).2.WF notices running) : IsMinor E (withLoop f) :=
  ⟨fun c s => minor_loop s (h c.loop c.running s.wf).1 (h c.loop c.running s.wf).2⟩

theorem isMinor_onLoop {f : Loop Activity Event → Loop Activity Event}
    (h : ∀ (l : Loop Activity Event) running, l.WF notices running →
      l.Moves Activity.IsRoot none (f l) ∧ (f l).WF notices running) : IsMinor E (onLoop f) :=
  ⟨fun c s => minor_loop s (h c.loop c.running s.wf).1 (h c.loop c.running s.wf).2⟩

/-! ### The loop -/

theorem isMinor_newPromise : IsMinor E newPromise :=
  isMinor_withLoop fun l _ w => ⟨Loop.moves_newPromise l (show Role.IsNew _ .plain from trivial), w.newPromise .plain⟩

theorem isMinor_spawn {a : Activity} (h : a.IsRoot) : IsMinor E (spawn a) :=
  isMinor_withLoop fun l _ w => ⟨Loop.moves_spawn l h, w.spawn a⟩

theorem isMinor_settle (p : PromiseId) (o : Outcome) : IsMinor E (onLoop fun l => l.settle p o) :=
  isMinor_onLoop fun l _ w => ⟨Loop.moves_settle l p o, w.settle p o⟩

theorem isMinor_cancelPromise (p : PromiseId) : IsMinor E (cancelPromise p) :=
  isMinor_withLoop fun _ _ w => ⟨Loop.moves_cancel w p, w.cancel p⟩

theorem isMinor_cancelTimer (timer : TimerId) : IsMinor E (onLoop fun l => l.cancelTimer timer) :=
  isMinor_onLoop fun _ _ w => ⟨Loop.moves_of_promises rfl, w.cancelTimer timer⟩

theorem isMinor_unobserve (p target : PromiseId) : IsMinor E (onLoop fun l => l.unobserve p target) :=
  isMinor_onLoop fun l _ w => ⟨Loop.moves_unobserve l p target, w.unobserve p target⟩

theorem isMinor_observe_fulfil (p target : PromiseId) : IsMinor E (onLoop fun l => l.observe p (.fulfil target)) :=
  isMinor_onLoop fun l _ w =>
    ⟨Loop.moves_observe l p _, w.observe trivial fun _ h => absurd h Bool.false_ne_true⟩

theorem isMinor_observe_notify {p : PromiseId} {e : Event} (h : notices.hears p e) :
    IsMinor E (onLoop fun l => l.observe p (.notify e)) :=
  isMinor_onLoop fun l _ w =>
    ⟨Loop.moves_observe l p _, w.observe h fun _ h => absurd h Bool.false_ne_true⟩

theorem isMinor_isSettled (p : PromiseId) : IsMinor E (isSettled p) :=
  isMinor_get.bind fun _ => isMinor_pure _

theorem isMinor_callLater (delay : Number) {job : Job Event} (h : Loop.IsTimed notices job) :
    IsMinor E (callLater delay job) := by
  refine IsMinor.bind ?_ fun seconds => isMinor_withLoop fun l _ w =>
    ⟨Loop.moves_of_promises rfl, w.callLater h seconds⟩
  unfold seconds
  split
  · exact isMinor_pure _
  · exact isMinor_throw _

/-! ### Sessions -/

theorem sessionAt_modify_self (c : Client) {s : SessionId} (h : s < c.sessions.size) (f : Session → Session) :
    ({ c with sessions := c.sessions.modify s f } : Client).sessionAt s = f (c.sessionAt s) := by
  unfold sessionAt
  dsimp only
  rw [Array.getElem?_modify, if_pos rfl, Array.getElem?_eq_getElem h]
  rfl

theorem sessionAt_modify (c : Client) (s x : SessionId) (f : Session → Session) :
    ({ c with sessions := c.sessions.modify s f } : Client).sessionAt x = c.sessionAt x ∨
      x = s ∧ x < c.sessions.size ∧
        ({ c with sessions := c.sessions.modify s f } : Client).sessionAt x = f (c.sessionAt x) := by
  by_cases h : x = s ∧ x < c.sessions.size
  · obtain ⟨rfl, h⟩ := h
    exact .inr ⟨rfl, h, sessionAt_modify_self c h f⟩
  · left
    unfold sessionAt
    dsimp only
    rw [Array.getElem?_modify]
    split
    · next e =>
      rw [Array.getElem?_eq_none (Nat.le_of_not_lt fun hx => h ⟨e.symm, hx⟩)]
      rfl
    · rfl

/-- A change of what a session is busy with besides its life and its requests. -/
theorem minor_onSession (s : c.Sound) {x : SessionId} {f : Session → Session}
    (alike : (c.sessionAt x).Alike (f (c.sessionAt x))) (sound : (f (c.sessionAt x)).IsSound) :
    c.Minor { c with sessions := c.sessions.modify x f } ∧ Sound { c with sessions := c.sessions.modify x f } := by
  have session : ∀ y, ({ c with sessions := c.sessions.modify x f } : Client).sessionAt y = c.sessionAt y ∨
      y = x ∧ ({ c with sessions := c.sessions.modify x f } : Client).sessionAt y = f (c.sessionAt y) := by
    intro y
    rcases sessionAt_modify c x y f with e | ⟨e, _, e'⟩
    · exact .inl e
    · exact .inr ⟨e, e'⟩
  constructor
  · refine { Minor.refl c with count := Array.size_modify, sessions := fun y => ?_, endures := fun y => ?_ }
    · rcases session y with e | ⟨rfl, e⟩
      · rw [e]
        exact Session.Same.refl _
      · rw [e]
        exact alike.same
    · rcases session y with e | ⟨rfl, e⟩
      · rw [e]
        exact .refl _ _
      · rw [e, alike.registry]
        exact .refl _ _
  · refine ⟨s.wf, fun y => ?_, s.alone, fun y => ?_⟩
    · rcases session y with e | ⟨rfl, e⟩
      · rw [e]
        exact s.sessions y
      · rw [e]
        exact sound
    · rcases session y with e | ⟨rfl, e⟩
      · rw [e]
        exact s.registries y
      · rw [e, alike.registry]
        exact s.registries y

theorem isMinor_onSession {x : SessionId} {f : Session → Session} (alike : ∀ y : Session, y.Alike (f y))
    (sound : ∀ y : Session, y.IsSound → (f y).IsSound) : IsMinor E (onSession x f) :=
  ⟨fun _ s => minor_onSession s (alike _) (sound _ (s.sessions x))⟩

@[simp] theorem does_session (s : SessionId) (c : Client) : does E (session s) c = (.ok (c.sessionAt s), c) := rfl

theorem isMinor_session (s : SessionId) : IsMinor E (session s) :=
  isMinor_get.bind fun _ => isMinor_pure _

theorem isMinor_lastSession : IsMinor E lastSession :=
  isMinor_get.bind fun _ => isMinor_pure _

/-! ### Transports -/

/-- A change of a transport that keeps what was written. -/
theorem isMinor_onTransport {t : TransportId} {f : Transport → Transport}
    (h : ∀ x : Transport, (f x).attempts = x.attempts) : IsMinor E (onTransport t f) := by
  refine ⟨fun c s => ?_⟩
  have keep : ∀ u, (does E (onTransport t f) c).2.attemptsOn u = c.attemptsOn u := fun u => by
    show ((c.transports.modify t f)[u]?.map (·.attempts)).getD [] = (c.transports[u]?.map (·.attempts)).getD []
    rw [Array.getElem?_modify]
    split
    · cases hu : c.transports[u]? with
      | none => rfl
      | some x => exact h x
    · rfl
  refine ⟨{ Minor.refl c with transports := Array.size_modify, attempts := fun u => ⟨[], ?_, by simp⟩ },
    s.wf, s.sessions, s.alone, s.registries⟩
  rw [keep u, List.append_nil]

theorem isMinor_transport (t : TransportId) : IsMinor E (transport t) :=
  isMinor_get.bind fun _ => isMinor_pure _

/-! ### Registries -/

theorem does_answerOf (r : Except Fault α) (c : Client) : does E (answerOf r) c = (r, c) := by
  cases r <;> rfl

theorem does_withRegistry_alone (op : Registry.Operation CancelHook Activity Event α) (c : Client) :
    does E (withRegistry .alone op) c = ((exec op (c.registry, c.loop)).1,
      { c with registry := (exec op (c.registry, c.loop)).2.1, loop := (exec op (c.registry, c.loop)).2.2 }) := by
  unfold withRegistry
  rw [does_bind_of_ok (does_get c)]
  exact (does_bind_of_ok (does_set c _) _).trans (does_answerOf _ _)

theorem does_withRegistry (s : SessionId) (op : Registry.Operation CancelHook Activity Event α) (c : Client) :
    does E (withRegistry (.session s) op) c =
      ((exec op ((c.sessionAt s).registry, c.loop)).1,
        { c with
          sessions := c.sessions.modify s fun x =>
            { x with registry := (exec op ((c.sessionAt s).registry, c.loop)).2.1 }
          loop := (exec op ((c.sessionAt s).registry, c.loop)).2.2 }) := by
  unfold withRegistry
  rw [does_bind_of_ok (does_get c)]
  exact (does_bind_of_ok (does_set c _) _).trans (does_answerOf _ _)

/-- A client in which a session has other requests. -/
def withRequests (c : Client) (s : SessionId) (r : Registry CancelHook) (l : Loop Activity Event) : Client :=
  { c with sessions := c.sessions.modify s fun x => { x with registry := r }, loop := l }

/-- A change of the requests of a session: none is lost, and those that it begins have ids that it has
not given away before. -/
theorem near_withRequests {c₀ : Client} (but : Option SessionId) (s : SessionId) (m : c₀.Minor c) (hc : c.Sound)
    {r : Registry CancelHook} {l : Loop Activity Event} (moves : c.loop.Moves Activity.IsRoot none l)
    (wf : l.WF notices c.running) (fit : r.Fit l)
    (pending : s < c.sessions.size → ∀ p ∈ r.pending, p ∈ (c.sessionAt s).registry.pending ∨
      (but = some s ∨ (c₀.sessionAt s).state = .running) ∧
        ∃ n : Nat, (c₀.sessionAt s).nextId ≤ n ∧ n < (c.sessionAt s).nextId ∧ p.id = .int n)
    (endures : (c.sessionAt s).registry.Endures c.loop r l) :
    c₀.Near but (c.withRequests s r l) ∧ (c.withRequests s r l).Sound := by
  have session : ∀ x, (c.withRequests s r l).sessionAt x = c.sessionAt x ∨
      x = s ∧ x < c.sessions.size ∧ (c.withRequests s r l).sessionAt x = { c.sessionAt x with registry := r } :=
    fun x => sessionAt_modify c s x fun y => { y with registry := r }
  constructor
  · refine { m.near but with
      loop := m.loop.trans moves, count := Array.size_modify.trans m.count, sessions :=
      fun x => ?_, endures := fun x => ?_ }
    · have same := (m.near but).sessions x
      rcases session x with e | ⟨rfl, hx, e⟩
      · rw [e]
        exact same
      · rw [e]
        refine ⟨⟨same.lifecycle, same.transport, same.streak, same.nextId, fun p hp => ?_⟩, same.settings, same.reader,
          same.answering⟩
        rcases pending hx p hp with hp | ⟨may, n, hn, _, hid⟩
        · exact same.pending p hp
        · exact .inr ⟨may, n, hn, hid⟩
    · refine (m.endures x).trans ?_ fun _ _ => moves.outcome
      rcases session x with e | ⟨rfl, _, e⟩
      · rw [e]
        exact .elsewhere _ fun _ _ => moves.outcome
      · rw [e]
        exact endures
  · refine ⟨wf, fun x => ?_, hc.alone.moves moves, fun x => ?_⟩
    · rcases session x with e | ⟨rfl, hx, e⟩
      · rw [e]
        exact hc.sessions x
      · rw [e]
        refine ⟨fun topic h hh => (hc.sessions x).tame topic h (by cases topic <;> exact hh), fun p hp => ?_⟩
        rcases pending hx p hp with hp | ⟨_, n, _, hn, hid⟩
        · exact (hc.sessions x).ids p hp
        · exact ⟨n, hn, hid⟩
    · rcases session x with e | ⟨rfl, _, e⟩
      · rw [e]
        exact (hc.registries x).moves moves
      · rw [e]
        exact fit

/-- Quiet operations on registries are minor. -/
theorem isMinor_withRegistry {owner : Owner} {op : Registry.Operation CancelHook Activity Event α}
    (h : Registry.IsQuiet notices Activity.IsRoot op) (deed : Registry.IsDeed op) :
    IsMinor E (withRegistry owner op) := by
  refine ⟨fun c s => ?_⟩
  cases owner with
  | alone =>
    obtain ⟨m, w, fit, _⟩ := h c.registry c.loop c.running s.wf s.alone
    have answers : does E (withRegistry .alone op) c = ((exec op (c.registry, c.loop)).1,
        { c with registry := (exec op (c.registry, c.loop)).2.1, loop := (exec op (c.registry, c.loop)).2.2 }) := by
      unfold withRegistry
      rw [does_bind_of_ok (does_get c)]
      exact (does_bind_of_ok (does_set c _) _).trans (does_answerOf _ _)
    unfold MinorAt
    rw [answers]
    exact ⟨{ Minor.refl c with loop := m, endures := fun _ => .elsewhere _ fun _ _ => m.outcome }, w, s.sessions, fit,
      fun x => (s.registries x).moves m⟩
  | session x =>
    obtain ⟨m, w, fit, shrinks⟩ := h (c.sessionAt x).registry c.loop c.running s.wf (s.registries x)
    unfold MinorAt
    rw [does_withRegistry]
    exact near_withRequests none x (Minor.refl c) s m w fit (fun _ p hp => .inl (shrinks.fewer hp))
      ⟨shrinks.kept, deed.life _ _⟩

theorem isMinor_registryOf (owner : Owner) : IsMinor E (registryOf owner) := by
  unfold registryOf
  refine isMinor_get.bind fun _ => ?_
  split
  · exact isMinor_pure _
  · exact isMinor_pure _

end Client

end LspClient
