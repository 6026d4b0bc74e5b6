/-
What an activity does when it goes on with an outcome. Most leave the lives of sessions alone; the others
change the state or the transport of one session, let it begin a request, or serve its server. Each kind
of change is the doing of one kind of activity.
-/
import LspClient.Proofs.Client.Counting
import LspClient.Proofs.Client.Serving

namespace LspClient

open Activity (IsRoot)

/-! ## Definitions -/

/-- The state that a session moves to when an activity goes on, if it moves. -/
def Activity.leadsTo : Activity → Option (SessionId × SessionState)
  | .attempt s => some (s, .starting)
  | .attemptAnswered s _ => some (s, .running)
  | .fail s _ => some (s, .failed)
  | .stop s _ => some (s, .stopping)
  | .stopReleased s _ _ => some (s, .stopped)
  | _ => none

namespace Client

/-- Whether an activity cannot but give up something of a session, its transport or its requests on the way
to stop, or answer a request. -/
def IsBound (a : Activity) (o : Outcome) : Prop :=
  (∃ s v, a = .release s ∧ o = .ok v) ∨ (∃ s clear, a = .stopAnnounced s clear) ∨ a.answers.isSome = true

/-- What an activity does with an outcome, and what it leaves to do. All but some activities in the
lives of sessions leave their states alone. -/
inductive Proceeds (c : Client) : Activity → Outcome → Except Fault Next → Client → Prop
  | steady {a : Activity} {o : Outcome} {r : Except Fault Next} {c' : Client} (still : c.Still IsRoot none c')
    (free : ∀ b ∈ framesOf r, b.IsFree a.rouses) (kept : ¬ IsBound a o) : Proceeds c a o r c'
  /-- A session begins to start, and releases its old transport first. -/
  | attempt {s : SessionId} {o : Outcome} {c' : Client}
    (starts : c.Changes s (Session.Enters .starting) c' ∨ c.Still IsRoot none c') :
    Proceeds c (.attempt s) o (.ok (.call (.release s) (.attemptReleased s))) c'
  /-- A session has a new transport, whatever state it is in. -/
  | connect {s : SessionId} {v : Value} {t : TransportId} {c' : Client}
    (connects : c.Changes s Session.Remains c') (new : c.transports.size ≤ t)
    (made : t < c'.transports.size) (connected : s < c.sessions.size → (c'.sessionAt s).transport = some t) :
    Proceeds c (.attemptReleased s) (.ok v) (.ok (.call (.openTransport t) (.attemptOpened s t))) c'
  /-- A session sends its first request on its transport. -/
  | greet {s : SessionId} {t : TransportId} {o : Outcome} {r : Except Fault Next} {c' : Client}
    (connected : (c.sessionAt s).transport = some t) (still : c.Still (c.Begins (.attemptOpened s t)) (some s) c')
    (free : ∀ b ∈ framesOf r, b.IsFree (some s)) : Proceeds c (.attemptOpened s t) o r c'
  | run {s : SessionId} {t : TransportId} {o : Outcome} {r : Except Fault Next} {c' : Client}
    (runs : c.Changes s Session.Runs c') (ends : framesOf r = []) : Proceeds c (.attemptAnswered s t) o r c'
  | fail {s : SessionId} {f : Fault} {o : Outcome} {c' : Client} (gives : c.GivesUp s c')
    (fails : c.Changes s (Session.EntersQuiet .failed) c') :
    Proceeds c (.fail s f) o (.ok (.call (.release s) (.failReleased s f))) c'
  | stop {s : SessionId} {clear : Bool} {o : Outcome} {r : Except Fault Next} {c' : Client}
    (stops : c.Stops s clear r c') : Proceeds c (.stop s clear) o r c'
  /-- A failure of a session is counted. What the policy decides on follows, unless that fails itself. -/
  | count {a : Activity} {s : SessionId} {o : Outcome} {r : Except Fault Next} {c' : Client} (fails : a.counts = some s)
    (counted : c.Counted a s c') (ends : framesOf r = []) (decides : ∀ next, r = .ok next → c.Decides s true c') :
    Proceeds c a o r c'
  /-- A session sends its last request. -/
  | leave {s : SessionId} {o : Outcome} {r : Except Fault Next} {c' : Client} (still : c.Still IsRoot (some s) c')
    (next : framesOf r = [] ∨ framesOf r = [.shutDownAnswered s]) : Proceeds c (.shutDown s) o r c'
  | announced {s : SessionId} {clear : Bool} {f : Option Fault} {o : Outcome} {c' : Client}
    (still : c.Still IsRoot none c') (gives : c.GivesUp s c') (quiet : (c'.sessionAt s).registry.pending = []) :
    Proceeds c (.stopAnnounced s clear) o (.ok (.call (.release s) (.stopReleased s clear f))) c'
  | stopped {s : SessionId} {clear : Bool} {f : Option Fault} {v : Value} {r : Except Fault Next} {c' : Client}
    (stops : c.Changes s Session.Halts c') (ends : framesOf r = []) : Proceeds c (.stopReleased s clear f) (.ok v) r c'
  | release {s : SessionId} {v : Value} {r : Except Fault Next} {c' : Client}
    (releases : c.Changes s Session.Disconnects c') (next : framesOf r = [.releaseReader s (c.sessionAt s).transport]) :
    Proceeds c (.release s) (.ok v) r c'
  /-- The reader of a session has ended: the tasks that answer requests are cancelled. -/
  | silence {s : SessionId} {t : Option TransportId} {v : Value} {r : Except Fault Next} {c' : Client}
    (still : c.Still IsRoot none c') (next : framesOf r = [.releaseAnswers s t]) :
    Proceeds c (.releaseReader s t) (.ok v) r c'
  /-- A reader reads on, or stops to. Its session may fail next, if it runs. -/
  | read {a : Activity} {s : SessionId} {t : TransportId} {o : Outcome} {r : Except Fault Next} {c' : Client}
    (reads : a.reads = some (s, t)) (still : c.Still (c.Begins a) none c')
    (next : ∀ b ∈ framesOf r, b.IsFree (some s) ∨ b.reads = some (s, t))
    (idle : (c.sessionAt s).state ≠ .running → ∀ b ∈ framesOf r, b.stirs = none) : Proceeds c a o r c'
  | answer {a : Activity} {s : SessionId} {id : RequestId} {o : Outcome} {r : Except Fault Next} {c' : Client}
    (request : a.answers = some (s, id)) (answers : c.Answers s id r c') : Proceeds c a o r c'

variable {E : Executor} {s : SessionId} {c c' : Client} {a : Activity} {o : Outcome} {r : Except Fault Next}

/-! ## Going on with an activity -/

/-- A call leaves what is called, and then what called it. -/
theorem mem_framesOf_call {b x k : Activity} (left : b ∈ framesOf (.ok (.call x k))) : b = x ∨ b = k := by
  rcases List.mem_cons.1 left with e | left
  · exact .inl e
  · exact .inr (List.mem_singleton.1 left)

/-- An activity that does nothing after all. -/
theorem proceeds_error (kept : ¬ IsBound a o) (f : Fault) (c : Client) : c.Proceeds a o (.error f) c :=
  .steady (Still.refl none c) (fun _ hb => by cases hb) kept

theorem proceeds_of_steady {op : ClientM Next} (h : SteadyAt E none a.rouses op c) (kept : ¬ IsBound a o) :
    ∃ r c', does E op c = (r, c') ∧ c'.Sound ∧ c.Proceeds a o r c' := by
  obtain ⟨r, c', hx, still, hc', free⟩ := h.parts
  exact ⟨r, c', hx, hc', .steady still free kept⟩

/-- An activity that ends, and may count a failure. -/
theorem proceeds_of_counting {op : ClientM Next} (fails : a.counts = some s)
    (h : SteadyAt E none none op c ∨ EndsCounting E a s op c) :
    ∃ r c', does E op c = (r, c') ∧ c'.Sound ∧ c.Proceeds a o r c' := by
  rcases h with h | ⟨r, c', hx, hc', ends, counts, decides⟩
  · obtain ⟨r, c', hx, still, hc', free⟩ := h.parts
    refine ⟨r, c', hx, hc', .steady still (fun b hb => (free b hb).weaken _) fun bound => ?_⟩
    rcases bound with ⟨_, _, rfl, _⟩ | ⟨_, _, rfl⟩ | answers
    · cases fails
    · cases fails
    · cases a <;> first | exact Bool.noConfusion answers | cases fails
  · exact ⟨r, c', hx, hc', .count fails counts ends decides⟩

/-- An activity that begins does so with a value only. -/
theorem proceeds_beginning (hc : c.Sound) {next : ClientM Next} (other : ∀ f, ¬ IsBound a (.error f)) (o : Outcome)
    (h : ∀ v, ∃ r c', does E next c = (r, c') ∧ c'.Sound ∧ c.Proceeds a (.ok v) r c') :
    ∃ r c', does E (beginning o next) c = (r, c') ∧ c'.Sound ∧ c.Proceeds a o r c' := by
  cases o with
  | error f => exact ⟨.error f, c, rfl, hc, proceeds_error (other f) f c⟩
  | ok v => exact h v

theorem does_goOn_vital (hE : E.IsTame) (hc : c.Sound) (vital : a.isVital = true) (o : Outcome) :
    ∃ r c', does E (goOn a o) c = (r, c') ∧ c'.Sound ∧ c.Proceeds a o r c' := by
  cases a with
  | attempt s =>
    refine proceeds_beginning hc (by simp [IsBound, Activity.answers]) o fun v => ?_
    rcases does_beginAttempt (E := E) hc s with ⟨f, hx⟩ | ⟨c', hx, hc', starts⟩
    · exact ⟨_, c, hx, hc, proceeds_error (by simp [IsBound, Activity.answers]) f c⟩
    · exact ⟨_, c', hx, hc', .attempt starts⟩
  | attemptReleased s =>
    cases o with
    | error f => exact ⟨.error f, c, rfl, hc, proceeds_error (by simp [IsBound, Activity.answers]) f c⟩
    | ok v =>
      rcases does_attemptReleased (E := E) hc s v with h | ⟨t, c', hx, hc', connects, new, made, connected⟩
      · exact proceeds_of_steady h (by simp [IsBound, Activity.answers])
      · exact ⟨_, c', hx, hc', .connect connects new made connected⟩
  | attemptOpened s t =>
    rcases does_attemptOpened hE hc s t o with h | ⟨connected, r, c', hx, still, hc', free⟩
    · exact proceeds_of_steady h (by simp [IsBound, Activity.answers])
    · exact ⟨r, c', hx, hc', .greet connected still free⟩
  | attemptAnswered s t =>
    rcases does_attemptAnswered hE hc s o with h | ⟨r, c', hx, hc', ends, runs⟩
    · exact proceeds_of_steady h (by simp [IsBound, Activity.answers])
    · exact ⟨r, c', hx, hc', .run runs ends⟩
  | stop s clear =>
    refine proceeds_beginning hc (by simp [IsBound, Activity.answers]) o fun v => ?_
    rcases does_stop (E := E) hc s clear with h | ⟨r, c', hx, hc', stops⟩
    · exact proceeds_of_steady (a := .stop s clear) h (by simp [IsBound, Activity.answers])
    · exact ⟨r, c', hx, hc', .stop stops⟩
  | stopAnnounced s clear =>
    have announced : ∀ f, ∃ r c', does E (stopRelease s clear f) c = (r, c') ∧ c'.Sound ∧
        c.Proceeds (.stopAnnounced s clear) o r c' := by
      intro f
      obtain ⟨c', hx, m, hc', gives, quiet⟩ := does_stopRelease (E := E) hc s clear f
      exact ⟨_, c', hx, hc', .announced m.still gives quiet⟩
    cases o with
    | ok v => exact announced none
    | error f => exact announced (some f)
  | stopReleased s clear f =>
    cases o with
    | error e => exact ⟨.error e, c, rfl, hc, proceeds_error (by simp [IsBound, Activity.answers]) e c⟩
    | ok v =>
      rcases does_stopReleased hE hc s clear f v with ⟨_, e, hx⟩ | ⟨r, c', hx, hc', ends, stops⟩
      · exact ⟨_, c, hx, hc, proceeds_error (by simp [IsBound, Activity.answers]) e c⟩
      · exact ⟨r, c', hx, hc', .stopped stops ends⟩
  | shutDown s =>
    refine proceeds_beginning hc (by simp [IsBound, Activity.answers]) o fun v => ?_
    obtain ⟨r, c', hx, still, hc', next⟩ := does_shutDown hE hc s
    exact ⟨r, c', hx, hc', .leave still next⟩
  | shutDownAnswered s =>
    exact proceeds_of_steady (steadyAt_shutDownAnswered hc s o) (by simp [IsBound, Activity.answers])
  | fail s f =>
    refine proceeds_beginning hc (by simp [IsBound, Activity.answers]) o fun v => ?_
    rcases does_fail (E := E) hc s f with ⟨_, e, hx⟩ | ⟨c', hx, hc', gives, fails⟩
    · exact ⟨_, c, hx, hc, proceeds_error (by simp [IsBound, Activity.answers]) e c⟩
    · exact ⟨_, c', hx, hc', .fail gives fails⟩
  | release s =>
    refine proceeds_beginning hc (by simp [IsBound, Activity.answers]) o fun v => ?_
    obtain ⟨r, c', hx, hc', next, releases⟩ := does_release (E := E) hc s
    exact ⟨r, c', hx, hc', .release releases next⟩
  | releaseReader s t =>
    cases o with
    | error f => exact ⟨.error f, c, rfl, hc, proceeds_error (by simp [IsBound, Activity.answers]) f c⟩
    | ok v =>
      obtain ⟨r, c', hx, still, hc', next⟩ := does_releaseReader (E := E) hc s t v
      exact ⟨r, c', hx, hc', .silence still next⟩
  | readLoop s t =>
    refine proceeds_beginning hc (by simp [IsBound, Activity.answers]) o fun v => ?_
    have next : ∀ b ∈ framesOf (.ok (.call (.receive t) (.readLoopReceived s t))), b.IsFree none ∨
        b.reads = some (s, t) := by
      intro b hb
      rcases mem_framesOf_call hb with rfl | rfl
      · exact .inl (IsRoot.free ⟨rfl, rfl⟩ none)
      · exact .inr rfl
    refine ⟨_, c, rfl, hc, .read rfl (Still.refl none c) (fun b hb => (next b hb).imp_left (·.weaken _))
      fun _ b hb => ?_⟩
    rcases next b hb with free | again
    · exact free.stirs.elim id id
    · cases b <;> first | rfl | cases again
  | readLoopReceived s t =>
    have reads : ReadsAt E s t (readLoopReceived s t o) c := readsAt_readLoopReceived hE hc s t o
    exact ⟨_, _, rfl, reads.still.2, .read rfl reads.still.1 reads.next reads.idle⟩
  | started s => exact proceeds_of_counting rfl (does_started hE hc s o)
  | restartTried s => exact proceeds_of_counting rfl (does_restartTried hE hc s o)
  | lostFailed s f => exact proceeds_of_counting rfl (does_lostFailed hE hc s f o)
  | answer s id method params =>
    cases o with
    | error f =>
      exact ⟨.error f, c, rfl, hc, .answer rfl (.drops (Still.refl none c) rfl (.inr ⟨f, rfl⟩))⟩
    | ok v =>
      have h : AnswersAt E s id (answer s id method params) c := answersAt_answer hE hc method params
      exact ⟨_, _, rfl, h.1, .answer rfl h.2⟩
  | answered s id method =>
    have h : AnswersAt E s id (answered s id method o) c := answersAt_answered hE hc method o
    exact ⟨_, _, rfl, h.1, .answer rfl h.2⟩
  | _ => exact Bool.noConfusion vital

/-- Every tame activity does what it may. -/
theorem does_goOn (hE : E.IsTame) (hc : c.Sound) (tame : a.isTame = true) (o : Outcome) :
    ∃ r c', does E (goOn a o) c = (r, c') ∧ c'.Sound ∧ c.Proceeds a o r c' := by
  cases vital : a.isVital with
  | true => exact does_goOn_vital hE hc vital o
  | false =>
    refine proceeds_of_steady ((isCalm_goOn_free hE tame vital o).steady hc) ?_
    rintro (⟨s, v, rfl, _⟩ | ⟨s, clear, rfl⟩ | answers)
    · cases vital
    · cases vital
    · cases a <;> first | exact Bool.noConfusion vital | exact Bool.noConfusion answers

/-! ## What changes -/

/-- How the transport of a session changes: the session gives it up, or an attempt to start connects it. -/
inductive Reconnects (c : Client) (s : SessionId) : Activity → Except Fault Next → Client → Prop
  | released {r : Except Fault Next} {c' : Client} (none : (c'.sessionAt s).transport = none)
    (next : framesOf r = [.releaseReader s (c.sessionAt s).transport]) : Reconnects c s (.release s) r c'
  | connected {t : TransportId} {c' : Client} (new : c.transports.size ≤ t) (made : t < c'.transports.size)
    (here : (c'.sessionAt s).transport = some t ∨ (c'.sessionAt s).transport = (c.sessionAt s).transport) :
    Reconnects c s (.attemptReleased s) (.ok (.call (.openTransport t) (.attemptOpened s t))) c'

/-- The kinds of changes that an activity makes: none in the lives of sessions, a session moves to a state, counts a
failure, or changes its transport, or a request of the server is answered. -/
inductive Alters (c : Client) (a : Activity) (r : Except Fault Next) (c' : Client) : Prop
  | still {but : Option SessionId} (still : c.Still (c.BeginsFree a) but c')
  | enters {s : SessionId} {target : SessionState} (leads : a.leadsTo = some (s, target))
    (enters : c.Changes s (Session.Enters target) c') (runs : target = .running → (c.sessionAt s).Runs (c'.sessionAt s))
  | counts {s : SessionId} (fails : a.counts = some s) (counted : c.Counted a s c')
    (decides : ∀ next, r = .ok next → c.Decides s true c')
  | reconnects {s : SessionId} (same : c.Changes s Session.Remains c') (changed : c.Reconnects s a r c')
  | replies {s : SessionId} {id : RequestId} {t : TransportId} {text : String} (request : a.answers = some (s, id))
    (ends : framesOf r = []) (writes : c.Replies s id t text c')

/-- Each kind of change is the doing of one kind of activity. -/
theorem alters_of_proceeds (h : c.Proceeds a o r c') : c.Alters a r c' := by
  have still : ∀ {but : Option SessionId}, c.Still IsRoot but c' → c.Alters a r c' :=
    fun still => .still (still.mono fun b root => beginsFree_root root)
  cases h with
  | steady quiet free kept => exact still quiet
  | attempt starts =>
    rcases starts with starts | quiet
    · exact .enters rfl starts nofun
    · exact still quiet
  | @connect s _ _ _ connects new made connected =>
    refine .reconnects connects (.connected new made ?_)
    by_cases inside : s < c.sessions.size
    · exact .inl (connected inside)
    · -- There is no such session, before and after.
      right
      unfold sessionAt
      rw [Array.getElem?_eq_none (Nat.le_of_not_lt inside),
        Array.getElem?_eq_none (by rw [connects.count]; exact Nat.le_of_not_lt inside)]
  | greet connected begins free => exact .still (begins.mono fun b begins => begins.beginsFree rfl)
  | run runs ends => exact .enters rfl (runs.weaken fun _ _ runs => runs.1) fun _ => runs.session
  | count fails counted ends decides => exact .counts fails counted decides
  | fail gives fails => exact .enters rfl (fails.weaken fun _ _ enters => enters.1) nofun
  | stop stops =>
    rcases stops with ⟨_, stops⟩ | ⟨_, stops⟩
    · exact .enters rfl stops nofun
    · exact .enters rfl (stops.weaken fun _ _ enters => enters.1) nofun
  | leave quiet next => exact still quiet
  | announced quiet gives none => exact still quiet
  | stopped stops ends => exact .enters rfl (stops.weaken fun _ _ halts => halts.1) nofun
  | release releases next =>
    exact .reconnects (releases.weaken fun _ _ disconnects => disconnects.1) (.released releases.session.2.1 next)
  | silence quiet next => exact still quiet
  | read reads begins next idle =>
    have plain : a.counts = none := by cases a <;> first | rfl | cases reads
    exact .still (begins.mono fun b begins => begins.beginsFree plain)
  | answer request answers =>
    cases answers with
    | waits quiet calls again => exact still quiet
    | replies writes ends => exact .replies request ends writes
    | drops quiet ends why => exact still quiet

/-- Whatever an activity does, the client goes on. -/
theorem Alters.goes (h : c.Alters a r c') : c.Goes (c.Begins a) c' := by
  have root : ∀ b : Activity, b.IsRoot → c.Begins a b := fun b h => .root h
  cases h with
  | still still => exact still.goes.mono fun b begins => begins.1
  | enters leads enters runs => exact enters.toGoes.mono root
  | counts fails counted decides => exact counted.counts.toGoes
  | reconnects same changed => exact same.toGoes.mono root
  | replies request ends writes => exact writes.toGoes.mono root

/-- A session that is in another state than before has been moved there by an activity of its own. -/
theorem Alters.leadsTo (h : c.Alters a r c') (moves : (c'.sessionAt s).state ≠ (c.sessionAt s).state) :
    a.leadsTo = some (s, (c'.sessionAt s).state) := by
  cases h with
  | still still => exact absurd (still.stays s).state moves
  | @enters x target leads enters runs =>
    by_cases hs : s = x
    · rw [hs, enters.session.state]
      exact leads
    · exact absurd (enters.others s hs).state moves
  | counts fails counted decides => exact absurd (counted.counts.state s) moves
  | @reconnects x same changed =>
    by_cases hs : s = x
    · rw [hs] at moves
      exact absurd same.session.1 moves
    · exact absurd (same.others s hs).state moves
  | replies request ends writes => exact absurd (writes.stays s).state moves

/-- A session has the same transport as before unless it gives it up, or an attempt to start connects it. -/
theorem Alters.transport (h : c.Alters a r c') (s : SessionId) :
    (c'.sessionAt s).transport = (c.sessionAt s).transport ∨ c.Reconnects s a r c' := by
  cases h with
  | still still => exact .inl (still.stays s).transport
  | @enters x target leads enters runs =>
    by_cases hs : s = x
    · rw [hs]
      exact .inl enters.session.transport
    · exact .inl (enters.others s hs).transport
  | counts fails counted decides => exact .inl (counted.counts.transport s)
  | @reconnects x same changed =>
    by_cases hs : s = x
    · rw [hs]
      exact .inr changed
    · exact .inl (same.others s hs).transport
  | replies request ends writes => exact .inl (writes.stays s).transport

/-- No request of the server is answered but by an activity that is there for it, and then by one message. -/
theorem Alters.answersOn (h : c.Alters a r c') :
    (∀ t, c'.answersOn t = c.answersOn t) ∨
      framesOf r = [] ∧ ∃ s id t text, a.answers = some (s, id) ∧ c.Replies s id t text c' := by
  cases h with
  | still still => exact .inl still.answers
  | enters leads enters runs => exact .inl enters.answers
  | counts fails counted decides => exact .inl counted.counts.answers
  | reconnects same changed => exact .inl same.answers
  | replies request ends writes => exact .inr ⟨ends, _, _, _, _, request, writes⟩

/-! ## What is left to do -/

/-- What is left to do after an activity: what is in the middle of nothing or stirs the same session, or something
that only some activities leave. -/
inductive Leaves (c : Client) (a : Activity) (r : Except Fault Next) : Activity → Prop
  | free {b : Activity} (free : b.IsFree a.rouses) : Leaves c a r b
  /-- A session is about to give up its transport, or to take leave of its server. -/
  | brief {b k : Activity} (brief : b.isBrief = true) (called : r = .ok (.call b k)) (plain : k.isBrief = false) :
    Leaves c a r b
  | stops {b : Activity} {s : SessionId} (stops : b.stops = some s) : Leaves c a r b
  | opens {s : SessionId} {t : TransportId} (connects : a = .attemptReleased s)
    (called : r = .ok (.call (.openTransport t) (.attemptOpened s t))) : Leaves c a r (.attemptOpened s t)
  | releases {s : SessionId} (releases : a = .release s) : Leaves c a r (.releaseReader s (c.sessionAt s).transport)
  | silences {s : SessionId} {t : Option TransportId} (silences : a = .releaseReader s t) :
    Leaves c a r (.releaseAnswers s t)
  | takesLeave {s : SessionId} (leaves : a = .shutDown s) : Leaves c a r (.shutDownAnswered s)
  | reads {b : Activity} {s : SessionId} {t : TransportId} (mine : a.reads = some (s, t))
    (again : b.reads = some (s, t)) :
    Leaves c a r b
  /-- A session that runs has lost its connection, if it is stirred at all. -/
  | loses {b : Activity} {s : SessionId} {t : TransportId} (mine : a.reads = some (s, t)) (free : b.IsFree (some s))
    (running : b.stirs ≠ none → (c.sessionAt s).state = .running) : Leaves c a r b
  | waits {x k : Activity} {s : SessionId} {id : RequestId} (mine : a.answers = some (s, id))
    (called : r = .ok (.call x k)) (calls : x.IsRoot) (again : k.answers = some (s, id)) : Leaves c a r k

theorem leaves_of_proceeds (h : c.Proceeds a o r c') {b : Activity} (left : b ∈ framesOf r) : c.Leaves a r b := by
  have nothing : framesOf r = [] → c.Leaves a r b := fun none => by
    rw [none] at left
    cases left
  have only : ∀ {x : Activity}, framesOf r = [x] → b = x := fun one => by
    rw [one] at left
    exact List.mem_singleton.1 left
  cases h with
  | steady still free kept => exact .free (free b left)
  | attempt starts =>
    rcases mem_framesOf_call left with rfl | rfl
    · exact .brief rfl rfl rfl
    · exact .free ⟨rfl, rfl, rfl, .inr rfl⟩
  | connect connects new made connected =>
    rcases mem_framesOf_call left with rfl | rfl
    · exact .free (IsRoot.free ⟨rfl, rfl⟩ _)
    · exact .opens rfl rfl
  | greet connected still free => exact .free (free b left)
  | run runs ends => exact nothing ends
  | count fails counted ends decides => exact nothing ends
  | fail gives fails =>
    rcases mem_framesOf_call left with rfl | rfl
    · exact .brief rfl rfl rfl
    · exact .free ⟨rfl, rfl, rfl, .inr rfl⟩
  | stop stops =>
    rcases stops with ⟨rfl, _⟩ | ⟨rfl, _⟩
    · rcases mem_framesOf_call left with rfl | rfl
      · exact .brief rfl rfl rfl
      · exact .stops rfl
    · rcases mem_framesOf_call left with rfl | rfl
      · exact .brief rfl rfl rfl
      · exact .stops rfl
  | leave still next =>
    rcases next with ends | waits
    · exact nothing ends
    · rw [only waits]
      exact .takesLeave rfl
  | announced still gives quiet =>
    rcases mem_framesOf_call left with rfl | rfl
    · exact .brief rfl rfl rfl
    · exact .stops rfl
  | stopped stops ends => exact nothing ends
  | release releases next =>
    rw [only next]
    exact .releases rfl
  | silence still next =>
    rw [only next]
    exact .silences rfl
  | @read _ s t _ _ _ reads still next idle =>
    rcases next b left with free | again
    · refine .loses reads free fun stirs => Classical.byContradiction fun other => ?_
      exact stirs (idle other b left)
    · exact .reads reads again
  | answer request answers =>
    cases answers with
    | waits still calls again =>
      rcases mem_framesOf_call left with rfl | rfl
      · exact .free (calls.free _)
      · exact .waits request rfl calls again
    | replies writes ends => exact nothing ends
    | drops still ends why => exact nothing ends

/-- What has a transport in hand is about to open it, takes it over from its session, or is left by what had it in
hand. -/
theorem Leaves.of_handles {b : Activity} {t : TransportId} (h : c.Leaves a r b) (handles : b.handles = some (s, t)) :
    a = .attemptReleased s ∧ r = .ok (.call (.openTransport t) (.attemptOpened s t)) ∨
      a = .release s ∧ (c.sessionAt s).transport = some t ∨ a.handles = some (s, t) := by
  have never : b.handles ≠ none := by simp [handles]
  cases h with
  | free free => exact absurd free.not_handles never
  | loses _ free _ => exact absurd free.not_handles never
  | brief brief => exact absurd (by cases b <;> first | rfl | cases brief) never
  | stops stops => exact absurd (by cases b <;> first | rfl | cases stops) never
  | opens connects called =>
    cases handles
    exact .inl ⟨connects, called⟩
  | @releases x releases =>
    cases ht : (c.sessionAt x).transport with
    | none => simp [ht, Activity.handles] at handles
    | some u =>
      rw [ht] at handles
      cases handles
      exact .inr (.inl ⟨releases, ht⟩)
  | @silences _ u silences =>
    cases u with
    | none => cases handles
    | some u =>
      rw [silences]
      exact .inr (.inr handles)
  | takesLeave _ => cases handles
  | reads _ again => exact absurd (by cases b <;> first | rfl | cases again) never
  | waits _ _ _ again => exact absurd (by cases b <;> first | rfl | cases again) never

/-- Only what answers a request leaves something to do that answers it. -/
theorem Leaves.of_answers {b : Activity} {id : RequestId} (h : c.Leaves a r b) (request : b.answers = some (s, id)) :
    a.answers = some (s, id) ∧ ∃ x, r = .ok (.call x b) ∧ x.answers = none := by
  have never : b.answers ≠ none := by simp [request]
  cases h with
  | free free => exact absurd free.not_serves.2 never
  | loses _ free _ => exact absurd free.not_serves.2 never
  | brief brief => exact absurd (by cases b <;> first | rfl | cases brief) never
  | stops stops => exact absurd (by cases b <;> first | rfl | cases stops) never
  | reads _ again => exact absurd (by cases b <;> first | rfl | cases again) never
  | waits mine called calls again =>
    rw [request] at again
    cases again
    exact ⟨mine, _, called, (calls.free none).not_serves.2⟩
  | _ => cases request

/-- Only what reads from a transport leaves something to do that reads from it. -/
theorem Leaves.of_reads {b : Activity} {t : TransportId} (h : c.Leaves a r b) (reading : b.reads = some (s, t)) :
    a.reads = some (s, t) := by
  have never : b.reads ≠ none := by simp [reading]
  cases h with
  | free free => exact absurd free.not_serves.1 never
  | loses _ free _ => exact absurd free.not_serves.1 never
  | brief brief => exact absurd (by cases b <;> first | rfl | cases brief) never
  | stops stops => exact absurd (by cases b <;> first | rfl | cases stops) never
  | reads mine again =>
    rw [reading] at again
    cases again
    exact mine
  | waits _ _ _ again => exact absurd (by cases b <;> first | rfl | cases again) never
  | _ => cases reading

/-- Only what stirs a session leaves something to do that stirs it, or a reader that has lost its connection. -/
theorem Leaves.of_stirs {b : Activity} (h : c.Leaves a r b) (stirs : b.stirs = some s) :
    a.rouses = some s ∨ ∃ t, a.reads = some (s, t) ∧ (c.sessionAt s).state = .running := by
  have never : b.stirs ≠ none := by simp [stirs]
  have same : ∀ {of : Option SessionId}, b.IsFree of → of = some s := by
    intro of free
    rcases free.stirs with quiet | mine
    · exact absurd quiet never
    · exact mine.symm.trans stirs
  cases h with
  | free free => exact .inl (same free)
  | brief brief => exact absurd (by cases b <;> first | rfl | cases brief) never
  | stops stops => exact absurd (by cases b <;> first | rfl | cases stops) never
  | opens connects called =>
    cases stirs
    exact .inl (connects ▸ rfl)
  | reads _ again => exact absurd (by cases b <;> first | rfl | cases again) never
  | loses mine free running =>
    cases same free
    exact .inr ⟨_, mine, running never⟩
  | waits _ _ _ again => exact absurd (by cases b <;> first | rfl | cases again) never
  | _ => cases stirs

end Client

end LspClient
