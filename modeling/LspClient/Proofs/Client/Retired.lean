/-
A session that has stopped is left alone until it is started. Attempts that were interrupted find that it does not start
any more and end, restarts come too late, and who waits for an attempt hears that it was interrupted: nothing moves the
session, counts a failure of it or connects it, once no task is in the middle of failing it or of making a transport.
-/
import LspClient.Proofs.Client.Waits

namespace LspClient

open Client
open Activity (IsRoot)

/-! ## Definitions -/

/-- The session that an activity is there to start again after a failure. -/
def Activity.retries : Activity → Option SessionId
  | .restart s _ | .restartSlept s | .restartTried s => some s
  | _ => none

/-- What does nothing to a session that has stopped and has no transport: an attempt that was interrupted while it
waited for something, or a restart. -/
def Activity.IsSpent (s : SessionId) (a : Activity) : Prop :=
  a.tries = some s ∧ a ≠ .attemptReleased s ∨ a.retries = some s

/-- An outcome that is no failure of a connection. -/
def IsMild (o : Outcome) : Prop :=
  ∀ f, o = .error f → f.isTransport = false

/-- A session that has stopped and has no transport, and knows of the same failures as before. -/
structure Session.Lingers (x x' : Session) : Prop where
  stopped : x'.state = .stopped
  parted : x'.transport = none
  streak : x'.streak = x.streak

/-- What goes on in a session that has stopped leaves all sessions alone, and only what is spent goes on in it later. -/
structure Lapses (s : SessionId) (c : Client) (r : Except Fault Next) (c' : Client) : Prop where
  still : c.Still IsRoot none c'
  spent : ∀ b ∈ framesOf r, b.stirs = some s → b.IsSpent s

namespace Moment

/-- A session has stopped, and nothing is left of attempts to start it, or of its failures, that could stir it. -/
structure Retired (s : SessionId) (m : Moment) : Prop where
  stopped : (m.client.sessionAt s).state = .stopped
  parted : (m.client.sessionAt s).transport = none
  spent : ∀ p, ∀ a ∈ m.stack p, a.stirs = some s → a.IsSpent s ∨ a = .started s
  front : ∀ {p rest o}, m.turn = some ⟨p, .started s :: rest, o⟩ → IsMild o

/-- Nobody begins to start a session. -/
def Unstarted (s : SessionId) (m : Moment) : Prop :=
  ∀ p rest o, m.turn ≠ some ⟨p, .start s :: rest, o⟩

end Moment

variable {E : Executor} {s : SessionId} {c c' : Client} {a : Activity} {o : Outcome} {r : Except Fault Next}
  {m m' : Moment} {acts : List LspClient.Step}

/-! ## What stirs a session no more -/

/-- What goes wrong in an attempt to start a session that does not start any more is no failure of a connection. -/
theorem does_attemptFault (interrupted : (c.sessionAt s).state ≠ .starting) (f : Fault) :
    ∃ e, does E (attemptFault s f) c = (.error e, c) ∧ e.isTransport = false := by
  cases alien : f.isSession with
  | false =>
    refine ⟨f, ?_, by cases f <;> first | rfl | cases alien⟩
    unfold attemptFault
    rw [if_pos (by simp [alien])]
    rfl
  | true =>
    refine ⟨(c.sessionAt s).interruptedFault, ?_, rfl⟩
    unfold attemptFault
    rw [if_neg (by simp [alien]), does_bind_of_ok (does_session s c), if_pos interrupted]
    rfl

/-- An attempt goes on although its session does not start any more, and has no transport: it ends with what is no
failure of a connection, or closes its transport first. -/
theorem does_tries (hc : c.Sound) (interrupted : (c.sessionAt s).state ≠ .starting)
    (parted : (c.sessionAt s).transport = none) (tries : a.tries = some s) (late : a ≠ .attemptReleased s)
    (o : Outcome) :
    (∃ e, (does E (goOn a o) c).1 = .error e ∧ e.isTransport = false) ∨
      ∃ t, (does E (goOn a o) c).1 = .ok (.call (.closeTransport t) (.attemptAbandoned s)) := by
  have fault : ∀ {d : Client} {op : ClientM Next} (f : Fault), (d.sessionAt s).state ≠ .starting →
      does E op c = does E (attemptFault s f) d → ∃ e, (does E op c).1 = .error e ∧ e.isTransport = false := by
    intro d op f other goes
    obtain ⟨e, hx, mild⟩ := does_attemptFault (E := E) other f
    exact ⟨e, by rw [goes, hx], mild⟩
  cases a with
  | attemptReleased x =>
    cases tries
    exact absurd rfl late
  | attemptOpened x t =>
    cases tries
    cases o with
    | error f => exact .inl (fault f interrupted rfl)
    | ok v =>
      right
      refine ⟨t, ?_⟩
      simp only [goOn, attemptOpened]
      rw [does_bind_of_ok (does_session s c), if_pos (by simp [parted])]
      rfl
  | attemptAbandoned x =>
    cases tries
    cases o with
    | error f => exact .inl (fault f interrupted rfl)
    | ok v => exact .inl (fault _ interrupted (does_bind_of_ok (does_session s c) _))
  | attemptAnswered x t =>
    cases tries
    cases o with
    | error f => exact .inl (fault f interrupted rfl)
    | ok v =>
      left
      have writes : StillAt E IsRoot none (attempt (writeText s .initialized
          (Message.formatNotification Session.initializedMethod (.object [])))) c :=
        (stillAt_writeText hc none s (by decide) _).attempt
      have first : does E (goOn (.attemptAnswered s t) (.ok v)) c = does E (attempt (writeText s .initialized
          (Message.formatNotification Session.initializedMethod (.object []))) >>= attemptTold s v) c := rfl
      obtain ⟨still, _⟩ := writes
      rcases hx : does E (attempt (writeText s .initialized
          (Message.formatNotification Session.initializedMethod (.object [])))) c with ⟨e | told, d⟩
      · -- Nothing but a cancellation gets past the handler, and that is no failure of a connection.
        have cancels := isCancellation_of_attempt hx
        refine ⟨e, by rw [first, does_bind_of_error hx], ?_⟩
        cases e <;> first | rfl | cases cancels
      · rw [hx] at still
        have other : (d.sessionAt s).state ≠ .starting := by
          rw [(still.stays s).state]
          exact interrupted
        rw [does_bind_of_ok hx] at first
        cases told with
        | error f => exact fault f other first
        | ok u =>
          refine ⟨(d.sessionAt s).interruptedFault, ?_, rfl⟩
          simp only [attemptTold] at first
          rw [first, does_bind_of_ok (does_session s d), if_pos other]
          rfl
  | _ => cases tries

/-- An attempt that ends although its session has stopped does so with what is no failure of a connection. -/
theorem mild_of_attempts (hc : c.Sound) (stopped : (c.sessionAt s).state = .stopped)
    (parted : (c.sessionAt s).transport = none) (attempts : a.attempts = some s)
    (spent : a.stirs = some s → a.IsSpent s ∨ a = .started s) (hx : does E (goOn a o) c = (r, c')) (f : Fault)
    (failed : r = .error f) : f.isTransport = false := by
  have stirs : a.stirs = some s := by cases a <;> first | exact attempts | cases attempts
  rcases spent stirs with (⟨tries, late⟩ | retries) | rfl
  · have ends := does_tries (E := E) hc (by simp [stopped]) parted tries late o
    rw [hx] at ends
    rcases ends with ⟨e, same, mild⟩ | ⟨t, same⟩
    · cases failed.symm.trans same
      exact mild
    · cases failed.symm.trans same
  · have never : a.retries = none := by cases a <;> first | rfl | cases attempts
    rw [never] at retries
    cases retries
  · cases attempts

/-- An attempt that goes on although its session has stopped. -/
theorem lapses_of_tries (hc : c.Sound) (stopped : (c.sessionAt s).state = .stopped)
    (parted : (c.sessionAt s).transport = none) (tries : a.tries = some s) (late : a ≠ .attemptReleased s)
    (hx : does E (goOn a o) c = (r, c')) (h : c.Proceeds a o r c') : Lapses s c r c' := by
  have interrupted : (c.sessionAt s).state ≠ .starting := by simp [stopped]
  constructor
  · refine Moment.still_of_overtaken h ?_ interrupted
    cases a with
    | attemptReleased x =>
      cases tries
      exact absurd rfl late
    | attemptOpened x t =>
      cases tries
      exact .inl ⟨t, rfl, by simp [parted]⟩
    | attemptAbandoned x =>
      cases tries
      exact .inr (.inr rfl)
    | attemptAnswered x t =>
      cases tries
      exact .inr (.inl ⟨t, rfl⟩)
    | _ => cases tries
  · have ends := does_tries (E := E) hc interrupted parted tries late o
    rw [hx] at ends
    rcases ends with ⟨e, rfl, _⟩ | ⟨t, rfl⟩
    · exact nofun
    · intro b left stirs
      rcases mem_framesOf_call left with rfl | rfl
      · cases stirs
      · exact .inl ⟨rfl, nofun⟩

/-- A restart that goes on although its session has stopped. -/
theorem lapses_of_retries (hc : c.Sound) (stopped : (c.sessionAt s).state = .stopped) (retries : a.retries = some s)
    (hx : does E (goOn a o) c = (r, c')) : Lapses s c r c' := by
  have nothing : ∀ f, Lapses s c (.error f) c := fun f => ⟨Still.refl none c, nofun⟩
  cases a with
  | restart x delay =>
    cases retries
    cases o with
    | error f =>
      cases hx
      exact nothing f
    | ok v =>
      cases hx
      refine ⟨Still.refl none c, fun b left stirs => ?_⟩
      rcases mem_framesOf_call left with rfl | rfl
      · cases stirs
      · exact .inr rfl
  | restartSlept x =>
    cases retries
    cases o with
    | error f =>
      cases hx
      exact nothing f
    | ok v =>
      have late : does E (goOn (.restartSlept s) (.ok v)) c = (.ok (.done .null), c) := by
        refine (does_bind_of_ok (does_valueOf_ok v c) _).trans ((does_bind_of_ok (does_session s c) _).trans ?_)
        rw [if_neg (by simp [stopped])]
        rfl
      rw [hx] at late
      cases late
      exact ⟨Still.refl none c, nofun⟩
  | restartTried x =>
    cases retries
    obtain ⟨r', d, hy, still, _, free⟩ := (steadyAt_restartTried (E := E) hc (s := s) (by simp [stopped]) o).parts
    have same := hx.symm.trans hy
    cases same
    refine ⟨still, fun b left stirs => ?_⟩
    rw [(free b left).stirs.elim id id] at stirs
    cases stirs
  | _ => cases retries

/-- Who waits for an attempt to start a session hears that it ended, but not of a failure. -/
theorem lapses_of_started (hc : c.Sound) (mild : IsMild o) (hx : does E (goOn (.started s) o) c = (r, c')) :
    Lapses s c r c' := by
  obtain ⟨r', d, hy, still, _, free⟩ := (steadyAt_started (E := E) hc s mild).parts
  have same := hx.symm.trans hy
  cases same
  refine ⟨still, fun b left stirs => ?_⟩
  rw [(free b left).stirs.elim id id] at stirs
  cases stirs

namespace Moment

/-! ## Sessions that are retired -/

theorem Retired.lingers (h : m.Retired s) {free : Prop} {x : Session} (stays : (m.client.sessionAt s).Stays free x) :
    (m.client.sessionAt s).Lingers x :=
  ⟨stays.state.trans h.stopped, stays.transport.trans h.parted, stays.streak⟩

/-- A session that has stopped is left alone by what does not stir it. -/
theorem Proceeds.lingers {p : PromiseId} {rest : List Activity} (hp : m.Proceeds m' p a rest o r c) (h : m.Retired s)
    (calm : a.stirs ≠ some s) : (m.client.sessionAt s).Lingers (c.sessionAt s) := by
  cases alters_of_proceeds hp.proceeds with
  | still still => exact h.lingers (still.stays s)
  | @enters x target leads enters _ =>
    by_cases hs : s = x
    · cases hs
      -- It could only start, but that is not what goes on.
      have may := enters.session.may
      rw [h.stopped] at may
      have starts : target = .starting := by cases target <;> first | rfl | cases may
      rw [starts] at leads
      exact absurd (by cases a <;> cases leads; rfl) calm
    · exact h.lingers (enters.others s hs)
  | @counts x fails counted decides =>
    by_cases hs : s = x
    · cases hs
      exact absurd (by cases a <;> cases fails <;> rfl) calm
    · exact h.lingers (counted.counts.others s hs)
  | @reconnects x same changed =>
    by_cases hs : s = x
    · cases hs
      obtain ⟨state, streak⟩ := same.session
      cases changed with
      | released none _ => exact ⟨state.trans h.stopped, none, streak⟩
      | connected => exact absurd rfl calm
    · exact h.lingers (same.others s hs)
  | replies request ends writes => exact h.lingers (writes.stays s)

/-- Who waits for a session to start in the end hears of no failure of its connection. -/
theorem Proceeds.isMild {p q : PromiseId} {rest rest' : List Activity} {o' : Outcome} (sound : m.Sound)
    (hp : m.Proceeds m' p a rest o r c) (hx : does E (goOn a o) m.client = (r, c)) (waits : m.Waits s) (h : m.Retired s)
    (turn : m'.turn = some ⟨q, .started s :: rest', o'⟩) : IsMild o' := by
  have front : m'.stack q = .started s :: rest' := stack_of_turn turn
  by_cases hq : q = p
  · rw [hq] at front turn
    obtain ⟨nothing, rfl⟩ := hp.ends_of_waits hx front
    rcases ends_of_framesOf nothing with ⟨f, failed⟩ | ⟨v, ended⟩
    · -- It is an attempt to start the session that has failed.
      have before := waits.behind p
      rw [hp.stack_before] at before
      have mild := mild_of_attempts sound.client h.stopped h.parted (before.attempts rfl)
        (h.spent p a hp.mem_before) hx f failed
      rw [hp.fails f failed] at turn
      cases turn
      intro g same
      cases same
      exact mild
    · rw [hp.ends v ended] at turn
      cases turn
      exact nofun
  · exact absurd front (hp.not_waits waits hq)

/-- A session that is retired remains so when an activity goes on, unless that begins to start it. -/
theorem Proceeds.retired {p : PromiseId} {rest : List Activity} (sound : m.Sound) (hp : m.Proceeds m' p a rest o r c)
    (hx : does E (goOn a o) m.client = (r, c)) (waits : m.Waits s) (h : m.Retired s) (other : a ≠ .start s) :
    m'.Retired s ∧ (m.client.sessionAt s).Lingers (m'.client.sessionAt s) := by
  -- What stirs the session is spent.
  have lapses : a.stirs = some s → Lapses s m.client r c := by
    intro stirs
    rcases h.spent p a hp.mem_before stirs with (⟨tries, late⟩ | retries) | rfl
    · exact lapses_of_tries sound.client h.stopped h.parted tries late hx hp.proceeds
    · exact lapses_of_retries sound.client h.stopped retries hx
    · exact lapses_of_started sound.client (h.front hp.turn) hx
  have lingers : (m.client.sessionAt s).Lingers (m'.client.sessionAt s) := by
    rw [hp.sessions]
    by_cases stirs : a.stirs = some s
    · exact h.lingers ((lapses stirs).still.stays s)
    · exact hp.lingers h stirs
  have left : ∀ b ∈ framesOf r, b.stirs = some s → b.IsSpent s := by
    intro b left mine
    by_cases stirs : a.stirs = some s
    · exact (lapses stirs).spent b left mine
    · rcases (leaves_of_proceeds hp.proceeds left).of_stirs mine with rouses | ⟨_, _, running⟩
      · -- What begins to stir a session is its start, which does not go on here.
        refine absurd ?_ stirs
        cases a <;> first | exact rouses | (cases rouses; exact absurd rfl other)
      · rw [h.stopped] at running
        cases running
  refine ⟨⟨lingers.stopped, lingers.parted, ?_, hp.isMild sound hx waits h⟩, lingers⟩
  intro q b hb mine
  rcases hp.mem_or_new hb with before | ⟨_, frame⟩ | ⟨_, begins⟩
  · exact h.spent q b before mine
  · exact .inl (left b frame mine)
  · obtain ⟨_, _, d, rfl, _⟩ := begins.of_stirs mine
    cases mine
    exact .inl (.inr rfl)

/-- A session that is retired remains so as long as nobody begins to start it. -/
theorem Step.retired (hE : E.IsTame) (sound : m.Sound) (waits : m.Waits s) (h : m.Retired s) (unstarted : m.Unstarted s)
    (next : Step E acts m m') : m'.Retired s ∧ (m.client.sessionAt s).Lingers (m'.client.sessionAt s) := by
  obtain ⟨_, _, passes | ⟨p, a, rest, o, r, c, hx, hp⟩⟩ := next.spec hE sound
  · have lingers := h.lingers (passes.stays s)
    refine ⟨⟨lingers.stopped, lingers.parted, ?_, ?_⟩, lingers⟩
    · intro p a ha stirs
      rcases (passes.tasks p).mem ha with before | root
      · exact h.spent p a before stirs
      · rw [(root.free none).stirs.elim id id] at stirs
        cases stirs
    · intro p rest o turn
      have front : m'.stack p = .started s :: rest := stack_of_turn turn
      rcases passes.tasks p with same | ⟨_, b, root, only⟩
      · rw [same] at front
        obtain ⟨_, turn'⟩ := waits.front front
        cases passes.idle _ turn'
      · rw [only] at front
        cases front
        cases root.2
  · exact hp.retired sound hx waits h fun e => unstarted p rest o (e ▸ hp.turn)

/-! ## Whole runs -/

/-- A session that is retired is left alone until somebody begins to start it: it stays stopped and connects no
transport, and no failure of it is counted. -/
theorem Run.retired (hE : E.IsTame) (sound : m.Sound) (waits : m.Waits s) (h : m.Retired s)
    (run : Run E (Unstarted s) m acts m') :
    m'.Retired s ∧ (m.client.sessionAt s).Lingers (m'.client.sessionAt s) := by
  induction run with
  | refl => exact ⟨h, h.stopped, h.parted, rfl⟩
  | step run unstarted next ih =>
    obtain ⟨retired, lingers⟩ := ih
    obtain ⟨retired', lingers'⟩ := next.retired hE (run.spec hE sound).1 (run.waits hE sound waits) retired unstarted
    exact ⟨retired', lingers'.stopped, lingers'.parted, lingers'.streak.trans lingers.streak⟩

/-- Whatever is played to a new client: a session that has stopped and has no transport, and that no task fails or makes
a transport for, stays so and counts no failure, whatever is played then, until somebody begins to start it, or a task
goes on for too long. -/
theorem retired_of_played (new : c.IsNew) {before later : List LspClient.Step} (hb : ∀ step ∈ before, IsPlayable step)
    (hl : ∀ step ∈ later, IsPlayable step) (stopped : ((playedBy c before).sessionAt s).state = .stopped)
    (parted : ((playedBy c before).sessionAt s).transport = none)
    (spent : ∀ p, ∀ a ∈ (playedBy c before).loop.stackOf p, a.stirs = some s → a.IsSpent s ∨ a = .started s) :
    ((playedBy c before).sessionAt s).Lingers ((playedBy c (before ++ later)).sessionAt s) ∨
      Overlong (executor nesting) ⟨c, none⟩ ((before ++ later).flatMap actsOf) ∨
      Strays (executor nesting) (Unstarted s) ⟨playedBy c before, none⟩ (later.flatMap actsOf)
        ⟨playedBy c (before ++ later), none⟩ := by
  have hE := isTame_executor nesting
  have whole : playedBy c (before ++ later) = playedBy (playedBy c before) later := List.foldl_append
  rw [whole, List.flatMap_append]
  rcases leads_playedBy hb c with first | overlong
  · rcases leads_playedBy hl (playedBy c before) with run | overlong
    · rcases run.keeps_or_strays (Unstarted s) with idle | strays
      · left
        have sound := (first.spec hE (sound_of_isNew new)).1
        have waits := first.waits hE (sound_of_isNew new) (waits_of_isNew (s := s) new)
        have rests : Retired s ⟨playedBy c before, none⟩ := ⟨stopped, parted, spent, nofun⟩
        exact (Run.retired hE sound waits rests (idle.mono fun _ h => h.2)).2
      · exact .inr (.inr strays)
    · exact .inr (.inl (overlong.after first))
  · exact .inr (.inl (overlong.before _))

end Moment

end LspClient
