/-
Who waits for a session to start. A task does so right behind an attempt to start the session, in whatever the attempt
goes on with, and goes on in the same turn in which the attempt ends.
-/
import LspClient.Proofs.Client.Starting

namespace LspClient

open Client
open Activity (IsRoot)

/-! ## Definitions -/

/-- The session that an activity is in the middle of an attempt to start, from its beginning to its end. -/
def Activity.attempts : Activity → Option SessionId
  | .attempt s | .attemptFailed s _ => some s
  | a => a.tries

/-- Whoever waits in a task for a session to start is right behind an attempt to start it. -/
def Trails (s : SessionId) : List Activity → Prop
  | x :: y :: rest => (y = .started s → x.attempts = some s) ∧ Trails s (y :: rest)
  | _ => True

/-- What an activity leaves to do: nobody waits for a session to start but behind an attempt, and an attempt goes on as
one. -/
structure Follows (s : SessionId) (a : Activity) (frames : List Activity) : Prop where
  trails : Trails s frames
  head : frames.head? ≠ some (.started s)
  last : a.attempts = some s → ∀ k, frames.getLast? = some k → k.attempts = some s

/-- An operation that leaves to do what may follow an activity. -/
def FollowsIn (E : Executor) (s : SessionId) (a : Activity) (op : ClientM Next) : Prop :=
  ∀ c, Follows s a (framesOf (does E op c).1)

/-- Tasks wait for a session to start behind attempts to start it. When those have ended, they go on at once. -/
structure Moment.Waits (s : SessionId) (m : Moment) : Prop where
  behind : ∀ p, Trails s (m.stack p)
  front : ∀ {p rest}, m.stack p = .started s :: rest → ∃ o, m.turn = some ⟨p, .started s :: rest, o⟩

variable {E : Executor} {s : SessionId} {c c' : Client} {a : Activity} {o : Outcome} {r : Except Fault Next} {α : Type}
  {m m' : Moment} {acts : List LspClient.Step} {P : Moment → Prop}

/-! ## What follows an activity -/

theorem follows_nil : Follows s a [] :=
  ⟨trivial, nofun, nofun⟩

/-- One thing is left to do. -/
theorem follows_one {k : Activity} (other : k ≠ .started s) (goes : a.attempts = some s → k.attempts = some s) :
    Follows s a [k] := by
  refine ⟨trivial, by simpa using other, fun attempts x last => ?_⟩
  cases last
  exact goes attempts

/-- Something is called, and what waits for it goes on after that. -/
theorem follows_call {x k : Activity} (other : x ≠ .started s) (behind : k = .started s → x.attempts = some s)
    (goes : a.attempts = some s → k.attempts = some s) : Follows s a [x, k] := by
  refine ⟨⟨behind, trivial⟩, by simpa using other, fun attempts y last => ?_⟩
  cases last
  exact goes attempts

theorem FollowsIn.bind {x : ClientM α} {f : α → ClientM Next} (h : ∀ r, FollowsIn E s a (f r)) :
    FollowsIn E s a (x >>= f) := by
  intro c
  rcases hx : does E x c with ⟨e | r, d⟩
  · rw [does_bind_of_error hx]
    exact follows_nil
  · rw [does_bind_of_ok hx]
    exact h r d

theorem followsIn_pure {next : Next} (h : Follows s a next.frames) : FollowsIn E s a (pure next) :=
  fun _ => h

theorem followsIn_done (v : Value) : FollowsIn E s a (pure (.done v)) :=
  followsIn_pure follows_nil

theorem followsIn_throw (f : Fault) : FollowsIn E s a (throw f) :=
  fun _ => follows_nil

theorem followsIn_beginning {op : ClientM Next} (h : FollowsIn E s a op) : FollowsIn E s a (beginning o op) :=
  FollowsIn.bind fun _ => h

/-- What goes wrong in an attempt ends it, or lets the session fail before that. -/
theorem followsIn_attemptFault (x : SessionId) (f : Fault) (mine : a.attempts = some s → x = s) :
    FollowsIn E s a (attemptFault x f) := by
  have next : FollowsIn E s a (pure (.call (.fail x f) (.attemptFailed x f))) :=
    followsIn_pure (follows_call nofun nofun fun attempts => congrArg some (mine attempts))
  have fails : FollowsIn E s a (do
      let y ← session x
      if y.state ≠ .starting then throw y.interruptedFault
      return .call (.fail x f) (.attemptFailed x f)) := by
    refine FollowsIn.bind fun y => ?_
    split
    · exact FollowsIn.bind fun _ => next
    · exact next
  unfold attemptFault
  split
  · exact FollowsIn.bind fun _ => fails
  · exact fails

theorem followsIn_connectionLost (x : SessionId) (t : TransportId) (f : Fault) (other : a.attempts = none) :
    FollowsIn E s a (connectionLost x t f) := by
  refine FollowsIn.bind fun y => ?_
  split
  · exact followsIn_done _
  · split
    · exact FollowsIn.bind fun _ => followsIn_done _
    · exact FollowsIn.bind fun _ => followsIn_pure (follows_call nofun nofun (by simp [other]))
    · exact followsIn_done _

/-- A session begins to start: whoever wants that waits behind the attempt. -/
theorem followsIn_start (x : SessionId) : FollowsIn E s (.start x) (start x) := by
  refine FollowsIn.bind fun _ => ?_
  split
  · exact FollowsIn.bind fun _ => followsIn_done _
  · exact FollowsIn.bind fun _ => followsIn_done _
  · exact followsIn_throw _
  · exact FollowsIn.bind fun _ => followsIn_pure (follows_call nofun (by rintro ⟨⟩; rfl) nofun)

theorem followsIn_started (x : SessionId) : FollowsIn E s (.started x) (started x o) := by
  unfold started
  split
  · exact FollowsIn.bind fun _ => FollowsIn.bind fun _ => followsIn_done _
  · split
    · exact FollowsIn.bind fun _ => followsIn_done _
    · split
      · exact FollowsIn.bind fun _ => FollowsIn.bind fun _ => followsIn_throw _
      · exact followsIn_throw _

theorem followsIn_attemptReleased (x : SessionId) : FollowsIn E s (.attemptReleased x) (attemptReleased x o) := by
  refine FollowsIn.bind fun _ => FollowsIn.bind fun _ => FollowsIn.bind fun _ => FollowsIn.bind fun made => ?_
  cases made with
  | error f => exact followsIn_attemptFault x f Option.some.inj
  | ok t => exact FollowsIn.bind fun _ => followsIn_pure (follows_call nofun nofun id)

theorem followsIn_attemptOpened (x : SessionId) (t : TransportId) :
    FollowsIn E s (.attemptOpened x t) (attemptOpened x t o) := by
  unfold attemptOpened
  split
  · exact followsIn_attemptFault x _ Option.some.inj
  · refine FollowsIn.bind fun _ => ?_
    split
    · exact followsIn_pure (follows_call nofun nofun id)
    · refine FollowsIn.bind fun _ => FollowsIn.bind fun _ => FollowsIn.bind fun sent => ?_
      cases sent with
      | error f => exact followsIn_attemptFault x f Option.some.inj
      | ok handle => exact followsIn_pure (follows_one nofun id)

theorem followsIn_attemptAbandoned (x : SessionId) : FollowsIn E s (.attemptAbandoned x) (attemptAbandoned x o) := by
  unfold attemptAbandoned
  split
  · exact followsIn_attemptFault x _ Option.some.inj
  · exact FollowsIn.bind fun _ => followsIn_attemptFault x _ Option.some.inj

theorem followsIn_beginRunning (x : SessionId) (capabilities : Value) : FollowsIn E s a (beginRunning x capabilities) :=
  FollowsIn.bind fun _ => FollowsIn.bind fun _ => FollowsIn.bind fun _ => FollowsIn.bind
      fun _ => FollowsIn.bind fun _ =>
    FollowsIn.bind fun _ => followsIn_done _

theorem followsIn_attemptAnswered (x : SessionId) (t : TransportId) :
    FollowsIn E s (.attemptAnswered x t) (attemptAnswered x o) := by
  unfold attemptAnswered
  split
  · exact followsIn_attemptFault x _ Option.some.inj
  · refine FollowsIn.bind fun told => ?_
    cases told with
    | error f => exact followsIn_attemptFault x f Option.some.inj
    | ok u =>
      refine FollowsIn.bind fun _ => ?_
      split
      · exact followsIn_throw _
      · exact followsIn_beginRunning x _

theorem followsIn_restartSlept (x : SessionId) : FollowsIn E s (.restartSlept x) (restartSlept x o) := by
  refine FollowsIn.bind fun _ => FollowsIn.bind fun _ => ?_
  split
  · exact followsIn_pure (follows_call nofun nofun nofun)
  · exact followsIn_done _

theorem followsIn_restartTried (x : SessionId) : FollowsIn E s (.restartTried x) (restartTried x o) := by
  unfold restartTried
  split
  · exact followsIn_done _
  · split
    · exact followsIn_done _
    · split
      · refine FollowsIn.bind fun _ => ?_
        split
        · exact FollowsIn.bind fun _ => followsIn_done _
        · exact followsIn_done _
      · exact followsIn_throw _

theorem followsIn_readLoopReceived (x : SessionId) (t : TransportId) :
    FollowsIn E s (.readLoopReceived x t) (readLoopReceived x t o) := by
  have again : FollowsIn E s (.readLoopReceived x t) (pure (.become (.readLoop x t))) :=
    followsIn_pure (follows_one nofun nofun)
  unfold readLoopReceived
  split
  · refine FollowsIn.bind fun handled => ?_
    cases handled with
    | ok u => exact again
    | error f =>
      simp only [bodyHandled]
      split
      · exact followsIn_connectionLost x t f rfl
      · exact followsIn_throw f
  · exact followsIn_connectionLost x t _ rfl
  · split
    · exact FollowsIn.bind fun _ => again
    · split
      · exact followsIn_connectionLost x t _ rfl
      · exact followsIn_throw _

/-- What stirs a session, or reads from its transport, leaves to do what may follow it. -/
theorem followsIn_goOn (stirs : a.rouses ≠ none ∨ a.reads ≠ none) (o : Outcome) : FollowsIn E s a (goOn a o) := by
  cases a with
  | start x => exact followsIn_beginning (followsIn_start x)
  | started x => exact followsIn_started x
  | attempt x => exact followsIn_beginning (FollowsIn.bind fun _ => followsIn_pure (follows_call nofun nofun id))
  | attemptReleased x => exact followsIn_attemptReleased x
  | attemptOpened x t => exact followsIn_attemptOpened x t
  | attemptAbandoned x => exact followsIn_attemptAbandoned x
  | attemptAnswered x t => exact followsIn_attemptAnswered x t
  | attemptFailed x f => exact FollowsIn.bind fun _ => FollowsIn.bind fun _ => followsIn_throw _
  | fail x f =>
    exact followsIn_beginning (FollowsIn.bind fun _ => FollowsIn.bind fun _ => FollowsIn.bind fun _ =>
      followsIn_pure (follows_call nofun nofun nofun))
  | failReleased x f => exact FollowsIn.bind fun _ => FollowsIn.bind fun _ => followsIn_done _
  | lostFailed x f => exact FollowsIn.bind fun _ => FollowsIn.bind fun _ => followsIn_done _
  | restart x delay => exact followsIn_beginning (followsIn_pure (follows_call nofun nofun nofun))
  | restartSlept x => exact followsIn_restartSlept x
  | restartTried x => exact followsIn_restartTried x
  | readLoop x t => exact followsIn_beginning (followsIn_pure (follows_call nofun nofun nofun))
  | readLoopReceived x t => exact followsIn_readLoopReceived x t
  | _ => rcases stirs with never | never <;> exact absurd rfl never

/-! ## Who waits for a session to start -/

theorem Trails.tail {x : Activity} {rest : List Activity} (h : Trails s (x :: rest)) : Trails s rest := by
  cases rest with
  | nil => trivial
  | cons y rest => exact h.2

theorem Trails.attempts {x : Activity} {rest : List Activity} (h : Trails s (x :: rest))
    (waits : rest.head? = some (.started s)) : x.attempts = some s := by
  cases rest with
  | nil => cases waits
  | cons y rest =>
    cases waits
    exact h.1 rfl

/-- Nobody waits for the session. -/
theorem trails_of_ne {frames : List Activity} (h : ∀ b ∈ frames, b ≠ .started s) : Trails s frames := by
  induction frames with
  | nil => trivial
  | cons x rest ih =>
    have later := ih fun b hb => h b (List.mem_cons_of_mem _ hb)
    cases rest with
    | nil => trivial
    | cons y rest => exact ⟨fun e => absurd e (h y (by simp)), later⟩

/-- What is left to do goes in front of the rest. -/
theorem Trails.append {frames rest : List Activity} (h : Trails s frames) (behind : Trails s rest)
    (last : rest.head? = some (.started s) → ∀ k, frames.getLast? = some k → k.attempts = some s) :
    Trails s (frames ++ rest) := by
  induction frames with
  | nil => exact behind
  | cons x frames ih =>
    cases frames with
    | nil =>
      cases rest with
      | nil => trivial
      | cons y rest => exact ⟨fun e => last (by rw [e]; rfl) x rfl, behind⟩
    | cons y frames => exact ⟨h.1, ih h.2 fun e k hk => last e k (by rw [List.getLast?_cons_cons]; exact hk)⟩

/-- An activity that leaves nothing to do has ended, or failed. -/
theorem ends_of_framesOf (nothing : framesOf r = []) : (∃ f, r = .error f) ∨ ∃ v, r = .ok (.done v) := by
  cases r with
  | error f => exact .inl ⟨f, rfl⟩
  | ok next =>
    cases next with
    | done v => exact .inr ⟨v, rfl⟩
    | _ => cases nothing

/-- All activities leave to do what may follow them. -/
theorem follows_of_proceeds (h : c.Proceeds a o r c') (hx : does E (goOn a o) c = (r, c')) :
    Follows s a (framesOf r) := by
  by_cases stirs : a.rouses ≠ none ∨ a.reads ≠ none
  · have follows := followsIn_goOn (E := E) (s := s) stirs o c
    rw [hx] at follows
    exact follows
  · obtain ⟨calm, deaf⟩ := not_or.1 stirs
    -- Nothing that is left to do stirs a session.
    have other : ∀ b ∈ framesOf r, b ≠ .started s := by
      rintro b left rfl
      rcases (leaves_of_proceeds h left).of_stirs rfl with mine | ⟨t, mine, _⟩
      · exact calm (by simp [mine])
      · exact deaf (by simp [mine])
    have plain : a.attempts = none := by
      cases a <;> first | rfl | exact absurd nofun calm
    refine ⟨trails_of_ne other, fun first => ?_, by simp [plain]⟩
    exact other _ (List.mem_of_mem_head? first) rfl

namespace Moment

/-- Tasks wait for a session to start as before. -/
theorem Waits.others {p : PromiseId} {A : Activity → Prop} (h : m.Waits s) (same : m.SameStack A m' p) :
    Trails s (m'.stack p) := by
  rcases same with e | ⟨_, b, _, e⟩
  · rw [e]
    exact h.behind p
  · rw [e]
    trivial

/-- What is left to do by the task that runs is behind what goes on before, if it only waits for a session to start. -/
theorem Proceeds.ends_of_waits {p : PromiseId} {rest rest' : List Activity} (hp : m.Proceeds m' p a rest o r c)
    (hx : does E (goOn a o) m.client = (r, c)) (front : m'.stack p = .started s :: rest') :
    framesOf r = [] ∧ rest = .started s :: rest' := by
  rw [hp.stack] at front
  cases left : framesOf r with
  | nil =>
    rw [left] at front
    exact ⟨rfl, front⟩
  | cons x frames =>
    rw [left] at front
    cases front
    have follows : Follows s a (framesOf r) := follows_of_proceeds hp.proceeds hx
    exact absurd (by rw [left]; rfl) follows.head

/-- Other tasks than the one that runs wait for something else first. -/
theorem Proceeds.not_waits {p q : PromiseId} {rest rest' : List Activity} (hp : m.Proceeds m' p a rest o r c)
    (h : m.Waits s) (hq : q ≠ p) : m'.stack q ≠ .started s :: rest' := by
  intro front
  rcases hp.others q hq with same | ⟨_, b, begins, only⟩
  · rw [same] at front
    obtain ⟨_, turn⟩ := h.front front
    rw [hp.turn] at turn
    cases turn
    exact absurd rfl hq
  · rw [only] at front
    cases front
    obtain ⟨_, _, _, never, _⟩ := begins.of_stirs rfl
    cases never

theorem Proceeds.waits {p : PromiseId} {rest : List Activity} (hp : m.Proceeds m' p a rest o r c)
    (hx : does E (goOn a o) m.client = (r, c)) (h : m.Waits s) : m'.Waits s := by
  constructor
  · intro q
    by_cases hq : q = p
    · have follows : Follows s a (framesOf r) := follows_of_proceeds hp.proceeds hx
      have before := h.behind p
      rw [hp.stack_before] at before
      rw [hq, hp.stack]
      -- If somebody waits right behind what went on, that was an attempt, and the last thing it leaves to do is one.
      exact follows.trails.append before.tail fun waits => follows.last (before.attempts waits)
    · exact h.others (hp.others q hq)
  · intro q rest' front
    by_cases hq : q = p
    · -- The attempt has ended in this very turn.
      rw [hq] at front ⊢
      obtain ⟨left, rfl⟩ := hp.ends_of_waits hx front
      rcases ends_of_framesOf left with ⟨f, failed⟩ | ⟨v, ended⟩
      · exact ⟨_, hp.fails f failed⟩
      · exact ⟨_, hp.ends v ended⟩
    · exact absurd front (hp.not_waits h hq)

theorem Step.waits (hE : E.IsTame) (sound : m.Sound) (h : m.Waits s) (next : Step E acts m m') : m'.Waits s := by
  obtain ⟨_, _, passes | ⟨p, a, rest, o, r, c, hx, hp⟩⟩ := next.spec hE sound
  · refine ⟨fun p => h.others (passes.tasks p), fun {p rest} front => ?_⟩
    rcases passes.tasks p with same | ⟨_, b, root, only⟩
    · rw [same] at front
      obtain ⟨_, turn⟩ := h.front front
      cases passes.idle _ turn
    · rw [only] at front
      cases front
      cases root.2
  · exact hp.waits hx h

theorem Run.waits (hE : E.IsTame) (sound : m.Sound) (h : m.Waits s) (run : Run E P m acts m') : m'.Waits s := by
  induction run with
  | refl => exact h
  | step run _ next ih => exact next.waits hE (run.spec hE sound).1 ih

theorem waits_of_isNew (new : c.IsNew) : Waits s ⟨c, none⟩ := by
  constructor
  · intro p
    rw [stack_of_isNew new]
    trivial
  · intro p rest front
    rw [stack_of_isNew new] at front
    cases front

end Moment

end LspClient
