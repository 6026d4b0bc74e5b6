/-
No request outlives its session: as long as attempts to start go on only while their session starts,
a session that has stopped or failed has no pending request.
-/
import LspClient.Proofs.Client.Stopping

namespace LspClient.Moment

open Client

variable {E : Executor} {P : Moment → Prop} {m m' : Moment} {s : SessionId} {acts acts' : List LspClient.Step}

/-! ## Definitions -/

/-- The old transport is released only for a session that still starts. -/
def Timely (m : Moment) : Prop :=
  ∀ s p rest v, m.turn = some ⟨p, .attemptReleased s :: rest, .ok v⟩ → (m.client.sessionAt s).state = .starting

/-- A session without requests, and without a transport unless that is given up next. -/
structure Bare (m : Moment) (s : SessionId) : Prop where
  pending : (m.client.sessionAt s).registry.pending = []
  transport : (m.client.sessionAt s).transport = none ∨ ∃ p, .release s ∈ m.stack p

/-- How tasks are in the middle of the life of a session: it has nothing left once it has stopped or
failed, tasks stop it only while it is stopping, one at a time and once, it has nothing left once its
requests are given up on the way, and it takes leave of its server only while it is stopped. -/
structure Orderly (m : Moment) (s : SessionId) : Prop where
  idle : (m.client.sessionAt s).state = .stopped ∨ (m.client.sessionAt s).state = .failed → m.Bare s
  stopping : ∀ p, m.stopsOf s p ≠ [] → (m.client.sessionAt s).state = .stopping
  alone : ∀ p q, m.stopsOf s p ≠ [] → m.stopsOf s q ≠ [] → p = q
  once : ∀ p, (m.stopsOf s p).length ≤ 1
  released : ∀ p clear f, .stopReleased s clear f ∈ m.stack p → m.Bare s
  leaving : ∀ p, .shutDown s ∈ m.stack p → ∃ clear, .stopAnnounced s clear ∈ m.stack p

/-! ## Tasks that stop a session -/

theorem Orderly.halting (h : m.Orderly s) : m.Halting s :=
  ⟨h.stopping, h.alone, h.once⟩

section

variable {p : PromiseId} {a : Activity} {rest : List Activity} {o : Outcome} {r : Except Fault Next} {c : Client}

/-- Unless it is what goes on, nothing gives up the transport of a session. -/
theorem Proceeds.not_releasing (hp : m.Proceeds m' p a rest o r c) (sound : m.Sound) (other : a ≠ .release s)
    (q : PromiseId) : .release s ∉ m.stack q := by
  intro releasing
  obtain ⟨_, _, e, _⟩ := sound.front hp.turn releasing rfl
  cases e
  exact other rfl

theorem Proceeds.not_leaving (hp : m.Proceeds m' p a rest o r c) (sound : m.Sound) (plain : .shutDown s ∉ framesOf r)
    (q : PromiseId) : .shutDown s ∉ m'.stack q :=
  fun leaves => plain (sound.mem_frames_of_brief hp rfl leaves).2

end

/-! ## Going on in order -/

/-- A session that is in the same state, with nothing new for it. -/
theorem Orderly.carry (h : m.Orderly s) (state : (m'.client.sessionAt s).state = (m.client.sessionAt s).state)
    (idle : (m.client.sessionAt s).state = .stopped ∨ (m.client.sessionAt s).state = .failed → m.Bare s → m'.Bare s)
    (released : ∀ p clear f, .stopReleased s clear f ∈ m.stack p → m.Bare s → m'.Bare s)
    (stops : ∀ p, (m'.stopsOf s p).Sublist (m.stopsOf s p)) (leaving : ∀ p, .shutDown s ∉ m'.stack p) :
    m'.Orderly s := by
  have halting := h.halting.carry stops fun busy => by rw [state, busy]
  refine ⟨?_, halting.stopping, halting.alone, halting.once, ?_, ?_⟩
  · rw [state]
    intro rests
    exact idle rests (h.idle rests)
  · intro p clear f hf
    have before := (List.mem_filter.1 ((stops p).subset (mem_stopsOf hf rfl))).1
    exact released p clear f before (h.released p clear f before)
  · intro p leaves
    exact absurd leaves (leaving p)

/-- A session that no task stops. -/
theorem orderly_of_not_stopped (none : ∀ p, m'.stopsOf s p = [])
    (idle : (m'.client.sessionAt s).state = .stopped ∨ (m'.client.sessionAt s).state = .failed → m'.Bare s)
    (leaving : ∀ p, .shutDown s ∉ m'.stack p) : m'.Orderly s := by
  have halting := halting_of_not_stopped none
  refine ⟨idle, halting.stopping, halting.alone, halting.once, ?_, ?_⟩
  · intro p clear f hf
    have never := mem_stopsOf hf rfl
    rw [none p] at never
    cases never
  · intro p leaves
    exact absurd leaves (leaving p)

/-- A session without requests that goes on in its state has none, unless it runs. -/
theorem Bare.learns (h : m.Bare s) (resting : ∀ p, .release s ∉ m.stack p)
    (idle : (m.client.sessionAt s).state ≠ .running) (learns : (m.client.sessionAt s).Learns (m'.client.sessionAt s)) :
    m'.Bare s := by
  constructor
  · have fewer := learns.pending_subset idle
    rw [h.pending] at fewer
    exact List.subset_nil.1 fewer
  · rcases h.transport with none | ⟨p, releasing⟩
    · left
      rw [learns.transport, none]
    · exact absurd releasing (resting p)

/-- What leaves the life of a session alone leaves it in order. -/
theorem Orderly.learns (h : m.Orderly s) (resting : ∀ p, .release s ∉ m.stack p)
    (learns : (m.client.sessionAt s).Learns (m'.client.sessionAt s))
    (stops : ∀ p, (m'.stopsOf s p).Sublist (m.stopsOf s p)) (leaving : ∀ p, .shutDown s ∉ m'.stack p) :
    m'.Orderly s := by
  refine h.carry learns.state ?_ ?_ stops leaving
  · intro rests bare
    refine bare.learns resting ?_ learns
    rcases rests with e | e <;> rw [e] <;> decide
  · intro p clear f hf bare
    refine bare.learns resting ?_ learns
    rw [h.stopping p (List.ne_nil_of_mem (mem_stopsOf hf rfl))]
    decide

theorem Passes.orderly (h : m.Passes m') (sound : m.Sound) (orderly : m.Orderly s) : m'.Orderly s := by
  have plain : ∀ p, ∀ a ∈ m.stack p, a.isBrief = false := by
    intro p a ha
    refine Bool.eq_false_iff.2 fun brief => ?_
    obtain ⟨rest, v, turn, _⟩ := sound.brief p a ha brief
    have never := h.idle _ turn
    cases never
  refine orderly.learns ?_ (h.stays s).known
    (fun p => (h.tasks p).stopsOf fun b root => (root.free none).not_isInner) ?_
  · intro p releasing
    have never := plain p _ releasing
    cases never
  · intro p leaves
    rcases (h.tasks p).mem leaves with leaves | root
    · have never := plain p _ leaves
      cases never
    · have never := (root.free none).not_isBrief
      cases never

/-! ## What activities keep in order -/

section

variable {p : PromiseId} {a : Activity} {rest : List Activity} {o : Outcome} {r : Except Fault Next} {c : Client}

/-- Nothing that is left to do is in the middle of stopping a session, or about to take leave of its server. -/
def IsQuiet (r : Except Fault Next) : Prop :=
  ∀ b ∈ framesOf r, b.stops = none ∧ b.isBrief = false

theorem IsQuiet.stops (quiet : IsQuiet r) : ∀ b ∈ framesOf r, b.stops ≠ some s := by
  intro b hb
  simp [(quiet b hb).1]

theorem IsQuiet.leaves (quiet : IsQuiet r) : .shutDown s ∉ framesOf r :=
  fun hb => Bool.noConfusion (quiet _ hb).2

theorem isQuiet_of_free {of : Option SessionId} (free : ∀ b ∈ framesOf r, b.IsFree of) : IsQuiet r :=
  fun b hb => ⟨(free b hb).not_stops, (free b hb).not_isBrief⟩

theorem isQuiet_of_frames {bs : List Activity} (frames : framesOf r = bs)
    (plain : ∀ b ∈ bs, b.stops = none ∧ b.isBrief = false) : IsQuiet r := by
  intro b hb
  rw [frames] at hb
  exact plain b hb

/-- What leaves the life of a session alone leaves it in order. -/
theorem Proceeds.orderly_of_learns (hp : m.Proceeds m' p a rest o r c) (sound : m.Sound) (h : m.Orderly s)
    (other : a ≠ .release s) (learns : (m.client.sessionAt s).Learns (c.sessionAt s))
    (plain : ∀ b ∈ framesOf r, b.stops ≠ some s) (leaves : .shutDown s ∉ framesOf r) : m'.Orderly s := by
  rw [← hp.sessions] at learns
  exact h.learns (hp.not_releasing sound other) learns (hp.stopsOf plain) (hp.not_leaving sound leaves)

theorem Proceeds.orderly_of_stays (hp : m.Proceeds m' p a rest o r c) (sound : m.Sound) (h : m.Orderly s)
    (other : a ≠ .release s) (stays : (m.client.sessionAt s).Stays False (c.sessionAt s))
    (plain : ∀ b ∈ framesOf r, b.stops ≠ some s) (leaves : .shutDown s ∉ framesOf r) : m'.Orderly s :=
  hp.orderly_of_learns sound h other stays.known plain leaves

/-- A session that no task stopped before, and that none begins to stop. -/
theorem Proceeds.orderly_of_not_stopped (hp : m.Proceeds m' p a rest o r c) (sound : m.Sound)
    (none : ∀ q, m.stopsOf s q = []) (plain : ∀ b ∈ framesOf r, b.stops ≠ some s) (leaves : .shutDown s ∉ framesOf r)
    (idle : (c.sessionAt s).state = .stopped ∨ (c.sessionAt s).state = .failed → m'.Bare s) : m'.Orderly s := by
  refine Moment.orderly_of_not_stopped ?_ ?_ (hp.not_leaving sound leaves)
  · intro q
    refine List.sublist_nil.1 ?_
    rw [← none q]
    exact hp.stopsOf plain q
  · rw [hp.sessions]
    exact idle

/-- A session that one task stops, which has called something on the way. -/
theorem Proceeds.orderly_of_stopping (hp : m.Proceeds m' p a rest o r c) (sound : m.Sound) {b k : Activity}
    (frames : framesOf r = [b, k]) (calls : b.stops = none) (stops : k.stops = some s)
    (alone : ∀ q, q ≠ p → m.stopsOf s q = []) (behind : rest.filter (isStopOf s) = [])
    (stopping : (c.sessionAt s).state = .stopping) (released : ∀ clear f, k = .stopReleased s clear f → m'.Bare s)
    (leaving : b = .shutDown s → ∃ clear, k = .stopAnnounced s clear) : m'.Orderly s := by
  obtain ⟨halting, one, only⟩ := hp.halting_of_call frames calls stops alone behind stopping
  rw [← hp.sessions] at stopping
  refine ⟨?_, halting.stopping, halting.alone, halting.once, ?_, ?_⟩
  · rw [stopping]
    intro never
    rcases never with never | never <;> cases never
  · intro q clear f hf
    have hf' := mem_stopsOf hf rfl
    rw [only q (List.ne_nil_of_mem hf'), one] at hf'
    exact released clear f (List.mem_singleton.1 hf').symm
  · intro q leaves
    obtain ⟨hq, left⟩ := sound.mem_frames_of_brief hp rfl leaves
    rw [frames] at left
    rcases List.mem_cons.1 left with e | left
    · obtain ⟨clear, rfl⟩ := leaving e.symm
      refine ⟨clear, ?_⟩
      rw [hq, hp.stack, frames]
      simp
    · rw [← List.mem_singleton.1 left] at stops
      cases stops

/-- What is in the life of another session leaves a session in order. -/
theorem Proceeds.orderly_of_ne (hp : m.Proceeds m' p a rest o r c) (sound : m.Sound) (h : m.Orderly s) {x : SessionId}
    (hs : s ≠ x) {R : Session → Session → Prop} (changes : m.client.Changes x R c) (other : a ≠ .release s)
    (plain : ∀ b ∈ framesOf r, b.stops ≠ some s) (leaves : .shutDown s ∉ framesOf r) : m'.Orderly s :=
  hp.orderly_of_stays sound h other (changes.others s hs) plain leaves

/-- A session that has begun to start, to run or to stop has not come to rest. -/
theorem not_resting {state : SessionState} (h : state = .starting ∨ state = .running ∨ state = .stopping) :
    ¬ (state = .stopped ∨ state = .failed) := by
  rcases h with rfl | rfl | rfl <;> decide

/-- A session begins to start from rest. -/
theorem Proceeds.orderly_of_starts {x : SessionId}
    (hp : m.Proceeds m' p (.attempt x) rest o (.ok (.call (.release x) (.attemptReleased x))) c) (sound : m.Sound)
    (h : m.Orderly s)
    (starts : m.client.Changes x (Session.Enters .starting) c ∨ m.client.Still Activity.IsRoot none c) :
    m'.Orderly s := by
  have plain : ∀ b ∈ framesOf (.ok (.call (.release x) (.attemptReleased x))), b.stops ≠ some s := by
    simp [framesOf, Next.frames, Activity.stops]
  have leaves : .shutDown s ∉ framesOf (.ok (.call (.release x) (.attemptReleased x))) := by
    simp [framesOf, Next.frames]
  rcases starts with starts | still
  · by_cases hs : s = x
    · have enters := starts.session
      rw [← hs] at enters
      refine hp.orderly_of_not_stopped sound (h.halting.stopsOf_of_enters enters (by decide)) plain leaves
        fun rests => ?_
      exact absurd rests (not_resting (.inl enters.state))
    · exact hp.orderly_of_ne sound h hs starts (by simp) plain leaves
  · exact hp.orderly_of_stays sound h (by simp) (still.stays_false s) plain leaves

/-- A session that starts has a new transport. -/
theorem Proceeds.orderly_of_connects {x : SessionId} {v : Value}
    (hp : m.Proceeds m' p (.attemptReleased x) rest (.ok v) r c) (sound : m.Sound) (timely : m.Timely) (h : m.Orderly s)
    (connects : m.client.Changes x (fun y y' => y'.state = y.state) c) (quiet : IsQuiet r) :
    m'.Orderly s := by
  by_cases hs : s = x
  · have starting : (m.client.sessionAt s).state = .starting := by
      rw [hs]
      exact timely x p rest v hp.turn
    have state := connects.session
    rw [← hs, starting] at state
    refine hp.orderly_of_not_stopped sound (h.halting.stopsOf_eq_nil ?_) quiet.stops quiet.leaves ?_
    · rw [starting]
      decide
    · exact fun rests => absurd rests (not_resting (.inl state))
  · exact hp.orderly_of_ne sound h hs connects (by simp) quiet.stops quiet.leaves

/-- A session sends its first request while it has a transport. -/
theorem Proceeds.orderly_of_greets {A : Activity → Prop} {x : SessionId} {t : TransportId}
    (hp : m.Proceeds m' p (.attemptOpened x t) rest o r c) (sound : m.Sound) (h : m.Orderly s)
    (connected : (m.client.sessionAt x).transport = some t) (still : m.client.Still A (some x) c)
    (quiet : IsQuiet r) : m'.Orderly s := by
  by_cases hs : s = x
  · -- The session has its transport, so it is neither at rest nor about to stop.
    have busy : ¬ m.Bare s := by
      intro bare
      rcases bare.transport with none | ⟨q, releasing⟩
      · rw [hs, connected] at none
        cases none
      · exact hp.not_releasing sound (by simp) q releasing
    refine h.carry ?_ ?_ ?_ (hp.stopsOf quiet.stops) (hp.not_leaving sound quiet.leaves)
    · rw [hp.sessions]
      exact (still.stays s).state
    · exact fun _ bare => absurd bare busy
    · exact fun _ _ _ _ bare => absurd bare busy
  · exact hp.orderly_of_stays sound h (by simp) (still.stays_of_ne hs) quiet.stops quiet.leaves

/-- A session that starts runs. -/
theorem Proceeds.orderly_of_runs {x : SessionId} {t : TransportId}
    (hp : m.Proceeds m' p (.attemptAnswered x t) rest o r c) (sound : m.Sound) (h : m.Orderly s)
    (runs : m.client.Changes x (Session.Enters .running) c) (quiet : IsQuiet r) :
    m'.Orderly s := by
  by_cases hs : s = x
  · have enters := runs.session
    rw [← hs] at enters
    refine hp.orderly_of_not_stopped sound (h.halting.stopsOf_of_enters enters (by decide)) quiet.stops
      quiet.leaves fun rests => ?_
    exact absurd rests (not_resting (.inr (.inl enters.state)))
  · exact hp.orderly_of_ne sound h hs runs (by simp) quiet.stops quiet.leaves

/-- A session that fails gives up what it has. -/
theorem Proceeds.orderly_of_fails {x : SessionId} {f : Fault}
    (hp : m.Proceeds m' p (.fail x f) rest o (.ok (.call (.release x) (.failReleased x f))) c) (sound : m.Sound)
    (h : m.Orderly s) (fails : m.client.Changes x (Session.EntersQuiet .failed) c) :
    m'.Orderly s := by
  have plain : ∀ b ∈ framesOf (.ok (.call (.release x) (.failReleased x f))), b.stops ≠ some s := by
    simp [framesOf, Next.frames, Activity.stops]
  have leaves : .shutDown s ∉ framesOf (.ok (.call (.release x) (.failReleased x f))) := by
    simp [framesOf, Next.frames]
  by_cases hs : s = x
  · obtain ⟨enters, nothing⟩ := fails.session
    rw [← hs] at enters nothing
    refine hp.orderly_of_not_stopped sound (h.halting.stopsOf_of_enters enters (by decide)) plain leaves fun _ =>
      ⟨?_, ?_⟩
    · rw [hp.sessions, nothing]
    · refine .inr ⟨p, ?_⟩
      rw [hp.stack, hs]
      simp [framesOf, Next.frames]
  · exact hp.orderly_of_ne sound h hs fails (by simp) plain leaves

/-- A session begins to stop: it takes leave of its server, or gives up its transport. -/
theorem Proceeds.orderly_of_stops {x : SessionId} {clear : Bool} (hp : m.Proceeds m' p (.stop x clear) rest o r c)
    (sound : m.Sound) (h : m.Orderly s) (stops : m.client.Stops x clear r c) : m'.Orderly s := by
  rcases stops with ⟨rfl, stops⟩ | ⟨rfl, stops⟩
  · by_cases hs : s = x
    · have enters := stops.session
      rw [← hs] at enters
      have none := h.halting.stopsOf_of_enters enters (by decide)
      refine hp.orderly_of_stopping sound rfl rfl (by rw [hs]; rfl) (fun q _ => none q) (hp.behind none) enters.state
        (by simp) fun _ => ⟨clear, by rw [hs]⟩
    · exact hp.orderly_of_ne sound h hs stops (by simp) (by simp [framesOf, Next.frames, Activity.stops, Ne.symm hs])
        (by simp [framesOf, Next.frames, hs])
  · by_cases hs : s = x
    · obtain ⟨enters, nothing⟩ := stops.session
      rw [← hs] at enters nothing
      have none := h.halting.stopsOf_of_enters enters (by decide)
      refine hp.orderly_of_stopping sound rfl rfl (by rw [hs]; rfl) (fun q _ => none q) (hp.behind none) enters.state
        (fun _ _ _ => ⟨?_, .inr ⟨p, ?_⟩⟩) (by simp)
      · rw [hp.sessions, nothing]
      · rw [hp.stack, hs]
        simp [framesOf, Next.frames]
    · exact hp.orderly_of_ne sound h hs stops (by simp) (by simp [framesOf, Next.frames, Activity.stops, Ne.symm hs])
        (by simp [framesOf, Next.frames])

/-- A session takes leave of its server only while it is stopping. -/
theorem Proceeds.orderly_of_leaves {x : SessionId} (hp : m.Proceeds m' p (.shutDown x) rest o r c) (sound : m.Sound)
    (h : m.Orderly s) (still : m.client.Still Activity.IsRoot (some x) c) (quiet : IsQuiet r) :
    m'.Orderly s := by
  by_cases hs : s = x
  · obtain ⟨clear, announces⟩ := h.leaving p (by rw [hp.stack_before, hs]; simp)
    have stopping := h.stopping p (List.ne_nil_of_mem (mem_stopsOf announces rfl))
    refine h.carry ?_ ?_ ?_ (hp.stopsOf quiet.stops) (hp.not_leaving sound quiet.leaves)
    · rw [hp.sessions]
      exact (still.stays s).state
    · exact fun rests => absurd rests (not_resting (.inr (.inr stopping)))
    · intro q clear' f releases
      cases h.halting.eq_of_stops announces releases rfl rfl
  · exact hp.orderly_of_stays sound h (by simp) (still.stays_of_ne hs) quiet.stops quiet.leaves

/-- A session that has taken leave of its server gives up what it has. -/
theorem Proceeds.orderly_of_announced {x : SessionId} {clear : Bool} {f : Option Fault}
    (hp : m.Proceeds m' p (.stopAnnounced x clear) rest o (.ok (.call (.release x) (.stopReleased x clear f))) c)
    (sound : m.Sound) (h : m.Orderly s) (still : m.client.Still Activity.IsRoot none c)
    (quiet : (c.sessionAt x).registry.pending = []) :
    m'.Orderly s := by
  by_cases hs : s = x
  · rw [← hs] at quiet
    obtain ⟨behind, alone⟩ := hp.behind_of_stops h.halting (by rw [hs]; rfl)
    have stopping : (m.client.sessionAt s).state = .stopping := by
      refine h.stopping p (List.ne_nil_of_mem (a := .stopAnnounced x clear) (mem_stopsOf ?_ (by rw [hs]; rfl)))
      rw [hp.stack_before]
      simp
    have state := (still.stays_false s).state
    rw [stopping] at state
    refine hp.orderly_of_stopping sound rfl rfl (by rw [hs]; rfl) alone behind state
      (fun _ _ _ => ⟨?_, .inr ⟨p, ?_⟩⟩) (by simp)
    · rw [hp.sessions, quiet]
    · rw [hp.stack, hs]
      simp [framesOf, Next.frames]
  · exact hp.orderly_of_stays sound h (by simp) (still.stays_false s)
      (by simp [framesOf, Next.frames, Activity.stops, Ne.symm hs]) (by simp [framesOf, Next.frames])

/-- A session that has given up what it has stops, and has nothing left. -/
theorem Proceeds.orderly_of_stopped {x : SessionId} {clear : Bool} {f : Option Fault}
    (hp : m.Proceeds m' p (.stopReleased x clear f) rest o r c) (sound : m.Sound) (h : m.Orderly s)
    (stops : m.client.Changes x Session.Halts c) (nothing : framesOf r = []) : m'.Orderly s := by
  have leaves : .shutDown s ∉ framesOf r := by simp [nothing]
  by_cases hs : s = x
  · have none := hp.stopsOf_of_stopped h.halting (by rw [hs]; rfl) nothing
    obtain ⟨enters, fewer⟩ := stops.session
    have transport := enters.transport
    rw [← hs] at transport fewer
    have bare := h.released p clear f (by rw [hp.stack_before, hs]; simp)
    refine Moment.orderly_of_not_stopped none (fun _ => ⟨?_, .inl ?_⟩) (hp.not_leaving sound leaves)
    · rw [bare.pending] at fewer
      rw [hp.sessions, List.subset_nil.1 fewer]
    · rw [hp.sessions, transport]
      rcases bare.transport with none | ⟨q, releasing⟩
      · exact none
      · exact absurd releasing (hp.not_releasing sound (by simp) q)
  · exact hp.orderly_of_ne sound h hs stops (by simp) (by simp [nothing]) leaves

/-- A session gives up its transport, in whatever state it is. -/
theorem Proceeds.orderly_of_releases {x : SessionId} (hp : m.Proceeds m' p (.release x) rest o r c) (sound : m.Sound)
    (h : m.Orderly s) (releases : m.client.Changes x Session.Disconnects c)
    (quiet : IsQuiet r) : m'.Orderly s := by
  by_cases hs : s = x
  · obtain ⟨⟨state, _⟩, transport, fewer⟩ := releases.session
    rw [← hs] at state transport fewer
    have bare : (m.client.sessionAt s).state ≠ .running → m.Bare s → m'.Bare s := by
      intro idle bare
      have fewer := fewer idle
      rw [bare.pending] at fewer
      refine ⟨?_, .inl ?_⟩
      · rw [hp.sessions, List.subset_nil.1 fewer]
      · rw [hp.sessions, transport]
    refine h.carry ?_ ?_ ?_ (hp.stopsOf quiet.stops) (hp.not_leaving sound quiet.leaves)
    · rw [hp.sessions, state]
    · intro rests
      exact bare fun e => not_resting (.inr (.inl e)) rests
    · intro q clear f hf
      refine bare ?_
      rw [h.stopping q (List.ne_nil_of_mem (mem_stopsOf hf rfl))]
      decide
  · exact hp.orderly_of_ne sound h hs releases (by simp [Ne.symm hs]) quiet.stops quiet.leaves

/-- Whatever an activity does, it leaves every session in order, unless an attempt to start goes on
too late. -/
theorem Proceeds.orderly (hp : m.Proceeds m' p a rest o r c) (sound : m.Sound) (timely : m.Timely) (h : m.Orderly s) :
    m'.Orderly s := by
  have proceeds := hp.proceeds
  cases proceeds with
  | steady still free kept =>
    have quiet := isQuiet_of_free free
    refine hp.orderly_of_stays sound h ?_ (still.stays_false s) quiet.stops quiet.leaves
    -- A release goes on with a value, since it is done at once, and then it is not steady.
    rintro rfl
    obtain ⟨_, v, e, _⟩ := sound.front hp.turn (p := p) (a := .release s) (by rw [hp.stack_before]; simp) rfl
    cases e
    exact kept (.inl ⟨s, v, rfl, rfl⟩)
  | attempt starts => exact hp.orderly_of_starts sound h starts
  | @connect x _ t _ connects new made connected =>
    have next : framesOf (.ok (.call (.openTransport t) (.attemptOpened x t))) =
      [.openTransport t, .attemptOpened x t] := rfl
    exact hp.orderly_of_connects sound timely h (connects.weaken fun _ _ remains => remains.1)
      (isQuiet_of_frames next (by simp [Activity.stops, Activity.isBrief]))
  | greet connected still free => exact hp.orderly_of_greets sound h connected still (isQuiet_of_free free)
  | run runs ends =>
    exact hp.orderly_of_runs sound h (runs.weaken fun _ _ runs => runs.1) (isQuiet_of_frames ends (by simp))
  | @count _ x _ _ _ fails counted ends decides =>
    have quiet : IsQuiet r := isQuiet_of_frames ends (by simp)
    have counts := counted.counts
    refine hp.orderly_of_learns sound h (by rintro rfl; cases fails) ?_ quiet.stops quiet.leaves
    by_cases hs : s = x
    · rw [hs]
      exact counts.session
    · exact (counts.others s hs).known
  | fail gives fails => exact hp.orderly_of_fails sound h fails
  | stop stops => exact hp.orderly_of_stops sound h stops
  | leave still next =>
    refine hp.orderly_of_leaves sound h still ?_
    rcases next with ends | waits
    · exact isQuiet_of_frames ends (by simp)
    · exact isQuiet_of_frames waits (by simp [Activity.stops, Activity.isBrief])
  | announced still gives quiet => exact hp.orderly_of_announced sound h still quiet
  | stopped stops ends => exact hp.orderly_of_stopped sound h stops ends
  | release releases next =>
    exact hp.orderly_of_releases sound h releases (isQuiet_of_frames next (by simp [Activity.stops, Activity.isBrief]))
  | silence still next =>
    have quiet : IsQuiet r := isQuiet_of_frames next (by simp [Activity.stops, Activity.isBrief])
    exact hp.orderly_of_stays sound h (by simp) (still.stays_false s) quiet.stops quiet.leaves
  | read reads still next idle =>
    have quiet : IsQuiet r := by
      intro b hb
      rcases next b hb with free | again
      · exact ⟨free.not_stops, free.not_isBrief⟩
      · cases b <;> first | exact ⟨rfl, rfl⟩ | cases again
    exact hp.orderly_of_stays sound h (by rintro rfl; cases reads) (still.stays_false s) quiet.stops quiet.leaves
  | answer request answers =>
    have stays : (m.client.sessionAt s).Stays False (c.sessionAt s) ∧ IsQuiet r := by
      cases answers with
      | @waits b k _ still calls again =>
        have next : framesOf (.ok (.call b k)) = [b, k] := rfl
        refine ⟨still.stays_false s, isQuiet_of_frames next ?_⟩
        intro x hx
        rcases List.mem_cons.1 hx with rfl | hx
        · exact ⟨(calls.free none).not_stops, (calls.free none).not_isBrief⟩
        · cases List.mem_singleton.1 hx
          cases k <;> first | exact ⟨rfl, rfl⟩ | cases again
      | replies writes ends => exact ⟨writes.stays s, isQuiet_of_frames ends (by simp)⟩
      | drops still ends why => exact ⟨still.stays_false s, isQuiet_of_frames ends (by simp)⟩
    exact hp.orderly_of_stays sound h (by rintro rfl; cases request) stays.1 stays.2.stops stays.2.leaves

end

/-! ## Whole runs -/

theorem Step.orderly (hE : E.IsTame) (sound : m.Sound) (timely : m.Timely) (h : m.Orderly s) (next : Step E acts m m') :
    m'.Orderly s := by
  obtain ⟨_, _, passes | ⟨p, a, rest, o, r, c, _, proceeds⟩⟩ := next.spec hE sound
  · exact passes.orderly sound h
  · exact proceeds.orderly sound timely h

/-- In a timely run every session stays in order. -/
theorem Run.orderly (hE : E.IsTame) (sound : m.Sound) (h : m.Orderly s) (run : Run E Timely m acts m') :
    m'.Orderly s := by
  induction run with
  | refl => exact h
  | step run timely next ih => exact next.orderly hE (run.spec hE sound).1 timely ih

/-- In a new client nothing is out of order. -/
theorem orderly_of_isNew {c : Client} (new : c.IsNew) (s : SessionId) : Orderly ⟨c, none⟩ s := by
  obtain ⟨_, registry, transport, _⟩ := sessionAt_of_isNew new s
  refine orderly_of_not_stopped ?_ (fun _ => ⟨?_, .inl transport⟩) ?_
  · intro p
    unfold Moment.stopsOf
    rw [stack_of_isNew new]
    rfl
  · rw [registry]
  · intro p
    rw [stack_of_isNew new]
    simp

section

variable {c : Client}

/-- A session that has stopped or failed has no pending request, and between turns no transport. -/
theorem pending_eq_nil_of_rests (hE : E.IsTame) (new : c.IsNew) (run : Run E Timely ⟨c, none⟩ acts m)
    (rests : (m.client.sessionAt s).state = .stopped ∨ (m.client.sessionAt s).state = .failed) :
    (m.client.sessionAt s).registry.pending = [] ∧ (m.turn = none → (m.client.sessionAt s).transport = none) := by
  have sound := sound_of_isNew new
  have bare := (run.orderly hE sound (orderly_of_isNew new s)).idle rests
  refine ⟨bare.pending, fun between => ?_⟩
  rcases bare.transport with none | ⟨p, releasing⟩
  · exact none
  · have never := (run.spec hE sound).1.not_brief between releasing
    cases never

/-- Once a session has stopped or failed, whatever was pending before is settled for good. -/
theorem settled_of_rests (hE : E.IsTame) (new : c.IsNew) (run : Run E Timely ⟨c, none⟩ acts m)
    (run' : Run E Timely m acts' m') {p : Pending CancelHook} (hp : p ∈ (m.client.sessionAt s).registry.pending)
    (rests : (m'.client.sessionAt s).state = .stopped ∨ (m'.client.sessionAt s).state = .failed) :
    ∃ o, ∀ m'' later, Run E P m' later m'' → m''.client.loop.outcome? p.promise = some o := by
  obtain ⟨sound, _⟩ := run.spec hE (sound_of_isNew new)
  obtain ⟨sound', after⟩ := run'.spec hE sound
  obtain ⟨none, _⟩ := pending_eq_nil_of_rests hE new (run.trans run') rests
  rcases (after.endures s).kept p hp with pending | ⟨o, ho⟩
  · rw [none] at pending
    cases pending
  · exact ⟨o, fun _ _ run'' => (run''.spec hE sound').2.outcome ho⟩

/-- Whatever is played to a new client, a session that has stopped or failed has no pending request and
no transport, unless a task goes on for too long or an attempt to start goes on too late. -/
theorem rests_of_played (new : c.IsNew) {steps : List LspClient.Step} (h : ∀ step ∈ steps, IsPlayable step)
    (rests : ((playedBy c steps).sessionAt s).state = .stopped ∨ ((playedBy c steps).sessionAt s).state = .failed) :
    (((playedBy c steps).sessionAt s).registry.pending = [] ∧ ((playedBy c steps).sessionAt s).transport = none) ∨
      Overlong (executor nesting) ⟨c, none⟩ (steps.flatMap actsOf) ∨
      Strays (executor nesting) Timely ⟨c, none⟩ (steps.flatMap actsOf) ⟨playedBy c steps, none⟩ := by
  rcases leads_playedBy h c with run | overlong
  · rcases run.keeps_or_strays Timely with timely | late
    · obtain ⟨nothing, transport⟩ :=
        pending_eq_nil_of_rests (isTame_executor nesting) new (timely.mono fun _ h => h.2) rests
      exact .inl ⟨nothing, transport rfl⟩
    · exact .inr (.inr late)
  · exact .inr (.inl overlong)

end

/-! ## Giving up -/

/-- The requests of a session are given up: those that are open are settled, for the session ends. -/
def GivesUp (s : SessionId) (m m' : Moment) : Prop :=
  ∃ message, ∀ p ∈ (m.client.sessionAt s).registry.pending,
    m'.client.loop.outcome? p.promise = some ((m.client.loop.outcome? p.promise).getD (.error (.termination message)))

theorem Proceeds.givesUp {p : PromiseId} {a : Activity} {rest : List Activity} {o : Outcome} {r : Except Fault Next}
    {c : Client} (hp : m.Proceeds m' p a rest o r c) (gives : m.client.GivesUp s c) : m.GivesUp s m' := by
  obtain ⟨message, settled⟩ := gives
  exact ⟨message, fun q hq => hp.outcome (settled q hq)⟩

/-- Only the activity that fails a session lets it fail. -/
theorem givesUp_of_proceeds {c c' : Client} {a : Activity} {o : Outcome} {r : Except Fault Next}
    (h : c.Proceeds a o r c') (before : (c.sessionAt s).state ≠ .failed) (after : (c'.sessionAt s).state = .failed) :
    c.GivesUp s c' := by
  have leads := (alters_of_proceeds h).leadsTo (s := s) (by rw [after]; exact before.symm)
  rw [after] at leads
  cases a with
  | fail x f =>
    cases leads
    cases h with
    | steady still _ _ =>
      rw [(still.stays s).state] at after
      exact absurd after before
    | fail gives fails => exact gives
    | count never _ _ _ => cases never
    | read never _ _ _ => cases never
    | answer never _ => cases never
  | _ => cases leads

/-- A session that fails gives up its requests. -/
theorem Step.givesUp_of_fails (hE : E.IsTame) (sound : m.Sound) (next : Step E acts m m')
    (before : (m.client.sessionAt s).state ≠ .failed) (after : (m'.client.sessionAt s).state = .failed) :
    m.GivesUp s m' := by
  obtain ⟨_, _, passes | ⟨p, a, rest, o, r, c, _, hp⟩⟩ := next.spec hE sound
  · rw [(passes.stays s).state] at after
    exact absurd after before
  · rw [hp.sessions] at after
    exact hp.givesUp (givesUp_of_proceeds hp.proceeds before after)

/-- A session that has taken leave of its server gives up its requests. -/
theorem Step.givesUp_of_announced (hE : E.IsTame) (sound : m.Sound) (next : Step E acts m m') {p : PromiseId}
    {clear : Bool} {rest : List Activity} {o : Outcome} (turn : m.turn = some ⟨p, .stopAnnounced s clear :: rest, o⟩) :
    m.GivesUp s m' := by
  obtain ⟨_, _, passes | ⟨q, a, rest', o', r, c, _, hp⟩⟩ := next.spec hE sound
  · cases passes.idle _ turn
  · have same := hp.turn
    rw [turn] at same
    cases same
    have proceeds := hp.proceeds
    cases proceeds with
    | steady _ _ kept => exact absurd (.inr (.inl ⟨s, clear, rfl⟩)) kept
    | announced _ gives _ => exact hp.givesUp gives
    | count never _ _ _ => cases never
    | read never _ _ _ => cases never
    | answer never _ => cases never

end LspClient.Moment
