/-
Tasks that stop a session: they are in the middle of that only while the session is stopping, one of them at
a time, and it once. So whatever stops a session at last finds it stopping. And no session is left stopping: as
long as it stops, a task is in the middle of that, unless the release of its transport was cut short.
-/
import LspClient.Proofs.Client.Runs

namespace LspClient.Moment

open Client

variable {E : Executor} {P : Moment → Prop} {m m' : Moment} {s : SessionId} {acts : List LspClient.Step}

/-! ## Definitions -/

/-- Whether an activity stops a session that stops already. -/
def isStopOf (s : SessionId) (a : Activity) : Bool :=
  a.stops = some s

/-- The activities of a task that stop a session. -/
def stopsOf (m : Moment) (s : SessionId) (p : PromiseId) : List Activity :=
  (m.stack p).filter (isStopOf s)

/-- Tasks stop a session only while it is stopping, one at a time and once. -/
structure Halting (m : Moment) (s : SessionId) : Prop where
  stopping : ∀ p, m.stopsOf s p ≠ [] → (m.client.sessionAt s).state = .stopping
  alone : ∀ p q, m.stopsOf s p ≠ [] → m.stopsOf s q ≠ [] → p = q
  once : ∀ p, (m.stopsOf s p).length ≤ 1

/-- A task is in the middle of stopping a session. -/
def IsStopped (m : Moment) (s : SessionId) : Prop :=
  ∃ p, ∃ a ∈ m.stack p, a.stops = some s

/-- What goes on does not cut the release of a transport short that a stopping session waits for. -/
def Undisturbed (s : SessionId) (m : Moment) : Prop :=
  ∀ {p clear f rest o}, m.turn = some ⟨p, .stopReleased s clear f :: rest, o⟩ → ∃ v, o = .ok v

/-! ## Tasks that stop a session -/

theorem mem_stopsOf {a : Activity} {p : PromiseId} (ha : a ∈ m.stack p) (stops : a.stops = some s) :
    a ∈ m.stopsOf s p :=
  List.mem_filter.2 ⟨ha, decide_eq_true stops⟩

theorem filter_isStopOf_eq_nil {as : List Activity} (h : ∀ a ∈ as, a.stops ≠ some s) : as.filter (isStopOf s) = [] := by
  refine List.filter_eq_nil_iff.2 fun a ha => ?_
  simpa [isStopOf] using h a ha

theorem SameStack.stopsOf {A : Activity → Prop} {p : PromiseId} (h : m.SameStack A m' p)
    (plain : ∀ a, A a → a.isInner = false) : (m'.stopsOf s p).Sublist (m.stopsOf s p) := by
  unfold Moment.stopsOf
  rcases h with e | ⟨_, a, new, e⟩
  · rewrite [e]
    exact List.Sublist.refl _
  · have none : [a].filter (isStopOf s) = [] := filter_isStopOf_eq_nil fun b hb => by
      cases List.mem_singleton.1 hb
      simp [(Activity.isInner_eq_false.1 (plain a new)).1]
    rw [e, none]
    exact List.nil_sublist _

/-- A task stops a session once at most. -/
theorem Halting.eq_of_stops (h : m.Halting s) {a b : Activity} {p q : PromiseId} (ha : a ∈ m.stack p)
    (hb : b ∈ m.stack q) (stopsA : a.stops = some s) (stopsB : b.stops = some s) : a = b := by
  have ha' := mem_stopsOf ha stopsA
  have hb' := mem_stopsOf hb stopsB
  -- One task, and one activity of it.
  cases h.alone p q (List.ne_nil_of_mem ha') (List.ne_nil_of_mem hb')
  have one : (m.stopsOf s p).length = 1 :=
    Nat.le_antisymm (h.once p) (List.length_pos_iff.2 (List.ne_nil_of_mem ha'))
  obtain ⟨x, e⟩ := List.length_eq_one_iff.1 one
  rw [e] at ha' hb'
  rw [List.mem_singleton.1 ha', List.mem_singleton.1 hb']

/-- A session that is not stopping is stopped by no task. -/
theorem Halting.stopsOf_eq_nil (h : m.Halting s) (other : (m.client.sessionAt s).state ≠ .stopping) (p : PromiseId) :
    m.stopsOf s p = [] :=
  Classical.byContradiction fun stops => other (h.stopping p stops)

/-- A session that moves on, but not from stopping, is stopped by no task. -/
theorem Halting.stopsOf_of_enters (h : m.Halting s) {target : SessionState} {y : Session}
    (enters : (m.client.sessionAt s).Enters target y) (other : target ≠ .stopped) : ∀ q, m.stopsOf s q = [] :=
  h.stopsOf_eq_nil (enters.not_stopping other)

/-- A session that no task stops. -/
theorem halting_of_not_stopped (none : ∀ p, m.stopsOf s p = []) : m.Halting s := by
  refine ⟨fun p hp => absurd (none p) hp, fun p q hp => absurd (none p) hp, fun p => ?_⟩
  rw [none p]
  exact Nat.zero_le 1

/-- No more tasks stop a session than before, and it is in the same state if there are any. -/
theorem Halting.carry (h : m.Halting s) (stops : ∀ p, (m'.stopsOf s p).Sublist (m.stopsOf s p))
    (state : (m.client.sessionAt s).state = .stopping → (m'.client.sessionAt s).state = .stopping) : m'.Halting s := by
  have some : ∀ p, m'.stopsOf s p ≠ [] → m.stopsOf s p ≠ [] := by
    intro p hp none
    refine hp (List.sublist_nil.1 ?_)
    rw [← none]
    exact stops p
  refine ⟨fun p hp => state (h.stopping p (some p hp)), fun p q hp hq => h.alone p q (some p hp) (some q hq),
    fun p => ?_⟩
  exact Nat.le_trans (stops p).length_le (h.once p)

/-! ## What activities do -/

section

variable {p : PromiseId} {a : Activity} {rest : List Activity} {o : Outcome} {r : Except Fault Next} {c : Client}

/-- If nothing that is left to do stops a session, then no more tasks stop it. -/
theorem Proceeds.stopsOf (hp : m.Proceeds m' p a rest o r c) (plain : ∀ b ∈ framesOf r, b.stops ≠ some s)
    (q : PromiseId) : (m'.stopsOf s q).Sublist (m.stopsOf s q) := by
  by_cases hq : q = p
  · unfold Moment.stopsOf
    rw [hq, hp.stack, hp.stack_before, List.filter_append, filter_isStopOf_eq_nil plain, List.nil_append]
    exact (List.sublist_cons_self a rest).filter _
  · exact (hp.others q hq).stopsOf fun b new => new.not_isInner

/-- If no task stops a session, then the one that runs does not. -/
theorem Proceeds.behind (hp : m.Proceeds m' p a rest o r c) (none : ∀ q, m.stopsOf s q = []) :
    rest.filter (isStopOf s) = [] := by
  have all := none p
  unfold Moment.stopsOf at all
  rw [hp.stack_before] at all
  exact List.filter_eq_nil_iff.2 fun b hb => List.filter_eq_nil_iff.1 all b (List.mem_cons_of_mem _ hb)

/-- What stops a session is all that does. -/
theorem Proceeds.behind_of_stops (hp : m.Proceeds m' p a rest o r c) (h : m.Halting s) (stops : a.stops = some s) :
    rest.filter (isStopOf s) = [] ∧ ∀ q, q ≠ p → m.stopsOf s q = [] := by
  have here : m.stopsOf s p = a :: rest.filter (isStopOf s) := by
    unfold Moment.stopsOf
    rw [hp.stack_before]
    exact List.filter_cons_of_pos (decide_eq_true stops)
  constructor
  · have once := h.once p
    rw [here, List.length_cons] at once
    exact List.length_eq_zero_iff.1 (by omega)
  · intro q hq
    refine Classical.byContradiction fun some => hq (h.alone q p some ?_)
    rw [here]
    simp

/-- A session that one task stops, which has called something on the way. -/
theorem Proceeds.halting_of_call (hp : m.Proceeds m' p a rest o r c) {b k : Activity} (frames : framesOf r = [b, k])
    (calls : b.stops = none) (stops : k.stops = some s) (alone : ∀ q, q ≠ p → m.stopsOf s q = [])
    (behind : rest.filter (isStopOf s) = []) (stopping : (c.sessionAt s).state = .stopping) :
    m'.Halting s ∧ m'.stopsOf s p = [k] ∧ ∀ q, m'.stopsOf s q ≠ [] → q = p := by
  have one : m'.stopsOf s p = [k] := by
    unfold Moment.stopsOf
    rw [hp.stack, frames, List.filter_append, behind, List.append_nil,
      List.filter_cons_of_neg (by simp [isStopOf, calls]), List.filter_cons_of_pos (by simp [isStopOf, stops]),
      List.filter_nil]
  have none : ∀ q, q ≠ p → m'.stopsOf s q = [] := by
    intro q hq
    refine List.sublist_nil.1 ?_
    rw [← alone q hq]
    exact (hp.others q hq).stopsOf fun b new => new.not_isInner
  have only : ∀ q, m'.stopsOf s q ≠ [] → q = p := fun q hq =>
    Classical.byContradiction fun other => hq (none q other)
  refine ⟨⟨fun _ _ => ?_, fun q q' hq hq' => ?_, fun q => ?_⟩, one, only⟩
  · rw [hp.sessions, stopping]
  · rw [only q hq, only q' hq']
  · by_cases hq : q = p
    · rw [hq, one]
      exact Nat.le_refl 1
    · rw [none q hq]
      exact Nat.zero_le 1

/-- What was the last to stop a session is done. -/
theorem Proceeds.stopsOf_of_stopped (hp : m.Proceeds m' p a rest o r c) (h : m.Halting s) (stops : a.stops = some s)
    (ends : framesOf r = []) (q : PromiseId) : m'.stopsOf s q = [] := by
  obtain ⟨behind, alone⟩ := hp.behind_of_stops h stops
  by_cases hq : q = p
  · unfold Moment.stopsOf
    rw [hq, hp.stack, ends, List.nil_append, behind]
  · refine List.sublist_nil.1 ?_
    rw [← alone q hq]
    exact (hp.others q hq).stopsOf fun b new => new.not_isInner

/-- Nothing that is left to do stops a session, and the session stays in its state or was not stopping. -/
theorem Proceeds.halting_of_plain (hp : m.Proceeds m' p a rest o r c) (h : m.Halting s)
    (plain : ∀ b ∈ framesOf r, b.stops ≠ some s)
    (state : (m.client.sessionAt s).state = .stopping → (c.sessionAt s).state = .stopping) : m'.Halting s :=
  h.carry (hp.stopsOf plain) fun stopping => by rw [hp.sessions, state stopping]

/-- A session that is stopping is stopping still if another one has changed, or the change leaves it so. -/
theorem stopping_of_changes {c c' : Client} {x : SessionId} {R : Session → Session → Prop} (changes : c.Changes x R c')
    (here : ∀ y y', R y y' → y.state = .stopping → y'.state = .stopping)
    (stopping : (c.sessionAt s).state = .stopping) :
    (c'.sessionAt s).state = .stopping := by
  by_cases hs : s = x
  · rw [hs] at stopping ⊢
    exact here _ _ changes.session stopping
  · rw [(changes.others s hs).state, stopping]

theorem stopping_of_enters {c c' : Client} {x : SessionId} {target : SessionState} (other : target ≠ .stopped)
    (enters : c.Changes x (Session.Enters target) c') (stopping : (c.sessionAt s).state = .stopping) :
    (c'.sessionAt s).state = .stopping :=
  stopping_of_changes enters (fun _ _ moved busy => absurd busy (moved.not_stopping other)) stopping

/-- A session begins to stop: only one that no task stops does. -/
theorem Proceeds.halting_of_stops {x : SessionId} {clear : Bool} (hp : m.Proceeds m' p (.stop x clear) rest o r c)
    (h : m.Halting s) (stops : m.client.Stops x clear r c) : m'.Halting s := by
  by_cases hs : s = x
  · -- Either way it calls something, and then goes on to stop.
    have begins : ∀ {b k : Activity}, framesOf r = [b, k] → b.stops = none → k.stops = some s →
        (m.client.sessionAt s).Enters .stopping (c.sessionAt s) → m'.Halting s := by
      intro b k frames calls stops enters
      have none := h.stopsOf_of_enters enters (by decide)
      exact (hp.halting_of_call frames calls stops (fun q _ => none q) (hp.behind none) enters.state).1
    rcases stops with ⟨rfl, stops⟩ | ⟨rfl, stops⟩
    · exact begins rfl rfl (by rw [hs]; rfl) (by rw [hs]; exact stops.session)
    · exact begins rfl rfl (by rw [hs]; rfl) (by rw [hs]; exact stops.session.1)
  · have enters : m.client.Changes x (Session.Enters .stopping) c := by
      rcases stops with ⟨_, stops⟩ | ⟨_, stops⟩
      · exact stops
      · exact stops.weaken fun _ _ enters => enters.1
    refine hp.halting_of_plain h ?_ (stopping_of_enters (by decide) enters)
    rcases stops with ⟨rfl, _⟩ | ⟨rfl, _⟩ <;> simp [framesOf, Next.frames, Activity.stops, Ne.symm hs]

/-- Whatever an activity does, tasks stop a session only while it is stopping, one at a time and once. -/
theorem Proceeds.halting (hp : m.Proceeds m' p a rest o r c) (h : m.Halting s) : m'.Halting s := by
  have free : ∀ {of : Option SessionId}, (∀ b ∈ framesOf r, b.IsFree of) → ∀ b ∈ framesOf r, b.stops ≠ some s := by
    intro of free b hb
    simp [(free b hb).not_stops]
  have one : ∀ {b : Activity}, framesOf r = [b] → b.stops = none → ∀ b ∈ framesOf r, b.stops ≠ some s := by
    intro b frames plain x hx
    rw [frames] at hx
    rw [List.mem_singleton.1 hx, plain]
    simp
  have none : framesOf r = [] → ∀ b ∈ framesOf r, b.stops ≠ some s := by
    intro ends b hb
    rw [ends] at hb
    cases hb
  have stays : ∀ {A : Activity → Prop} {but : Option SessionId}, m.client.Still A but c →
      (m.client.sessionAt s).state = .stopping → (c.sessionAt s).state = .stopping := by
    intro A but still stopping
    rw [(still.stays s).state, stopping]
  have proceeds := hp.proceeds
  cases proceeds with
  | steady still left kept => exact hp.halting_of_plain h (free left) (stays still)
  | attempt starts =>
    refine hp.halting_of_plain h (by simp [framesOf, Next.frames, Activity.stops]) ?_
    rcases starts with starts | still
    · exact stopping_of_enters (by decide) starts
    · exact stays still
  | connect connects new made connected =>
    refine hp.halting_of_plain h (by simp [framesOf, Next.frames, Activity.stops]) (stopping_of_changes connects ?_)
    intro y y' remains stopping
    rw [remains.1, stopping]
  | greet connected still left => exact hp.halting_of_plain h (free left) (stays still)
  | run runs ends =>
    exact hp.halting_of_plain h (none ends) (stopping_of_enters (by decide) (runs.weaken fun _ _ runs => runs.1))
  | count fails counted ends decides =>
    refine hp.halting_of_plain h (none ends) fun stopping => ?_
    rw [counted.counts.state s, stopping]
  | fail gives fails =>
    refine hp.halting_of_plain h (by simp [framesOf, Next.frames, Activity.stops]) ?_
    exact stopping_of_enters (by decide) (fails.weaken fun _ _ quiet => quiet.1)
  | stop stops => exact hp.halting_of_stops h stops
  | leave still next =>
    refine hp.halting_of_plain h ?_ (stays still)
    rcases next with ends | waits
    · exact none ends
    · exact one waits rfl
  | @announced x clear f _ _ still gives quiet =>
    by_cases hs : s = x
    · -- The server has been told: what stops the session gives way to a release, and goes on after it.
      obtain ⟨behind, alone⟩ := hp.behind_of_stops h (by rw [hs]; rfl)
      have stopping := h.stopping p (List.ne_nil_of_mem (mem_stopsOf hp.mem_before (by rw [hs]; rfl)))
      exact (hp.halting_of_call rfl rfl (by rw [hs]; rfl) alone behind (stays still stopping)).1
    · exact hp.halting_of_plain h (by simp [framesOf, Next.frames, Activity.stops, Ne.symm hs]) (stays still)
  | @stopped x clear f v _ _ stops ends =>
    by_cases hs : s = x
    · exact halting_of_not_stopped (hp.stopsOf_of_stopped h (by rw [hs]; rfl) ends)
    · refine hp.halting_of_plain h (none ends) fun stopping => ?_
      rw [(stops.others s hs).state, stopping]
  | release releases next =>
    refine hp.halting_of_plain h (one next rfl) (stopping_of_changes releases ?_)
    intro y y' gone stopping
    rw [gone.1.1, stopping]
  | silence still next => exact hp.halting_of_plain h (one next rfl) (stays still)
  | read reads still next idle =>
    refine hp.halting_of_plain h (fun b hb => ?_) (stays still)
    rcases next b hb with left | again
    · simp [left.not_stops]
    · have plain : b.stops = Option.none := by cases b <;> first | rfl | cases again
      simp [plain]
  | answer request answers =>
    cases answers with
    | @waits b k _ still calls again =>
      refine hp.halting_of_plain h (fun x hx => ?_) (stays still)
      rcases mem_framesOf_call hx with rfl | rfl
      · simp [(calls.free Option.none).not_stops]
      · have plain : x.stops = Option.none := by cases x <;> first | rfl | cases again
        simp [plain]
    | replies writes ends =>
      refine hp.halting_of_plain h (none ends) fun stopping => ?_
      rw [(writes.stays s).state, stopping]
    | drops still ends why => exact hp.halting_of_plain h (none ends) (stays still)

end

/-! ## Whole runs -/

theorem Passes.halting (h : m.Passes m') (halting : m.Halting s) : m'.Halting s := by
  refine halting.carry (fun p => (h.tasks p).stopsOf fun b root => (root.free none).not_isInner) fun stopping => ?_
  rw [(h.stays s).state, stopping]

theorem Step.halting (hE : E.IsTame) (sound : m.Sound) (h : m.Halting s) (next : Step E acts m m') : m'.Halting s := by
  obtain ⟨_, _, passes | ⟨p, a, rest, o, r, c, _, proceeds⟩⟩ := next.spec hE sound
  · exact passes.halting h
  · exact proceeds.halting h

theorem halting_of_isNew {c : Client} (new : c.IsNew) (s : SessionId) : Halting ⟨c, none⟩ s := by
  refine halting_of_not_stopped fun p => ?_
  unfold Moment.stopsOf
  rw [stack_of_isNew new]
  rfl

/-- In every run, whatever is about to stop a session at last finds it stopping. -/
theorem Halting.stopping_of_mem (h : m.Halting s) {p : PromiseId} {a : Activity} (ha : a ∈ m.stack p)
    (stops : a.stops = some s) : (m.client.sessionAt s).state = .stopping :=
  h.stopping p (List.ne_nil_of_mem (mem_stopsOf ha stops))

/-! ## Sessions that are stopping -/

theorem isStopped_of_mem {p : PromiseId} {a : Activity} (ha : a ∈ m.stack p) (stops : a.stops = some s) :
    m.IsStopped s :=
  ⟨p, a, ha, stops⟩

/-- What stops a session goes on to stop it, or has stopped it. -/
theorem Proceeds.isStopped_of_stops (hE : E.IsTame) (sound : m.Sound) {p : PromiseId} {a : Activity}
    {rest : List Activity} {o : Outcome} {r : Except Fault Next} {c : Client} (hx : does E (goOn a o) m.client = (r, c))
    (hp : m.Proceeds m' p a rest o r c) (calm : Undisturbed s m) (stops : a.stops = some s)
    (stopping : (m.client.sessionAt s).state = .stopping) :
    m'.IsStopped s ∨ (m'.client.sessionAt s).state = .stopped := by
  cases a with
  | stopAnnounced x clear =>
    cases stops
    left
    have proceeds := hp.proceeds
    cases proceeds with
    | steady still free kept => exact absurd (.inr (.inl ⟨_, _, rfl⟩)) kept
    | announced still gives quiet =>
      exact isStopped_of_mem (hp.mem_stack (List.mem_cons_of_mem _ (List.mem_singleton.2 rfl))) rfl
    | count never _ _ _ => cases never
    | read never _ _ _ => cases never
    | answer never _ => cases never
  | stopReleased x clear f =>
    cases stops
    right
    obtain ⟨v, rfl⟩ := calm hp.turn
    rw [hp.sessions]
    rcases does_stopReleased hE sound.client s clear f v with ⟨never, _⟩ | ⟨r', c', hy, _, _, stopped⟩
    · rw [stopping] at never
      cases never
    · have same := hx.symm.trans hy
      cases same
      exact stopped.session.1.state
  | _ => cases stops

/-- A session that begins to stop does so in a task that goes on to stop it. -/
theorem Proceeds.isStopped_of_begins {p : PromiseId} {a : Activity} {rest : List Activity} {o : Outcome}
    {r : Except Fault Next} {c : Client} (hp : m.Proceeds m' p a rest o r c)
    (before : (m.client.sessionAt s).state ≠ .stopping) (stopping : (c.sessionAt s).state = .stopping) :
    m'.IsStopped s := by
  have leads := (alters_of_proceeds hp.proceeds).leadsTo (s := s) (by rw [stopping]; exact before.symm)
  rw [stopping] at leads
  have proceeds := hp.proceeds
  cases a with
  | stop x clear =>
    cases leads
    cases proceeds with
    | stop stops =>
      rcases stops with ⟨rfl, _⟩ | ⟨rfl, _⟩
      · exact isStopped_of_mem (hp.mem_stack (List.mem_cons_of_mem _ (List.mem_singleton.2 rfl))) rfl
      · exact isStopped_of_mem (hp.mem_stack (List.mem_cons_of_mem _ (List.mem_singleton.2 rfl))) rfl
    | steady still _ _ =>
      rw [(still.stays s).state] at stopping
      exact absurd stopping before
    | count never _ _ _ => cases never
    | read never _ _ _ => cases never
    | answer never _ => cases never
  | _ => cases leads

/-- As long as a session stops, some task is in the middle of that. -/
theorem Step.isStopped (hE : E.IsTame) (sound : m.Sound) (calm : Undisturbed s m) (next : Step E acts m m')
    (h : (m.client.sessionAt s).state = .stopping → m.IsStopped s)
    (stopping : (m'.client.sessionAt s).state = .stopping) :
    m'.IsStopped s := by
  obtain ⟨_, _, passes | ⟨p, a, rest, o, r, c, hx, hp⟩⟩ := next.spec hE sound
  · rw [(passes.stays s).state] at stopping
    obtain ⟨q, b, hb, stops⟩ := h stopping
    exact isStopped_of_mem (passes.mem_stack sound hb) stops
  · by_cases before : (m.client.sessionAt s).state = .stopping
    · obtain ⟨q, b, hb, stops⟩ := h before
      rcases hp.mem_or_goes sound hb with still | ⟨rfl, rfl⟩
      · exact isStopped_of_mem still stops
      · rcases hp.isStopped_of_stops hE sound hx calm stops before with again | stopped
        · exact again
        · rw [stopping] at stopped
          cases stopped
    · rw [hp.sessions] at stopping
      exact hp.isStopped_of_begins before stopping

/-- While a session stops, a task that has not ended is in the middle of that. -/
theorem isStopped_of_stopping (hE : E.IsTame) {c : Client} (new : c.IsNew)
    (run : Run E (Undisturbed s) ⟨c, none⟩ acts m) (stopping : (m.client.sessionAt s).state = .stopping) :
    ∃ p, (∃ a ∈ m.stack p, a.stops = some s) ∧ m.client.loop.outcome? p = none := by
  have sound := sound_of_isNew new
  suffices stops : m.IsStopped s by
    obtain ⟨p, a, ha, stops⟩ := stops
    exact ⟨p, ⟨a, ha, stops⟩, ((run.spec hE sound).1.unfinished ha).2⟩
  induction run with
  | refl =>
    -- A new session is stopped.
    rw [(sessionAt_of_isNew new s).1] at stopping
    cases stopping
  | step run calm next ih => exact next.isStopped hE (run.spec hE sound).1 calm ih stopping

/-- Whatever is played to a new client, a session that stops has a task that is in the middle of that, unless a task
goes on for too long or the release of its transport is cut short. -/
theorem isStopped_of_played {c : Client} (new : c.IsNew) {steps : List LspClient.Step}
    (h : ∀ step ∈ steps, IsPlayable step) (stopping : ((playedBy c steps).sessionAt s).state = .stopping) :
    (∃ p, (∃ a ∈ (playedBy c steps).loop.stackOf p, a.stops = some s) ∧ (playedBy c steps).loop.outcome? p = none) ∨
      Overlong (executor nesting) ⟨c, none⟩ (steps.flatMap actsOf) ∨
      Strays (executor nesting) (Undisturbed s) ⟨c, none⟩ (steps.flatMap actsOf) ⟨playedBy c steps, none⟩ := by
  rcases leads_playedBy h c with run | overlong
  · rcases run.keeps_or_strays (Undisturbed s) with calm | disturbed
    · left
      exact isStopped_of_stopping (isTame_executor nesting) new (calm.mono fun _ here => here.2) stopping
    · exact .inr (.inr disturbed)
  · exact .inr (.inl overlong)

end LspClient.Moment
