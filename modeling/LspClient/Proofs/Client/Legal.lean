/-
Lives of sessions: in every run the states of a session follow each other as they may, from its first one on,
and no session is ever told to move to a state that may not follow, whatever users, servers and the clock do.
-/
import LspClient.Proofs.Client.CleanLife
import LspClient.Proofs.Client.Stopping

namespace LspClient.Moment

open Client

variable {E : Executor} {P : Moment → Prop} {m m' : Moment} {acts : List LspClient.Step}

/-! ## Definitions -/

section

variable [Breaches]

/-- A clean moment: the running task goes on with no breach, with an activity that is ready, and what it is in the
middle of besides may be put down. -/
structure Clean (m : Moment) : Prop where
  client : m.client.Clean
  outcome : ∀ t, m.turn = some t → Fault.Spares t.outcome
  front : ∀ t a rest, m.turn = some t → t.stack = a :: rest → a.IsReady m.client ∧ ∀ b ∈ rest, b.IsParked

/-- No session is told to move to a state that may not follow: no task and no request has ended with that breach,
the running task does not raise it next, and neither does anything that a user may do now or that the loop tells
about. -/
structure Lawful (E : Executor) (m : Moment) : Prop where
  settled : ∀ p f, m.client.loop.outcome? p = some (.error f) → f.isBreach = false
  tasks : ∀ p a rest o f, m.turn = some ⟨p, a :: rest, o⟩ → (does E (goOn a o) m.client).1 = .error f →
    f.isBreach = false
  steps : ∀ step f, step.isClean = true → (does E (runStep step) m.client).1 = .error f → f.isBreach = false
  events : ∀ e l f, m.client.loop.next? = some (.notify e, l) →
    (does E (handleEvent e) { m.client with loop := l }).1 = .error f → f.isBreach = false

/-! ## Jobs -/

/-- What the loop tells about is clean. -/
theorem isClean_handleEvent (hE : E.IsClean) {e : Event} (he : cleanly.event e) : IsClean E (handleEvent e) := by
  cases e with
  | requestExpired owner id timeout => exact isClean_requestExpired owner id timeout
  | requestSettled owner id q => exact isClean_requestSettled owner id q
  | handleSettled label q steps =>
    have runs : IsClean E (steps.forM fun step => do let _ ← execute step) :=
      IsClean.forM fun step hs => (hE step (Step.areClean_iff.1 he step hs)).bind fun _ => isClean_return _
    refine isClean_get.bind fun _ => ?_
    split
    · exact (isClean_note _).bind fun _ => runs
    · exact runs
  | taskEnded name q =>
    refine isClean_get.bind fun _ => ?_
    split
    · exact isClean_note _
    · exact isClean_return _
  | answerEnded s q => exact isClean_onSession fun _ topic => by cases topic <;> rfl
  | postEnded index q =>
    refine (isClean_poster? index).bind fun _ => ?_
    split
    · exact isClean_setBackend _ _
    · exact isClean_return _
  | childExits i code => exact isClean_childExits i code

theorem cleanAt_runJob (hE : E.IsClean) {c : Client} (hc : c.Clean) {job : Job Event} (hj : job.Holds cleanly)
    (idle : ∀ p o, ¬ job.RunsOn c.loop p o) : CleanAt E (runJob job) (fun _ _ => True) c := by
  cases job with
  | step p => exact absurd ⟨rfl, rfl⟩ (idle p (.ok .null))
  | wake p source =>
    refine cleanAt_bind_of_ok (does_get c) ?_
    split
    · next o ho => exact absurd ⟨rfl, ho⟩ (idle p o)
    · exact cleanAt_pure hc trivial
  | fulfil p => exact (isClean_settle p (Fault.only_ok _)).cleanAt c hc
  | member g p =>
    have counts : IsClean E (onLoop fun l => l.memberSettled g) := isClean_onLoop fun _ h => h.memberSettled g
    exact counts.cleanAt c hc
  | notify e =>
    have handles := (isClean_handleEvent hE hj).tryCatch fun _ _ => isClean_return (E := E) ()
    exact handles.cleanAt c hc
  | idle => exact cleanAt_pure hc trivial

/-! ## Turns -/

/-- What is in the middle of nothing that runs may begin. -/
theorem clean_of_parked {c : Client} (hc : c.Clean) {p : PromiseId} {stack : List Activity}
    (parked : ∀ a ∈ stack, a.IsParked) {o : Outcome} (ho : Fault.Spares o) : Clean ⟨c, some ⟨p, stack, o⟩⟩ := by
  refine ⟨hc, fun t e => by cases e; exact ho, fun t a rest e front => ?_⟩
  cases e
  cases front
  exact ⟨(parked a (List.mem_cons_self ..)).isReady c, fun b hb => parked b (List.mem_cons_of_mem _ hb)⟩

theorem clean_of_idle {c : Client} (hc : c.Clean) : Clean ⟨c, none⟩ :=
  ⟨hc, fun _ e => (nomatch e), fun _ _ _ e => (nomatch e)⟩

/-- A task that goes on from one activity to what it leaves to do. -/
theorem clean_of_goesTo {p : PromiseId} {rest : List Activity} (parked : ∀ b ∈ rest, b.IsParked) {r : Except Fault Next}
    {c c' : Client} {stack : List Activity} {o : Outcome} (goes : GoesTo p rest (r, c) (some (stack, o), c'))
    (hc : c.Clean) (fault : Fault.Spares r) (answer : ∀ next, r = .ok next → next.IsClean c) :
    Clean ⟨c', some ⟨p, stack, o⟩⟩ := by
  have behind : ∀ {k : Activity}, k.IsParked → ∀ b ∈ k :: rest, b.IsParked := by
    intro k hk b hb
    rcases List.mem_cons.1 hb with rfl | hb
    · exact hk
    · exact parked b hb
  cases goes with
  | fault f => exact clean_of_parked hc parked (Fault.only_error (fault f rfl))
  | done v => exact clean_of_parked hc parked (Fault.only_ok v)
  | become b =>
    have parks : (Next.become b).Parks := answer _ rfl
    exact clean_of_parked hc (behind (parks b (List.mem_singleton_self b))) (Fault.only_ok _)
  | call b k =>
    obtain ⟨ready, hk⟩ : b.IsReady c ∧ k.IsParked := answer _ rfl
    -- What is called begins in the very client that calls it, where it is ready.
    refine ⟨hc, fun t e => by cases e; exact Fault.only_ok _, fun t a stack e front => ?_⟩
    cases e
    cases front
    exact ⟨ready, behind hk⟩
  | @ready q k _ o h =>
    have parks : (Next.await q k).Parks := answer _ rfl
    exact clean_of_parked hc (behind (parks k (List.mem_singleton_self k))) (hc.loop.outcome? h)

/-- A task that waits puts down what it is in the middle of. -/
theorem clean_of_waits {p : PromiseId} {rest : List Activity} (parked : ∀ b ∈ rest, b.IsParked) {r : Except Fault Next}
    {c c' : Client} (goes : GoesTo p rest (r, c) (none, c')) (hc : c.Clean)
    (answer : ∀ next, r = .ok next → next.IsClean c) : Client.Clean (c'.driving c'.loop none) := by
  have put : ∀ {k : Activity}, k.IsParked → ∀ b ∈ k :: rest, b.IsParked := by
    intro k hk b hb
    rcases List.mem_cons.1 hb with rfl | hb
    · exact hk
    · exact parked b hb
  cases goes with
  | yield k =>
    have parks : (Next.yield k).Parks := answer _ rfl
    exact ⟨hc.loop.pause p (put (parks k (List.mem_singleton_self k))), hc.sessions, hc.transports, hc.pipes⟩
  | @wait q k _ h =>
    have parks : (Next.await q k).Parks := answer _ rfl
    exact ⟨hc.loop.suspend p (put (parks k (List.mem_singleton_self k))) q, hc.sessions, hc.transports, hc.pipes⟩

/-- What the running task does is clean. -/
theorem Clean.passes (h : m.Clean) (hE : E.IsClean) (halting : ∀ s, m.Halting s) {p : PromiseId} {a : Activity}
    {rest : List Activity} {o : Outcome} (turn : m.turn = some ⟨p, a :: rest, o⟩) :
    LspClient.Passes E (goOn a o) m.client ∧ ∀ b ∈ rest, b.IsParked := by
  obtain ⟨ready, parked⟩ := h.front _ a rest turn rfl
  -- The activity is on the stack of its task, so the session that it stops at last is stopping.
  refine ⟨passes_goOn hE h.client ready (h.outcome _ turn) fun s clear f e => ?_, parked⟩
  refine (halting s).stopping_of_mem (p := p) (a := a) ?_ (by rw [e]; rfl)
  rw [stack_of_turn turn]
  exact List.mem_cons_self ..

/-! ## Whole runs -/

/-- A clean moment goes on as a clean one, as long as users take clean steps. -/
theorem Step.clean (hE : E.IsClean) (h : m.Clean) (halting : ∀ s, m.Halting s)
    (clean : ∀ step ∈ acts, step.isClean = true) (next : Step E acts m m') : m'.Clean := by
  cases next with
  | act tame =>
    have acted := (isClean_runStep hE (clean _ (List.mem_singleton_self _))).cleanAt _ h.client
    exact clean_of_idle acted.state
  | clock now => exact clean_of_idle (h.client.withLoop (h.client.loop.setNow now))
  | @begin c job l p o next runs =>
    obtain ⟨_, hl⟩ := h.client.loop.next? next
    obtain ⟨parked, hl'⟩ := hl.resume p
    have taken : Client.Clean (c.driving (l.resume p).2.2 (some p)) :=
      ⟨hl', h.client.sessions, h.client.transports, h.client.pipes⟩
    -- It goes on with that it was cancelled, or with what it has waited for.
    refine clean_of_parked taken parked ?_
    split
    · exact Fault.only_error rfl
    · cases job with
      | step task => rw [runs.2]; exact Fault.only_ok _
      | wake task source => exact hl.outcome? runs.2
      | _ => exact runs.elim
  | @work c job l next idle =>
    obtain ⟨hj, hl⟩ := h.client.loop.next? next
    exact clean_of_idle (cleanAt_runJob hE (h.client.withLoop hl) hj idle).state
  | @go c c' p a rest stack o o' goes =>
    obtain ⟨passes, parked⟩ := h.passes hE halting rfl
    obtain ⟨t, c'', ran, leads⟩ := does_runActivity (E := E) p a rest o c
    rw [goes] at ran
    cases ran
    exact clean_of_goesTo parked leads passes.state passes.fault passes.answer
  | @wait c c' p a rest o goes =>
    obtain ⟨passes, parked⟩ := h.passes hE halting rfl
    obtain ⟨t, c'', ran, leads⟩ := does_runActivity (E := E) p a rest o c
    rw [goes] at ran
    cases ran
    exact clean_of_idle (clean_of_waits parked leads passes.state passes.answer)
  | @finish c p o =>
    have ended := h.client.loop.finish p (h.outcome _ rfl)
    exact clean_of_idle ⟨ended, h.client.sessions, h.client.transports, h.client.pipes⟩

/-- In every run in which users take clean steps all moments are clean. -/
theorem Run.clean (hE : E.IsClean) (tame : E.IsTame) (sound : m.Sound) (h : m.Clean) (halting : ∀ s, m.Halting s)
    (clean : ∀ step ∈ acts, step.isClean = true) (run : Run E P m acts m') : m'.Clean ∧ ∀ s, m'.Halting s := by
  -- Both go along the run together: what stops a session at last is clean only because the session is stopping.
  induction run with
  | refl => exact ⟨h, halting⟩
  | step run _ next ih =>
    obtain ⟨h', halting'⟩ := ih fun step hs => clean step (List.mem_append_left _ hs)
    refine ⟨next.clean hE h' halting' fun step hs => clean step (List.mem_append_right _ hs), fun s => ?_⟩
    exact next.halting tame (run.spec tame sound).1 (halting' s)

/-- In a clean moment nothing raises a breach. -/
theorem Clean.lawful (h : m.Clean) (hE : E.IsClean) (halting : ∀ s, m.Halting s) : m.Lawful E where
  settled p f ended := h.client.loop.outcome? ended f rfl
  tasks p a rest o f turn raised := (h.passes hE halting turn).1.fault f raised
  steps step f clean raised := ((isClean_runStep hE clean).cleanAt _ h.client).fault f raised
  events e l f next raised := by
    obtain ⟨hj, hl⟩ := h.client.loop.next? next
    exact ((isClean_handleEvent hE hj).cleanAt _ (h.client.withLoop hl)).fault f raised

/-- A new client is clean if nothing has broken its connections with a breach. -/
theorem clean_of_isNew {c : Client} (new : c.IsNew) (transports : ∀ x ∈ c.transports, x.IsClean)
    (pipes : ∀ x ∈ c.pipes, x.stream.IsClean) : Clean ⟨c, none⟩ := by
  refine clean_of_idle ⟨?_, fun s topic h hh => ?_, transports, pipes⟩
  · rw [new.loop]
    exact Loop.Holds.new
  · obtain ⟨_, _, _, handlers⟩ := sessionAt_of_isNew new s
    rw [handlers] at hh
    cases hh

end

/-! ## Lives of sessions -/

/-- The first state of a session of a new client is its only one. -/
theorem path_of_isNew {c : Client} (new : c.IsNew) (s : SessionId) : (c.sessionAt s).lifecycle.path = [.stopped] := by
  unfold Client.sessionAt
  cases hs : c.sessions[s]? with
  | none => rfl
  | some x =>
    obtain ⟨settings, policy, rfl⟩ := new.sessions x (Array.mem_of_getElem? hs)
    rfl

/-- Lives of sessions, in every run of a new client, whatever users and servers do, in whichever order jobs and timers
come up and tasks are cancelled. The states that a session has been in and the one that it is in follow each other as
they may, and the first of them is that it has stopped. And no session is told to move to a state that may not follow: a
fault that says so is raised by nothing, unless users or servers raise that very fault themselves. -/
theorem lives_of_run {c : Client} (new : c.IsNew) (run : Run (executor nesting) P ⟨c, none⟩ acts m) :
    (∀ s, (m.client.sessionAt s).lifecycle.path.head? = some .stopped ∧
      Lifecycle.IsPath (m.client.sessionAt s).lifecycle.path) ∧
    ∀ _ : Breaches, (∀ step ∈ acts, step.isClean = true) → (∀ x ∈ c.transports, x.IsClean) →
      (∀ x ∈ c.pipes, x.stream.IsClean) → m.Lawful (executor nesting) := by
  have tame := isTame_executor nesting
  have sound := sound_of_isNew new
  constructor
  · intro s
    obtain ⟨_, after⟩ := run.spec tame sound
    have first : (c.sessionAt s).lifecycle.path = [.stopped] := path_of_isNew new s
    refine ⟨?_, (after.ages s).path ?_⟩
    · rw [(after.ages s).origin, first]
      rfl
    · rw [first]
      trivial
  · intro _ clean transports pipes
    obtain ⟨h, halting⟩ := run.clean (isClean_executor nesting) tame sound (clean_of_isNew new transports pipes)
      (halting_of_isNew new) clean
    exact h.lawful (isClean_executor nesting) halting

/-- A client with one session, which nobody has started yet. -/
def solo : Client where
  peer := { frameLimit := .int 0 }
  sessions := #[{ settings := { name := "main", label := "Main", initializeParams := .null },
                  policy := { settings := {} } }]

theorem isNew_solo : solo.IsNew := by
  refine ⟨rfl, rfl, rfl, fun x hx => ?_⟩
  cases List.mem_singleton.1 (Array.mem_toList_iff.2 hx)
  exact ⟨_, _, rfl⟩

/-- A task that is to start a session is cancelled before it begins, and then another one starts the session. -/
theorem lives_of_run_cancelled : ∃ m,
    Run (executor nesting) (fun _ => True) ⟨solo, none⟩ [.start "t", .cancelTask "t", .start "u"] m ∧
      (m.client.sessionAt 0).lifecycle.path = [.stopped, .starting] ∧
      Lifecycle.IsPath (m.client.sessionAt 0).lifecycle.path ∧ ∀ _ : Breaches, m.Lawful (executor nesting) := by
  have acts : Run (executor nesting) (fun _ => True) ⟨solo, none⟩ [.start "t", .cancelTask "t", .start "u"] _ :=
    ((Run.refl.step trivial (.act rfl)).step trivial (.act rfl)).step trivial (.act rfl)
  -- The first task ends at once; the second one goes on until the session starts.
  have first := acts.step trivial (@Step.begin (executor nesting) _ (.step 0) _ 0 (.ok .null) rfl ⟨rfl, rfl⟩)
  have ended := (first.step trivial (.go rfl)).step trivial .finish
  have second := ended.step trivial (@Step.begin (executor nesting) _ (.step 1) _ 1 (.ok .null) rfl ⟨rfl, rfl⟩)
  have starts := (second.step trivial (.go rfl)).step trivial (.go rfl)
  have lives := lives_of_run isNew_solo starts
  refine ⟨_, starts, rfl, (lives.1 0).2, fun _ => lives.2 _ ?_ ?_ ?_⟩
  · simp [Step.isClean, Step.isTame]
  · exact fun x hx => absurd hx (Array.not_mem_empty x)
  · exact fun x hx => absurd hx (Array.not_mem_empty x)

end LspClient.Moment
