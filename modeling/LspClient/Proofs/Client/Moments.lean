/-
Runs of a client as moments that follow each other: users act, the clock moves, jobs are taken up,
and the task that runs goes on from activity to activity. What is played to a client is such a run,
unless a task goes on for too long.
-/
import LspClient.Proofs.Client.Does
import LspClient.Proofs.Client.Minor

namespace LspClient

open Client

/-! ## Definitions -/

/-- The turn of a task: the activities that it is in the middle of, the innermost one first, and the
outcome with which that goes on. -/
structure Turn where
  task : PromiseId
  stack : List Activity
  outcome : Outcome

/-- A client at a moment, with the turn of the task that runs, if one does. -/
structure Moment where
  client : Client
  turn : Option Turn := none

/-- A job that lets a task run on with an outcome. -/
def Job.RunsOn {ω φ : Type} (l : Loop φ ω) (p : PromiseId) (o : Outcome) : Job ω → Prop
  | .step task => task = p ∧ o = .ok .null
  | .wake task source => task = p ∧ l.outcome? source = some o
  | _ => False

/-- A client with another loop, and another task that runs. -/
def Client.driving (c : Client) (l : Loop Activity Event) (running : Option PromiseId) : Client :=
  { c with loop := l, running }

namespace Moment

/-- What may happen next, and what users do for it. -/
inductive Step (E : Executor) : List LspClient.Step → Moment → Moment → Prop
  /-- A user, or a server, does something. -/
  | act {c : Client} {step : LspClient.Step} (tame : step.isTame = true) :
    Step E [step] ⟨c, none⟩ ⟨(does E (runStep step) c).2, none⟩
  /-- The clock moves. -/
  | clock {c : Client} (now : Float) : Step E [] ⟨c, none⟩ ⟨{ c with loop := { c.loop with now } }, none⟩
  /-- A task begins a turn; one that was interrupted is cancelled. -/
  | begin {c : Client} {job : Job Event} {l : Loop Activity Event} {p : PromiseId} {o : Outcome}
    (next : c.loop.next? = some (job, l)) (runs : job.RunsOn l p o) :
    Step E [] ⟨c, none⟩ ⟨c.driving (l.resume p).2.2 (some p),
      some ⟨p, (l.resume p).1, if (l.resume p).2.1 then .error .cancelled else o⟩⟩
  /-- A job that concerns no task. -/
  | work {c : Client} {job : Job Event} {l : Loop Activity Event} (next : c.loop.next? = some (job, l))
    (idle : ∀ p o, ¬ job.RunsOn l p o) : Step E [] ⟨c, none⟩ ⟨(does E (runJob job) { c with loop := l }).2, none⟩
  /-- The innermost activity goes on, and so does the task. -/
  | go {c c' : Client} {p : PromiseId} {a : Activity} {rest stack : List Activity} {o o' : Outcome}
    (goes : does E (runActivity p a rest o) c = (.ok (some (stack, o')), c')) :
    Step E [] ⟨c, some ⟨p, a :: rest, o⟩⟩ ⟨c', some ⟨p, stack, o'⟩⟩
  /-- The innermost activity goes on, and then the task waits. -/
  | wait {c c' : Client} {p : PromiseId} {a : Activity} {rest : List Activity} {o : Outcome}
    (goes : does E (runActivity p a rest o) c = (.ok none, c')) :
    Step E [] ⟨c, some ⟨p, a :: rest, o⟩⟩ ⟨c'.driving c'.loop none, none⟩
  /-- The task ends. -/
  | finish {c : Client} {p : PromiseId} {o : Outcome} :
    Step E [] ⟨c, some ⟨p, [], o⟩⟩ ⟨c.driving (c.loop.finish p o) none, none⟩

/-- The moments that may come after a moment when users do something, as long as something holds
whenever they are left. -/
inductive Run (E : Executor) (P : Moment → Prop) (m : Moment) : List LspClient.Step → Moment → Prop
  | refl : Run E P m [] m
  | step {done acts : List LspClient.Step} {m' m'' : Moment} (run : Run E P m done m') (here : P m')
    (next : Step E acts m' m'') : Run E P m (done ++ acts) m''

/-- A task that goes on from activity to activity so many times without waiting. -/
inductive Lasts (E : Executor) : Nat → Moment → Prop
  | zero {m : Moment} : Lasts E 0 m
  | succ {n : Nat} {m m' : Moment} {t t' : Turn} (turn : m.turn = some t) (next : Step E [] m m')
    (again : m'.turn = some t') (lasts : Lasts E n m') : Lasts E (n + 1) m

/-- Some task goes on for longer than tasks may, when users do no more than they do here. -/
def Overlong (E : Executor) (m : Moment) (acts : List LspClient.Step) : Prop :=
  ∃ m' done, done <+: acts ∧ Run E (fun _ => True) m done m' ∧ Lasts E taskFuel m'

variable {E : Executor} {P : Moment → Prop} {m m' m'' : Moment} {acts acts' : List LspClient.Step}

theorem Run.single (here : P m) (h : Step E acts m m') : Run E P m acts m' :=
  .step .refl here h

theorem Run.mono {Q : Moment → Prop} (h : Run E P m acts m') (w : ∀ m, P m → Q m) : Run E Q m acts m' := by
  induction h with
  | refl => exact .refl
  | step _ here next ih => exact ih.step (w _ here) next

theorem Run.trans (h : Run E P m acts m') (h' : Run E P m' acts' m'') : Run E P m (acts ++ acts') m'' := by
  induction h' with
  | refl =>
    rw [List.append_nil]
    exact h
  | step _ here next ih =>
    rw [← List.append_assoc]
    exact ih.step here next

theorem Overlong.after (h : Run E (fun _ => True) m acts m') (h' : Overlong E m' acts') :
    Overlong E m (acts ++ acts') := by
  obtain ⟨m'', done, first, r, l⟩ := h'
  exact ⟨m'', acts ++ done, (List.prefix_append_right_inj acts).2 first, h.trans r, l⟩

theorem Overlong.before (h : Overlong E m acts) (acts' : List LspClient.Step) : Overlong E m (acts ++ acts') := by
  obtain ⟨m'', done, first, r, l⟩ := h
  exact ⟨m'', done, first.trans (List.prefix_append acts acts'), r, l⟩

/-! ## Turns -/

/-- What the innermost activity of the running task leaves to do. -/
inductive GoesTo (p : PromiseId) (rest : List Activity) :
    Except Fault Next × Client → Option (List Activity × Outcome) × Client → Prop
  | fault (f : Fault) (c : Client) : GoesTo p rest (.error f, c) (some (rest, .error f), c)
  | done (v : Value) (c : Client) : GoesTo p rest (.ok (.done v), c) (some (rest, .ok v), c)
  | become (b : Activity) (c : Client) : GoesTo p rest (.ok (.become b), c) (some (b :: rest, .ok .null), c)
  | call (b k : Activity) (c : Client) : GoesTo p rest (.ok (.call b k), c) (some (b :: k :: rest, .ok .null), c)
  | yield (k : Activity) (c : Client) :
    GoesTo p rest (.ok (.yield k), c) (none, { c with loop := c.loop.pause p (k :: rest) })
  | ready {q : PromiseId} (k : Activity) {c : Client} {o : Outcome} (h : c.loop.outcome? q = some o) :
    GoesTo p rest (.ok (.await q k), c) (some (k :: rest, o), c)
  | wait {q : PromiseId} (k : Activity) {c : Client} (h : c.loop.outcome? q = none) :
    GoesTo p rest (.ok (.await q k), c) (none, { c with loop := c.loop.suspend p (k :: rest) q })

theorem does_runActivity (p : PromiseId) (a : Activity) (rest : List Activity) (o : Outcome) (c : Client) :
    ∃ t c', does E (runActivity p a rest o) c = (.ok t, c') ∧ GoesTo p rest (does E (goOn a o) c) (t, c') := by
  have first : ∀ {r : Except Fault Next} {d : Client}, does E (goOn a o) c = (r, d) →
      does E (runActivity p a rest o) c = does E (follow p rest r) d := by
    intro r d h
    have caught : does E (tryCatch (do return .ok (← goOn a o)) fun f => return .error f) c =
        ((.ok r : Except Fault (Except Fault Next)), d) := by
      rw [does_tryCatch, does_bind, h]
      cases r <;> rfl
    exact does_bind_of_ok caught _
  rcases h : does E (goOn a o) c with ⟨f | next, d⟩
  · exact ⟨_, _, first h, .fault f d⟩
  · cases next with
    | done v => exact ⟨_, _, first h, .done v d⟩
    | become b => exact ⟨_, _, first h, .become b d⟩
    | call b k => exact ⟨_, _, first h, .call b k d⟩
    | yield k => exact ⟨_, _, first h, .yield k d⟩
    | await q k =>
      cases ho : d.loop.outcome? q with
      | some o' =>
        refine ⟨_, _, (first h).trans ?_, .ready k ho⟩
        unfold follow
        rw [does_bind_of_ok (does_get d), ho]
        rfl
      | none =>
        refine ⟨_, _, (first h).trans ?_, .wait k ho⟩
        unfold follow
        rw [does_bind_of_ok (does_get d), ho]
        rfl

/-! ## What is played is a run -/

/-- A turn is a run, unless it lasts for too long. The induction is on the fuel that the turn has left. -/
theorem run_runStack (p : PromiseId) (fuel : Nat) (stack : List Activity) (o : Outcome) (c : Client) :
    (∃ c', does E (runStack p fuel stack o) c = (.ok (), c') ∧
      Run E (fun _ => True) ⟨c, some ⟨p, stack, o⟩⟩ [] ⟨c'.driving c'.loop none, none⟩) ∨
      Lasts E fuel ⟨c, some ⟨p, stack, o⟩⟩ := by
  induction fuel generalizing stack o c with
  | zero => exact .inr .zero
  | succ fuel ih =>
    cases stack with
    | nil => exact .inl ⟨_, rfl, .single trivial .finish⟩
    | cons a stack =>
      obtain ⟨t, c', h, _⟩ := does_runActivity (E := E) p a stack o c
      -- The task waits, or goes on with one turn less.
      cases t with
      | none =>
        refine .inl ⟨c', ?_, .single trivial (.wait h)⟩
        unfold runStack
        rw [does_bind_of_ok h]
        rfl
      | some t =>
        obtain ⟨stack', o'⟩ := t
        have next : Step E [] ⟨c, some ⟨p, a :: stack, o⟩⟩ ⟨c', some ⟨p, stack', o'⟩⟩ := .go h
        rcases ih stack' o' c' with ⟨c'', h', r⟩ | l
        · refine .inl ⟨c'', ?_, (Run.single trivial next).trans r⟩
          unfold runStack
          rw [does_bind_of_ok h]
          exact h'
        · exact .inr (.succ rfl next rfl l)

/-- A client goes on to another one when users do something, or some task goes on for too long. -/
def Leads (E : Executor) (c : Client) (acts : List LspClient.Step) (c' : Client) : Prop :=
  Run E (fun _ => True) ⟨c, none⟩ acts ⟨c', none⟩ ∨ Overlong E ⟨c, none⟩ acts

theorem Leads.refl (c : Client) : Leads E c [] c :=
  .inl .refl

theorem Leads.trans {c c' c'' : Client} (h : Leads E c acts c') (h' : Leads E c' acts' c'') :
    Leads E c (acts ++ acts') c'' := by
  rcases h with r | l
  · rcases h' with r' | l'
    · exact .inl (r.trans r')
    · exact .inr (l'.after r)
  · exact .inr (l.before acts')

/-- What an operation does between turns happens by itself. -/
def Plays (E : Executor) {α : Type} (op : ClientM α) (c : Client) : Prop :=
  Leads E c [] (does E op c).2

theorem plays_pure {α : Type} (a : α) (c : Client) : Plays E (pure a) c :=
  Leads.refl c

theorem Plays.bind {α β : Type} {op : ClientM α} {f : α → ClientM β} {c : Client} (h : Plays E op c)
    (hf : ∀ a c', does E op c = (.ok a, c') → Plays E (f a) c') : Plays E (op >>= f) c := by
  unfold Plays at h ⊢
  rw [does_bind]
  rcases hx : does E op c with ⟨e | a, c'⟩
  · rw [hx] at h
    exact h
  · rw [hx] at h
    exact h.trans (hf a c' hx)

theorem plays_runTask {c : Client} {job : Job Event} {l : Loop Activity Event} (next : c.loop.next? = some (job, l))
    {p : PromiseId} {o : Outcome} (runs : job.RunsOn l p o) :
    Leads E c [] (does E (runTask p o) { c with loop := l }).2 := by
  have begins := Run.single (P := fun _ => True) trivial (Step.begin (E := E) next runs)
  have first : does E (runTask p o) { c with loop := l } = does E (do
      runStack p taskFuel (l.resume p).1 (if (l.resume p).2.1 then .error .cancelled else o)
      modify fun c => { c with running := none }) { c with loop := (l.resume p).2.2, running := some p } := rfl
  rcases run_runStack (E := E) p taskFuel (l.resume p).1 (if (l.resume p).2.1 then .error .cancelled else o)
      { c with loop := (l.resume p).2.2, running := some p } with ⟨c', h, r⟩ | lasts
  · rw [first, does_bind_of_ok h]
    exact .inl (begins.trans r)
  · exact .inr ⟨_, [], List.prefix_refl _, begins, lasts⟩

theorem plays_runJob {c : Client} {job : Job Event} {l : Loop Activity Event} (next : c.loop.next? = some (job, l)) :
    Leads E c [] (does E (runJob job) { c with loop := l }).2 := by
  by_cases driven : ∃ p o, job.RunsOn l p o
  · obtain ⟨p, o, runs⟩ := driven
    have same : does E (runJob job) { c with loop := l } = does E (runTask p o) { c with loop := l } := by
      cases job with
      | step task =>
        obtain ⟨rfl, rfl⟩ := runs
        rfl
      | wake task source =>
        obtain ⟨rfl, ho⟩ := runs
        unfold runJob
        rw [does_bind_of_ok (does_get _), ho]
      | fulfil q => exact runs.elim
      | member g q => exact runs.elim
      | notify e => exact runs.elim
      | idle => exact runs.elim
    rw [same]
    exact plays_runTask next runs
  · exact .inl (.single trivial (.work next fun p o runs => driven ⟨p, o, runs⟩))

theorem plays_runReady (fuel : Nat) (c : Client) : Plays E (runReady fuel) c := by
  induction fuel generalizing c with
  | zero => exact plays_pure _ c
  | succ fuel ih =>
    cases next : c.loop.next? with
    | none =>
      have nothing : does E (runReady (fuel + 1)) c = (.ok (), c) := by
        refine (does_bind_of_ok (does_get c) _).trans ?_
        rw [next]
        rfl
      unfold Plays
      rw [nothing]
      exact Leads.refl c
    | some x =>
      obtain ⟨job, l⟩ := x
      have first : Plays E (do
          set { c with loop := l }
          runJob job) c := plays_runJob next
      have parts : does E (runReady (fuel + 1)) c = does E ((do
          set { c with loop := l }
          runJob job) >>= fun _ => runReady fuel) c := by
        refine (does_bind_of_ok (does_get c) _).trans ?_
        rw [next, bind_assoc]
      have whole := first.bind (f := fun _ => runReady fuel) fun _ c' _ => ih c'
      unfold Plays at whole ⊢
      rwa [parts]

theorem plays_settleDown (c : Client) : Plays E settleDown c :=
  plays_runReady jobFuel c

/-- Moving the clock is a run, whether it moves or not. -/
theorem plays_setNow (f : Loop Activity Event → Loop Activity Event)
    (h : ∀ l, f l = l ∨ ∃ now, f l = { l with now }) (c : Client) : Plays E (onLoop f) c := by
  show Leads E c [] { c with loop := f c.loop }
  rcases h c.loop with e | ⟨now, e⟩
  · rw [e]
    exact Leads.refl c
  · rw [e]
    exact .inl (.single trivial (.clock now))

theorem plays_advanceTo (target : Float) (fuel : Nat) (c : Client) : Plays E (advanceTo target fuel) c := by
  have arrives : ∀ c, Plays E (onLoop fun l => { l with now := target }) c :=
    plays_setNow _ fun l => .inr ⟨target, rfl⟩
  induction fuel generalizing c with
  | zero => exact plays_pure _ c
  | succ fuel ih =>
    unfold advanceTo
    refine Plays.bind (Leads.refl c) fun a c' hx => ?_
    split
    · split
      · refine (plays_setNow _ (fun l => ?_) c').bind fun _ c' _ =>
          (plays_settleDown c').bind fun _ c' _ => ih c'
        split
        · exact .inl rfl
        · exact .inr ⟨_, rfl⟩
      · exact arrives c'
    · exact arrives c'

/-- Whether a step may be played: users take it, or the clock moves. -/
def IsPlayable (step : LspClient.Step) : Prop :=
  step.isTame = true ∨ ∃ n, step = .advance n

/-- What users do when a step is played. -/
def actsOf (step : LspClient.Step) : List LspClient.Step :=
  if step.isTame then [step] else []

theorem plays_runStep {step : LspClient.Step} (h : IsPlayable step) (c : Client) :
    Leads E c (actsOf step) (does E (runStep step) c).2 := by
  unfold actsOf
  rcases h with tame | ⟨n, rfl⟩
  · rw [if_pos tame]
    exact .inl (.single trivial (.act tame))
  · have advances : Plays E (advance n) c :=
      Plays.bind (Leads.refl c) fun a c' _ => plays_advanceTo _ timerFuel c'
    exact advances.bind fun _ c' _ => plays_pure _ c'

/-- Whatever is played to a client is a run, unless a task goes on for too long. -/
theorem leads_play {step : LspClient.Step} (h : IsPlayable step) (c : Client) :
    Leads (executor nesting) c (actsOf step) (play step c).2 := by
  have whole : (play step c).2 =
      (does (executor nesting) settleDown (does (executor nesting) (runStep step) c).2).2 := by
    rcases hx : does (executor nesting) (runStep step) c with ⟨r, c₁⟩
    have played : ExceptT.run (perform (runStep step)) c = (r, c₁) := hx
    unfold play
    rw [played]
    cases r <;> rfl
  rw [whole, ← List.append_nil (actsOf step)]
  exact (plays_runStep h c).trans (plays_settleDown _)

/-- A client to which step after step is played. -/
def playedBy (c : Client) (steps : List LspClient.Step) : Client :=
  steps.foldl (fun c step => (play step c).2) c

theorem leads_playedBy {steps : List LspClient.Step} (h : ∀ step ∈ steps, IsPlayable step) (c : Client) :
    Leads (executor nesting) c (steps.flatMap actsOf) (playedBy c steps) := by
  induction steps generalizing c with
  | nil => exact Leads.refl c
  | cons step steps ih =>
    have first := leads_play (h step (List.mem_cons_self ..)) c
    exact first.trans (ih (fun step hs => h step (List.mem_cons_of_mem _ hs)) (play step c).2)

/-! ## Going on by itself -/

/-- The task that a job lets run on, and the outcome with which it does. -/
def runsOn? (l : Loop Activity Event) : Job Event → Option (PromiseId × Outcome)
  | .step task => some (task, .ok .null)
  | .wake task source => (l.outcome? source).map fun o => (task, o)
  | _ => none

/-- Between turns the next job is taken up, if one is ready. -/
def takeUp (E : Executor) (c : Client) : Moment :=
  match c.loop.next? with
  | none => ⟨c, none⟩
  | some (job, l) =>
    match runsOn? l job with
    | some (p, o) => ⟨c.driving (l.resume p).2.2 (some p),
        some ⟨p, (l.resume p).1, if (l.resume p).2.1 then .error .cancelled else o⟩⟩
    | none => ⟨(does E (runJob job) { c with loop := l }).2, none⟩

/-- The innermost activity of the running task goes on. -/
def goFurther (E : Executor) (p : PromiseId) (a : Activity) (rest : List Activity) (o : Outcome)
    (c : Client) : Moment :=
  match does E (runActivity p a rest o) c with
  | (.ok (some (stack, o')), c') => ⟨c', some ⟨p, stack, o'⟩⟩
  | (_, c') => ⟨c'.driving c'.loop none, none⟩

/-- What comes next when nobody does anything. -/
def onward (E : Executor) : Moment → Moment
  | ⟨c, none⟩ => takeUp E c
  | ⟨c, some ⟨p, [], o⟩⟩ => ⟨c.driving (c.loop.finish p o) none, none⟩
  | ⟨c, some ⟨p, a :: rest, o⟩⟩ => goFurther E p a rest o c

theorem runsOn_iff {l : Loop Activity Event} {job : Job Event} {p : PromiseId} {o : Outcome} :
    job.RunsOn l p o ↔ runsOn? l job = some (p, o) := by
  cases job with
  | step task => simp [Job.RunsOn, runsOn?, eq_comm]
  | wake task source => simp [Job.RunsOn, runsOn?, and_comm]
  | _ => simp [Job.RunsOn, runsOn?]

/-- What comes next by itself is a step, if anything does. -/
theorem step_onward (m : Moment) : m.onward E = m ∨ Step E [] m (m.onward E) := by
  obtain ⟨c, _ | ⟨p, _ | ⟨a, rest⟩, o⟩⟩ := m
  · show takeUp E c = ⟨c, none⟩ ∨ Step E [] ⟨c, none⟩ (takeUp E c)
    unfold takeUp
    cases next : c.loop.next? with
    | none => exact .inl rfl
    | some x =>
      obtain ⟨job, l⟩ := x
      right
      dsimp only
      cases runs : runsOn? l job with
      | none => exact .work next fun p o r => by cases runs.symm.trans (runsOn_iff.1 r)
      | some y => exact .begin next (runsOn_iff.2 runs)
  · exact .inr .finish
  · right
    show Step E [] ⟨c, some ⟨p, a :: rest, o⟩⟩ (goFurther E p a rest o c)
    unfold goFurther
    obtain ⟨t, c', goes, _⟩ := does_runActivity (E := E) p a rest o c
    rw [goes]
    cases t with
    | none => exact .wait goes
    | some t => exact .go goes

/-- A run goes on by itself for a while. -/
theorem Run.onward (run : Run E (fun _ => True) m acts m') (n : Nat) :
    Run E (fun _ => True) m acts (n.repeat (Moment.onward E) m') := by
  induction n with
  | zero => exact run
  | succ n ih =>
    rcases step_onward (E := E) (n.repeat (Moment.onward E) m') with same | next
    · rw [Nat.repeat, same]
      exact ih
    · rw [← List.append_nil acts]
      exact ih.step trivial next

/-- Between turns users may do something. -/
theorem Run.act (run : Run E (fun _ => True) m acts m') (step : LspClient.Step) (tame : step.isTame = true)
    (idle : m'.turn.isNone = true) :
    Run E (fun _ => True) m (acts ++ [step]) ⟨(does E (runStep step) m'.client).2, none⟩ := by
  obtain ⟨c, turn⟩ := m'
  cases Option.isNone_iff_eq_none.1 idle
  exact run.step trivial (.act tame)

end Moment

end LspClient
