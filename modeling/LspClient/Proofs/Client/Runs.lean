/-
What whole runs keep: tasks go on with what they have put down, the states of sessions follow each
other as they may, ids are never given away twice, what is settled stays settled, and no request is
lost.
-/
import LspClient.Proofs.Client.Moments
import LspClient.Proofs.Client.Proceeds
import LspClient.Proofs.Loop.Turns

namespace LspClient

open Client
open Activity (IsRoot)

/-! ## Definitions -/

/-- A client that has done nothing yet, with sessions as they are made. -/
structure Client.IsNew (c : Client) : Prop where
  loop : c.loop = {}
  running : c.running = none
  registry : c.registry = {}
  sessions : ∀ x ∈ c.sessions, ∃ settings policy, x = { settings, policy }

namespace Moment

/-- What a task is in the middle of. -/
def stack (m : Moment) (p : PromiseId) : List Activity :=
  match m.turn with
  | some t => if t.task = p then t.stack else m.client.loop.stackOf p
  | none => m.client.loop.stackOf p

/-- A task that is in the middle of the same as before, or is new and about to begin with an activity of some
kind. -/
def SameStack (A : Activity → Prop) (m m' : Moment) (p : PromiseId) : Prop :=
  m'.stack p = m.stack p ∨ m.client.loop.promises.size ≤ p ∧ ∃ a, A a ∧ m'.stack p = [a]

/-- A sound client whose tasks take tame steps. What is brief is what the running task does next, and
it does it. -/
structure Sound (m : Moment) : Prop where
  client : m.client.Sound
  running : m.client.running = m.turn.map (·.task)
  tame : ∀ p, ∀ a ∈ m.stack p, a.isTame = true
  brief : ∀ p, ∀ a ∈ m.stack p, a.isBrief = true →
    ∃ rest v, m.turn = some ⟨p, a :: rest, .ok v⟩ ∧ ∀ b ∈ rest, b.isBrief = false

/-- A moment after another: the states of sessions have followed each other as they may, new requests
have new ids, what was settled is so still, and no request is lost. -/
structure After (m m' : Moment) : Prop where
  size : m.client.loop.promises.size ≤ m'.client.loop.promises.size
  count : m'.client.sessions.size = m.client.sessions.size
  grows : m.client.transports.size ≤ m'.client.transports.size
  ages : ∀ s, (m.client.sessionAt s).Ages (m'.client.sessionAt s)
  outcome : ∀ {p o}, m.client.loop.outcome? p = some o → m'.client.loop.outcome? p = some o
  endures : ∀ s,
    Registry.Endures (m.client.sessionAt s).registry m.client.loop (m'.client.sessionAt s).registry m'.client.loop

/-- A moment in which no activity goes on: sessions stay in their states. -/
structure Passes (m m' : Moment) : Prop where
  idle : ∀ t, m.turn = some t → t.stack = []
  stays : ∀ s, (m.client.sessionAt s).Stays False (m'.client.sessionAt s)
  answers : ∀ t, m'.client.answersOn t = m.client.answersOn t
  tasks : ∀ p, m.SameStack IsRoot m' p

/-- A moment in which an activity goes on: its task has the activities in front of it that the
activity leaves to do. What the activity calls begins at once, and when it ends or fails, what waits for it goes on at
once, too. -/
structure Proceeds (m m' : Moment) (p : PromiseId) (a : Activity) (rest : List Activity) (o : Outcome)
    (r : Except Fault Next) (c : Client) : Prop where
  turn : m.turn = some ⟨p, a :: rest, o⟩
  proceeds : m.client.Proceeds a o r c
  sessions : ∀ s, m'.client.sessionAt s = c.sessionAt s
  transports : m'.client.transports = c.transports
  outcome : ∀ {q o}, c.loop.outcome? q = some o → m'.client.loop.outcome? q = some o
  stack : m'.stack p = framesOf r ++ rest
  calls : ∀ b k, r = .ok (.call b k) → m'.turn = some ⟨p, b :: k :: rest, .ok .null⟩
  fails : ∀ f, r = .error f → m'.turn = some ⟨p, rest, .error f⟩
  ends : ∀ v, r = .ok (.done v) → m'.turn = some ⟨p, rest, .ok v⟩
  tasks : ∀ q, q ≠ p → m'.stack q = c.loop.stackOf q ∨ c.loop.promises.size ≤ q ∧ ∃ b, b.IsRoot ∧ m'.stack q = [b]
  others : ∀ q, q ≠ p → m.SameStack (m.client.Begins a) m' q

variable {E : Executor} {P : Moment → Prop} {m m' m'' : Moment} {acts : List LspClient.Step}

/-! ## After a moment -/

theorem After.refl (m : Moment) : m.After m :=
  ⟨Nat.le_refl _, rfl, Nat.le_refl _, fun _ => Session.Ages.refl _, id, fun _ => .refl _ _⟩

theorem After.trans (h : m.After m') (h' : m'.After m'') : m.After m'' :=
  ⟨Nat.le_trans h.size h'.size, h'.count.trans h.count, Nat.le_trans h.grows h'.grows,
    fun s => (h.ages s).trans (h'.ages s), fun ho => h'.outcome (h.outcome ho), fun s =>
    (h.endures s).trans (h'.endures s) fun _ _ => h'.outcome⟩

/-! ## Stacks -/

theorem stack_of_turn {t : Turn} (h : m.turn = some t) : m.stack t.task = t.stack := by
  unfold stack
  rw [h]
  exact if_pos rfl

theorem stack_of_ne {t : Turn} (h : m.turn = some t) {p : PromiseId} (hp : p ≠ t.task) :
    m.stack p = m.client.loop.stackOf p := by
  unfold stack
  rw [h]
  exact if_neg (Ne.symm hp)

theorem stack_of_idle (h : m.turn = none) (p : PromiseId) : m.stack p = m.client.loop.stackOf p := by
  unfold stack
  rw [h]

/-- A task is in the middle of what it was before, or about to begin. -/
theorem SameStack.mem {A : Activity → Prop} {p : PromiseId} (h : m.SameStack A m' p) {a : Activity}
    (ha : a ∈ m'.stack p) :
    a ∈ m.stack p ∨ A a := by
  rcases h with e | ⟨_, b, new, e⟩
  · rw [e] at ha
    exact .inl ha
  · rw [e] at ha
    cases List.mem_singleton.1 ha
    exact .inr new

theorem SameStack.of_lt_size {A : Activity → Prop} {p : PromiseId} (h : m.SameStack A m' p)
    (old : p < m.client.loop.promises.size) : m'.stack p = m.stack p := by
  rcases h with same | ⟨new, _⟩
  · exact same
  · exact absurd old (Nat.not_lt_of_le new)

/-- Between turns nothing brief is left to do. -/
theorem Sound.not_brief (h : m.Sound) (idle : m.turn = none) {p : PromiseId} {a : Activity} (ha : a ∈ m.stack p) :
    a.isBrief = false := by
  refine Bool.eq_false_iff.2 fun brief => ?_
  obtain ⟨_, _, turn, _⟩ := h.brief p a ha brief
  rw [idle] at turn
  cases turn

/-- A task that is in the middle of something is there, and has not ended. -/
theorem Sound.unfinished (h : m.Sound) {p : PromiseId} {a : Activity} (ha : a ∈ m.stack p) :
    p < m.client.loop.promises.size ∧ m.client.loop.outcome? p = none := by
  have down : a ∈ m.client.loop.stackOf p → p < m.client.loop.promises.size ∧ m.client.loop.outcome? p = none := by
    intro ha
    unfold Loop.stackOf at ha
    split at ha
    · next frames source i hr =>
      obtain ⟨b, frames', rfl⟩ := List.exists_cons_of_ne_nil (List.ne_nil_of_mem ha)
      exact ⟨Loop.lt_size_of_role? hr, h.client.wf.unfinished hr⟩
    · cases ha
  cases turn : m.turn with
  | none =>
    rw [stack_of_idle turn] at ha
    exact down ha
  | some t =>
    by_cases hp : p = t.task
    · have running : m.client.running = some t.task := by rw [h.running, turn]; rfl
      obtain ⟨⟨i, hr⟩, unsettled⟩ := h.client.wf.runs running
      rw [hp]
      exact ⟨Loop.lt_size_of_role? hr, unsettled⟩
    · rw [stack_of_ne turn hp] at ha
      exact down ha

/-- What is brief is at the front of the running task. -/
theorem Sound.front (h : m.Sound) {t : Turn} (turn : m.turn = some t) {p : PromiseId} {a : Activity}
    (ha : a ∈ m.stack p) (brief : a.isBrief = true) :
    ∃ rest v, t = ⟨p, a :: rest, .ok v⟩ ∧ ∀ b ∈ rest, b.isBrief = false := by
  obtain ⟨rest, v, turn', plain⟩ := h.brief p a ha brief
  rw [turn] at turn'
  exact ⟨rest, v, Option.some.inj turn', plain⟩

/-- What tasks are in the middle of they still are. -/
theorem Passes.mem_stack (passes : m.Passes m') (sound : m.Sound) {p : PromiseId} {a : Activity} (ha : a ∈ m.stack p) :
    a ∈ m'.stack p := by
  rw [(passes.tasks p).of_lt_size (sound.unfinished ha).1]
  exact ha

section

variable {p q : PromiseId} {a b : Activity} {rest : List Activity} {o : Outcome} {r : Except Fault Next} {c : Client}

theorem Proceeds.stack_before (hp : m.Proceeds m' p a rest o r c) : m.stack p = a :: rest :=
  stack_of_turn hp.turn

/-- What tasks are in the middle of they still are, but for what goes on. -/
theorem Proceeds.mem_or_goes (hp : m.Proceeds m' p a rest o r c) (sound : m.Sound) (hb : b ∈ m.stack q) :
    b ∈ m'.stack q ∨ q = p ∧ b = a := by
  by_cases hq : q = p
  · rw [hq, hp.stack_before] at hb
    rcases List.mem_cons.1 hb with rfl | behind
    · exact .inr ⟨hq, rfl⟩
    · left
      rw [hq, hp.stack]
      exact List.mem_append_right _ behind
  · left
    rw [(hp.others q hq).of_lt_size (sound.unfinished hb).1]
    exact hb

/-- What tasks are in the middle of they were before, it is left to do by what has gone on, or a new task begins with
it. -/
theorem Proceeds.mem_or_new (hp : m.Proceeds m' p a rest o r c) (hb : b ∈ m'.stack q) :
    b ∈ m.stack q ∨ q = p ∧ b ∈ framesOf r ∨ m.client.loop.promises.size ≤ q ∧ m.client.Begins a b := by
  by_cases hq : q = p
  · rw [hq, hp.stack] at hb
    rcases List.mem_append.1 hb with left | behind
    · exact .inr (.inl ⟨hq, left⟩)
    · left
      rw [hq, hp.stack_before]
      exact List.mem_cons_of_mem _ behind
  · rcases hp.others q hq with same | ⟨new, x, begins, only⟩
    · rw [same] at hb
      exact .inl hb
    · rw [only] at hb
      cases List.mem_singleton.1 hb
      exact .inr (.inr ⟨new, begins⟩)

theorem Proceeds.mem_stack (hp : m.Proceeds m' p a rest o r c) (left : b ∈ framesOf r) : b ∈ m'.stack p := by
  rw [hp.stack]
  exact List.mem_append_left _ left

theorem Proceeds.mem_before (hp : m.Proceeds m' p a rest o r c) : a ∈ m.stack p := by
  rw [hp.stack_before]
  exact List.mem_cons_self ..

end

/-- A sound moment goes on between turns as a sound one. -/
theorem Sound.passes (h : m.Sound) (idle : m.turn = none) (idle' : m'.turn = none) (client : m'.client.Sound)
    (running : m'.client.running = none) (tasks : ∀ p, m.SameStack IsRoot m' p) : m'.Sound := by
  refine ⟨client, by rw [idle', running]; rfl, ?_, ?_⟩
  · intro p a ha
    rcases (tasks p).mem ha with ha | root
    · exact h.tame p a ha
    · exact root.1
  · intro p a ha brief
    rcases (tasks p).mem ha with ha | root
    · rw [h.not_brief idle ha] at brief
      cases brief
    · rw [(root.free none).not_isBrief] at brief
      cases brief

/-! ## Between turns -/

/-- Between turns a client may go on in whatever way leaves the states of sessions alone. -/
theorem Sound.still {c c' : Client} (h : Sound ⟨c, none⟩) (still : c.Still IsRoot none c') (sound : c'.Sound) :
    Sound ⟨c', none⟩ ∧ After ⟨c, none⟩ ⟨c', none⟩ ∧ Passes ⟨c, none⟩ ⟨c', none⟩ := by
  have tasks : ∀ p, SameStack IsRoot ⟨c, none⟩ ⟨c', none⟩ p := fun p => still.loop.stackOf (by simp)
  have running : c'.running = none := still.running.trans h.running
  exact ⟨h.passes rfl rfl sound running tasks,
    ⟨still.loop.size, still.count, still.grows, still.goes.ages, still.loop.outcome, still.endures⟩,
    ⟨by simp, fun s => still.stays_false s, still.answers, tasks⟩⟩

/-- The news of the loop leave sessions alone, besides the news that an answer to a server has ended. -/
theorem minorAt_handleEvent (hE : E.IsTame) {c : Client} (hc : c.Sound) {e : Event}
    (due : c.loop.IsDue notices none (.notify e)) (other : ∀ s q, e ≠ .answerEnded s q) :
    MinorAt E (handleEvent e) c := by
  cases e with
  | requestExpired owner id timeout => exact (isMinor_requestExpired owner id timeout).minorAt c hc
  | requestSettled owner id q => exact (isMinor_requestSettled owner id q).minorAt c hc
  | handleSettled label q steps =>
    have tame : Step.areTame steps = true := by
      rcases due with never | ⟨_, _, _, tame⟩
      · exact never.elim
      · exact tame
    have runs : IsMinor E (steps.forM fun step => do let _ ← execute step) :=
      IsMinor.forM fun step hs => (hE step (Step.areTame_iff.1 tame step hs)).bind fun _ => isMinor_pure _
    have whole : IsMinor E (handleEvent (.handleSettled label q steps)) := by
      refine isMinor_get.bind fun _ => ?_
      split
      · exact (isMinor_note _).bind fun _ => runs
      · exact runs
    exact whole.minorAt c hc
  | taskEnded name q =>
    have tells : IsMinor E (handleEvent (.taskEnded name q)) := by
      refine isMinor_get.bind fun _ => ?_
      split
      · exact isMinor_note _
      · exact isMinor_pure _
    exact tells.minorAt c hc
  | answerEnded s q => exact absurd rfl (other s q)
  | postEnded index q =>
    have ends : IsMinor E (handleEvent (.postEnded index q)) := by
      refine (isMinor_poster? index).bind fun _ => ?_
      split
      · exact isMinor_setBackend _ _
      · exact isMinor_pure _
    exact ends.minorAt c hc
  | childExits i code => exact (isMinor_childExits i code).minorAt c hc

/-- A job that concerns no task makes a minor change, besides the news that an answer to a server has ended. -/
theorem minorAt_runJob (hE : E.IsTame) {c : Client} (hc : c.Sound) {job : Job Event}
    (due : c.loop.IsDue notices none job) (idle : ∀ p o, ¬ job.RunsOn c.loop p o)
    (other : ∀ s q, job ≠ .notify (.answerEnded s q)) : MinorAt E (runJob job) c := by
  cases job with
  | step p => exact absurd ⟨rfl, rfl⟩ (idle p (.ok .null))
  | wake p source =>
    refine (isMinor_get.minorAt c hc).bind fun a d hx _ hd => ?_
    cases hx
    split
    · next o ho => exact absurd ⟨rfl, ho⟩ (idle p o)
    · exact minorAt_pure hd _
  | fulfil p => exact (isMinor_settle p _).minorAt c hc
  | member g p =>
    have counts : IsMinor E (onLoop fun l => l.memberSettled g) :=
      isMinor_onLoop fun _ _ w => Loop.memberSettled_spec w g
    exact counts.minorAt c hc
  | notify e =>
    have news := minorAt_handleEvent hE hc due fun s q e => other s q (congrArg _ e)
    exact news.tryCatch fun _ _ _ hd => minorAt_pure hd _
  | idle => exact minorAt_pure hc _

/-- A job that concerns no task leaves the states of sessions alone. -/
theorem stillAt_runJob (hE : E.IsTame) {c : Client} (hc : c.Sound) {job : Job Event}
    (due : c.loop.IsDue notices none job) (idle : ∀ p o, ¬ job.RunsOn c.loop p o) :
    StillAt E IsRoot none (runJob job) c := by
  by_cases ends : ∃ s q, job = .notify (.answerEnded s q)
  · obtain ⟨s, q, rfl⟩ := ends
    refine ⟨still_alter s ?_ rfl, ?_⟩
    · exact ⟨rfl, rfl, rfl, Nat.le_refl _, fun _ hp => .inl hp⟩
    · exact hc.alter s (fun _ topic => by cases topic <;> rfl) (fun _ => rfl) fun _ => rfl
  · exact (minorAt_runJob hE hc due idle fun s q e => ends ⟨s, q, e⟩).still none

/-! ## Turns -/

theorem RunsOn.drives {l : Loop Activity Event} {job : Job Event} {p : PromiseId} {o : Outcome} (h : job.RunsOn l p o) :
    job.drives p = true := by
  cases job with
  | step task =>
    obtain ⟨rfl, _⟩ := h
    simp [Job.drives]
  | wake task source =>
    obtain ⟨rfl, _⟩ := h
    simp [Job.drives]
  | fulfil q => exact h.elim
  | member g q => exact h.elim
  | notify e => exact h.elim
  | idle => exact h.elim

theorem sound_driving {A : Activity → Prop} {c : Client} (hc : c.Sound) {l : Loop Activity Event}
    {running but : Option PromiseId} (m : c.loop.Moves A but l) (w : l.WF notices running) :
    (c.driving l running).Sound :=
  ⟨w, hc.sessions, hc.alone.moves m, fun x => (hc.registries x).moves m⟩

theorem after_driving {A : Activity → Prop} {c : Client} {l : Loop Activity Event} {running but : Option PromiseId}
    (m : c.loop.Moves A but l) (t t' : Option Turn) : After ⟨c, t⟩ ⟨c.driving l running, t'⟩ :=
  ⟨m.size, rfl, Nat.le_refl _, fun _ => Session.Ages.refl _, m.outcome, fun _ => .elsewhere _ fun _ _ => m.outcome⟩

/-- A task takes up what it has put down. -/
theorem Sound.begin {c : Client} (h : Sound ⟨c, none⟩) {job : Job Event} {l : Loop Activity Event} {p : PromiseId}
    {o : Outcome} (next : c.loop.next? = some (job, l)) (runs : job.RunsOn l p o) (o' : Outcome) :
    Sound ⟨c.driving (l.resume p).2.2 (some p), some ⟨p, (l.resume p).1, o'⟩⟩ ∧
      After ⟨c, none⟩ ⟨c.driving (l.resume p).2.2 (some p), some ⟨p, (l.resume p).1, o'⟩⟩ ∧
      Passes ⟨c, none⟩ ⟨c.driving (l.resume p).2.2 (some p), some ⟨p, (l.resume p).1, o'⟩⟩ := by
  have idle : c.running = none := h.running
  have w : c.loop.WF notices none := by
    rw [← idle]
    exact h.client.wf
  obtain ⟨w', promises, due, alone⟩ := w.next? next
  have drives := RunsOn.drives runs
  have taken : Loop.WF notices (some p) (l.resume p).2.2 := w'.resume due drives (alone p drives)
  obtain ⟨b, frames, source, i, hr⟩ := due.role?_of_drives drives
  rw [Loop.resume_eq hr] at taken ⊢
  dsimp only at taken ⊢
  -- Only the task itself changes: what it has put down is now in its hands.
  have m : c.loop.Moves IsRoot (some p) (l.setRole p (.task [] none false)) :=
    (Loop.moves_of_promises promises).trans (Loop.moves_setRole_task hr)
  have same : ∀ q, l.role? q = c.loop.role? q := fun q => Loop.role?_congr (by rw [promises])
  have tasks : ∀ q, stack ⟨c.driving (l.setRole p (.task [] none false)) (some p), some ⟨p, b :: frames, o'⟩⟩ q =
      stack ⟨c, none⟩ q := by
    intro q
    rw [stack_of_idle (m := ⟨c, none⟩) rfl]
    by_cases hq : q = p
    · rw [hq, stack_of_turn (t := ⟨p, b :: frames, o'⟩) rfl, Loop.stackOf_of_role? ((same p).symm.trans hr)]
    · rw [stack_of_ne rfl hq]
      exact (Loop.stackOf_setRole_of_ne l hq _).trans (Loop.stackOf_congr (same q))
  refine ⟨⟨sound_driving h.client m taken, rfl, ?_, ?_⟩, after_driving m _ _, ?_⟩
  · intro q a ha
    rw [tasks] at ha
    exact h.tame q a ha
  · intro q a ha brief
    rw [tasks] at ha
    rw [h.not_brief rfl ha] at brief
    cases brief
  · exact ⟨by simp, fun s => Session.Stays.refl _, fun _ => rfl, fun q => .inl (tasks q)⟩

/-- What is left to do takes tame steps, and what is brief is done at once. -/
theorem frames_of_proceeds {c c' : Client} {a : Activity} {o : Outcome} {r : Except Fault Next}
    (h : c.Proceeds a o r c') :
    ∀ b ∈ framesOf r, b.isTame = true ∧ (b.isBrief = true → ∃ k, r = .ok (.call b k) ∧ k.isBrief = false) := by
  intro b hb
  -- All but what is brief is tame, since it is in the middle of nothing, or one of a few activities.
  have plain : b.isTame = true → b.isBrief = false →
      b.isTame = true ∧ (b.isBrief = true → ∃ k, r = .ok (.call b k) ∧ k.isBrief = false) :=
    fun tame other => ⟨tame, fun brief => Bool.noConfusion (other.symm.trans brief)⟩
  cases leaves_of_proceeds h hb with
  | free free => exact plain free.tame free.not_isBrief
  | loses _ free _ => exact plain free.tame free.not_isBrief
  | brief brief called after =>
    refine ⟨?_, fun _ => ⟨_, called, after⟩⟩
    cases b <;> first | rfl | cases brief
  | stops stops => cases b <;> first | exact plain rfl rfl | cases stops
  | opens => exact plain rfl rfl
  | releases => exact plain rfl rfl
  | silences => exact plain rfl rfl
  | takesLeave => exact plain rfl rfl
  | reads _ again => cases b <;> first | exact plain rfl rfl | cases again
  | waits _ _ _ again => cases b <;> first | exact plain rfl rfl | cases again

/-- An activity leaves the task running, with what is left to do in front of it. What it calls begins, and what waits
for it goes on with what has come of it. -/
theorem goesTo_some {p : PromiseId} {rest stack : List Activity} {o : Outcome} {r : Except Fault Next} {c c' : Client}
    (h : GoesTo p rest (r, c) (some (stack, o), c')) :
    c' = c ∧ stack = framesOf r ++ rest ∧ (∀ b k, r = .ok (.call b k) → o = .ok .null) ∧
      (∀ f, r = .error f → o = .error f) ∧ ∀ v, r = .ok (.done v) → o = .ok v := by
  cases h with
  | fault f => exact ⟨rfl, rfl, nofun, fun g e => by cases e; rfl, nofun⟩
  | done v => exact ⟨rfl, rfl, nofun, nofun, fun w e => by cases e; rfl⟩
  | become b => exact ⟨rfl, rfl, nofun, nofun, nofun⟩
  | call b k => exact ⟨rfl, rfl, fun _ _ _ => rfl, nofun, nofun⟩
  | ready k ho => exact ⟨rfl, rfl, nofun, nofun, nofun⟩

/-- An activity lets the task wait, and puts down what is left to do. -/
theorem goesTo_none {p : PromiseId} {rest : List Activity} {r : Except Fault Next} {c c' : Client}
    (w : c.loop.WF notices (some p)) (h : GoesTo p rest (r, c) (none, c')) :
    ∃ k l, framesOf r = [k] ∧ (∀ b k, r ≠ .ok (.call b k)) ∧ c' = { c with loop := l } ∧
      c.loop.Moves IsRoot (some p) l ∧ l.WF notices none ∧ l.stackOf p = k :: rest := by
  cases h with
  | yield k =>
    obtain ⟨m, w', i, hr⟩ := Loop.pause_spec (A := IsRoot) w k rest
    exact ⟨k, _, rfl, nofun, rfl, m, w', Loop.stackOf_of_role? hr⟩
  | wait k ho =>
    rename_i q
    obtain ⟨m, w', i, hr⟩ := Loop.suspend_spec (A := IsRoot) w k rest q
    exact ⟨k, _, rfl, nofun, rfl, m, w', Loop.stackOf_of_role? hr⟩

/-- What goes on takes tame steps. -/
theorem Sound.tame_of_turn (h : m.Sound) {p : PromiseId} {a : Activity} {rest : List Activity} {o : Outcome}
    (turn : m.turn = some ⟨p, a :: rest, o⟩) : a.isTame = true := by
  refine h.tame p a ?_
  rw [stack_of_turn turn]
  exact List.mem_cons_self ..

/-- Behind what goes on nothing is brief. -/
theorem Sound.rest_plain (h : m.Sound) {p : PromiseId} {a : Activity} {rest : List Activity} {o : Outcome}
    (turn : m.turn = some ⟨p, a :: rest, o⟩) : ∀ b ∈ rest, b.isBrief = false := by
  intro b hb
  refine Bool.eq_false_iff.2 fun brief => ?_
  have there : b ∈ m.stack p := by
    rw [stack_of_turn turn]
    exact List.mem_cons_of_mem _ hb
  obtain ⟨rest', v, e, plain⟩ := h.front turn there brief
  cases e
  rw [plain _ hb] at brief
  cases brief

/-- Other tasks are in the middle of nothing brief. -/
theorem Sound.others_plain (h : m.Sound) {t : Turn} (turn : m.turn = some t) {q : PromiseId} (hq : q ≠ t.task) :
    ∀ b ∈ m.stack q, b.isBrief = false := by
  intro b hb
  refine Bool.eq_false_iff.2 fun brief => ?_
  obtain ⟨rest, v, e, _⟩ := h.front turn hb brief
  rw [e] at hq
  exact hq rfl

/-- What is brief is left to do by what has just gone on. -/
theorem Sound.mem_frames_of_brief (h : m.Sound) {p : PromiseId} {a : Activity} {rest : List Activity} {o : Outcome}
    {r : Except Fault Next} {c : Client} (hp : m.Proceeds m' p a rest o r c) {b : Activity} (brief : b.isBrief = true)
    {q : PromiseId} (hb : b ∈ m'.stack q) : q = p ∧ b ∈ framesOf r := by
  by_cases hq : q = p
  · rw [hq, hp.stack] at hb
    rcases List.mem_append.1 hb with hb | hb
    · exact ⟨hq, hb⟩
    · rw [h.rest_plain hp.turn b hb] at brief
      cases brief
  · rcases (hp.others q hq).mem hb with hb | new
    · rw [h.others_plain hp.turn hq b hb] at brief
      cases brief
    · rw [(Activity.isInner_eq_false.1 new.not_isInner).2.2.1] at brief
      cases brief

/-- A moment in which an activity goes on is followed by a sound one. -/
theorem Sound.proceeds (h : m.Sound) {p : PromiseId} {a : Activity} {rest : List Activity} {o : Outcome}
    {r : Except Fault Next} {c : Client} (hp : m.Proceeds m' p a rest o r c) (client : m'.client.Sound)
    (running : m'.client.running = m'.turn.map (·.task)) : m'.Sound := by
  have frames := frames_of_proceeds hp.proceeds
  refine ⟨client, running, ?_, ?_⟩
  · intro q b hb
    rcases hp.mem_or_new hb with before | ⟨_, left⟩ | ⟨_, begins⟩
    · exact h.tame q b before
    · exact (frames b left).1
    · exact begins.isTame
  · intro q b hb brief
    obtain ⟨hq, left⟩ := h.mem_frames_of_brief hp brief hb
    obtain ⟨k, called, plain⟩ := (frames b left).2 brief
    refine ⟨k :: rest, .null, by rw [hq]; exact hp.calls b k called, ?_⟩
    intro x hx
    rcases List.mem_cons.1 hx with rfl | hx
    · exact plain
    · exact h.rest_plain hp.turn x hx

/-- The task that runs goes on. -/
theorem Sound.go (hE : E.IsTame) {c c' : Client} {p : PromiseId} {a : Activity} {rest stack : List Activity}
    {o o' : Outcome} (h : Sound ⟨c, some ⟨p, a :: rest, o⟩⟩)
    (goes : does E (runActivity p a rest o) c = (.ok (some (stack, o')), c')) :
    Sound ⟨c', some ⟨p, stack, o'⟩⟩ ∧ After ⟨c, some ⟨p, a :: rest, o⟩⟩ ⟨c', some ⟨p, stack, o'⟩⟩ ∧
      ∃ r d, does E (goOn a o) c = (r, d) ∧
        Proceeds ⟨c, some ⟨p, a :: rest, o⟩⟩ ⟨c', some ⟨p, stack, o'⟩⟩ p a rest o r d := by
  obtain ⟨r, d, hx, hd, proceeds⟩ := does_goOn hE h.client (h.tame_of_turn rfl) o
  obtain ⟨t, c'', hy, leads⟩ := does_runActivity (E := E) p a rest o c
  rw [goes] at hy
  cases hy
  rw [hx] at leads
  obtain ⟨rfl, rfl, value, fault, result⟩ := goesTo_some leads
  have g := (alters_of_proceeds proceeds).goes
  have others : ∀ q, q ≠ p →
      SameStack (c.Begins a) ⟨c, some ⟨p, a :: rest, o⟩⟩ ⟨c', some ⟨p, framesOf r ++ rest, o'⟩⟩ q := by
    intro q hq
    unfold SameStack
    rw [stack_of_ne rfl hq, stack_of_ne rfl hq]
    exact g.loop.stackOf (by simp)
  have hp : Proceeds ⟨c, some ⟨p, a :: rest, o⟩⟩ ⟨c', some ⟨p, framesOf r ++ rest, o'⟩⟩ p a rest o r c' := by
    refine ⟨rfl, proceeds, fun _ => rfl, rfl, id, stack_of_turn (t := ⟨p, framesOf r ++ rest, o'⟩) rfl, ?_, ?_, ?_,
      fun q hq => .inl (stack_of_ne rfl hq), others⟩
    · intro b k called
      cases value b k called
      rw [called]
      rfl
    · intro f failed
      cases fault f failed
      rw [failed]
      rfl
    · intro v ended
      cases result v ended
      rw [ended]
      rfl
  exact ⟨h.proceeds hp hd (g.running.trans h.running),
    ⟨g.loop.size, g.count, g.grows, g.ages, g.loop.outcome, g.endures⟩, r, c', hx, hp⟩

/-- The task that runs goes on, and then waits. -/
theorem Sound.wait (hE : E.IsTame) {c c' : Client} {p : PromiseId} {a : Activity} {rest : List Activity}
    {o : Outcome} (h : Sound ⟨c, some ⟨p, a :: rest, o⟩⟩) (goes : does E (runActivity p a rest o) c = (.ok none, c')) :
    Sound ⟨c'.driving c'.loop none, none⟩ ∧ After ⟨c, some ⟨p, a :: rest, o⟩⟩ ⟨c'.driving c'.loop none, none⟩ ∧
      ∃ r d, does E (goOn a o) c = (r, d) ∧
        Proceeds ⟨c, some ⟨p, a :: rest, o⟩⟩ ⟨c'.driving c'.loop none, none⟩ p a rest o r d := by
  obtain ⟨r, d, hx, hd, proceeds⟩ := does_goOn hE h.client (h.tame_of_turn rfl) o
  obtain ⟨t, c'', hy, leads⟩ := does_runActivity (E := E) p a rest o c
  rw [goes] at hy
  cases hy
  rw [hx] at leads
  have g := (alters_of_proceeds proceeds).goes
  have running : d.running = some p := g.running.trans h.running
  have w : d.loop.WF notices (some p) := by
    rw [← running]
    exact hd.wf
  -- What is left to do is put down in the loop, so the stack of the task is there from now on.
  obtain ⟨k, l, one, plain, rfl, moves, w', put⟩ := goesTo_none w leads
  have stack_p : stack ⟨({ d with loop := l } : Client).driving l none, none⟩ p = framesOf r ++ rest := by
    rw [stack_of_idle rfl, one]
    exact put
  have others : ∀ q, q ≠ p →
      SameStack (c.Begins a) ⟨c, some ⟨p, a :: rest, o⟩⟩ ⟨({ d with loop := l } : Client).driving l none, none⟩ q := by
    intro q hq
    unfold SameStack
    rw [stack_of_ne (m := ⟨c, some ⟨p, a :: rest, o⟩⟩) rfl hq, stack_of_idle rfl]
    have puts : d.loop.Moves (c.Begins a) (some p) l := moves.mono fun b root => .root root
    exact (g.loop.but_of_none.trans puts).stackOf fun e => hq (Option.some.inj e).symm
  have kept : After ⟨d, some ⟨p, a :: rest, o⟩⟩ ⟨d.driving l none, none⟩ := after_driving moves _ none
  have first : After ⟨c, some ⟨p, a :: rest, o⟩⟩ ⟨d, some ⟨p, a :: rest, o⟩⟩ :=
    ⟨g.loop.size, g.count, g.grows, g.ages, g.loop.outcome, g.endures⟩
  have hp : Proceeds ⟨c, some ⟨p, a :: rest, o⟩⟩ ⟨({ d with loop := l } : Client).driving l none, none⟩
      p a rest o r d := by
    refine ⟨rfl, proceeds, fun _ => rfl, rfl, moves.outcome, stack_p, fun b k called => absurd called (plain b k), ?_,
      ?_, ?_, others⟩
    · rintro f rfl
      cases one
    · rintro v rfl
      cases one
    · intro q hq
      rw [stack_of_idle rfl]
      exact moves.stackOf fun e => hq (Option.some.inj e).symm
  exact ⟨h.proceeds hp (sound_driving hd moves w') rfl, first.trans kept, r, d, hx, hp⟩

/-- The task that runs ends. -/
theorem Sound.finish {c : Client} {p : PromiseId} {o : Outcome} (h : Sound ⟨c, some ⟨p, [], o⟩⟩) :
    Sound ⟨c.driving (c.loop.finish p o) none, none⟩ ∧
      After ⟨c, some ⟨p, [], o⟩⟩ ⟨c.driving (c.loop.finish p o) none, none⟩ ∧
      Passes ⟨c, some ⟨p, [], o⟩⟩ ⟨c.driving (c.loop.finish p o) none, none⟩ := by
  have w : c.loop.WF notices (some p) := by
    have running : c.running = some p := h.running
    rw [← running]
    exact h.client.wf
  obtain ⟨moves, w', _⟩ := Loop.finish_spec (A := IsRoot) w o
  have tasks : ∀ q, SameStack IsRoot ⟨c, some ⟨p, [], o⟩⟩ ⟨c.driving (c.loop.finish p o) none, none⟩ q := by
    intro q
    unfold SameStack
    rw [stack_of_idle rfl]
    by_cases hq : q = p
    · obtain ⟨⟨i, hr⟩, _⟩ := w.runs rfl
      obtain ⟨i', hr', _⟩ := moves.task (by simp) hr
      rw [hq, stack_of_turn (t := ⟨p, [], o⟩) rfl]
      exact .inl (Loop.stackOf_of_role? hr')
    · rw [stack_of_ne rfl hq]
      exact moves.stackOf (by simp)
  have plain : ∀ q, ∀ a ∈ stack ⟨c, some ⟨p, [], o⟩⟩ q, a.isBrief = false := by
    intro q a ha
    refine Bool.eq_false_iff.2 fun brief => ?_
    obtain ⟨rest, v, e, _⟩ := h.front rfl ha brief
    cases e
  refine ⟨⟨sound_driving h.client moves w', rfl, ?_, ?_⟩, after_driving moves _ _,
    ⟨fun t e => by cases e; rfl, fun s => Session.Stays.refl _, fun _ => rfl, tasks⟩⟩
  · intro q b hb
    rcases (tasks q).mem hb with hb | root
    · exact h.tame q b hb
    · exact root.1
  · intro q b hb brief
    rcases (tasks q).mem hb with hb | root
    · rw [plain q b hb] at brief
      cases brief
    · rw [(root.free none).not_isBrief] at brief
      cases brief

/-! ## New clients -/

/-- Sessions of a new client have no requests, no transports and no handlers. -/
theorem sessionAt_of_isNew {c : Client} (new : c.IsNew) (s : SessionId) :
    (c.sessionAt s).state = .stopped ∧ (c.sessionAt s).registry = {} ∧ (c.sessionAt s).transport = none ∧
      ∀ topic, ((c.sessionAt s).router topic).all = [] := by
  unfold Client.sessionAt
  cases hs : c.sessions[s]? with
  | none => exact ⟨rfl, rfl, rfl, fun topic => by cases topic <;> rfl⟩
  | some x =>
    obtain ⟨settings, policy, rfl⟩ := new.sessions x (Array.mem_of_getElem? hs)
    exact ⟨rfl, rfl, rfl, fun topic => by cases topic <;> rfl⟩

theorem stack_of_isNew {c : Client} (new : c.IsNew) (p : PromiseId) : stack ⟨c, none⟩ p = [] := by
  rw [stack_of_idle rfl]
  unfold Loop.stackOf Loop.role?
  rw [new.loop]
  rfl

theorem sound_of_isNew {c : Client} (new : c.IsNew) : Sound ⟨c, none⟩ := by
  have fit : Registry.Fit ({} : Registry CancelHook) c.loop := ⟨rfl, by simp [Registry.ids], by simp⟩
  refine ⟨⟨?_, ?_, ?_, ?_⟩, new.running, ?_, ?_⟩
  · rw [new.loop, new.running]
    exact Loop.WF.new
  · intro s
    obtain ⟨_, registry, _, handlers⟩ := sessionAt_of_isNew new s
    refine ⟨fun topic h hh => ?_, fun p hp => ?_⟩
    · rw [handlers] at hh
      cases hh
    · rw [registry] at hp
      cases hp
  · rw [new.registry]
    exact fit
  · intro s
    rw [(sessionAt_of_isNew new s).2.1]
    exact fit
  · intro p a ha
    rw [stack_of_isNew new] at ha
    cases ha
  · intro p a ha
    rw [stack_of_isNew new] at ha
    cases ha

/-! ## Whole runs -/

/-- How a sound moment goes on: it stays sound, keeps what it keeps, and either no activity goes on, or
one does what it may. -/
theorem Step.spec (hE : E.IsTame) (h : m.Sound) (next : Step E acts m m') :
    m'.Sound ∧ m.After m' ∧ (m.Passes m' ∨
      ∃ p a rest o r c, does E (goOn a o) m.client = (r, c) ∧ m.Proceeds m' p a rest o r c) := by
  cases next with
  | act tame =>
    obtain ⟨minor, sound⟩ := (isMinor_runStep hE tame).minorAt _ h.client
    obtain ⟨sound, after, passes⟩ := h.still minor.still sound
    exact ⟨sound, after, .inl passes⟩
  | clock now =>
    rename_i c
    have still : c.Still IsRoot none { c with loop := { c.loop with now } } :=
      ⟨Loop.moves_of_promises rfl, rfl, rfl, Nat.le_refl _, fun _ => Session.Stays.refl _,
        fun _ => .elsewhere _ fun _ _ ho => ho, fun _ => rfl⟩
    have sound : Client.Sound { c with loop := { c.loop with now } } :=
      ⟨h.client.wf.setNow now, h.client.sessions, h.client.alone.moves still.loop,
        fun x => (h.client.registries x).moves still.loop⟩
    obtain ⟨sound, after, passes⟩ := h.still still sound
    exact ⟨sound, after, .inl passes⟩
  | begin next runs =>
    obtain ⟨sound, after, passes⟩ := h.begin next runs _
    exact ⟨sound, after, .inl passes⟩
  | work next idle =>
    rename_i c job l
    have running : c.running = none := h.running
    have w : c.loop.WF notices none := by
      rw [← running]
      exact h.client.wf
    -- The job is taken first, and then it runs in a loop that no task drives.
    obtain ⟨w', promises, due, _⟩ := w.next? next
    have moves : c.loop.Moves IsRoot none l := Loop.moves_of_promises promises
    have first : c.Still IsRoot none { c with loop := l } :=
      ⟨moves, rfl, rfl, Nat.le_refl _, fun _ => Session.Stays.refl _, fun _ => .elsewhere _ fun _ _ => moves.outcome,
        fun _ => rfl⟩
    have sound : Client.Sound { c with loop := l } :=
      ⟨by rw [running]; exact w', h.client.sessions, h.client.alone.moves moves,
        fun x => (h.client.registries x).moves moves⟩
    obtain ⟨still, sound⟩ := stillAt_runJob hE sound due idle
    obtain ⟨sound, after, passes⟩ := h.still (first.trans still) sound
    exact ⟨sound, after, .inl passes⟩
  | go goes =>
    obtain ⟨sound, after, r, d, hx, proceeds⟩ := h.go hE goes
    exact ⟨sound, after, .inr ⟨_, _, _, _, r, d, hx, proceeds⟩⟩
  | wait goes =>
    obtain ⟨sound, after, r, d, hx, proceeds⟩ := h.wait hE goes
    exact ⟨sound, after, .inr ⟨_, _, _, _, r, d, hx, proceeds⟩⟩
  | finish =>
    obtain ⟨sound, after, passes⟩ := h.finish
    exact ⟨sound, after, .inl passes⟩

/-- Whole runs keep what steps keep. -/
theorem Run.spec (hE : E.IsTame) (h : m.Sound) (run : Run E P m acts m') : m'.Sound ∧ m.After m' := by
  induction run with
  | refl => exact ⟨h, After.refl m⟩
  | step _ _ next ih =>
    obtain ⟨sound, after⟩ := ih
    obtain ⟨sound', after', _⟩ := next.spec hE sound
    exact ⟨sound', after.trans after'⟩

/-- Users may do the same and come to the same moment although something that mostly holds does not on the way. -/
def Strays (E : Executor) (Q : Moment → Prop) (m : Moment) (acts : List LspClient.Step) (m' : Moment) : Prop :=
  ∃ astray done later, acts = done ++ later ∧ Run E Q m done astray ∧ ¬ Q astray ∧ Run E (fun _ => True) astray later m'

theorem Strays.step {Q : Moment → Prop} {acts' : List LspClient.Step} (h : Strays E Q m acts m')
    (next : Step E acts' m' m'') :
    Strays E Q m (acts ++ acts') m'' := by
  obtain ⟨astray, done, later, rfl, kept, here, run⟩ := h
  exact ⟨astray, done, later ++ acts', List.append_assoc .., kept, here, run.step trivial next⟩

/-- A run that comes to a moment at which something does not hold any more. -/
theorem Run.strays {Q : Moment → Prop} (run : Run E Q m acts m') (here : ¬ Q m') : Strays E Q m acts m' :=
  ⟨m', acts, [], (List.append_nil acts).symm, run, here, .refl⟩

/-- Something holds whenever a moment of a run is left, or the run comes by a moment at which it does not. -/
theorem Run.keeps_or_strays (Q : Moment → Prop) (run : Run E P m acts m') :
    Run E (fun m => P m ∧ Q m) m acts m' ∨ Strays E Q m acts m' := by
  induction run with
  | refl => exact .inl .refl
  | @step done _ m₁ _ _ there next ih =>
    rcases ih with kept | strays
    · by_cases here : Q m₁
      · exact .inl (kept.step ⟨there, here⟩ next)
      · exact .inr (((kept.mono fun _ h => h.2).strays here).step next)
    · exact .inr (strays.step next)

/-- Ids are never given away twice: requests of a session that have been pending under the same id, now
or later, are the same. -/
theorem Run.eq_of_id (hE : E.IsTame) (h : m.Sound) (run : Run E P m acts m') {s : SessionId} {p p' : Pending CancelHook}
    (hp : p ∈ (m.client.sessionAt s).registry.pending) (hp' : p' ∈ (m'.client.sessionAt s).registry.pending)
    (same : p.id = p'.id) : p = p' := by
  obtain ⟨_, after⟩ := run.spec hE h
  rcases (after.ages s).fresh p' hp' with before | ⟨n, later, e⟩
  · exact (h.client.registries s).eq_of_id hp before same
  · -- The id of the one would be older than that of the other.
    obtain ⟨k, earlier, e'⟩ := (h.client.sessions s).ids p hp
    rw [e', e] at same
    cases same
    omega

/-! ## Interrupted attempts -/

/-- Whether an activity goes on with an attempt to start a session: its transport is open but no
longer that of the session, or the first request is answered. -/
def Overtaken (s : SessionId) (c : Client) (a : Activity) : Prop :=
  (∃ t, a = .attemptOpened s t ∧ (c.sessionAt s).transport ≠ some t) ∨ (∃ t, a = .attemptAnswered s t) ∨
    a = .attemptAbandoned s

/-- An attempt that goes on although its session does not start any more leaves all sessions alone. -/
theorem still_of_overtaken {c c' : Client} {a : Activity} {o : Outcome} {r : Except Fault Next} {s : SessionId}
    (h : c.Proceeds a o r c') (overtaken : Overtaken s c a) (interrupted : (c.sessionAt s).state ≠ .starting) :
    c.Still IsRoot none c' := by
  rcases overtaken with ⟨t, rfl, other⟩ | ⟨t, rfl⟩ | rfl
  · cases h with
    | steady still _ _ => exact still
    | greet connected _ _ => exact absurd connected other
    | count never _ _ _ => cases never
    | read never _ _ _ => cases never
    | answer never _ => cases never
  · cases h with
    | steady still _ _ => exact still
    | run runs _ => exact absurd runs.session.1.starting interrupted
    | count never _ _ _ => cases never
    | read never _ _ _ => cases never
    | answer never _ => cases never
  · cases h with
    | steady still _ _ => exact still
    | count never _ _ _ => cases never
    | read never _ _ _ => cases never
    | answer never _ => cases never

/-- An attempt that goes on although its session does not start any more leaves all sessions in their
states, with their transports and their requests. -/
theorem Step.stays_of_overtaken (hE : E.IsTame) (h : m.Sound) (next : Step E acts m m') {s : SessionId} {p : PromiseId}
    {a : Activity} {rest : List Activity} {o : Outcome} (turn : m.turn = some ⟨p, a :: rest, o⟩)
    (overtaken : Overtaken s m.client a) (interrupted : (m.client.sessionAt s).state ≠ .starting) (x : SessionId) :
    (m.client.sessionAt x).Stays False (m'.client.sessionAt x) := by
  obtain ⟨_, _, passes | ⟨q, b, rest', o', r, c, _, hp⟩⟩ := next.spec hE h
  · exact passes.stays x
  · have same := hp.turn
    rw [turn] at same
    cases same
    rw [hp.sessions]
    exact (still_of_overtaken hp.proceeds overtaken interrupted).stays_false x

end Moment

end LspClient
