/-
The tasks of a loop. `WF` says that each task is woken by one job at a time, and by the right one.
`Moves` says how a loop may go on while its tasks keep waiting. Each operation of the loop that is
no turn of a task keeps the one and is a case of the other.
-/
import LspClient.Proofs.Loop.Promises

namespace LspClient

/-- Whether a job lets a task run on. -/
def Job.drives {ω : Type} (p : PromiseId) : Job ω → Bool
  | .step task | .wake task _ => task == p
  | _ => false

/-- What a new promise is: plain, a group, or a task that is about to begin. -/
def Role.IsNew {φ : Type} (A : φ → Prop) : Role φ → Prop
  | .task stack source _ => ∃ a, A a ∧ stack = [a] ∧ source = none
  | _ => True

/-- A task about to begin is new. -/
theorem Role.isNew_begin {φ : Type} {A : φ → Prop} {a : φ} (h : A a) (interrupted : Bool) :
    (Role.task [a] none interrupted).IsNew A :=
  ⟨a, h, rfl, rfl⟩

theorem Job.drives_iff {ω : Type} {p : PromiseId} {job : Job ω} :
    job.drives p = true ↔ job = .step p ∨ ∃ q, job = .wake p q := by
  cases job <;> simp [Job.drives]

namespace Loop

variable {φ ω : Type}

/-! ## Definitions -/

/-- The events that may come by themselves, and those that may come when a promise is settled. -/
structure Notices (ω : Type) where
  free : ω → Prop
  hears : PromiseId → ω → Prop

/-- A job that may run now. -/
def IsDue (N : Notices ω) (running : Option PromiseId) (l : Loop φ ω) : Job ω → Prop
  | .step p => running ≠ some p ∧ ∃ a stack interrupted, l.role? p = some (.task (a :: stack) none interrupted)
  | .wake p q => (∃ o, l.outcome? q = some o) ∧
      ∃ a stack interrupted, l.role? p = some (.task (a :: stack) (some q) interrupted)
  | .notify e => N.free e ∨ ∃ q o, l.outcome? q = some o ∧ N.hears q e
  | _ => True

/-- A job that may wait for a promise. -/
def Heeds (N : Notices ω) (l : Loop φ ω) (q : PromiseId) : Job ω → Prop
  | .step _ => False
  | .wake p source => source = q ∧
      ∃ a stack interrupted, l.role? p = some (.task (a :: stack) (some q) interrupted)
  | .notify e => N.hears q e
  | _ => True

/-- A job that may wait for its time. -/
def IsTimed (N : Notices ω) : Job ω → Prop
  | .notify e => N.free e
  | .fulfil _ | .idle => True
  | _ => False

/-- A loop whose tasks are driven by one job each: the jobs that are ready may run, those that wait
for a promise may wait for it, a settled promise has nobody waiting, a task with something left to
do is not settled, and the running task has put everything down. -/
structure WF (N : Notices ω) (running : Option PromiseId) (l : Loop φ ω) : Prop where
  due : ∀ {timer job}, (timer, job) ∈ l.ready → l.IsDue N running job
  heeds : ∀ {q job}, job ∈ l.observers q → l.Heeds N q job
  timed : ∀ {t}, t ∈ l.timers → IsTimed N t.job
  once : ∀ p, l.ready.countP (fun e => e.2.drives p) ≤ 1
  onceHeard : ∀ p q, (l.observers q).countP (Job.drives p) ≤ 1
  quiet : ∀ {q o}, l.outcome? q = some o → l.observers q = []
  unfinished : ∀ {p a stack source interrupted},
    l.role? p = some (.task (a :: stack) source interrupted) → l.outcome? p = none
  runs : ∀ {p}, running = some p →
    (∃ interrupted, l.role? p = some (.task [] none interrupted)) ∧ l.outcome? p = none

/-- How a loop may go on: what is settled stays settled, tasks keep what they are in the middle of,
though they may be interrupted, and new tasks are about to begin. One task may be excepted. -/
structure Moves (A : φ → Prop) (but : Option PromiseId) (l l' : Loop φ ω) : Prop where
  outcome : ∀ {p o}, l.outcome? p = some o → l'.outcome? p = some o
  plain : ∀ {p}, l.role? p = some .plain → l'.role? p = some .plain
  task : ∀ {p stack source interrupted}, but ≠ some p → l.role? p = some (.task stack source interrupted) →
    ∃ interrupted', l'.role? p = some (.task stack source interrupted') ∧
      (interrupted = true → interrupted' = true)
  group : ∀ {p members left interrupted}, l.role? p = some (.group members left interrupted) →
    ∃ left' interrupted', l'.role? p = some (.group members left' interrupted')
  fresh : ∀ {p role}, but ≠ some p → l.role? p = none → l'.role? p = some role → role.IsNew A
  size : l.promises.size ≤ l'.promises.size

/-- What is settled stays settled, and tasks keep what they are in the middle of. -/
structure Keeps (l l' : Loop φ ω) : Prop where
  outcome : ∀ {p o}, l.outcome? p = some o → l'.outcome? p = some o
  task : ∀ {p stack source interrupted}, l.role? p = some (.task stack source interrupted) →
    ∃ interrupted', l'.role? p = some (.task stack source interrupted')

variable {N : Notices ω} {A : φ → Prop} {running but : Option PromiseId} {l l' l'' : Loop φ ω}

/-! ## Going on is a preorder -/

theorem Moves.refl (l : Loop φ ω) : Moves A but l l where
  outcome h := h
  plain h := h
  task _ h := ⟨_, h, id⟩
  group h := ⟨_, _, h⟩
  fresh _ h h' := by rw [h] at h'; cases h'
  size := Nat.le_refl _

theorem Moves.but_of_none (m : Moves A none l l') : Moves A but l l' :=
  { m with task := fun _ h => m.task (by simp) h, fresh := fun _ h => m.fresh (by simp) h }

/-- A new promise stays one. -/
theorem Moves.isNew (m : Moves A but l l') {p : PromiseId} (hb : but ≠ some p) {role role' : Role φ}
    (h : l.role? p = some role) (h' : l'.role? p = some role') (n : role.IsNew A) : role'.IsNew A := by
  cases role with
  | plain =>
    rw [m.plain h] at h'
    cases h'
    trivial
  | task stack source interrupted =>
    obtain ⟨i, hr, _⟩ := m.task hb h
    rw [hr] at h'
    cases h'
    exact n
  | group members left interrupted =>
    obtain ⟨n', i, hr⟩ := m.group h
    rw [hr] at h'
    cases h'
    trivial

theorem Moves.mono {B : φ → Prop} (m : Moves A but l l') (h : ∀ a, A a → B a) : Moves B but l l' := by
  refine { m with fresh := fun {p role} hb hn hr => ?_ }
  have new := m.fresh hb hn hr
  cases role with
  | task stack source i =>
    obtain ⟨a, ha, e⟩ := new
    exact ⟨a, h a ha, e⟩
  | plain => trivial
  | group members left i => trivial

theorem Moves.trans (h : Moves A but l l') (h' : Moves A but l' l'') : Moves A but l l'' where
  outcome ho := h'.outcome (h.outcome ho)
  plain hp := h'.plain (h.plain hp)
  task hb ht := by
    obtain ⟨i, hr, hi⟩ := h.task hb ht
    obtain ⟨i', hr', hi'⟩ := h'.task hb hr
    exact ⟨i', hr', fun e => hi' (hi e)⟩
  group hg := by
    obtain ⟨n, i, hr⟩ := h.group hg
    exact h'.group hr
  fresh hb hp hr := by
    rename_i p role
    cases hm : l'.role? p with
    | none => exact h'.fresh hb hm hr
    | some role' => exact h'.isNew hb hm hr (h.fresh hb hp hm)
  size := Nat.le_trans h.size h'.size

theorem Moves.keeps (m : Moves A none l l') : Keeps l l' where
  outcome := m.outcome
  task h := by
    obtain ⟨i, hr, _⟩ := m.task (by simp) h
    exact ⟨i, hr⟩

theorem IsDue.keeps {job : Job ω} (m : Keeps l l') (h : l.IsDue N running job) : l'.IsDue N running job := by
  cases job with
  | step p =>
    obtain ⟨hn, a, stack, i, hr⟩ := h
    exact ⟨hn, a, stack, m.task hr⟩
  | wake p q =>
    obtain ⟨⟨o, ho⟩, a, stack, i, hr⟩ := h
    exact ⟨⟨o, m.outcome ho⟩, a, stack, m.task hr⟩
  | notify e =>
    rcases h with h | ⟨q, o, ho, h⟩
    · exact .inl h
    · exact .inr ⟨q, o, m.outcome ho, h⟩
  | fulfil p => trivial
  | member g q => trivial
  | idle => trivial

theorem Heeds.keeps {q : PromiseId} {job : Job ω} (m : Keeps l l') (h : l.Heeds N q job) : l'.Heeds N q job := by
  cases job with
  | wake p source =>
    obtain ⟨hq, a, stack, i, hr⟩ := h
    exact ⟨hq, a, stack, m.task hr⟩
  | step p => exact h
  | notify e => exact h
  | fulfil p => trivial
  | member g q => trivial
  | idle => trivial

/-- A job that waited for a promise may run once that is settled. -/
theorem Heeds.isDue {q : PromiseId} {o : Outcome} {job : Job ω} (h : l.Heeds N q job)
    (ho : l.outcome? q = some o) : l.IsDue N running job := by
  cases job with
  | wake p source =>
    obtain ⟨rfl, h⟩ := h
    exact ⟨⟨o, ho⟩, h⟩
  | step p => exact h.elim
  | notify e => exact .inr ⟨q, o, ho, h⟩
  | fulfil p => trivial
  | member g q => trivial
  | idle => trivial

/-- A job whose time has come may run. -/
theorem IsTimed.isDue {job : Job ω} (h : IsTimed N job) : l.IsDue N running job := by
  cases job with
  | notify e => exact .inl h
  | fulfil p => trivial
  | idle => trivial
  | step p => exact h.elim
  | wake p q => exact h.elim
  | member g q => exact h.elim

theorem IsTimed.not_drives {job : Job ω} (h : IsTimed N job) (p : PromiseId) : job.drives p = false := by
  refine Bool.eq_false_iff.2 fun hd => ?_
  rcases Job.drives_iff.1 hd with rfl | ⟨q, rfl⟩
  · exact h
  · exact h

/-- A job that lets a task run on knows the task. -/
theorem IsDue.role?_of_drives {job : Job ω} {p : PromiseId} (h : l.IsDue N running job) (hd : job.drives p = true) :
    ∃ a stack source interrupted, l.role? p = some (.task (a :: stack) source interrupted) := by
  rcases Job.drives_iff.1 hd with rfl | ⟨q, rfl⟩
  · obtain ⟨_, a, stack, i, hr⟩ := h
    exact ⟨a, stack, _, i, hr⟩
  · obtain ⟨_, a, stack, i, hr⟩ := h
    exact ⟨a, stack, _, i, hr⟩

/-- A loop without tasks and timers. -/
theorem WF.new : WF N none ({} : Loop φ ω) where
  due h := by cases h
  heeds h := by cases h
  timed h := by cases h
  once _ := Nat.zero_le 1
  onceHeard _ _ := Nat.zero_le 1
  quiet _ := rfl
  unfinished h := by cases h
  runs h := by cases h

/-- Whether a task runs may be left open. -/
theorem WF.idle (w : WF N running l) : WF N none l := by
  refine { w with due := fun h => ?_, runs := fun h => by cases h }
  have d := w.due h
  rename_i job
  cases job with
  | step p => exact ⟨by simp, d.2⟩
  | wake p q => exact d
  | notify e => exact d
  | fulfil p => trivial
  | idle => trivial
  | member g q => trivial

/-- The running task keeps its hands empty. -/
theorem WF.runs_keeps (w : WF N running l) (m : Keeps l l')
    (ho : ∀ {p}, running = some p → l'.outcome? p = none) {p : PromiseId} (h : running = some p) :
    (∃ interrupted, l'.role? p = some (.task [] none interrupted)) ∧ l'.outcome? p = none := by
  obtain ⟨⟨i, hr⟩, _⟩ := w.runs h
  exact ⟨m.task hr, ho h⟩

/-! ## Making promises -/

theorem role?_newPromise_of_some {p : PromiseId} {r : Role φ} (h : l.role? p = some r) (role : Role φ) :
    (l.newPromise role).2.role? p = some r := by
  rw [role?_newPromise, if_neg (Nat.ne_of_lt (lt_size_of_role? h)), h]

theorem moves_newPromise (l : Loop φ ω) {role : Role φ} (n : role.IsNew A) : Moves A none l (l.newPromise role).2 := by
  refine ⟨fun h => by rwa [outcome?_newPromise], fun h => role?_newPromise_of_some h _,
    fun _ h => ⟨_, role?_newPromise_of_some h _, id⟩, fun h => ⟨_, _, role?_newPromise_of_some h _⟩,
    fun _ h h' => ?_, ?_⟩
  · rw [role?_newPromise] at h'
    split at h'
    · cases h'
      exact n
    · rw [h] at h'
      cases h'
  · rw [size_newPromise]
    omega

theorem WF.newPromise (w : WF N running l) (role : Role φ) : WF N running (l.newPromise role).2 := by
  have m : Keeps l (l.newPromise role).2 :=
    ⟨fun h => by rwa [outcome?_newPromise], fun h => ⟨_, role?_newPromise_of_some h _⟩⟩
  refine ⟨fun h => (w.due h).keeps m, fun h => ?_, fun h => w.timed h, w.once, fun p q => ?_, fun h => ?_, fun h => ?_,
    w.runs_keeps m fun h => ?_⟩
  · rw [observers_newPromise] at h
    exact (w.heeds h).keeps m
  · rw [observers_newPromise]
    exact w.onceHeard p q
  · rw [outcome?_newPromise] at h
    rw [observers_newPromise]
    exact w.quiet h
  · rw [role?_newPromise] at h
    rw [outcome?_newPromise]
    split at h
    · next hp => rw [hp, outcome?_eq_none (Nat.le_refl _)]
    · exact w.unfinished h
  · rw [outcome?_newPromise]
    exact (w.runs h).2

/-! ## Making jobs ready -/

theorem moves_schedule (l : Loop φ ω) (job : Job ω) : Moves A but l (l.schedule job) :=
  ⟨id, id, fun _ h => ⟨_, h, id⟩, fun h => ⟨_, _, h⟩, fun _ h h' => absurd (h.symm.trans h') (by simp), Nat.le_refl _⟩

theorem WF.schedule (w : WF N running l) {job : Job ω} (d : l.IsDue N running job)
    (alone : ∀ p, job.drives p = true → ∀ e ∈ l.ready, e.2.drives p = false) : WF N running (l.schedule job) := by
  refine ⟨fun h => ?_, w.heeds, w.timed, fun p => ?_, w.onceHeard, w.quiet, w.unfinished, w.runs⟩
  · rcases List.mem_append.1 h with h | h
    · exact w.due h
    · cases List.mem_singleton.1 h
      exact d
  · show List.countP _ (l.ready ++ [(none, job)]) ≤ 1
    rw [List.countP_append, List.countP_singleton]
    split
    · next hd =>
      have : l.ready.countP (fun e => e.2.drives p) = 0 :=
        List.countP_eq_zero.2 fun e he => by simp [alone p hd e he]
      omega
    · exact w.once p

/-- A new task is about to begin. -/
theorem moves_spawn (l : Loop φ ω) {a : φ} (h : A a) : Moves A none l (l.spawn a).2 :=
  (moves_newPromise l (Role.isNew_begin h false)).trans (moves_schedule _ _)

theorem WF.spawn (w : WF N running l) (a : φ) : WF N running (l.spawn a).2 := by
  refine (w.newPromise _).schedule ⟨fun h => ?_, a, [], false, ?_⟩ fun p hd e he => ?_
  · obtain ⟨⟨i, hr⟩, _⟩ := w.runs h
    exact absurd (lt_size_of_role? hr) (Nat.lt_irrefl _)
  · rw [role?_newPromise]
    exact if_pos rfl
  · -- Nothing that is ready can know a task that is made only now.
    refine Bool.eq_false_iff.2 fun hd' => ?_
    obtain ⟨b, stack, source, i, hr⟩ := (w.due he).role?_of_drives hd'
    rcases Job.drives_iff.1 hd with e | ⟨_, e⟩
    · cases e
      exact Nat.lt_irrefl _ (lt_size_of_role? hr)
    · cases e

/-! ## Completing promises -/

theorem moves_complete (l : Loop φ ω) (p : PromiseId) (o : Outcome) : Moves A but l (l.complete p o) where
  outcome h := outcome?_complete_of_settled h p o
  plain h := by rwa [role?_complete]
  task _ h := ⟨_, by rwa [role?_complete], id⟩
  group h := ⟨_, _, by rwa [role?_complete]⟩
  fresh _ h h' := by rw [role?_complete, h] at h'; cases h'
  size := Nat.le_of_eq (size_complete ..).symm

/-- A task that waits for an open promise is in no job that is ready. -/
theorem WF.not_drives_of_heard (w : WF N running l) {q : PromiseId} (ho : l.outcome? q = none) {job : Job ω}
    (h : job ∈ l.observers q) {p : PromiseId} (hd : job.drives p = true) {e : Option TimerId × Job ω}
    (he : e ∈ l.ready) : e.2.drives p = false := by
  obtain ⟨timer, job'⟩ := e
  refine Bool.eq_false_iff.2 fun hd' => ?_
  rcases Job.drives_iff.1 hd with rfl | ⟨source, rfl⟩
  · exact w.heeds h
  obtain ⟨rfl, a, stack, i, hr⟩ := w.heeds h
  rcases Job.drives_iff.1 hd' with rfl | ⟨source', rfl⟩
  · obtain ⟨_, _, _, _, hr'⟩ := w.due he
    rw [hr] at hr'
    cases hr'
  · obtain ⟨⟨o, ho'⟩, _, _, _, hr'⟩ := w.due he
    rw [hr] at hr'
    cases hr'
    rw [ho] at ho'
    cases ho'

/-- A promise may be completed unless it is a task that runs or has something left to do. -/
theorem WF.complete (w : WF N running l) {p : PromiseId} (o : Outcome) (idle : running ≠ some p)
    (free : ∀ a stack source interrupted, l.role? p ≠ some (.task (a :: stack) source interrupted)) :
    WF N running (l.complete p o) := by
  have m : Moves (fun _ : φ => True) none l (l.complete p o) := moves_complete l p o
  cases hp : l.outcome? p with
  | some o' =>
    rw [complete_of_settled (isSettled_iff.2 ⟨o', hp⟩)]
    exact w
  | none =>
    cases hrole : l.role? p with
    | none =>
      rw [complete_of_role?_none hrole]
      exact w
    | some role =>
      obtain ⟨ho, hobs, hready⟩ := complete_of_role? hrole hp o
      have other : ∀ {q}, q ≠ p → (l.complete p o).outcome? q = l.outcome? q := fun h =>
        outcome?_congr (getElem?_complete_of_ne h o)
      have otherHeard : ∀ {q}, q ≠ p → (l.complete p o).observers q = l.observers q := fun h =>
        observers_congr (getElem?_complete_of_ne h o)
      refine ⟨fun h => ?_, fun h => ?_, fun h => w.timed (by rwa [timers_complete] at h), fun q => ?_,
        fun q r => ?_, fun h => ?_, fun h => ?_, w.runs_keeps m.keeps fun h => ?_⟩
      · rw [hready] at h
        rcases List.mem_append.1 h with h | h
        · exact (w.due h).keeps m.keeps
        · obtain ⟨job, hj, e⟩ := List.mem_map.1 h
          cases e
          exact ((w.heeds hj).keeps m.keeps).isDue ho
      · rename_i r job
        by_cases hr : r = p
        · rw [hr, hobs] at h
          cases h
        · rw [otherHeard hr] at h
          exact (w.heeds h).keeps m.keeps
      · rw [hready, List.countP_append, List.countP_map]
        -- A task that the promise wakes now was not ready before: it waited for the promise.
        by_cases hq : ∃ job ∈ l.observers p, job.drives q = true
        · obtain ⟨job, hj, hd⟩ := hq
          have none : l.ready.countP (fun e => e.2.drives q) = 0 :=
            List.countP_eq_zero.2 fun e he => by rw [w.not_drives_of_heard hp hj hd he]; exact Bool.false_ne_true
          rw [none, Nat.zero_add]
          exact w.onceHeard q p
        · have none : (l.observers p).countP (Job.drives q) = 0 :=
            List.countP_eq_zero.2 fun job hj hd => hq ⟨job, hj, hd⟩
          exact Nat.le_trans (Nat.le_of_eq (congrArg _ none)) (w.once q)
      · by_cases hr : r = p
        · rw [hr, hobs]
          exact Nat.zero_le _
        · rw [otherHeard hr]
          exact w.onceHeard q r
      · rename_i q o'
        by_cases hq : q = p
        · rw [hq, hobs]
        · rw [other hq] at h
          rw [otherHeard hq]
          exact w.quiet h
      · rename_i q a stack source i
        rw [role?_complete] at h
        by_cases hq : q = p
        · exact absurd (hq ▸ h) (free _ _ _ _)
        · rw [other hq]
          exact w.unfinished h
      · rw [other fun e => idle (e ▸ h)]
        exact (w.runs h).2

theorem moves_settle (l : Loop φ ω) (p : PromiseId) (o : Outcome) : Moves A but l (l.settle p o) := by
  rcases settle_cases l p o with e | ⟨_, e⟩
  · rw [e]
    exact Moves.refl l
  · rw [e]
    exact moves_complete l p o

theorem WF.settle (w : WF N running l) (p : PromiseId) (o : Outcome) : WF N running (l.settle p o) := by
  rcases settle_cases l p o with e | ⟨hp, e⟩
  · rw [e]
    exact w
  · rw [e]
    refine w.complete o (fun hr => ?_) fun _ _ _ _ h => ?_
    · obtain ⟨⟨i, hr⟩, _⟩ := w.runs hr
      rw [hp] at hr
      cases hr
    · rw [hp] at h
      cases h

/-! ## Observing promises -/

theorem moves_observe (l : Loop φ ω) (q : PromiseId) (job : Job ω) : Moves A but l (l.observe q job) where
  outcome h := by rwa [outcome?_observe]
  plain h := by rwa [role?_observe]
  task _ h := ⟨_, by rwa [role?_observe], id⟩
  group h := ⟨_, _, by rwa [role?_observe]⟩
  fresh _ h h' := by rw [role?_observe, h] at h'; cases h'
  size := Nat.le_of_eq (size_observe ..).symm

/-- A job may observe any promise that it may wait for, if it is the only one that drives its task. -/
theorem WF.observe (w : WF N running l) {q : PromiseId} {job : Job ω} (h : l.Heeds N q job)
    (alone : ∀ p, job.drives p = true →
      (∀ e ∈ l.ready, e.2.drives p = false) ∧ ∀ j ∈ l.observers q, j.drives p = false) :
    WF N running (l.observe q job) := by
  have m : Moves (fun _ : φ => True) none l (l.observe q job) := moves_observe l q job
  have unfinished : ∀ {p a stack source i}, (l.observe q job).role? p = some (.task (a :: stack) source i) →
      (l.observe q job).outcome? p = none := fun h => by
    rw [role?_observe] at h
    rw [outcome?_observe]
    exact w.unfinished h
  have runs : ∀ {p}, running = some p → _ := w.runs_keeps m.keeps fun h => by
    rw [outcome?_observe]
    exact (w.runs h).2
  have timed : ∀ {t}, t ∈ (l.observe q job).timers → IsTimed N t.job := fun h => by
    rw [timers_observe] at h
    exact w.timed h
  -- The job is ready at once if the promise is settled already, and joins its observers otherwise.
  rcases observe_cases l q job with ⟨⟨o, ho⟩, hr, hobs⟩ | ⟨ho, hr, other, self⟩
  · refine ⟨fun hj => ?_, fun hj => ?_, timed, fun p => ?_, fun p r => ?_, fun hs => ?_, unfinished, runs⟩
    · rw [hr] at hj
      rcases List.mem_append.1 hj with hj | hj
      · exact (w.due hj).keeps m.keeps
      · cases List.mem_singleton.1 hj
        exact (h.isDue ho).keeps m.keeps
    · rw [hobs] at hj
      exact (w.heeds hj).keeps m.keeps
    · rw [hr, List.countP_append, List.countP_singleton]
      split
      · next hd =>
        have none : l.ready.countP (fun e => e.2.drives p) = 0 :=
          List.countP_eq_zero.2 fun e he => by simp [(alone p hd).1 e he]
        omega
      · exact w.once p
    · rw [hobs]
      exact w.onceHeard p r
    · rw [outcome?_observe] at hs
      rw [hobs]
      exact w.quiet hs
  · have heard : ∀ {r j}, j ∈ (l.observe q job).observers r → j ∈ l.observers r ∨ r = q ∧ j = job := fun {r j} hj => by
      by_cases e : r = q
      · rw [e, self] at hj
        split at hj
        · rcases List.mem_append.1 hj with hj | hj
          · exact .inl (e ▸ hj)
          · exact .inr ⟨e, List.mem_singleton.1 hj⟩
        · cases hj
      · rw [other r e] at hj
        exact .inl hj
    refine ⟨fun hj => ?_, fun hj => ?_, timed, fun p => ?_, fun p r => ?_, fun hs => ?_, unfinished, runs⟩
    · rw [hr] at hj
      exact (w.due hj).keeps m.keeps
    · rcases heard hj with hj | ⟨rfl, rfl⟩
      · exact (w.heeds hj).keeps m.keeps
      · exact h.keeps m.keeps
    · rw [hr]
      exact w.once p
    · by_cases e : r = q
      · rw [e, self]
        split
        · rw [List.countP_append, List.countP_singleton]
          split
          · next hd =>
            have none : (l.observers q).countP (Job.drives p) = 0 :=
              List.countP_eq_zero.2 fun j hj => by simp [(alone p hd).2 j hj]
            omega
          · exact w.onceHeard p q
        · exact Nat.zero_le _
      · rw [other r e]
        exact w.onceHeard p r
    · rename_i r o
      rw [outcome?_observe] at hs
      rw [other r fun e => by rw [e, ho] at hs; cases hs]
      exact w.quiet hs

theorem moves_unobserve (l : Loop φ ω) (p target : PromiseId) : Moves A but l (l.unobserve p target) where
  outcome h := by rwa [outcome?_unobserve]
  plain h := by rwa [role?_unobserve]
  task _ h := ⟨_, by rwa [role?_unobserve], id⟩
  group h := ⟨_, _, by rwa [role?_unobserve]⟩
  fresh _ h h' := by rw [role?_unobserve, h] at h'; cases h'
  size := Nat.le_of_eq (size_unobserve ..).symm

theorem WF.unobserve (w : WF N running l) (p target : PromiseId) : WF N running (l.unobserve p target) := by
  have m : Moves (fun _ : φ => True) none l (l.unobserve p target) := moves_unobserve l p target
  refine ⟨fun h => (w.due h).keeps m.keeps, fun h => ?_, w.timed, w.once, fun q r => ?_, fun h => ?_, fun h => ?_,
    w.runs_keeps m.keeps fun h => ?_⟩
  · exact (w.heeds ((observers_unobserve_sublist l p _ target).subset h)).keeps m.keeps
  · exact Nat.le_trans (observers_unobserve_sublist l p r target).countP_le (w.onceHeard q r)
  · rename_i q o
    rw [outcome?_unobserve] at h
    have sub := observers_unobserve_sublist l p q target
    rw [w.quiet h] at sub
    exact List.sublist_nil.1 sub
  · rw [role?_unobserve] at h
    rw [outcome?_unobserve]
    exact w.unfinished h
  · rw [outcome?_unobserve]
    exact (w.runs h).2

/-! ## Interrupting tasks, and counting in groups -/

/-- A change of roles that tasks do not notice. -/
theorem WF.setRole (w : WF N running l) {p : PromiseId} {role : Role φ}
    (m : Keeps l (l.setRole p role))
    (same : ∀ {a stack source i}, role = .task (a :: stack) source i →
      ∃ i', l.role? p = some (.task (a :: stack) source i')) : WF N running (l.setRole p role) := by
  refine ⟨fun h => (w.due h).keeps m, fun h => ?_, w.timed, w.once, fun q r => ?_, fun h => ?_, fun h => ?_,
    w.runs_keeps m fun h => ?_⟩
  · rw [observers_setRole] at h
    exact (w.heeds h).keeps m
  · rw [observers_setRole]
    exact w.onceHeard q r
  · rw [outcome?_setRole] at h
    rw [observers_setRole]
    exact w.quiet h
  · rename_i q a stack source i
    rw [outcome?_setRole]
    by_cases e : q = p
    · cases hp : l.role? p with
      | none =>
        refine outcome?_eq_none (Nat.le_of_not_lt fun hn => ?_)
        rw [e] at hn
        rw [role?, Array.getElem?_eq_getElem hn] at hp
        cases hp
      | some old =>
        rw [e, role?_setRole_self hp] at h
        cases h
        obtain ⟨i', hr⟩ := same rfl
        rw [e]
        exact w.unfinished hr
    · rw [role?_setRole_of_ne e] at h
      exact w.unfinished h
  · rw [outcome?_setRole]
    exact (w.runs h).2

/-- Interrupting a task. -/
theorem moves_interrupt {p : PromiseId} {stack : List φ} {source : Option PromiseId} {i : Bool}
    (h : l.role? p = some (.task stack source i)) : Moves A but l (l.setRole p (.task stack source true)) := by
  refine ⟨fun ho => by rwa [outcome?_setRole], fun {q} hq => ?_, fun {q _ _ _} _ hq => ?_, fun {q _ _ _} hq => ?_,
    fun {q _} _ hn hq => ?_, Nat.le_of_eq (size_setRole ..).symm⟩
  · rwa [role?_setRole_of_ne fun e => by rw [e, h] at hq; cases hq]
  · by_cases e : q = p
    · rw [e, h] at hq
      cases hq
      exact ⟨true, by rw [e, role?_setRole_self h], fun _ => rfl⟩
    · exact ⟨_, by rwa [role?_setRole_of_ne e], id⟩
  · exact ⟨_, _, by rwa [role?_setRole_of_ne fun e => by rw [e, h] at hq; cases hq]⟩
  · rw [role?_setRole_of_ne (fun e => by rw [e, h] at hn; cases hn), hn] at hq
    cases hq

/-- Counting in a group. -/
theorem moves_count {p : PromiseId} {members : List PromiseId} {left : Nat} {i : Bool}
    (h : l.role? p = some (.group members left i)) (left' : Nat) (i' : Bool) :
    Moves A but l (l.setRole p (.group members left' i')) := by
  refine ⟨fun ho => by rwa [outcome?_setRole], fun {q} hq => ?_, fun {q _ _ _} _ hq => ?_, fun {q _ _ _} hq => ?_,
    fun {q _} _ hn hq => ?_, Nat.le_of_eq (size_setRole ..).symm⟩
  · rwa [role?_setRole_of_ne fun e => by rw [e, h] at hq; cases hq]
  · exact ⟨_, by rwa [role?_setRole_of_ne fun e => by rw [e, h] at hq; cases hq], id⟩
  · by_cases e : q = p
    · rw [e, h] at hq
      cases hq
      exact ⟨left', i', by rw [e, role?_setRole_self h]⟩
    · exact ⟨_, _, by rwa [role?_setRole_of_ne e]⟩
  · rw [role?_setRole_of_ne (fun e => by rw [e, h] at hn; cases hn), hn] at hq
    cases hq

theorem WF.interrupt (w : WF N running l) {p : PromiseId} {stack : List φ} {source : Option PromiseId} {i : Bool}
    (h : l.role? p = some (.task stack source i)) : WF N running (l.setRole p (.task stack source true)) :=
  w.setRole (moves_interrupt (A := fun _ => True) h).keeps fun e => by cases e; exact ⟨i, h⟩

theorem WF.count (w : WF N running l) {p : PromiseId} {members : List PromiseId} {left : Nat} {i : Bool}
    (h : l.role? p = some (.group members left i)) (left' : Nat) (i' : Bool) :
    WF N running (l.setRole p (.group members left' i')) :=
  w.setRole (moves_count (A := fun _ => True) h left' i').keeps fun e => by cases e

/-- A new group counts its members. -/
theorem gather_spec (w : WF N running l) (members : List PromiseId) :
    Moves A none l (l.gather members).2 ∧ WF N running (l.gather members).2 := by
  have observed : ∀ (g : PromiseId) (ms : List PromiseId) {l : Loop φ ω}, WF N running l →
      Moves A none l (ms.foldl (fun l m => l.observe m (.member g m)) l) ∧
        WF N running (ms.foldl (fun l m => l.observe m (.member g m)) l) := by
    intro g ms
    induction ms with
    | nil => exact fun w => ⟨Moves.refl _, w⟩
    | cons m ms ih =>
      intro l w
      have w' : WF N running (l.observe m (.member g m)) := w.observe trivial fun _ h => absurd h Bool.false_ne_true
      obtain ⟨hm, hw⟩ := ih w'
      exact ⟨(moves_observe l m _).trans hm, hw⟩
  obtain ⟨hm, hw⟩ := observed l.promises.size members
    (w.newPromise (.group members members.length false))
  have new : Role.IsNew A (.group members members.length false) := trivial
  exact ⟨(moves_newPromise l new).trans hm, hw⟩

theorem memberSettled_spec (w : WF N running l) (g : PromiseId) :
    Moves A none l (l.memberSettled g) ∧ WF N running (l.memberSettled g) := by
  unfold memberSettled
  split
  · next members left i h =>
    have m : Moves A none l (l.setRole g (.group members (left - 1) i)) := moves_count h _ _
    have w' := w.count h (left - 1) i
    have hr := role?_setRole_self h (.group members (left - 1) i)
    split
    · refine ⟨m.trans (moves_complete _ _ _), w'.complete _ (fun e => ?_) fun _ _ _ _ h' => ?_⟩
      · obtain ⟨⟨_, hn⟩, _⟩ := w'.runs e
        rw [hr] at hn
        cases hn
      · rw [hr] at h'
        cases h'
    · exact ⟨m, w'⟩
  · exact ⟨Moves.refl l, w⟩

/-! ## Cancelling promises -/

/-- Cancelling the members of a group one after another. -/
theorem cancelMembers_spec {cancel : PromiseId → Loop φ ω → Bool × Loop φ ω}
    (spec : ∀ (p : PromiseId) {l : Loop φ ω}, WF N running l → Moves A none l (cancel p l).2 ∧
      WF N running (cancel p l).2)
    (ms : List PromiseId) {l : Loop φ ω} (w : WF N running l) :
    Moves A none l (cancelMembers cancel ms l).2 ∧ WF N running (cancelMembers cancel ms l).2 := by
  induction ms generalizing l with
  | nil => exact ⟨Moves.refl l, w⟩
  | cons m ms ih =>
    obtain ⟨hm, hw⟩ := spec m w
    obtain ⟨hm', hw'⟩ := ih hw
    exact ⟨hm.trans hm', hw'⟩

theorem cancelFrom_spec (fuel : Nat) : ∀ (p : PromiseId) {l : Loop φ ω}, WF N running l →
    Moves A none l (cancelFrom fuel p l).2 ∧ WF N running (cancelFrom fuel p l).2 := by
  induction fuel with
  | zero => exact fun p l w => ⟨Moves.refl l, w⟩
  | succ fuel ih =>
    intro p l w
    unfold cancelFrom
    split
    · next observers role h =>
      have hrole : l.role? p = some role := by rw [role?, h]; rfl
      cases role with
      | plain => exact ⟨moves_settle l p _, w.settle p _⟩
      | task stack source i =>
        cases source with
        | none => exact ⟨moves_interrupt hrole, w.interrupt hrole⟩
        | some q =>
          obtain ⟨m, w'⟩ := ih q w
          obtain ⟨i', hrole', _⟩ := m.task (by simp) hrole
          dsimp only
          split
          · exact ⟨m, w'⟩
          · exact ⟨m.trans (moves_interrupt hrole'), w'.interrupt hrole'⟩
      | group members left i =>
        obtain ⟨m, w'⟩ := cancelMembers_spec (fun m {_} w => ih m w) members w
        dsimp only
        split
        · split
          · next hg => exact ⟨m.trans (moves_count hg _ _), w'.count hg _ _⟩
          · exact ⟨m, w'⟩
        · exact ⟨m, w'⟩
    · exact ⟨Moves.refl l, w⟩

theorem moves_cancel (w : WF N running l) (p : PromiseId) : Moves A none l (l.cancel p).2 :=
  (cancelFrom_spec _ p w).1

theorem WF.cancel (w : WF N running l) (p : PromiseId) : WF N running (l.cancel p).2 :=
  (cancelFrom_spec (A := fun _ => True) _ p w).2

/-! ## Timers -/

/-- A change of nothing but timers and of jobs that drive no task. -/
theorem moves_of_promises (h : l'.promises = l.promises) : Moves A but l l' := by
  have ho : ∀ p, l'.outcome? p = l.outcome? p := fun p => outcome?_congr (by rw [h])
  have hr : ∀ p, l'.role? p = l.role? p := fun p => role?_congr (by rw [h])
  refine ⟨fun h => by rwa [ho], fun h => by rwa [hr], fun _ h => ⟨_, by rwa [hr], id⟩, fun h => ⟨_, _, by rwa [hr]⟩,
    fun _ hn h' => ?_, Nat.le_of_eq (by rw [h])⟩
  rw [hr, hn] at h'
  cases h'

theorem WF.of_promises (w : WF N running l) (h : l'.promises = l.promises)
    (due : ∀ {timer job}, (timer, job) ∈ l'.ready → l.IsDue N running job)
    (timed : ∀ {t}, t ∈ l'.timers → IsTimed N t.job)
    (once : ∀ p, l'.ready.countP (fun e => e.2.drives p) ≤ 1) : WF N running l' := by
  have m : Moves (fun _ : φ => True) none l l' := moves_of_promises h
  have ho : ∀ p, l'.outcome? p = l.outcome? p := fun p => outcome?_congr (by rw [h])
  have hr : ∀ p, l'.role? p = l.role? p := fun p => role?_congr (by rw [h])
  have hobs : ∀ p, l'.observers p = l.observers p := fun p => observers_congr (by rw [h])
  refine ⟨fun h => (due h).keeps m.keeps, fun h => ?_, timed, once, fun p q => ?_, fun h => ?_, fun h => ?_,
    w.runs_keeps m.keeps fun h => ?_⟩
  · rw [hobs] at h
    exact (w.heeds h).keeps m.keeps
  · rw [hobs]
    exact w.onceHeard p q
  · rw [ho] at h
    rw [hobs]
    exact w.quiet h
  · rw [hr] at h
    rw [ho]
    exact w.unfinished h
  · rw [ho]
    exact (w.runs h).2

theorem mem_insertTimer {t u : Timer ω} {ts : List (Timer ω)} (h : u ∈ insertTimer t ts) : u = t ∨ u ∈ ts := by
  induction ts with
  | nil => exact .inl (List.mem_singleton.1 h)
  | cons v ts ih =>
    unfold insertTimer at h
    split at h
    · rcases List.mem_cons.1 h with rfl | h
      · exact .inr (List.mem_cons_self ..)
      · exact (ih h).imp_right (List.mem_cons_of_mem _)
    · exact (List.mem_cons.1 h)

theorem WF.callLater (w : WF N running l) {job : Job ω} (h : IsTimed N job) (seconds : Float) :
    WF N running (l.callLater seconds job).2 := by
  refine w.of_promises rfl w.due (fun ht => ?_) w.once
  rcases mem_insertTimer ht with rfl | ht
  · exact h
  · exact w.timed ht

theorem WF.cancelTimer (w : WF N running l) (timer : TimerId) : WF N running (l.cancelTimer timer) := by
  refine w.of_promises rfl (fun h => ?_) (fun h => w.timed (List.mem_filter.1 h).1) fun p => ?_
  · obtain ⟨⟨t, job⟩, hj, e⟩ := List.mem_map.1 h
    dsimp only at e
    split at e
    · cases e
      trivial
    · cases e
      exact w.due hj
  · show (List.map _ l.ready).countP _ ≤ 1
    rw [List.countP_map]
    refine Nat.le_trans (List.countP_mono_left fun e _ h => ?_) (w.once p)
    dsimp only [Function.comp] at h
    split at h
    · cases h
    · exact h

/-- The clock may be moved. -/
theorem WF.setNow (w : WF N running l) (now : Float) : WF N running { l with now } :=
  w.of_promises rfl w.due w.timed w.once

end Loop

end LspClient
