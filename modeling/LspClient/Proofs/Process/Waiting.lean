/-
How a task waits until a process has exited, for as long as it may take. An inner task waits for the exit; its end and a
timer ring the same bell, and the bell wakes the task that waits. What is shown of the promises, jobs and timers that
take part is one of few shapes, whatever happens beside it: so the task is not woken before its time unless the process
has exited, and where nothing is left to run, the process runs and its time is not over.
-/
import LspClient.Proofs.Process.Turn

namespace LspClient

open Client

/-! ## Definitions -/

/-- A task waits for the exit of a process, for as long as it may take. -/
structure Watch where
  task : PromiseId
  child : ChildId
  /-- The task that waits for the exit. -/
  inner : PromiseId
  /-- The promise that wakes the task. -/
  bell : PromiseId
  timer : TimerId
  due : Float
  /-- What the task goes on with. -/
  next : Activity

/-- A promise that is settled when a process exits, and for which nobody but the inner task waits. -/
def IsExit (inner r : PromiseId) (x : Promise Activity Event) : Prop :=
  x.role = .plain ∧ ∀ job ∈ x.observers, job = .wake inner r

namespace Watch

/-- The job that rings the bell. -/
def ring (w : Watch) : Job Event :=
  .fulfil w.bell

/-- The job that wakes the task. -/
def call (w : Watch) : Job Event :=
  .wake w.task w.bell

/-- The bell has not rung yet. -/
def IsSilent (w : Watch) (v : View) : Prop :=
  v.promise w.bell = some ⟨none, [w.call], .plain⟩

/-- The bell has rung. -/
def HasRung (w : Watch) (v : View) : Prop :=
  v.promise w.bell = some ⟨some (.ok .null), [], .plain⟩

/-- The inner task is about to begin. -/
def Begins (w : Watch) (v : View) : Prop :=
  v.promise w.inner = some ⟨none, [w.ring], .task [.awaitExit w.child] none false⟩ ∧ v.waiters = []

/-- The inner task waits for a promise, which is settled when the process exits. -/
def Waits (w : Watch) (v : View) (exit : PromiseId) : Prop :=
  v.promise w.inner = some ⟨none, [w.ring], .task [.relay] (some exit) false⟩ ∧
    v.promise exit = some ⟨none, [.wake w.inner exit], .plain⟩ ∧ v.exited = false ∧ v.waiters = [exit]

/-- The process has exited, and the inner task is about to go on. -/
def Woken (w : Watch) (v : View) (exit : PromiseId) : Prop :=
  v.promise w.inner = some ⟨none, [w.ring], .task [.relay] (some exit) false⟩ ∧
    v.promise exit = some ⟨some (.ok .null), [], .plain⟩ ∧ v.exited = true ∧ w.bell ≠ exit

/-- The process has exited, and the inner task has ended. -/
def Ended (w : Watch) (v : View) : Prop :=
  v.promise w.inner = some ⟨some (.ok .null), [], .task [] none false⟩ ∧ v.exited = true

/-- What stays as long as the task waits. -/
structure Fits (w : Watch) (v : View) : Prop where
  closing : ∃ observers, v.promise w.task =
    some ⟨none, observers, .task [.withinAwaited w.inner w.bell w.timer, w.next] (some w.bell) false⟩
  alarms : ∀ t ∈ v.timers, t.job = w.ring ∧ t.due = w.due
  apart : w.task ≠ w.inner ∧ w.task ≠ w.bell ∧ w.inner ≠ w.bell
  others : ∀ r x, v.promise r = some x → r ∈ [w.task, w.inner, w.bell] ∨ IsExit w.inner r x
  unheard : w.task ∉ v.waiters

/-- What is ready but for what rings the bell. -/
def core (w : Watch) (v : View) : List (Option TimerId × Job Event) :=
  v.ready.filter fun y => !Loop.Job.fulfils w.bell y.2

/-- How far the inner task is once the bell has rung, with the jobs that are ready. It has not ended only if the process
had not exited in time. -/
inductive Inside (w : Watch) (late : Prop) (v : View) : List (Option TimerId × Job Event) → Prop
  | waits (exit : PromiseId) (h : w.Waits v exit) (due : late) : Inside w late v [(none, w.call)]
  | behind (exit : PromiseId) (h : w.Woken v exit) (due : late) :
    Inside w late v [(none, w.call), (none, .wake w.inner exit)]
  | ahead (exit : PromiseId) (h : w.Woken v exit) (due : late) :
    Inside w late v [(none, .wake w.inner exit), (none, w.call)]
  | ended (h : w.Ended v) : Inside w late v [(none, w.call)]

/-- What is shown of a task that waits. -/
inductive Shape (w : Watch) (late : Prop) (v : View) : Prop
  | begins (rings : List (Option TimerId × Job Event)) (fits : w.Fits v) (inner : w.Begins v) (bell : w.IsSilent v)
    (ready : v.ready = (none, .step w.inner) :: rings) (all : ∀ y ∈ rings, y.2 = w.ring)
    (come : rings ≠ [] → Loop.isDue v.now w.due = true) (pending : rings = [] → v.timers ≠ [])
  | waits (exit : PromiseId) (fits : w.Fits v) (inner : w.Waits v exit) (bell : w.IsSilent v)
    (all : ∀ y ∈ v.ready, y.2 = w.ring) (come : v.ready ≠ [] → Loop.isDue v.now w.due = true)
    (pending : v.ready = [] → v.timers ≠ [])
  | woken (exit : PromiseId) (before rings : List (Option TimerId × Job Event)) (fits : w.Fits v)
    (inner : w.Woken v exit) (bell : w.IsSilent v) (ready : v.ready = before ++ (none, .wake w.inner exit) :: rings)
    (all : ∀ y ∈ before ++ rings, y.2 = w.ring) (past : before ≠ [] → late)
  | ended (fits : w.Fits v) (inner : w.Ended v) (bell : w.IsSilent v) (all : ∀ y ∈ v.ready, y.2 = w.ring)
    (pending : v.ready ≠ [])
  | rung (fits : w.Fits v) (bell : w.HasRung v) (inner : w.Inside late v (w.core v))

variable {w : Watch} {late late' : Prop} {v v' : View} {heard : List PromiseId}

/-! ## What is ready -/

@[simp] theorem fulfils_ring (w : Watch) : Loop.Job.fulfils w.bell w.ring = true :=
  beq_self_eq_true w.bell

theorem core_append (w : Watch) (v v' : View) {jobs : List (Option TimerId × Job Event)}
    (ready : v'.ready = v.ready ++ jobs) :
    w.core v' = w.core v ++ jobs.filter fun y => !Loop.Job.fulfils w.bell y.2 := by
  unfold core
  rw [ready, List.filter_append]

theorem filter_rings {jobs : List (Option TimerId × Job Event)} (all : ∀ y ∈ jobs, y.2 = w.ring) :
    (jobs.filter fun y => !Loop.Job.fulfils w.bell y.2) = [] :=
  List.filter_eq_nil_iff.2 fun y hy => by simp [all y hy]

/-- What is ready first is the first of what does not ring the bell, or rings it. -/
theorem core_cons {k : Option TimerId} {job : Job Event} (ready : v'.ready = (k, job) :: v.ready) :
    w.core v' = if Loop.Job.fulfils w.bell job then w.core v else (k, job) :: w.core v := by
  unfold core
  rw [ready, List.filter_cons]
  cases Loop.Job.fulfils w.bell job <;> rfl

theorem eq_ring {job : Job Event} (h : Loop.Job.fulfils w.bell job = true) : job = w.ring := by
  cases job with
  | fulfil p => exact congrArg Job.fulfil (beq_iff_eq.1 h)
  | _ => cases h

/-! ## What stays as long as the task waits -/

theorem Fits.congr (h : w.Fits v) (promise : v'.promise = v.promise) (timers : ∀ t ∈ v'.timers, t ∈ v.timers)
    (waiters : v'.waiters = v.waiters) : w.Fits v' :=
  ⟨by rw [promise]; exact h.closing, fun t ht => h.alarms t (timers t ht), h.apart, by rw [promise]; exact h.others,
    by rw [waiters]; exact h.unheard⟩

/-- Other promises than that of the task are changed. -/
theorem Fits.change (h : w.Fits v) (task : v'.promise w.task = v.promise w.task) (timers : v'.timers = v.timers)
    (others : ∀ r, v'.promise r = v.promise r ∨ r ∈ [w.task, w.inner, w.bell] ∨ ∃ x, v'.promise r = some x ∧
      IsExit w.inner r x)
    (unheard : w.task ∉ v'.waiters) : w.Fits v' := by
  refine ⟨by rw [task]; exact h.closing, by rw [timers]; exact h.alarms, h.apart, fun r x hx => ?_, unheard⟩
  rcases others r with same | mine | ⟨y, hy, exit⟩
  · exact h.others r x (same ▸ hx)
  · exact .inl mine
  · cases hy.symm.trans hx
    exact .inr exit

/-- The inner task, or the bell, is changed. -/
theorem Fits.set (h : w.Fits v) {r : PromiseId} (mine : r ∈ [w.inner, w.bell])
    (promise : ∀ q, q ≠ r → v'.promise q = v.promise q) (timers : v'.timers = v.timers)
    (waiters : v'.waiters = v.waiters) :
    w.Fits v' := by
  have ne : w.task ≠ r := by
    rcases List.mem_pair.1 mine with rfl | rfl
    · exact h.apart.1
    · exact h.apart.2.1
  refine h.change (promise _ ne) timers (fun q => ?_) (by rw [waiters]; exact h.unheard)
  by_cases e : q = r
  · exact .inr (.inl (e ▸ List.mem_cons_of_mem _ mine))
  · exact .inl (promise q e)

theorem Shape.fits (h : w.Shape late v) : w.Fits v := by
  cases h with
  | begins _ fits | waits _ fits | woken _ _ _ fits | ended fits | rung fits => exact fits

/-! ## Time -/

theorem Inside.mono {jobs : List (Option TimerId × Job Event)} (h : w.Inside late v jobs) (imp : late → late') :
    w.Inside late' v jobs := by
  cases h with
  | waits exit h due => exact .waits exit h (imp due)
  | behind exit h due => exact .behind exit h (imp due)
  | ahead exit h due => exact .ahead exit h (imp due)
  | ended h => exact .ended h

theorem Shape.mono (h : w.Shape late v) (imp : late → late') : w.Shape late' v := by
  cases h with
  | begins rings fits inner bell ready all come pending => exact .begins rings fits inner bell ready all come pending
  | waits exit fits inner bell all come pending => exact .waits exit fits inner bell all come pending
  | woken exit before rings fits inner bell ready all past =>
    exact .woken exit before rings fits inner bell ready all fun h => imp (past h)
  | ended fits inner bell all pending => exact .ended fits inner bell all pending
  | rung fits bell inner => exact .rung fits bell (inner.mono imp)

/-- What the inner task does is told by promises, by the process and by who waits for it. -/
theorem Inside.congr {jobs : List (Option TimerId × Job Event)} (h : w.Inside late v jobs)
    (promise : v'.promise = v.promise) (exited : v'.exited = v.exited) (waiters : v'.waiters = v.waiters) :
    w.Inside late v' jobs := by
  cases h with
  | waits exit h due => exact .waits exit (by unfold Waits; rwa [promise, exited, waiters]) due
  | behind exit h due => exact .behind exit (by unfold Woken; rwa [promise, exited]) due
  | ahead exit h due => exact .ahead exit (by unfold Woken; rwa [promise, exited]) due
  | ended h => exact .ended (by unfold Ended; rwa [promise, exited])

/-- The clock moves. -/
theorem Shape.setNow (h : w.Shape late v) {now : Float} (later : Loop.isDue now v.now = true) :
    w.Shape late { v with now } := by
  have due : Loop.isDue v.now w.due = true → Loop.isDue now w.due = true := fun h => Loop.isDue_trans h later
  have stays : w.Fits v → w.Fits { v with now } := fun fits => fits.congr rfl (fun _ ht => ht) rfl
  cases h with
  | begins rings fits inner bell ready all come pending =>
    exact .begins rings (stays fits) inner bell ready all (fun h => due (come h)) pending
  | waits exit fits inner bell all come pending =>
    exact .waits exit (stays fits) inner bell all (fun h => due (come h)) pending
  | woken exit before rings fits inner bell ready all past =>
    exact .woken exit before rings (stays fits) inner bell ready all past
  | ended fits inner bell all pending => exact .ended (stays fits) inner bell all pending
  | rung fits bell inner => exact .rung (stays fits) bell (inner.congr rfl rfl rfl)

/-- A round begins: if the timer rings, its time has come. -/
theorem Shape.rings (h : w.Shape late v) (rings : v.Rings v') : w.Shape late v' := by
  obtain ⟨come, left, timers, due⟩ := rings
  have alarms : w.Fits v → ∀ y ∈ come.map fun t => (some t.id, t.job), y.2 = w.ring := fun fits y hy => by
    obtain ⟨t, ht, rfl⟩ := List.mem_map.1 hy
    exact (fits.alarms t (timers ▸ List.mem_append_left _ ht)).1
  have rung : ∀ {jobs : List (Option TimerId × Job Event)}, w.Fits v → (jobs ≠ [] → Loop.isDue v.now w.due = true) →
      (jobs ++ come.map fun t => (some t.id, t.job)) ≠ [] →
      Loop.isDue v.now w.due = true := fun {jobs} fits before some => by
    cases jobs with
    | cons y ys => exact before (List.cons_ne_nil y ys)
    | nil =>
      cases come with
      | nil => exact absurd rfl some
      | cons t ts =>
        have first : t ∈ t :: ts := List.mem_cons_self ..
        rw [← (fits.alarms t (timers ▸ List.mem_append_left left first)).2]
        exact due t first
  have waits : ∀ {jobs : List (Option TimerId × Job Event)}, (jobs = [] → v.timers ≠ []) →
      (jobs ++ come.map fun t => (some t.id, t.job)) = [] → left ≠ [] := fun {jobs} pending none => by
    obtain ⟨nothing, none⟩ := List.append_eq_nil_iff.1 none
    have first := pending nothing
    rwa [timers, List.map_eq_nil_iff.1 none] at first
  have stays : w.Fits v →
      w.Fits { v with ready := v.ready ++ come.map fun t => (some t.id, t.job), timers := left } := fun fits =>
    fits.congr rfl (fun t ht => timers ▸ List.mem_append_right _ ht) rfl
  cases h with
  | begins rings fits inner bell ready all come' pending =>
    exact .begins (rings ++ come.map fun t => (some t.id, t.job)) (stays fits) inner bell (by rw [ready]; rfl)
      (List.forall_mem_append.2 ⟨all, alarms fits⟩) (rung fits come') (waits pending)
  | waits exit fits inner bell all come' pending =>
    exact .waits exit (stays fits) inner bell (List.forall_mem_append.2 ⟨all, alarms fits⟩) (rung fits come')
      (waits pending)
  | woken exit before rings fits inner bell ready all past =>
    refine .woken exit before (rings ++ come.map fun t => (some t.id, t.job)) (stays fits) inner bell ?_ ?_ past
    · show v.ready ++ _ = _
      rw [ready, List.append_assoc, List.cons_append]
    · rw [← List.append_assoc]
      exact List.forall_mem_append.2 ⟨all, alarms fits⟩
  | ended fits inner bell all pending =>
    exact .ended (stays fits) inner bell (List.forall_mem_append.2 ⟨all, alarms fits⟩) fun none =>
      pending (List.append_eq_nil_iff.1 none).1
  | rung fits bell inner =>
    refine .rung (stays fits) bell ?_
    have same := core_append w v { v with ready := v.ready ++ come.map fun t => (some t.id, t.job), timers := left } rfl
    rw [filter_rings (alarms fits), List.append_nil] at same
    rw [same]
    exact inner.congr rfl rfl rfl

/-! ## The exit of the process -/

theorem ne_of_promise {r q : PromiseId} {x y : Promise Activity Event} (hr : v.promise r = some x)
    (hq : v.promise q = some y) (ne : x ≠ y) : r ≠ q := by
  rintro rfl
  exact ne (Option.some.inj (hr.symm.trans hq))

/-- The process exits while the inner task waits: it is about to go on. -/
theorem Waits.exits {exit : PromiseId} (h : w.Waits v exit) (hears : w.inner ∈ heard) (other : w.bell ≠ exit) :
    w.Woken (v.exits heard) exit ∧ (v.exits heard).ready = v.ready ++ [(none, .wake w.inner exit)] ∧
      (∀ r, r ≠ exit → (v.exits heard).promise r = v.promise r) ∧ (w.Fits v → w.Fits (v.exits heard)) := by
  obtain ⟨inner, opened, _, waiters⟩ := h
  have ne : w.inner ≠ exit := ne_of_promise inner opened nofun
  have concerns : Job.concerns heard (.wake w.inner exit : Job Event) = true := Job.concerns_iff.2 ⟨_, rfl, hears⟩
  have same : v.exits heard = { (v.set exit ⟨some (.ok .null), [], .plain⟩).adds [.wake w.inner exit] with
      exited := true, waiters := [] } := by
    unfold View.exits
    rw [waiters, List.foldl_cons, List.foldl_nil, View.settle_open opened, List.filter_cons_of_pos concerns,
      List.filter_nil]
  rw [same]
  refine ⟨⟨(if_neg ne).trans inner, if_pos rfl, rfl, other⟩, rfl, fun r hr => if_neg hr, fun fits => ?_⟩
  obtain ⟨observers, closing⟩ := fits.closing
  refine fits.change (if_neg (ne_of_promise closing opened nofun)) rfl (fun r => ?_) (List.not_mem_nil)
  by_cases e : r = exit
  · subst e
    exact .inr (.inr ⟨_, if_pos rfl, rfl, nofun⟩)
  · exact .inl (if_neg e)

/-- The process exits. If the task is woken before the inner task can end, the exit came too late. -/
theorem Shape.exits (h : w.Shape late v) (running : v.exited = false) (hears : w.inner ∈ heard)
    (due : Loop.isDue v.now w.due = true → late') (imp : late → late') : w.Shape late' (v.exits heard) := by
  have finished : v.exited ≠ true := by rw [running]; nofun
  cases h with
  | begins rings fits inner bell ready all come pending =>
    rw [View.exits_of_settled (by rw [inner.2]; nofun)]
    exact .begins rings (fits.change rfl rfl (fun _ => .inl rfl) List.not_mem_nil) ⟨inner.1,
      rfl⟩ bell ready all come pending
  | waits exit fits inner bell all come pending =>
    have silent : w.bell ≠ exit := ne_of_promise bell inner.2.1 fun e => fits.apart.1 (by
      simp only [call, Promise.mk.injEq, List.cons.injEq, Job.wake.injEq] at e
      exact e.2.1.1.1)
    obtain ⟨woken, ready, others, stays⟩ := inner.exits hears silent
    refine .woken exit v.ready [] (stays fits) woken ?_ ready ?_ fun some => due (come some)
    · exact (others _ silent).trans bell
    · rw [List.append_nil]
      exact all
  | woken exit before rings fits inner bell ready all past => exact absurd inner.2.2.1 finished
  | ended fits inner bell all pending => exact absurd inner.2 finished
  | rung fits bell inner =>
    generalize hc : w.core v = jobs at inner
    cases inner with
    | waits exit inner past =>
      have rang : w.bell ≠ exit := ne_of_promise bell inner.2.1 nofun
      obtain ⟨woken, ready, others, stays⟩ := inner.exits hears rang
      refine .rung (stays fits) ((others _ rang).trans bell) ?_
      rw [core_append w v _ ready, hc]
      exact .behind exit woken (imp past)
    | behind exit inner past => exact absurd inner.2.2.1 finished
    | ahead exit inner past => exact absurd inner.2.2.1 finished
    | ended inner => exact absurd inner.2 finished

/-! ## Turns -/

/-- The inner task ends, since the process has exited. -/
def ends (w : Watch) (v : View) : View :=
  (v.set w.inner ⟨some (.ok .null), [], .task [] none false⟩).adds [w.ring]

/-- The inner task begins to wait for the exit. -/
def asks (w : Watch) (exit : PromiseId) (v : View) : View :=
  { (v.set w.inner ⟨none, [w.ring], .task [.relay] (some exit) false⟩).set exit
      ⟨none, [.wake w.inner exit], .plain⟩ with
    waiters := v.waiters ++ [exit] }

/-- How the inner task is found by the task that is called. It has not ended only if the process had not exited in
time. -/
inductive Found (w : Watch) (late : Prop) (v : View) : Prop
  | waits (exit : PromiseId) (inner : w.Waits v exit) (due : late) (core : w.core v = [])
  | woken (exit : PromiseId) (inner : w.Woken v exit) (due : late) (core : w.core v = [(none, .wake w.inner exit)])
  | ended (inner : w.Ended v) (core : w.core v = [])

/-- What is left when a job of the share is taken, by what the job does. -/
inductive Taken (w : Watch) (heard : List PromiseId) (late : Prop) (v : View) : Job Event → Prop
  | ring (h : w.Shape late (v.settle heard w.bell)) : Taken w heard late v w.ring
  | begins (inner : w.Begins v) (ends : v.exited = true → w.Shape late (w.ends v))
    (asks : v.exited = false → ∀ exit, v.promise exit = none → w.Shape late (w.asks exit v)) :
    Taken w heard late v (.step w.inner)
  | wakes (exit : PromiseId) (inner : w.Woken v exit) (ends : w.Shape late (w.ends v)) :
    Taken w heard late v (.wake w.inner exit)
  | calls (fits : w.Fits v) (bell : w.HasRung v) (found : w.Found late v) : Taken w heard late v w.call

theorem Fits.ends (h : w.Fits v) : w.Fits (w.ends v) :=
  h.set (List.mem_cons_self ..) (fun _ ne => if_neg ne) rfl rfl

theorem Ended.ends (exited : v.exited = true) : w.Ended (w.ends v) :=
  ⟨if_pos rfl, exited⟩

/-- The bell rings for the first time. -/
theorem settle_silent (bell : w.IsSilent v) (hears : w.task ∈ heard) :
    v.settle heard w.bell = (v.set w.bell ⟨some (.ok .null), [], .plain⟩).adds [w.call] := by
  have concerns : Job.concerns heard (w.call : Job Event) = true := Job.concerns_iff.2 ⟨w.task, rfl, hears⟩
  rw [View.settle_open bell, List.filter_cons_of_pos concerns, List.filter_nil]

theorem Shape.ring {k : Option TimerId} (h : w.Shape late { v with ready := (k, w.ring) :: v.ready })
    (hears : w.task ∈ heard) (due : v.exited = false → Loop.isDue v.now w.due = true → late') (imp : late → late') :
    w.Shape late' (v.settle heard w.bell) := by
  -- When the bell rings, the inner task stays as it is, and the task is called.
  have rings : ∀ {r}, r ≠ w.bell → ((v.set w.bell ⟨some (.ok .null), [], .plain⟩).adds [w.call]).promise r =
      v.promise r :=
    fun ne => if_neg ne
  have core : w.core ((v.set w.bell ⟨some (.ok .null), [], .plain⟩).adds [w.call]) = w.core v ++ [(none, w.call)] :=
    (core_append w v ((v.set w.bell ⟨some (.ok .null), [], .plain⟩).adds [w.call]) rfl).trans rfl
  have fits : w.Fits { v with ready := (k, w.ring) :: v.ready } →
      w.Fits ((v.set w.bell ⟨some (.ok .null), [], .plain⟩).adds [w.call]) := fun fits =>
    (fits.congr rfl (fun _ ht => ht) rfl : w.Fits v).set (List.mem_cons_of_mem _ (List.mem_cons_self ..))
      (fun _ => rings) rfl rfl
  have rung : w.HasRung ((v.set w.bell ⟨some (.ok .null), [], .plain⟩).adds [w.call]) := if_pos rfl
  cases h with
  | begins rs fits' inner bell ready all come pending => cases ready
  | waits exit fits' inner bell all come pending =>
    rw [settle_silent (v := v) bell hears]
    have opened : exit ≠ w.bell := (ne_of_promise bell inner.2.1 fun e => fits'.apart.1 (by
      simp only [call, Promise.mk.injEq, List.cons.injEq, Job.wake.injEq] at e
      exact e.2.1.1.1)).symm
    refine .rung (fits fits') rung ?_
    have left : w.core v = [] := filter_rings fun y hy => all y (List.mem_cons_of_mem _ hy)
    rw [core, left]
    exact .waits exit ⟨(rings fits'.apart.2.2).trans inner.1, (rings opened).trans inner.2.1, inner.2.2⟩
      (due inner.2.2.1 (come (List.cons_ne_nil _ _)))
  | woken exit before rs fits' inner bell ready all past =>
    rw [settle_silent (v := v) bell hears]
    have settled : exit ≠ w.bell := ne_of_promise inner.2.1 bell nofun
    refine .rung (fits fits') rung ?_
    cases before with
    | nil => cases ready
    | cons y before =>
      obtain ⟨-, ready⟩ := List.cons.inj ready
      have all : ∀ y ∈ before ++ rs, y.2 = w.ring := fun y hy => all y (List.mem_cons_of_mem _ hy)
      have left : w.core v = [(none, .wake w.inner exit)] := by
        unfold Watch.core
        rw [show v.ready = before ++ _ :: rs from ready, List.filter_append,
          filter_rings fun y hy => all y (List.mem_append_left _ hy), List.filter_cons_of_pos rfl,
          filter_rings fun y hy => all y (List.mem_append_right _ hy), List.nil_append]
      rw [core, left]
      exact .ahead exit ⟨(rings fits'.apart.2.2).trans inner.1, (rings settled).trans inner.2.1, inner.2.2⟩
        (imp (past (List.cons_ne_nil _ _)))
  | ended fits' inner bell all pending =>
    rw [settle_silent (v := v) bell hears]
    refine .rung (fits fits') rung ?_
    have left : w.core v = [] := filter_rings fun y hy => all y (List.mem_cons_of_mem _ hy)
    rw [core, left]
    exact .ended ⟨(rings fits'.apart.2.2).trans inner.1, inner.2⟩
  | rung fits' bell inner =>
    rw [View.settle_settled (v := v) bell]
    rw [core_cons (v := v) rfl, fulfils_ring, if_pos rfl] at inner
    exact .rung (fits'.congr rfl (fun _ ht => ht) rfl) bell ((inner.mono imp).congr rfl rfl rfl)

/-- A job of the share is taken. -/
theorem Shape.take {k : Option TimerId} {job : Job Event} (h : w.Shape late { v with ready := (k, job) :: v.ready })
    (hears : w.task ∈ heard) (due : v.exited = false → Loop.isDue v.now w.due = true → late') (imp : late → late') :
    w.Taken heard late' v job := by
  by_cases rings : Loop.Job.fulfils w.bell job = true
  · obtain rfl := eq_ring rings
    exact .ring (h.ring hears due imp)
  · have others : ∀ {r}, r ≠ w.inner → (w.ends v).promise r = v.promise r := fun ne => if_neg ne
    have core_ends : w.core (w.ends v) = w.core v := by
      rw [core_append w v (w.ends v) rfl, filter_rings (List.forall_mem_map.2 fun y hy => List.mem_singleton.1 hy),
        List.append_nil]
    cases h with
    | begins rs fits inner bell ready all come pending =>
      obtain ⟨first, rest⟩ := List.cons.inj ready
      cases first
      have rest : v.ready = rs := rest
      subst rest
      have fits : w.Fits v := fits.congr rfl (fun _ ht => ht) rfl
      refine .begins inner (fun exited => ?_) fun running exit new => ?_
      · refine .ended fits.ends (.ends exited) ((others fits.apart.2.2.symm).trans bell) ?_ (by simp [ends, View.adds])
        exact List.forall_mem_append.2 ⟨all, List.forall_mem_map.2 fun y hy => List.mem_singleton.1 hy⟩
      · obtain ⟨observers, closing⟩ := fits.closing
        have ne : ∀ {r x}, v.promise r = some x → r ≠ exit := fun h e => by
          rw [e, new] at h
          cases h
        have same : ∀ {r}, r ≠ w.inner → r ≠ exit → (w.asks exit v).promise r = v.promise r := fun h h' =>
          (if_neg h').trans (if_neg h)
        have asked : w.Fits (w.asks exit v) := by
          refine fits.change (same fits.apart.1 (ne closing)) rfl (fun r => ?_) ?_
          · by_cases new : r = exit
            · exact .inr (.inr ⟨_, if_pos new, rfl, fun job hj => by rw [List.mem_singleton.1 hj, new]⟩)
            · by_cases self : r = w.inner
              · exact .inr (.inl (by simp [self]))
              · exact .inl (same self new)
          · show w.task ∉ v.waiters ++ [exit]
            rw [show v.waiters = [] from inner.2, List.nil_append, List.mem_singleton]
            exact ne closing
        refine .waits exit asked ⟨?_, if_pos rfl, running, ?_⟩
          ((same fits.apart.2.2.symm (ne bell)).trans bell) all come pending
        · exact (if_neg (ne inner.1)).trans (if_pos rfl)
        · show v.waiters ++ [exit] = [exit]
          rw [show v.waiters = [] from inner.2, List.nil_append]
    | waits exit fits inner bell all come pending =>
      exact absurd (by rw [show job = w.ring from all (k, job) (List.mem_cons_self ..)]; exact fulfils_ring w) rings
    | woken exit before rs fits inner bell ready all past =>
      cases before with
      | nil =>
        obtain ⟨first, rest⟩ := List.cons.inj ready
        cases first
        have rest : v.ready = rs := rest
        subst rest
        have fits : w.Fits v := fits.congr rfl (fun _ ht => ht) rfl
        refine .wakes exit inner (.ended fits.ends (.ends inner.2.2.1)
          ((others fits.apart.2.2.symm).trans bell) ?_ (by simp [ends, View.adds]))
        exact List.forall_mem_append.2 ⟨all, List.forall_mem_map.2 fun y hy => List.mem_singleton.1 hy⟩
      | cons y before =>
        obtain ⟨rfl, -⟩ := List.cons.inj ready
        exact absurd (by rw [show job = w.ring from all (k, job) (List.mem_cons_self ..)]; exact fulfils_ring w) rings
    | ended fits inner bell all pending =>
      exact absurd (by rw [show job = w.ring from all (k, job) (List.mem_cons_self ..)]; exact fulfils_ring w) rings
    | rung fits bell inner =>
      rw [core_cons (v := v) rfl, if_neg rings] at inner
      generalize hc : w.core v = left at inner
      have stays : w.Fits v := fits.congr rfl (fun _ ht => ht) rfl
      cases inner with
      | waits exit inner past => exact .calls stays bell (.waits exit inner (imp past) hc)
      | behind exit inner past => exact .calls stays bell (.woken exit inner (imp past) hc)
      | ahead exit inner past =>
        refine .wakes exit inner (.rung stays.ends ((others fits.apart.2.2.symm).trans bell) ?_)
        rw [core_ends, hc]
        exact .ended (.ends inner.2.2.1)
      | ended inner => exact .calls stays bell (.ended inner hc)

/-- Where nothing is ready, the process runs, and its time is not over. -/
theorem Shape.rests (h : w.Shape late v) (nothing : v.ready = []) :
    v.exited = false ∧ ∃ t ∈ v.timers, t.due = w.due := by
  have rings : w.Fits v → v.timers ≠ [] → ∃ t ∈ v.timers, t.due = w.due := fun fits some => by
    obtain ⟨t, ht⟩ := List.exists_mem_of_ne_nil _ some
    exact ⟨t, ht, (fits.alarms t ht).2⟩
  cases h with
  | begins rs fits inner bell ready all come pending => rw [nothing] at ready; cases ready
  | waits exit fits inner bell all come pending => exact ⟨inner.2.2.1, rings fits (pending nothing)⟩
  | woken exit before rs fits inner bell ready all past =>
    rw [nothing] at ready
    cases before <;> cases ready
  | ended fits inner bell all pending => exact absurd nothing pending
  | rung fits bell inner =>
    have none : w.core v = [] := by
      unfold core
      rw [nothing]
      rfl
    rw [none] at inner
    cases inner

end Watch

end LspClient
