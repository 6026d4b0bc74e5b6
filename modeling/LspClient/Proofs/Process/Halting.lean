/-
How a task waits for another task that it has cancelled, and which waited for the exit of a process. Whatever happens
beside it, the inner task fails with the cancellation as soon as it runs on, and then the task is called, whether the
process has exited meanwhile or not.
-/
import LspClient.Proofs.Process.Watching

namespace LspClient

open Client

/-! ## Definitions -/

/-- A task waits for the end of a task that it has cancelled. -/
structure Halt where
  task : PromiseId
  child : ChildId
  /-- The task that is cancelled, which waited for the process to exit. -/
  inner : PromiseId
  /-- The promise that wakes the task. -/
  waiter : PromiseId
  /-- The timer that has called for the end of the inner task, if one did. -/
  timer : Option TimerId
  /-- What the task goes on with. -/
  next : Activity

namespace Halt

/-- The job that settles the promise for which the task waits. -/
def ring (h : Halt) : Job Event :=
  .fulfil h.waiter

/-- The job that wakes the task. -/
def call (h : Halt) : Job Event :=
  .wake h.task h.waiter

/-- The inner task has not ended yet. -/
def IsSilent (h : Halt) (v : View) : Prop :=
  v.promise h.waiter = some ⟨none, [h.call], .plain⟩

/-- The inner task was cancelled. -/
def IsBroken (h : Halt) (v : View) : Prop :=
  v.promise h.inner = some ⟨some (.error .cancelled), [], .task [] none false⟩

/-- With this job, the inner task runs on and is cancelled. -/
inductive Dooms (h : Halt) (v : View) (interrupted : Bool) : Job Event → Prop
  | begins (i : interrupted = true) : Dooms h v interrupted (.step h.inner)
  | wakes (exit : PromiseId) (o : Outcome) (settled : v.promise exit = some ⟨some o, [], .plain⟩)
    (cancels : interrupted = true ∨ o = .error .cancelled) : Dooms h v interrupted (.wake h.inner exit)

/-- What stays as long as the task waits. -/
structure Fits (h : Halt) (v : View) : Prop where
  closing : ∃ observers, v.promise h.task =
    some ⟨none, observers, .task [.halted h.inner h.waiter, .overdue h.inner h.timer, h.next] (some h.waiter) false⟩
  apart : h.task ≠ h.inner ∧ h.task ≠ h.waiter ∧ h.inner ≠ h.waiter
  others : ∀ r x, v.promise r = some x → r ∈ [h.task, h.inner, h.waiter] ∨ IsExit h.inner r x
  unheard : h.task ∉ v.waiters
  settled : v.exited = false → ∀ r ∈ v.waiters, v.IsSettled r
  timers : v.timers = []

/-- What is shown of a task that waits. -/
inductive Shape (h : Halt) (v : View) : Prop
  | doomed (a : Activity) (source : Option PromiseId) (i : Bool) (job : Job Event) (fits : h.Fits v)
    (inner : v.promise h.inner = some ⟨none, [h.ring], .task [a] source i⟩)
    (simple : a = .relay ∨ a = .awaitExit h.child) (silent : h.IsSilent v) (ready : v.ready = [(none, job)])
    (dooms : h.Dooms v i job)
  | broken (fits : h.Fits v) (inner : h.IsBroken v) (silent : h.IsSilent v) (ready : v.ready = [(none, h.ring)])
  | finished (fits : h.Fits v) (inner : h.IsBroken v) (rung : v.promise h.waiter = some ⟨some (.ok .null), [], .plain⟩)
    (ready : v.ready = [(none, h.call)])

/-- What a task that waits has to itself. -/
def share (h : Halt) (n : Nat) (own : List PromiseId) : Share where
  task := h.task
  child := h.child
  own := own
  heard := own
  timers := []
  transports := n

/-- A task waits in a client for the end of a task that it has cancelled. -/
structure Holds (h : Halt) (n : Nat) (own : List PromiseId) (c : Client) : Prop where
  apart : c.Apart (h.share n own)
  shape : h.Shape (c.view (h.share n own))

/-- The inner task has ended, and the task is called. -/
structure Called (h : Halt) (n : Nat) (own : List PromiseId) (c : Client) : Prop where
  apart : c.Apart (h.share n own)
  fits : h.Fits (c.view (h.share n own))
  inner : h.IsBroken (c.view (h.share n own))
  rung : (c.view (h.share n own)).promise h.waiter = some ⟨some (.ok .null), [], .plain⟩
  ready : (c.view (h.share n own)).ready = []

variable {E : Executor} {h : Halt} {v v' : View} {heard own : List PromiseId} {n : Nat} {c c' : Client}
  {job : Job Event}

/-! ## What stays as long as the task waits -/

theorem Fits.congr (f : h.Fits v) (promise : v'.promise = v.promise) (waiters : v'.waiters = v.waiters)
    (exited : v'.exited = v.exited) (timers : v'.timers = v.timers) : h.Fits v' := by
  obtain ⟨closing, apart, others, unheard, settled, none⟩ := f
  refine ⟨by rw [promise]; exact closing, apart, by rw [promise]; exact others, by rw [waiters]; exact unheard, ?_,
    timers.trans none⟩
  rw [exited, waiters]
  unfold View.IsSettled
  rw [promise]
  exact settled

/-- The inner task, or the promise for which the task waits, is settled. -/
theorem Fits.set (f : h.Fits v) {r : PromiseId} (mine : r ∈ [h.inner, h.waiter]) (o : Outcome) (role : Role Activity)
    (jobs : List (Job Event)) : h.Fits ((v.set r ⟨some o, [], role⟩).adds jobs) := by
  have ne : h.task ≠ r := by
    rcases List.mem_pair.1 mine with rfl | rfl
    · exact f.apart.1
    · exact f.apart.2.1
  obtain ⟨observers, closing⟩ := f.closing
  refine ⟨⟨observers, (if_neg ne).trans closing⟩, f.apart, fun q x hx => ?_, f.unheard,
    fun running q hq => ?_, f.timers⟩
  · by_cases e : q = r
    · exact .inl (e ▸ List.mem_cons_of_mem _ mine)
    · exact f.others q x ((if_neg e).symm.trans hx)
  · by_cases e : q = r
    · exact ⟨o, [], role, if_pos e⟩
    · obtain ⟨o', observers', role', hx⟩ := f.settled running q hq
      exact ⟨o', observers', role', (if_neg e).trans hx⟩

theorem Shape.fits (s : h.Shape v) : h.Fits v := by
  cases s with
  | doomed _ _ _ _ fits | broken fits | finished fits => exact fits

theorem Dooms.congr {i : Bool} (d : h.Dooms v i job) (promise : v'.promise = v.promise) : h.Dooms v' i job := by
  cases d with
  | begins i => exact .begins i
  | wakes exit o settled cancels => exact .wakes exit o (by rw [promise]; exact settled) cancels

/-- What is done is told by promises and by what is ready. -/
theorem Shape.congr (s : h.Shape v) (fits : h.Fits v') (promise : v'.promise = v.promise) (ready : v'.ready = v.ready) :
    h.Shape v' := by
  cases s with
  | doomed a source i job _ inner simple silent ready' dooms =>
    refine .doomed a source i job fits (by rw [promise]; exact inner) simple ?_ (ready.trans ready')
      (dooms.congr promise)
    unfold IsSilent
    rw [promise]
    exact silent
  | broken _ inner silent ready' =>
    refine .broken fits ?_ ?_ (ready.trans ready')
    · unfold IsBroken
      rw [promise]
      exact inner
    · unfold IsSilent
      rw [promise]
      exact silent
  | finished _ inner rung ready' =>
    refine .finished fits ?_ (by rw [promise]; exact rung) (ready.trans ready')
    unfold IsBroken
    rw [promise]
    exact inner

/-! ## What happens elsewhere -/

/-- The process exits: of the share, nobody waits for that any more. -/
theorem Shape.exits (s : h.Shape v) (running : v.exited = false) : h.Shape (v.exits heard) := by
  rw [View.exits_of_settled (s.fits.settled running)]
  obtain ⟨closing, apart, others, unheard, settled, none⟩ := s.fits
  exact s.congr ⟨closing, apart, others, List.not_mem_nil, nofun, none⟩ rfl rfl

theorem Shape.rings (s : h.Shape v) (rings : v.Rings v') : h.Shape v' := by
  obtain ⟨come, left, timers, -⟩ := rings
  obtain ⟨rfl, rfl⟩ := List.append_eq_nil_iff.1 (timers.symm.trans s.fits.timers)
  exact s.congr (s.fits.congr rfl rfl rfl timers.symm) rfl (List.append_nil _)

theorem Shape.ne_nil (s : h.Shape v) : v.ready ≠ [] := by
  cases s with
  | doomed _ _ _ _ _ _ _ _ ready | broken _ _ _ ready | finished _ _ _ ready => rw [ready]; nofun

theorem Holds.elsewhere (s : h.Holds n own c) (b : c.Beside (h.share n own) c') : h.Holds n own c' := by
  refine ⟨b.apart, ?_⟩
  rcases view_elsewhere b.elsewhere with same | ⟨running, exits⟩
  · rw [same]
    exact s.shape
  · rw [exits]
    exact s.shape.exits running

theorem Holds.setNow (s : h.Holds n own c) (now : Float) : h.Holds n own { c with loop := { c.loop with now } } :=
  ⟨s.apart.replace (s.apart.loop.setNow now) (Nat.le_refl _),
    s.shape.congr (s.shape.fits.congr rfl rfl rfl rfl) rfl rfl⟩

theorem Holds.begins (s : h.Holds n own c) {l : Loop Activity Event} (begins : c.loop.BeginsRound (h.share n own) l) :
    h.Holds n own { c with loop := l } :=
  ⟨s.apart.replace begins.apart (Nat.le_of_eq (by rw [begins.promises])), s.shape.rings (view_begins begins)⟩

theorem Holds.of_shows (s : c.Presents (h.share n own) v) (shape : h.Shape v) : h.Holds n own c :=
  ⟨s.apart, s.view ▸ shape⟩

/-- Something is left to run. -/
theorem Holds.ne_idle (s : h.Holds n own c) : c.loop.next? ≠ none := fun nothing => by
  refine s.shape.ne_nil ?_
  show c.loop.ready.filter _ = []
  rw [(s.apart.loop.orderly.idle nothing).1]
  rfl

/-! ## Turns -/

/-- A task that is cancelled while it waits, or before it begins to wait, fails. -/
theorem goOn_cancelled {a : Activity} {i : ChildId} (simple : a = .relay ∨ a = .awaitExit i) :
    does E (goOn a (.error .cancelled)) c = (.error .cancelled, c) := by
  rcases simple with rfl | rfl <;> rfl

/-- The inner task runs on: it fails, and its end is about to wake the task. -/
theorem Holds.breaks {a : Activity} {source : Option PromiseId} {i : Bool} {o : Outcome}
    (apart : c.Apart (h.share n own)) (fits : h.Fits (c.view (h.share n own)))
    (inner : (c.view (h.share n own)).promise h.inner = some ⟨none, [h.ring], .task [a] source i⟩)
    (simple : a = .relay ∨ a = .awaitExit h.child) (silent : h.IsSilent (c.view (h.share n own)))
    (nothing : (c.view (h.share n own)).ready = [])
    (cancels : (if i then .error .cancelled else o) = (.error .cancelled : Outcome)) :
    h.Holds n own (does E (runTask h.inner o) c).2 := by
  have heard : ∀ job ∈ [h.ring], job.concerns (h.share n own).heard = true :=
    List.forall_mem_singleton.2 (Job.concerns_iff.2 ⟨h.waiter, rfl, (promise_of_view silent).1⟩)
  have ended := does_runTask_ends (E := E) (o := o) (r := .error .cancelled) (role_of_view inner)
    (by rw [cancels, goOn_cancelled simple]; exact .fault ..)
  obtain ⟨apart', view⟩ := apart.shows.endsWith inner heard (.error .cancelled)
  rw [ended]
  refine ⟨apart', ?_⟩
  rw [view]
  refine .broken (fits.set (List.mem_cons_self ..) ..) (if_pos rfl) ((if_neg fits.apart.2.2.symm).trans silent) ?_
  show (c.view (h.share n own)).ready ++ _ = _
  rw [nothing]
  rfl

/-- A job of the share is taken up: the task still waits, and does nothing itself, or it is called. -/
theorem Holds.take (s : h.Holds n own c) {l : Loop Activity Event} (pops : c.loop.Pops (h.share n own) job l)
    (mine : job.concerns own = true) :
    (job.drives h.task = false ∧ h.Holds n own (does E (runJob job) { c with loop := l }).2) ∨
      (job = h.call ∧ h.Called n own { c with loop := l }) := by
  have apart : ({ c with loop := l } : Client).Apart (h.share n own) :=
    s.apart.replace pops.apart (Nat.le_of_eq (by rw [pops.promises]))
  obtain ⟨-, k, before⟩ | ⟨other, -⟩ := view_pops pops
  · have shown := s.shape
    rw [before] at shown
    -- What was ready is this job, and nothing else.
    have only : ∀ {job'}, ((k, job) :: (({ c with loop := l } : Client).view (h.share n own)).ready) = [(none, job')] →
        job = job' ∧ (({ c with loop := l } : Client).view (h.share n own)).ready = [] := fun e => by
      obtain ⟨first, rest⟩ := List.cons.inj e
      exact ⟨congrArg Prod.snd first, rest⟩
    have fits : h.Fits (({ c with loop := l } : Client).view (h.share n own)) := shown.fits.congr rfl rfl rfl rfl
    cases shown with
    | doomed a source i job' _ inner simple silent ready dooms =>
      obtain ⟨rfl, nothing⟩ := only ready
      refine .inl ⟨?_, ?_⟩
      · cases dooms <;> exact beq_false_of_ne fits.apart.1.symm
      cases dooms with
      | begins i =>
        subst i
        exact breaks (c := { c with loop := l }) apart fits inner simple silent nothing rfl
      | wakes exit o settled cancels =>
        have known := outcome_of_view (c := { c with loop := l }) settled
        have runs : does E (runJob (.wake h.inner exit)) { c with loop := l } =
            does E (runTask h.inner o) { c with loop := l } := by
          unfold runJob
          rw [does_bind_of_ok (does_get _), known]
        rw [runs]
        refine breaks (c := { c with loop := l }) apart fits inner simple silent nothing ?_
        rcases cancels with rfl | rfl
        · rfl
        · split <;> rfl
    | broken _ inner silent ready =>
      obtain ⟨rfl, nothing⟩ := only ready
      obtain ⟨own, opened⟩ := promise_of_view (c := { c with loop := l }) silent
      refine .inl ⟨rfl,
        apart.replace (apart.loop.settle h.waiter (.ok .null)) (Nat.le_of_eq (Loop.size_settle ..).symm), ?_⟩
      have settled := view_settle (S := h.share n _) { c with loop := l } own
      refine (congrArg h.Shape settled).mpr ?_
      have waits : (({ c with loop := l } : Client).view (h.share n _)).promise h.waiter =
        some ⟨none, [h.call], .plain⟩ := silent
      rw [View.settle_open waits, List.filter_cons_of_pos, List.filter_nil]
      · refine .finished (fits.set (List.mem_cons_of_mem _ (List.mem_cons_self ..)) ..)
          ((if_neg fits.apart.2.2).trans inner)
          (if_pos rfl) ?_
        show (({ c with loop := l } : Client).view (h.share n _)).ready ++ _ = _
        rw [nothing]
        rfl
      · obtain ⟨_, closing⟩ := fits.closing
        exact Job.concerns_iff.2 ⟨h.task, rfl, (promise_of_view closing).1⟩
    | finished _ inner rung ready =>
      obtain ⟨rfl, nothing⟩ := only ready
      exact .inr ⟨rfl, apart, fits, inner, rung, nothing⟩
  · rw [show job.concerns own = false from other] at mine
    cases mine

end Halt

end LspClient
