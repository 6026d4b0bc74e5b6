/-
How a task begins to wait for the exit of a process, for as long as it may take: if that is some time, it sets a timer
and waits for a bell; if it is no time at all, it makes the inner task and cancels it at once. A time that cannot be
measured is a fault. How it gives up waiting once its time is over is the same as if there had been no time.
-/
import LspClient.Proofs.Process.Halting

namespace LspClient

open Client

variable {E : Executor} {S : Share} {c d : Client} {v : View} {own : List PromiseId} {n : Nat}

/-! ## Cancelling a task -/

namespace Loop

variable {l : Loop Activity Event} {p q : PromiseId} {observers waiting : List (Job Event)}
  {stack : List Activity} {b : Bool}

/-- A task that has not begun to wait is interrupted. -/
theorem cancel_of_begins (h : l.promises[p]? = some ⟨none, observers, .task stack none b⟩) :
    l.cancel p = (true, l.setRole p (.task stack none true)) := by
  unfold cancel cancelFrom
  rw [h]
  rfl

/-- To cancel a task that waits for a plain promise is to cancel the promise. -/
theorem cancel_of_waits (h : l.promises[p]? = some ⟨none, observers, .task stack (some q) b⟩)
    (source : l.promises[q]? = some ⟨none, waiting, .plain⟩) :
    l.cancel p = (true, l.complete q (.error .cancelled)) := by
  obtain ⟨k, size⟩ := Nat.exists_eq_succ_of_ne_zero (Nat.ne_zero_of_lt (Array.getElem?_eq_some_iff.1 source).1)
  have settled : l.settle q (.error .cancelled) = l.complete q (.error .cancelled) :=
    settle_of_plain (by unfold role?; rw [source]; rfl) _
  have passed : cancelFrom l.promises.size q l = (true, l.complete q (.error .cancelled)) := by
    rw [size]
    unfold cancelFrom
    rw [source, ← settled]
  unfold cancel cancelFrom
  rw [h]
  simp only [passed, if_true]

/-- A task that waits for a promise that is settled is interrupted. -/
theorem cancel_of_woken {o : Outcome} {role : Role Activity}
    (h : l.promises[p]? = some ⟨none, observers, .task stack (some q) b⟩)
    (source : l.promises[q]? = some ⟨some o, waiting, role⟩) :
    l.cancel p = (true, l.setRole p (.task stack (some q) true)) := by
  obtain ⟨k, size⟩ := Nat.exists_eq_succ_of_ne_zero (Nat.ne_zero_of_lt (Array.getElem?_eq_some_iff.1 source).1)
  have refused : cancelFrom l.promises.size q l = (false, l) := by
    rw [size]
    unfold cancelFrom
    rw [source]
  unfold cancel cancelFrom
  rw [h]
  simp only [refused, Bool.false_eq_true, if_false]

end Loop

/-! ## Giving up -/

namespace Halt

variable {h : Halt}

/-- How far the inner task is when it is cancelled: nobody waits for its end yet. -/
inductive Inner (h : Halt) (v : View) : Prop
  | begins (inner : v.promise h.inner = some ⟨none, [], .task [.awaitExit h.child] none false⟩)
    (ready : v.ready = [(none, .step h.inner)]) (waiters : v.waiters = [])
  | waits (exit : PromiseId) (inner : v.promise h.inner = some ⟨none, [], .task [.relay] (some exit) false⟩)
    (opened : v.promise exit = some ⟨none, [.wake h.inner exit], .plain⟩) (ready : v.ready = [])
    (waiters : v.waiters = [exit])
  | woken (exit : PromiseId) (inner : v.promise h.inner = some ⟨none, [], .task [.relay] (some exit) false⟩)
    (settled : v.promise exit = some ⟨some (.ok .null), [], .plain⟩) (ready : v.ready = [(none, .wake h.inner exit)])
    (exited : v.exited = true)

/-- What is shown of a task that runs, and is about to cancel the inner task. -/
structure Begins (h : Halt) (v : View) : Prop where
  begun : ∃ observers, v.promise h.task = some ⟨none, observers, .task [] none false⟩
  ne : h.task ≠ h.inner
  others : ∀ r x, v.promise r = some x → r ∈ [h.task, h.inner] ∨ IsExit h.inner r x
  unheard : h.task ∉ v.waiters
  timers : v.timers = []
  inner : h.Inner v

/-- What is shown of a task that runs, and has cancelled the inner task. -/
structure Cancelled (h : Halt) (v : View) : Prop where
  begun : ∃ observers, v.promise h.task = some ⟨none, observers, .task [] none false⟩
  apart : h.task ≠ h.inner ∧ h.task ≠ h.waiter ∧ h.inner ≠ h.waiter
  others : ∀ r x, v.promise r = some x → r ∈ [h.task, h.inner, h.waiter] ∨ IsExit h.inner r x
  unheard : h.task ∉ v.waiters
  settled : v.exited = false → ∀ r ∈ v.waiters, v.IsSettled r
  timers : v.timers = []
  waiter : v.promise h.waiter = some ⟨none, [], .plain⟩
  inner : ∃ a source i job, v.promise h.inner = some ⟨none, [h.ring], .task [a] source i⟩ ∧
    (a = .relay ∨ a = .awaitExit h.child) ∧
    v.ready = [(none, job)] ∧ h.Dooms v i job

theorem Begins.inner_known (b : h.Begins v) :
    ∃ stack source, v.promise h.inner = some ⟨none, [], .task stack source false⟩ := by
  cases b.inner with
  | begins inner | waits _ inner | woken _ inner => exact ⟨_, _, inner⟩

/-- The promise for which the task is about to wait is made, and is settled when the inner task ends. -/
def prepared (h : Halt) (v : View) (stack : List Activity) (source : Option PromiseId) (i : Bool) : View :=
  (v.set h.waiter ⟨none, [], .plain⟩).set h.inner ⟨none, [] ++ [h.ring], .task stack source i⟩

variable {stack : List Activity} {source : Option PromiseId} {i : Bool}

theorem prepared_inner : (h.prepared v stack source i).promise h.inner = some ⟨none, [h.ring], .task stack source i⟩ :=
  View.promise_set_self ..

theorem prepared_waiter (ne : h.inner ≠ h.waiter) :
    (h.prepared v stack source i).promise h.waiter = some ⟨none, [], .plain⟩ :=
  (View.promise_set_of_ne ne.symm ..).trans (View.promise_set_self ..)

theorem prepared_of_ne {r : PromiseId} (e : r ≠ h.inner) (e' : r ≠ h.waiter) :
    (h.prepared v stack source i).promise r = v.promise r :=
  (View.promise_set_of_ne e ..).trans (View.promise_set_of_ne e' ..)

/-- What is left when the inner task is cancelled: all else has stayed as it was, but for what the inner task waited
for. -/
theorem Begins.cancelled (b : h.Begins v) (apart : h.task ≠ h.inner ∧ h.task ≠ h.waiter ∧ h.inner ≠ h.waiter)
    {v' : View} (task : v'.promise h.task = v.promise h.task)
    (others : ∀ r, r ∈ [h.inner, h.waiter] ∨ v'.promise r = v.promise r ∨ ∃ x, v'.promise r = some x ∧
      IsExit h.inner r x)
    (waiter : v'.promise h.waiter = some ⟨none, [], .plain⟩) (waiters : v'.waiters = v.waiters)
    (timers : v'.timers = v.timers) (settled : v'.exited = false → ∀ r ∈ v.waiters, v'.IsSettled r)
    (inner : ∃ a source i job, v'.promise h.inner = some ⟨none, [h.ring], .task [a] source i⟩ ∧
      (a = .relay ∨ a = .awaitExit h.child) ∧ v'.ready = [(none, job)] ∧ h.Dooms v' i job) : h.Cancelled v' := by
  obtain ⟨observers, begun⟩ := b.begun
  refine ⟨⟨observers, task.trans begun⟩, apart, fun r x hx => ?_, waiters ▸ b.unheard, waiters ▸ settled,
    timers.trans b.timers, waiter, inner⟩
  rcases others r with mine | same | ⟨y, hy, exit⟩
  · exact .inl (List.mem_cons_of_mem _ mine)
  · rcases b.others r x (same ▸ hx) with mine | exit
    · refine .inl ?_
      rcases List.mem_pair.1 mine with e | e <;> simp [e]
    · exact .inr exit
  · cases hy.symm.trans hx
    exact .inr exit

theorem Begins.apart (b : h.Begins v) (unknown : v.promise h.waiter = none) :
    h.task ≠ h.inner ∧ h.task ≠ h.waiter ∧ h.inner ≠ h.waiter := by
  obtain ⟨observers, begun⟩ := b.begun
  obtain ⟨stack, source, known⟩ := b.inner_known
  exact ⟨b.ne, fun e => (by rw [e, unknown] at begun; cases begun), fun e => (by rw [e, unknown] at known; cases known)⟩

/-- The inner task is interrupted: it is about to run on. -/
theorem Begins.interrupted (b : h.Begins v) (unknown : v.promise h.waiter = none) {a : Activity} {job : Job Event}
    (simple : a = .relay ∨ a = .awaitExit h.child) (ready : v.ready = [(none, job)]) (dooms : h.Dooms v true job)
    (settled : v.exited = false → ∀ r ∈ v.waiters, v.IsSettled r) : h.Cancelled (h.prepared v [a] source true) := by
  have apart := b.apart unknown
  obtain ⟨stack, source, known⟩ := b.inner_known
  have still : ∀ {r o waiting role}, v.promise r = some ⟨some o, waiting, role⟩ → r ≠ h.inner ∧
      r ≠ h.waiter := fun hr =>
    ⟨fun e => (by rw [e, known] at hr; cases hr), fun e => (by rw [e, unknown] at hr; cases hr)⟩
  refine b.cancelled apart (prepared_of_ne apart.1 apart.2.1) (fun r => ?_) (prepared_waiter apart.2.2) rfl rfl
    (fun running r hr => ?_) ⟨a, _, true, job, prepared_inner, simple, ready, ?_⟩
  · by_cases e : r ∈ [h.inner, h.waiter]
    · exact .inl e
    · obtain ⟨e, e'⟩ := not_or.1 (mt List.mem_pair.2 e)
      exact .inr (.inl (prepared_of_ne e e'))
  · obtain ⟨o, waiting, role, hr⟩ := settled running r hr
    exact ⟨o, waiting, role, (prepared_of_ne (still hr).1 (still hr).2).trans hr⟩
  · cases dooms with
    | begins i => exact .begins i
    | wakes exit o known cancels =>
      exact .wakes exit o ((prepared_of_ne (still known).1 (still known).2).trans known) cancels

/-- What the inner task waits for is cancelled: it is about to run on, too. -/
theorem Begins.passed (b : h.Begins v) (unknown : v.promise h.waiter = none) {exit : PromiseId}
    (inner : v.promise h.inner = some ⟨none, [], .task [.relay] (some exit) false⟩)
    (opened : v.promise exit = some ⟨none, [.wake h.inner exit], .plain⟩) (ready : v.ready = [])
    (waiters : v.waiters = [exit]) :
    h.Cancelled (((h.prepared v [.relay] (some exit) false).set exit ⟨some (.error .cancelled), [], .plain⟩).adds
      [.wake h.inner exit]) := by
  have apart := b.apart unknown
  obtain ⟨observers, begun⟩ := b.begun
  have ne : h.inner ≠ exit := Watch.ne_of_promise inner opened nofun
  have task : h.task ≠ exit := Watch.ne_of_promise begun opened nofun
  have waiter : h.waiter ≠ exit := fun e => by rw [e, opened] at unknown; cases unknown
  have others : ∀ {r}, r ≠ exit → View.promise (((h.prepared v [.relay] (some exit) false).set exit
      ⟨some (.error .cancelled), [], .plain⟩).adds [.wake h.inner exit]) r =
      (h.prepared v [.relay] (some exit) false).promise r :=
    fun e => View.promise_set_of_ne e ..
  have self : View.promise (((h.prepared v [.relay] (some exit) false).set exit
      ⟨some (.error .cancelled), [], .plain⟩).adds [.wake h.inner exit]) exit =
      some ⟨some (.error .cancelled), [], .plain⟩ :=
    View.promise_set_self ..
  refine b.cancelled apart ((others task).trans (prepared_of_ne apart.1 apart.2.1)) (fun r => ?_)
    ((others waiter).trans (prepared_waiter apart.2.2)) rfl rfl (fun _ r hr => ?_)
    ⟨.relay, some exit, false, .wake h.inner exit, (others ne).trans prepared_inner, .inl rfl, ?_, ?_⟩
  · by_cases e : r ∈ [h.inner, h.waiter]
    · exact .inl e
    · obtain ⟨e, e'⟩ := not_or.1 (mt List.mem_pair.2 e)
      by_cases e'' : r = exit
      · subst e''
        exact .inr (.inr ⟨_, self, rfl, nofun⟩)
      · exact .inr (.inl ((others e'').trans (prepared_of_ne e e')))
  · rw [waiters] at hr
    rw [List.mem_singleton.1 hr]
    exact ⟨_, _, _, self⟩
  · show v.ready ++ _ = _
    rw [ready]
    rfl
  · exact .wakes exit _ self (.inr rfl)

/-- The task that has cancelled the inner task begins to wait for its end. -/
theorem Cancelled.shape (b : h.Cancelled v) {observers : List (Job Event)} :
    h.Shape ((v.set h.waiter ⟨none, [] ++ [.wake h.task h.waiter], .plain⟩).set h.task ⟨none, observers,
      .task [.halted h.inner h.waiter, .overdue h.inner h.timer, h.next] (some h.waiter) false⟩) := by
  obtain ⟨a, source, i, job, inner, simple, ready, dooms⟩ := b.inner
  obtain ⟨task, waits, ne⟩ := b.apart
  have others : ∀ {r}, r ≠ h.task → r ≠ h.waiter →
    View.promise ((v.set h.waiter ⟨none, [] ++ [.wake h.task h.waiter], .plain⟩).set
      h.task ⟨none, observers,
      .task [.halted h.inner h.waiter, .overdue h.inner h.timer, h.next] (some h.waiter) false⟩) r =
        v.promise r := fun e e' => (View.promise_set_of_ne e ..).trans (View.promise_set_of_ne e' ..)
  have still : ∀ {r o role waiting}, v.promise r = some ⟨some o, waiting, role⟩ → r ≠ h.task ∧
      r ≠ h.waiter := fun hr => by
    obtain ⟨_, begun⟩ := b.begun
    exact ⟨fun e => (by rw [e, begun] at hr; cases hr), fun e => (by rw [e, b.waiter] at hr; cases hr)⟩
  have silent := (View.promise_set_of_ne waits.symm (v.set h.waiter ⟨none, [] ++ [.wake h.task h.waiter], .plain⟩)
    ⟨none, observers, .task [.halted h.inner h.waiter, .overdue h.inner h.timer, h.next] (some h.waiter) false⟩).trans
    (View.promise_set_self v h.waiter _)
  refine .doomed a source i job ⟨⟨observers, View.promise_set_self ..⟩, b.apart, fun r x hx => ?_, b.unheard,
    fun running r hr => ?_, b.timers⟩ ((others task.symm ne).trans inner) simple silent ready ?_
  · by_cases e : r = h.task
    · exact .inl (by simp [e])
    · by_cases e' : r = h.waiter
      · exact .inl (by simp [e'])
      · exact b.others r x ((others e e').symm.trans hx)
  · obtain ⟨o, waiting, role, hr⟩ := b.settled running r hr
    exact ⟨o, waiting, role, (others (still hr).1 (still hr).2).trans hr⟩
  · cases dooms with
    | begins i => exact .begins i
    | wakes exit o settled cancels =>
      exact .wakes exit o ((others (still settled).1 (still settled).2).trans settled) cancels

theorem goOn_halt (q : PromiseId) {w : PromiseId} (new : w = c.loop.promises.size) :
    does E (goOn (.halt q) (.ok .null)) c =
    (.ok (.await w (.halted q w)), { c with
      loop := (((c.loop.newPromise .plain).2.observe q (.fulfil w)).cancel q).2 }) := by
  subst new
  rfl

/-- The inner task is cancelled, and the task begins to wait for its end. -/
theorem Begins.holds (b : h.Begins v) (own : List PromiseId) (s : c.Presents (h.share n own) v)
    (new : h.waiter = c.loop.promises.size) :
    ∃ d, Advances E h.task 1 [.halt h.inner, .overdue h.inner h.timer, h.next] (.ok .null) c d ∧
      h.Holds n (h.waiter :: own) d.atRest ∧ d.notes = c.notes := by
  have unknown : v.promise h.waiter = none := new ▸ s.promise_new
  have apart := b.apart unknown
  have made := s.newOwn new .plain
  have heard : ∀ {stack source}, v.promise h.inner = some ⟨none, [], .task stack source false⟩ →
      Client.Presents { c with loop := (c.loop.newPromise .plain).2.observe h.inner h.ring }
      (h.share n (h.waiter :: own))
        (h.prepared v stack source false) := fun known =>
    made.observe ((View.promise_set_of_ne apart.2.2 ..).trans known)
      (Job.fits_of_target? (show Job.target? h.ring = some h.waiter from rfl) (made.lt_size (View.promise_set_self ..)))
  -- What the inner task is in the middle of tells what is cancelled.
  have cancelled : ∃ v', Client.Presents { c with
      loop := (((c.loop.newPromise .plain).2.observe h.inner h.ring).cancel h.inner).2 }
      (h.share n (h.waiter :: own)) v' ∧ h.Cancelled v' := by
    cases b.inner with
    | begins inner ready waiters =>
      have shows := heard inner
      rw [Loop.cancel_of_begins (shows.promise prepared_inner).2]
      have set := shows.setRole prepared_inner (.task [.awaitExit h.child] none true)
      unfold prepared at set
      rw [View.set_set] at set
      exact ⟨_, set, b.interrupted unknown (.inr rfl) ready (.begins rfl) (by rw [waiters]; nofun)⟩
    | waits exit inner opened ready waiters =>
      have shows := heard inner
      have source :=
        (prepared_of_ne (Watch.ne_of_promise opened inner nofun) (fun e => by rw [e, unknown] at opened; cases opened) :
        (h.prepared v [.relay] (some exit) false).promise exit = v.promise exit).trans opened
      rw [Loop.cancel_of_waits (shows.promise prepared_inner).2 (shows.promise source).2]
      have mine : ∀ job ∈ [(.wake h.inner exit : Job Event)], job.concerns (h.share n (h.waiter :: own)).heard = true :=
        List.forall_mem_singleton.2 (Job.concerns_iff.2 ⟨h.inner, rfl, (shows.promise prepared_inner).1⟩)
      exact ⟨_, shows.complete source mine _, b.passed unknown inner opened ready waiters⟩
    | woken exit inner settled ready exited =>
      have shows := heard inner
      have source :=
        (prepared_of_ne (Watch.ne_of_promise settled inner nofun)
          (fun e => by rw [e, unknown] at settled; cases settled) :
        (h.prepared v [.relay] (some exit) false).promise exit = v.promise exit).trans settled
      rw [Loop.cancel_of_woken (shows.promise prepared_inner).2 (shows.promise source).2]
      have set := shows.setRole prepared_inner (.task [.relay] (some exit) true)
      unfold prepared at set
      rw [View.set_set] at set
      exact ⟨_, set, b.interrupted unknown (.inl rfl) ready (.wakes exit _ settled (.inl rfl)) (by rw [exited]; nofun)⟩
  obtain ⟨v', shows, left⟩ := cancelled
  have opened := shows.outcome left.waiter
  obtain ⟨observers', running⟩ := left.begun
  have goes : Advances E h.task 1 [.halt h.inner, .overdue h.inner h.timer, h.next] (.ok .null) c _ :=
    .waits (by rw [goOn_halt h.inner new]; exact .wait _ opened)
  refine ⟨_, goes, ?_, rfl⟩
  have suspended :=
    shows.suspend running left.waiter apart.2.1 [.halted h.inner h.waiter, .overdue h.inner h.timer, h.next]
  have waits := suspended.running none
  exact .of_shows waits left.shape

end Halt

/-! ## Beginning to wait -/

/-- What a task has to itself that has nothing but itself. -/
def Share.only (p : PromiseId) (i : ChildId) (n : Nat) : Share where
  task := p
  child := i
  own := [p]
  heard := [p]
  timers := []
  transports := n

/-- The task runs; nothing is ready that does something to it, and it waits for nothing. -/
structure View.IsAlone (p : PromiseId) (v : View) : Prop where
  begun : ∃ observers, v.promise p = some ⟨none, observers, .task [] none false⟩
  others : ∀ r x, v.promise r = some x → r = p
  ready : v.ready = []
  timers : v.timers = []
  waiters : v.waiters = []

/-- A loop in which a bell is set to ring after some time, and rings too when a task ends that waits for the exit of a
process. -/
def Loop.timing (s : Float) (i : ChildId) (inner bell : PromiseId) (l : Loop Activity Event) : Loop Activity Event :=
  (((l.newPromise .plain).2.callLater s (.fulfil bell)).2.spawn (.awaitExit i)).2.observe inner (.fulfil bell)

/-- A task runs in a client and has nothing to itself but itself. -/
def Client.Alone (p : PromiseId) (i : ChildId) (n : Nat) (c : Client) : Prop :=
  ∃ v, c.Presents (.only p i n) v ∧ v.IsAlone p

variable {p : PromiseId} {i : ChildId} {limit : Number} {s : Float} {k : Activity}

theorem Client.Alone.beside (h : c.Alone p i n) (b : c.Beside (.only p i n) d) : d.Alone p i n := by
  obtain ⟨v, shows, alone⟩ := h
  exact ⟨_, shows.beside b alone.waiters, alone.begun, alone.others, alone.ready, alone.timers, alone.waiters⟩

namespace Watch

variable {w : Watch}

/-- What is shown of a task that runs, and has made what it is about to wait for. -/
def made (w : Watch) (v : View) : View :=
  (({ v.set w.bell ⟨none, [], .plain⟩ with timers := [⟨w.timer, w.due, w.ring⟩] }.set w.inner
    ⟨none, [], .task [.awaitExit w.child] none false⟩).adds [.step w.inner]).set w.inner
    ⟨none, [] ++ [w.ring], .task [.awaitExit w.child] none false⟩

theorem made_of_ne {r : PromiseId} (e : r ≠ w.inner) (e' : r ≠ w.bell) : (w.made v).promise r = v.promise r :=
  (View.promise_set_of_ne e ..).trans ((View.promise_set_of_ne e ..).trans (View.promise_set_of_ne e' ..))

theorem made_bell (ne : w.inner ≠ w.bell) : (w.made v).promise w.bell = some ⟨none, [], .plain⟩ :=
  (View.promise_set_of_ne ne.symm ..).trans
    ((View.promise_set_of_ne ne.symm ..).trans (View.promise_set_self v w.bell _))

/-- What is shown of a task that has begun to wait. -/
theorem shape_made (alone : v.IsAlone w.task) (late : Prop) (observers : List (Job Event))
    (apart : w.task ≠ w.inner ∧ w.task ≠ w.bell ∧ w.inner ≠ w.bell) :
    w.Shape late (((w.made v).set w.bell ⟨none, [] ++ [.wake w.task w.bell], .plain⟩).set w.task
      ⟨none, observers, .task [.withinAwaited w.inner w.bell w.timer, w.next] (some w.bell) false⟩) := by
  refine .begins [] ⟨⟨observers, View.promise_set_self ..⟩, ?_, apart, fun r x hx => ?_, ?_⟩ ⟨?_,
    alone.waiters⟩ ?_ ?_ nofun
    (fun none => absurd rfl none) (fun _ => List.cons_ne_nil _ _)
  · exact List.forall_mem_singleton.2 ⟨rfl, rfl⟩
  · refine .inl ?_
    by_contra other
    obtain ⟨e, e', e''⟩ : r ≠ w.task ∧ r ≠ w.inner ∧ r ≠ w.bell := by simpa using other
    have known : v.promise r = some x := by
      rw [← hx]
      exact ((View.promise_set_of_ne e ..).trans ((View.promise_set_of_ne e'' ..).trans (made_of_ne e' e''))).symm
    exact e (alone.others r x known)
  · show w.task ∉ v.waiters
    rw [alone.waiters]
    exact List.not_mem_nil
  · exact (View.promise_set_of_ne apart.1.symm ..).trans
      ((View.promise_set_of_ne apart.2.2 ..).trans (View.promise_set_self ..))
  · exact (View.promise_set_of_ne apart.2.1.symm ..).trans (View.promise_set_self ..)
  · show v.ready ++ _ = _
    rw [alone.ready]
    rfl

/-- The bell, the timer and the inner task are made. -/
theorem shows_made (shows : c.Presents (.only w.task w.child n) v) (alone : v.IsAlone w.task)
    (bell : w.bell = c.loop.promises.size) (inner : w.inner = (c.loop.newPromise .plain).2.promises.size)
    (timer : w.timer = c.loop.nextTimer) (due : w.due = c.loop.now + s) :
    Client.Presents { c with loop := c.loop.timing s w.child w.inner w.bell } (w.share n [w.inner, w.bell, w.task])
      (w.made v) := by
  have ne : w.inner ≠ w.bell := by
    rw [inner, bell, Loop.size_newPromise]
    exact Nat.succ_ne_self _
  have second := (shows.newOwn bell .plain).callLater (show Job.target? w.ring = some w.bell from rfl)
    (List.mem_cons_self ..) timer due alone.timers
  have third := second.spawnOwn inner (.awaitExit w.child)
  exact third.observe (View.promise_set_self ..) (Job.fits_of_target? (show Job.target? w.ring = some w.bell from rfl)
    (third.lt_size ((View.promise_set_of_ne ne.symm ..).trans (View.promise_set_self v w.bell ⟨none, [], .plain⟩))))

end Watch

theorem does_callLater (widen : limit.widen = .ok s) (job : Job Event) (c : Client) :
    does E (callLater limit job) c = (.ok c.loop.nextTimer, { c with loop := (c.loop.callLater s job).2 }) := by
  have measured : does E (seconds limit) c = (.ok s, c) := by
    unfold seconds
    rw [widen]
    rfl
  exact does_bind_of_ok measured _

theorem does_callLater_of_error {f : Number.RangeFault} (widen : limit.widen = .error f) (job : Job Event)
    (c : Client) :
    does E (callLater limit job) c = (.error (.range f), c) := by
  have measured : does E (seconds limit) c = (.error (.range f), c) := by
    unfold seconds
    rw [widen]
    rfl
  exact does_bind_of_error measured _

/-- The time that a task may wait is measured, and its timer is set. -/
theorem goOn_within_waits (positive : limit.le (.int 0) = false) (widen : limit.widen = .ok s) (i : ChildId)
    {bell inner : PromiseId} (first : bell = c.loop.promises.size)
    (second : inner = (c.loop.newPromise .plain).2.promises.size) :
    does E (goOn (.within (.awaitExit i) (some limit)) (.ok .null)) c =
      (.ok (.await bell (.withinAwaited inner bell c.loop.nextTimer)),
        { c with loop := c.loop.timing s i inner bell }) := by
  subst first second
  have made : does E newPromise c = (.ok c.loop.promises.size, { c with loop := (c.loop.newPromise .plain).2 }) := rfl
  show does E (within (.awaitExit i) (some limit)) c = _
  unfold within
  dsimp only
  rw [if_neg (by rw [positive]; nofun), does_bind_of_ok made, does_bind_of_ok (does_callLater widen _ _)]
  rfl

/-- The time that a task may wait cannot be measured. -/
theorem goOn_within_fails {f : Number.RangeFault} (positive : limit.le (.int 0) = false)
    (widen : limit.widen = .error f) (i : ChildId) :
    does E (goOn (.within (.awaitExit i) (some limit)) (.ok .null)) c =
      (.error (.range f), { c with loop := (c.loop.newPromise .plain).2 }) := by
  have made : does E newPromise c = (.ok c.loop.promises.size, { c with loop := (c.loop.newPromise .plain).2 }) := rfl
  show does E (within (.awaitExit i) (some limit)) c = _
  unfold within
  dsimp only
  rw [if_neg (by rw [positive]; nofun), does_bind_of_ok made, does_bind_of_error (does_callLater_of_error widen _ _)]

/-- There is no time that a task may wait. -/
theorem goOn_within_halts (nothing : limit.le (.int 0) = true) (i : ChildId) :
    does E (goOn (.within (.awaitExit i) (some limit)) (.ok .null)) c =
      (.ok (.call (.halt c.loop.promises.size) (.overdue c.loop.promises.size none)),
        { c with loop := (c.loop.spawn (.awaitExit i)).2 }) := by
  show does E (within (.awaitExit i) (some limit)) c = _
  unfold within
  dsimp only
  rw [if_pos nothing]
  rfl

/-- A task begins to wait for the exit of a process. -/
theorem Watch.begins {w : Watch} (shows : c.Presents (.only w.task w.child n) v) (alone : v.IsAlone w.task)
    (apart : w.task ≠ w.inner ∧ w.task ≠ w.bell ∧ w.inner ≠ w.bell) (launched : w.child < c.children.size)
    (positive : limit.le (.int 0) = false) (widen : limit.widen = .ok s) (bell : w.bell = c.loop.promises.size)
    (inner : w.inner = (c.loop.newPromise .plain).2.promises.size) (timer : w.timer = c.loop.nextTimer)
    (due : w.due = c.loop.now + s) :
    ∃ d, Advances E w.task 1 [.within (.awaitExit w.child) (some limit), w.next] (.ok .null) c d ∧
      (∀ late, w.Holds n late [w.inner, w.bell, w.task] d.atRest) ∧ d.notes = c.notes := by
  obtain ⟨observers, begun⟩ := alone.begun
  have made := w.shows_made shows alone bell inner timer due
  have running := (w.made_of_ne apart.1 apart.2.1).trans begun
  have opened := made.outcome (w.made_bell apart.2.2)
  have goes : Advances E w.task 1 [.within (.awaitExit w.child) (some limit), w.next] (.ok .null) c _ :=
    .waits (by rw [goOn_within_waits positive widen w.child bell inner]; exact .wait _ opened)
  rw [← timer] at goes
  refine ⟨_, goes, fun late => ?_, rfl⟩
  have suspended :=
    made.suspend running (w.made_bell apart.2.2) apart.2.1 [.withinAwaited w.inner w.bell w.timer, w.next]
  have waits := suspended.running none
  refine ⟨waits.apart, ?_, List.mem_cons_self .., ?_, launched, ?_⟩
  · simp
  · simp
  · have shape := w.shape_made alone late observers apart
    rwa [← waits.view] at shape

/-- How a task is left that waits for the exit of a process for as long as it may take: since when, and what for. -/
inductive Stays (p : PromiseId) (i : ChildId) (n : Nat) (limit : Number) (since : Float) (k : Activity)
    (d : Client) : Prop
  | waits (w : Watch) (own : List PromiseId) (holds : ∀ late, w.Holds n late own d) (task : w.task = p)
    (child : w.child = i) (next : w.next = k) (s : Float) (positive : limit.le (.int 0) = false)
    (widen : limit.widen = .ok s) (due : w.due = since + s)
  | halts (h : Halt) (own : List PromiseId) (holds : h.Holds n own d) (task : h.task = p) (child : h.child = i)
    (next : h.next = k) (nothing : limit.le (.int 0) = true)

/-- A task begins to wait for the exit of a process for as long as it may take, unless that cannot be measured. -/
theorem Client.Alone.within (h : c.Alone p i n) (launched : i < c.children.size) (limit : Number) (k : Activity) :
    (∃ d m, m ≤ 2 ∧ Advances E p m [.within (.awaitExit i) (some limit), k] (.ok .null) c d ∧
      Stays p i n limit c.loop.now k d.atRest ∧ d.notes = c.notes) ∨
    ∃ f d, limit.widen = .error f ∧
    Moment.GoesTo p [k] (does E (goOn (.within (.awaitExit i) (some limit)) (.ok .null)) c)
      (some ([k], .error (.range f)), d) ∧ d.Alone p i n ∧ d.notes = c.notes := by
  obtain ⟨v, shows, alone⟩ := h
  obtain ⟨observers, begun⟩ := alone.begun
  cases nothing : limit.le (.int 0) with
  | true =>
    have made := shows.spawnOwn rfl (.awaitExit i)
    have ne : p ≠ c.loop.promises.size := shows.ne_new begun
    have cancels : Halt.Begins ⟨p, i, c.loop.promises.size, (c.loop.spawn (.awaitExit i)).2.promises.size, none, k⟩
        ((v.set c.loop.promises.size ⟨none, [], .task [.awaitExit i] none false⟩).adds
        [.step c.loop.promises.size]) := by
      refine ⟨⟨observers, (View.promise_set_of_ne ne ..).trans begun⟩, ne, fun r x hx => .inl ?_, ?_, alone.timers,
        .begins (View.promise_set_self ..) ?_ alone.waiters⟩
      · by_cases e : r = c.loop.promises.size
        · simp [e]
        · simp [alone.others r x ((View.promise_set_of_ne e ..).symm.trans hx)]
      · show p ∉ v.waiters
        rw [alone.waiters]
        exact List.not_mem_nil
      · show v.ready ++ _ = _
        rw [alone.ready]
        rfl
    obtain ⟨d, goes, holds, notes⟩ := cancels.holds (E := E) [c.loop.promises.size, p] made rfl
    exact .inl ⟨d, 2, Nat.le_refl 2, .step (by rw [goOn_within_halts nothing]; exact .call ..) goes,
      .halts _ _ holds rfl rfl rfl nothing, notes⟩
  | false =>
    cases widen : limit.widen with
    | error f =>
      refine .inr ⟨f, { c with loop := (c.loop.newPromise .plain).2 },
        rfl, by rw [goOn_within_fails nothing widen]; exact .fault .., ?_, rfl⟩
      exact Client.Alone.beside ⟨v, shows, alone⟩ (shows.apart.withLoop (shows.apart.loop.newPromise .plain trivial).1)
    | ok s =>
      let w : Watch :=
        ⟨p, i, (c.loop.newPromise .plain).2.promises.size, c.loop.promises.size, c.loop.nextTimer, c.loop.now + s, k⟩
      have apart : w.task ≠ w.inner ∧ w.task ≠ w.bell ∧ w.inner ≠ w.bell := by
        have new := shows.lt_size begun
        show p ≠ (c.loop.newPromise .plain).2.promises.size ∧ p ≠ c.loop.promises.size ∧
          (c.loop.newPromise .plain).2.promises.size ≠ c.loop.promises.size
        rw [Loop.size_newPromise]
        exact ⟨Nat.ne_of_lt (Nat.lt_succ_of_lt new), Nat.ne_of_lt new, Nat.succ_ne_self _⟩
      obtain ⟨d, goes, holds, notes⟩ := w.begins (E := E) shows alone apart launched nothing widen rfl rfl rfl rfl
      exact .inl ⟨d, 1, Nat.le_succ 1, goes, .waits w _ holds rfl rfl rfl s nothing widen rfl, notes⟩

end LspClient
