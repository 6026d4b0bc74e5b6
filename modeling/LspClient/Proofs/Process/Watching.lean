/-
A task that waits for the exit of a process in a client where anything else may happen: servers write, other tasks open,
read and close transports, processes exit, and the clock moves. One step of the client keeps the shape of what is shown
of the task's share, until the task is called.
-/
import LspClient.Proofs.Process.Waiting

namespace LspClient

open Client

variable {E : Executor} {c c' d : Client} {o : Outcome} {job : Job Event}

namespace Watch

variable {w : Watch} {late late' : Prop} {own : List PromiseId} {n : Nat}

/-- What a task that waits has to itself. -/
def share (w : Watch) (n : Nat) (own : List PromiseId) : Share where
  task := w.task
  child := w.child
  own := own
  heard := own
  timers := [w.timer]
  transports := n

/-- A task waits in a client for a process to exit. -/
structure Holds (w : Watch) (n : Nat) (late : Prop) (own : List PromiseId) (c : Client) : Prop where
  apart : c.Apart (w.share n own)
  task : w.task ∈ own
  inner : w.inner ∈ own
  bell : w.bell ∈ own
  launched : w.child < c.children.size
  shape : w.Shape late (c.view (w.share n own))

/-! ## What happens elsewhere -/

theorem Holds.elsewhere (h : w.Holds n late own c) (b : c.Beside (w.share n own) c')
    (due : ¬ c.HasExited w.child → Loop.isDue c.loop.now w.due = true → late') (imp : late → late') :
    w.Holds n late' own c' := by
  refine ⟨b.apart, h.task, h.inner, h.bell, Nat.lt_of_lt_of_le h.launched b.elsewhere.launched, ?_⟩
  rcases view_elsewhere b.elsewhere with same | ⟨running, exits⟩
  · rw [same]
    exact h.shape.mono imp
  · rw [exits]
    exact h.shape.exits running h.inner (due (view_exited_eq_false.1 running)) imp

theorem Holds.setNow (h : w.Holds n late own c) {now : Float} (later : Loop.isDue now c.loop.now = true) :
    w.Holds n late own { c with loop := { c.loop with now } } :=
  ⟨h.apart.replace (h.apart.loop.setNow now) (Nat.le_refl _), h.task, h.inner, h.bell, h.launched, h.shape.setNow later⟩

theorem Holds.begins (h : w.Holds n late own c) {l : Loop Activity Event}
    (begins : c.loop.BeginsRound (w.share n own) l) :
    w.Holds n late own { c with loop := l } :=
  ⟨h.apart.replace begins.apart (Nat.le_of_eq (by rw [begins.promises])), h.task, h.inner, h.bell, h.launched,
    h.shape.rings (view_begins begins)⟩

/-- Where nothing is left to run, the process runs, and its time is not over. -/
theorem Holds.idle (h : w.Holds n late own c) (nothing : c.loop.next? = none) :
    ¬ c.HasExited w.child ∧ Loop.isDue c.loop.now w.due = false := by
  obtain ⟨ready, timers⟩ := h.apart.loop.orderly.idle nothing
  have none : (c.view (w.share n own)).ready = [] := by
    show c.loop.ready.filter _ = []
    rw [ready]
    rfl
  obtain ⟨running, t, ht, due⟩ := h.shape.rests none
  exact ⟨view_exited_eq_false.1 running, due ▸ timers t (List.mem_filter.1 ht).1⟩

/-! ## Turns of the inner task -/

/-- A client in which a task has begun to wait for the exit of a process. -/
def asking (c : Client) (p : PromiseId) (i : ChildId) : Client :=
  { c with
    loop := ((c.loop.setRole p (.task [] none false)).newPromise .plain).2.suspend p [.relay]
      (c.loop.setRole p (.task [] none false)).promises.size
    running := none
    children := c.children.modify i fun x =>
      { x with waiters := x.waiters ++ [(c.loop.setRole p (.task [] none false)).promises.size] } }

theorem does_runTask_asks {p : PromiseId} {i : ChildId} {source : Option PromiseId}
    (role : c.loop.role? p = some (.task [.awaitExit i] source false)) (running : ¬ c.HasExited i) :
    does E (runTask p (.ok .null)) c = (.ok (), asking c p i) := by
  have begins := goOn_awaitExit_waits (E := E) (c := c.resumed p) (i := i) running
  have goes : Advances E p 1 [.awaitExit i] (.ok .null) (c.resumed p) _ :=
    .waits (by rw [begins]; exact .wait _ (Loop.outcome?_new (c.resumed p).loop .plain))
  rw [goes.does_runTask role (by unfold taskFuel; omega)]
  rfl

/-- The inner task begins to wait: what it waits for is its own, and what is shown is what it asks for. -/
theorem asking_spec {v : View} (h : c.Presents (w.share n own) v) (launched : w.child < c.children.size)
    (begins : w.Begins v) :
    (asking c w.inner w.child).Presents (w.share n (c.loop.promises.size :: own)) (w.asks c.loop.promises.size v) := by
  have size : (c.loop.setRole w.inner (.task [] none false)).promises.size = c.loop.promises.size :=
    Loop.size_setRole ..
  have ne : w.inner ≠ (c.loop.setRole w.inner (.task [] none false)).promises.size := by
    rw [size]
    exact h.ne_new begins.1
  have made := (h.setRole begins.1 (.task [] none false)).newOwn rfl .plain
  have known :=
    (View.promise_set_of_ne ne (v.set w.inner ⟨none, [w.ring], .task [] none false⟩) ⟨none, [], .plain⟩).trans
    (View.promise_set_self ..)
  have waits := made.suspend known (View.promise_set_self ..) ne [.relay]
  rw [View.set_around ne] at waits
  rw [← size]
  exact (waits.awaitOwn (View.promise_set_self ..) launched).running none

/-- The task is called. -/
structure Called (w : Watch) (n : Nat) (late : Prop) (own : List PromiseId) (c : Client) : Prop where
  apart : c.Apart (w.share n own)
  task : w.task ∈ own
  inner : w.inner ∈ own
  bell : w.bell ∈ own
  launched : w.child < c.children.size
  fits : w.Fits (c.view (w.share n own))
  rung : w.HasRung (c.view (w.share n own))
  found : w.Found late (c.view (w.share n own))

/-- The inner task ends, and its end is about to ring the bell. -/
theorem endsWith_spec {v : View} (h : c.Presents (w.share n own) v) (bell : w.bell ∈ own) {role : Role Activity}
    (known : v.promise w.inner = some ⟨none, [w.ring], role⟩) :
    (c.endsWith w.inner (.ok .null)).Presents (w.share n own) (w.ends v) :=
  h.endsWith known (List.forall_mem_singleton.2 (Job.concerns_iff.2 ⟨w.bell, rfl, bell⟩)) _

/-- A job of the share is taken up: the task still waits, and does nothing itself, or it is called. -/
theorem Holds.take (h : w.Holds n late own c) {l : Loop Activity Event} (pops : c.loop.Pops (w.share n own) job l)
    (mine : job.concerns own = true) (due : ¬ c.HasExited w.child → Loop.isDue c.loop.now w.due = true → late')
    (imp : late → late') :
    (job.drives w.task = false ∧ ∃ own', w.Holds n late' own' (does E (runJob job) { c with loop := l }).2) ∨
      (job = w.call ∧ w.Called n late' own { c with loop := l }) := by
  have apart : ({ c with loop := l } : Client).Apart (w.share n own) :=
    h.apart.replace pops.apart (Nat.le_of_eq (by rw [pops.promises]))
  obtain ⟨-, k, before⟩ | ⟨other, -⟩ := view_pops pops
  · have now : c.loop.now = l.now := congrArg View.now before
    have shown := h.shape
    rw [before] at shown
    have taken := shown.take h.task
      (fun running time => due (view_exited_eq_false.1 (by rw [before]; exact running)) (by rw [now]; exact time)) imp
    cases taken with
    | ring shape =>
      refine .inl ⟨rfl, own, ?_, h.task, h.inner, h.bell, h.launched, ?_⟩
      · refine apart.replace (apart.loop.settle w.bell (.ok .null)) (Nat.le_of_eq ?_)
        exact (Loop.size_settle ..).symm
      · have settled := view_settle (S := w.share n own) { c with loop := l } h.bell
        exact (congrArg (w.Shape late') settled).mpr shape
    | begins inner ends asks =>
      have other : Job.drives w.task (.step w.inner : Job Event) = false := beq_false_of_ne h.shape.fits.apart.1.symm
      have role := role_of_view (c := { c with loop := l }) inner.1
      by_cases exited : ({ c with loop := l } : Client).HasExited w.child
      · have finds := goOn_awaitExit_done (E := E) (c := ({ c with loop := l } : Client).resumed w.inner) exited
        have ended := does_runTask_ends (E := E) (o := .ok .null) role (by rw [if_neg nofun, finds]; exact .done ..)
        obtain ⟨apart', view⟩ := endsWith_spec apart.shows h.bell inner.1
        refine .inl ⟨other, own, ?_⟩
        rw [show does E (runJob (.step w.inner)) { c with loop := l } = _ from ended]
        exact ⟨apart', h.task, h.inner, h.bell, h.launched, view ▸ ends (view_exited.2 exited)⟩
      · have asked := does_runTask_asks (E := E) role exited
        obtain ⟨apart', view⟩ := asking_spec apart.shows h.launched inner
        refine .inl ⟨other, l.promises.size :: own, ?_⟩
        rw [show does E (runJob (.step w.inner)) { c with loop := l } = _ from asked]
        refine ⟨apart', List.mem_cons_of_mem _ h.task, List.mem_cons_of_mem _ h.inner, List.mem_cons_of_mem _ h.bell,
          ?_, ?_⟩
        · exact Nat.lt_of_lt_of_eq h.launched (Array.size_modify ..).symm
        · rw [view]
          exact asks (view_exited_eq_false.2 exited) _
            (view_promise_of_not (S := w.share n own) fun mine => Nat.lt_irrefl _ (apart.loop.own _ mine))
    | wakes exit inner ends =>
      have role := role_of_view (c := { c with loop := l }) inner.1
      have settled := outcome_of_view (c := { c with loop := l }) inner.2.1
      have ended := does_runTask_ends (E := E) (o := .ok .null) role (by rw [if_neg nofun]; exact .done ..)
      obtain ⟨apart', view⟩ := endsWith_spec apart.shows h.bell inner.1
      refine .inl ⟨beq_false_of_ne h.shape.fits.apart.1.symm, own, ?_⟩
      have wakes : does E (runJob (.wake w.inner exit)) { c with loop := l } =
          does E (runTask w.inner (.ok .null)) { c with loop := l } := by
        unfold runJob
        rw [does_bind_of_ok (does_get _), settled]
      rw [wakes, ended]
      exact ⟨apart', h.task, h.inner, h.bell, h.launched, view ▸ ends⟩
    | calls fits bell found => exact .inr ⟨rfl, apart, h.task, h.inner, h.bell, h.launched, fits, bell, found⟩
  · rw [show job.concerns own = false from other] at mine
    cases mine

end Watch

end LspClient
