/-
How a task ends that has closed a process. Once the process has exited, the task waits for the rest of the error stream
and says so; whatever wakes it then, it asks for nothing more. It ends early only with the fault that a time cannot be
measured.
-/
import LspClient.Proofs.Process.Asking

namespace LspClient

open Client

/-! ## Definitions -/

/-- What a task has to itself that anyone may wake. -/
def Share.idle (p : PromiseId) (i : ChildId) (n : Nat) : Share where
  task := p
  child := i
  own := [p]
  heard := []
  timers := []
  transports := n

/-- A task runs that anyone may wake, and waits for nothing. -/
structure Client.Runs (p : PromiseId) (i : ChildId) (n : Nat) (outcome : Option Outcome) (c : Client) : Prop where
  apart : c.Apart (.idle p i n)
  unheard : c.waitersFor (.idle p i n) = []
  role : c.loop.role? p = some (.task [] none false)
  outcome : c.loop.outcome? p = outcome

/-- A task has ended because one of some times could not be measured. -/
def Outcome.IsUnmeasured (times : List Number) (o : Outcome) : Prop :=
  ∃ f : Fault, f.IsUnmeasured times ∧ o = .error f

/-- A task asks nothing more of a process: the process has exited, or the task has ended because one of some times could
not be measured. -/
structure Over (p : PromiseId) (i : ChildId) (n : Nat) (times : List Number) (c : Client) : Prop where
  apart : c.Apart (.idle p i n)
  unheard : c.waitersFor (.idle p i n) = []
  task : ∃ stack source b, c.loop.role? p = some (.task stack source b) ∧ (stack = [] ∨ stack = [.closeDrained i])
  exited : c.HasExited i ∨ ∃ o, c.loop.outcome? p = some o ∧ o.IsUnmeasured times

variable {E : Executor} {S : Share} {c d : Client} {p : PromiseId} {i : ChildId} {t : TransportId}
  {n : Nat} {o : Outcome} {outcome : Option Outcome} {times times' : List Number} {job : Job Event}
  {l : Loop Activity Event}

/-! ## What happens elsewhere -/

/-- Nobody of a share waits for its process: what happens beside it changes none of its promises. -/
theorem Client.Elsewhere.unheard (h : c.Elsewhere S d) (nobody : c.waitersFor S = []) :
    d.waitersFor S = [] ∧ ∀ r ∈ S.own, d.loop.promises[r]? = c.loop.promises[r]? := by
  rcases h.loop with ⟨-, waiters, respects⟩ | ⟨-, -, waiters, settles⟩
  · exact ⟨waiters.trans nobody, respects.promise⟩
  · rw [nobody] at settles
    cases settles with
    | done respects => exact ⟨waiters, respects.promise⟩

theorem Client.Runs.beside (h : c.Runs p i n outcome) (b : c.Beside (.idle p i n) d) : d.Runs p i n outcome := by
  obtain ⟨unheard, promise⟩ := b.elsewhere.unheard h.unheard
  have same := promise p (List.mem_cons_self ..)
  exact ⟨b.apart, unheard, (Loop.role?_congr same).trans h.role, (Loop.outcome?_congr same).trans h.outcome⟩

theorem Over.beside (h : Over p i n times c) (b : c.Beside (.idle p i n) d) : Over p i n times d := by
  obtain ⟨unheard, promise⟩ := b.elsewhere.unheard h.unheard
  have same := promise p (List.mem_cons_self ..)
  refine ⟨b.apart, unheard, ?_, h.exited.imp b.elsewhere.hasExited ?_⟩
  · rw [Loop.role?_congr same]
    exact h.task
  · rw [Loop.outcome?_congr same]
    exact id

theorem Over.mono (h : Over p i n times c) (more : times ⊆ times') : Over p i n times' c :=
  ⟨h.apart, h.unheard, h.task, h.exited.imp_right fun ⟨o, told, f, ⟨time, mem, g, widen, e⟩, fails⟩ =>
    ⟨o, told, f, ⟨time, more mem, g, widen, e⟩, fails⟩⟩

/-- The loop goes on without any promise being changed. -/
theorem Over.withLoop (h : Over p i n times c) (apart : l.Apart (.idle p i n))
    (promises : l.promises = c.loop.promises) :
    Over p i n times { c with loop := l } := by
  have same : l.promises[p]? = c.loop.promises[p]? := by rw [promises]
  refine ⟨h.apart.replace apart (Nat.le_of_eq (by rw [promises])), h.unheard, ?_, ?_⟩
  · show ∃ stack source b, l.role? p = _ ∧ _
    rw [Loop.role?_congr same]
    exact h.task
  · show c.HasExited i ∨ ∃ o, l.outcome? p = _ ∧ _
    rw [Loop.outcome?_congr same]
    exact h.exited

/-- A task that has only itself needs nothing to itself. -/
theorem Client.Alone.runs (h : c.Alone p i n) : c.Runs p i n none := by
  obtain ⟨v, shows, alone⟩ := h
  obtain ⟨observers, begun⟩ := alone.begun
  have loop : c.loop.Apart (.idle p i n) := by
    refine shows.apart.loop.release (fun _ mine => mine) nofun nofun nofun (fun r mine other => absurd mine other)
      (fun r mine other => absurd mine other) fun x _ hc => ?_
    obtain ⟨r, -, mine⟩ := Job.concerns_iff.1 hc
    cases mine
  have waiters : c.waitersFor (.idle p i n) = [] := (congrArg View.waiters shows.view :).trans alone.waiters
  exact ⟨⟨loop, shows.apart.pipes, shows.apart.count, shows.apart.transports, shows.apart.links, shows.apart.children,
    shows.apart.tasks⟩, waiters, shows.role begun, shows.outcome begun⟩

/-! ## The end of the task -/

/-- A task that runs ends: its process has exited, or a time could not be measured. -/
theorem Client.Runs.finish (h : c.Runs p i n outcome) (finished : c.HasExited i ∨ (outcome.getD o).IsUnmeasured times) :
    Over p i n times ({ c with loop := c.loop.finish p o } : Client).atRest := by
  have told := Loop.outcome?_complete_self c.loop p o (Loop.lt_size_of_role? h.role)
  rw [h.outcome] at told
  have ended := h.apart.replace (h.apart.loop.complete p o) (Nat.le_of_eq (Loop.size_complete ..).symm)
  rw [finish_of_role h.role]
  refine ⟨(ended.running none).apart, h.unheard,
    ⟨[], none, false, ?_, .inl rfl⟩, finished.imp id fun unmeasured => ⟨_, told, unmeasured⟩⟩
  exact (Loop.role?_complete ..).trans h.role

/-- All is said about the process, or the task was cancelled. -/
theorem goesTo_closeDrained (i : ChildId) (o : Outcome) (c : Client) :
    ∃ o' d, Moment.GoesTo p [] (does E (goOn (.closeDrained i) o) c) (some ([], o'), d) ∧ d.asked = c.asked ∧
      ∀ S, c.Apart S → c.Beside S d := by
  have beside : ∀ S, c.Apart S → c.Beside S (does E (goOn (.closeDrained i) o) c).2 := fun S h =>
    ((goesAside_closeDrained i o).keeps h).1
  cases o with
  | error f => exact ⟨.error f, c, .fault f c, rfl, fun S h => h.beside⟩
  | ok v => exact ⟨.ok .null, _, .done .null _, (asked_note c _).trans (List.append_nil _), beside⟩

/-- A job wakes a task that asks nothing more: it asks nothing, and nothing more afterwards. -/
theorem Over.runJob (h : Over p i n times c) (mine : job.concerns [p] = true) :
    Over p i n times (does E (runJob job) c).2 ∧ (does E (runJob job) c).2.asked = c.asked := by
  obtain ⟨stack, source, b, role, simple⟩ := h.task
  have turn : ∀ o, Over p i n times (does E (runTask p o) c).2 ∧
      (does E (runTask p o) c).2.asked = c.asked := fun o => by
    have set := h.apart.loop.setRole p (.task [] none false) fun other => absurd (List.mem_cons_self ..) other
    have put := h.apart.replace set (Nat.le_of_eq (Loop.size_setRole ..).symm)
    have resumed : (c.resumed p).Runs p i n (c.loop.outcome? p) :=
      ⟨(put.running (some p)).apart, h.unheard, Loop.role?_setRole_self role _,
        Loop.outcome?_setRole ..⟩
    have finished : ∀ {d : Client} {o : Outcome}, (c.resumed p).Beside (.idle p i n) d →
        d.HasExited i ∨ ((c.loop.outcome? p).getD o).IsUnmeasured times := fun {d o} b =>
      h.exited.imp b.elsewhere.hasExited fun ⟨f, told, unmeasured⟩ => by
        rw [told]
        exact unmeasured
    rcases simple with rfl | rfl
    · have ends : Advances E p 1 [] (if b then .error .cancelled else o) (c.resumed p) _ := .ends
      rw [ends.does_runTask role (by unfold taskFuel; omega)]
      exact ⟨resumed.finish (finished resumed.apart.beside), rfl⟩
    · obtain ⟨o', d, goes, asked, beside⟩ :=
        goesTo_closeDrained (E := E) (p := p) i (if b then .error .cancelled else o) (c.resumed p)
      have ends : Advances E p 2 [.closeDrained i] (if b then .error .cancelled else o) (c.resumed p) _ :=
        .step goes .ends
      rw [ends.does_runTask role (by unfold taskFuel; omega)]
      have apart := beside _ resumed.apart
      exact ⟨(resumed.beside apart).finish (finished apart), asked⟩
  obtain ⟨r, target, e⟩ := Job.concerns_iff.1 mine
  obtain rfl := List.mem_singleton.1 e
  cases job with
  | step q =>
    cases target
    exact turn _
  | wake q source' =>
    cases target
    unfold Client.runJob
    rw [does_bind_of_ok (does_get c)]
    cases c.loop.outcome? source' with
    | none => exact ⟨h, rfl⟩
    | some o => exact turn o
  | fulfil q =>
    cases target
    have nothing : c.loop.settle r (.ok .null) = c.loop := by
      unfold Loop.settle
      rw [role]
    show Over r i n times { c with loop := c.loop.settle r (.ok .null) } ∧ _
    rw [nothing]
    exact ⟨h, rfl⟩
  | member g m =>
    cases target
    have nothing : c.loop.memberSettled r = c.loop := by
      unfold Loop.memberSettled
      rw [role]
    show Over r i n times { c with loop := c.loop.memberSettled r } ∧ _
    rw [nothing]
    exact ⟨h, rfl⟩
  | notify e => cases target
  | idle => cases target

/-! ## The rest of the error stream -/

/-- A task that anyone may wake begins to wait for another promise. -/
theorem Client.Runs.suspend (h : c.Runs p i n outcome) (g : PromiseId) (exited : c.HasExited i) :
    Over p i n times ({ c with loop := c.loop.suspend p [.closeDrained i] g } : Client).atRest := by
  have suspended : c.loop.suspend p [.closeDrained i] g =
      (c.loop.observe g (.wake p g)).setRole p (.task [.closeDrained i] (some g) false) := by
    unfold Loop.suspend
    rw [h.role]
    rfl
  have observed : (c.loop.observe g (.wake p g)).Apart (.idle p i n) :=
    h.apart.loop.observe g (Job.fits_of_target? rfl (Loop.lt_size_of_role? h.role)) fun _ =>
      Job.concerns_eq_false.2 fun _ _ => nofun
  have set := observed.setRole p (.task [.closeDrained i] (some g) false) fun other =>
    absurd (List.mem_cons_self ..) other
  have role : (c.loop.observe g (.wake p g)).role? p = some (.task [] none false) :=
    (Loop.role?_observe ..).trans h.role
  rw [suspended]
  have put := h.apart.replace set (by rw [Loop.size_setRole, Loop.size_observe])
  exact ⟨(put.running none).apart, h.unheard,
    ⟨_, _, false, Loop.role?_setRole_self role _, .inr rfl⟩, .inl exited⟩

/-- The process has exited: the task waits for the rest of the error stream, or ends at once. -/
theorem Client.Runs.drains (h : c.Runs p i n none) (lt : t < n) (exited : c.HasExited i) {k : Activity}
    (goes : does E (goOn k (.ok .null)) c = does E (awaitDrain t i) c) :
    ∃ d m, m ≤ 3 ∧ Advances E p m [k] (.ok .null) c d ∧ Over p i n [] d.atRest ∧ d.asked = c.asked := by
  have first : does E (transport t) c = (.ok (c.transportAt t), c) := rfl
  have known := (h.apart.transportAt lt).2
  unfold awaitDrain at goes
  rw [does_bind_of_ok first] at goes
  cases drain : (c.transportAt t).drain with
  | none =>
    rw [drain] at goes
    obtain ⟨o', d, ends, asked, beside⟩ := goesTo_closeDrained (E := E) (p := p) i (.ok .null) c
    have apart := beside _ h.apart
    refine ⟨_, 3, Nat.le_refl 3, .step (by rw [goes]; exact .become ..) (.step ends .ends), ?_, asked⟩
    exact (h.beside apart).finish (.inl (apart.elsewhere.hasExited exited))
  | some task =>
    rw [drain] at goes
    have forgets :
        c.Beside (.idle p i n) { c with transports := c.transports.modify t fun x => { x with drain := none } } :=
      ((aside_setDrain (E := E) t none nofun).keeps h.apart).1
    let d : Client := { c with
      loop := (c.loop.gather [task]).2
      transports := c.transports.modify t fun x => { x with drain := none } }
    have apart : c.Beside (.idle p i n) d := forgets.trans (forgets.apart.withLoop
      (forgets.apart.loop.gather (List.forall_mem_singleton.2 (forgets.known (known task drain)))).1)
    have gathers : does E (goOn k (.ok .null)) c = (.ok (.await c.loop.promises.size (.closeDrained i)), d) := goes
    have opened : d.loop.outcome? c.loop.promises.size = none :=
      (Loop.outcome?_observe ..).trans (Loop.outcome?_new c.loop _)
    refine ⟨{ d with loop := d.loop.suspend p [.closeDrained i] c.loop.promises.size }, 1, by omega,
      .waits (by rw [gathers]; exact .wait _ opened), ?_, rfl⟩
    exact (h.beside apart).suspend _ (apart.elsewhere.hasExited exited)

end LspClient
