/-
What a client shows of the share of a task: the promises that are the task's own, the jobs and timers that concern them,
and whether the process has exited. All else may change beside the task without changing any of it, but for the exit of
the process and the passing of time.
-/
import LspClient.Proofs.Process.Others

namespace LspClient

open Client

/-! ## Definitions -/

/-- What a client shows of a share. -/
@[ext] structure View where
  promise : PromiseId → Option (Promise Activity Event)
  ready : List (Option TimerId × Job Event)
  timers : List (Timer Event)
  now : Float
  exited : Bool
  /-- The promises of the share that wait for the process to exit. -/
  waiters : List PromiseId

/-- What a client shows of a share. -/
def Client.view (S : Share) (c : Client) : View where
  promise r := if r ∈ S.own then c.loop.promises[r]? else none
  ready := c.loop.readyFor S.heard
  timers := c.loop.timersFor S.heard
  now := c.loop.now
  exited := (c.childAt S.child).exitCode.isSome
  waiters := c.waitersFor S

namespace View

/-- A promise of the share is changed. -/
def set (v : View) (r : PromiseId) (x : Promise Activity Event) : View :=
  { v with promise := fun q => if q = r then some x else v.promise q }

/-- Jobs of the share become ready. -/
def adds (v : View) (jobs : List (Job Event)) : View :=
  { v with ready := v.ready ++ jobs.map fun job => (none, job) }

/-- A promise of the share is settled, unless it is settled already. -/
def settle (heard : List PromiseId) (v : View) (r : PromiseId) : View :=
  match v.promise r with
  | some ⟨none, observers, .plain⟩ =>
    (v.set r ⟨some (.ok .null), [], .plain⟩).adds (observers.filter fun job => job.concerns heard)
  | _ => v

/-- The process exits. -/
def exits (heard : List PromiseId) (v : View) : View :=
  { v.waiters.foldl (settle heard) v with exited := true, waiters := [] }

/-- Timers whose time has come become ready. -/
inductive Rings (v : View) : View → Prop
  | rings (come left : List (Timer Event)) (timers : v.timers = come ++ left)
    (due : ∀ t ∈ come, Loop.isDue v.now t.due = true) :
    Rings v { v with ready := v.ready ++ come.map fun t => (some t.id, t.job), timers := left }

end View

variable {E : Executor} {S : Share} {c c' : Client} {r : PromiseId} {job : Job Event} {o : Outcome}

namespace Client

@[simp] theorem view_promise (own : r ∈ S.own) : (c.view S).promise r = c.loop.promises[r]? :=
  if_pos own

theorem view_promise_of_not (other : r ∉ S.own) : (c.view S).promise r = none :=
  if_neg other

@[simp] theorem view_ready : (c.view S).ready = c.loop.readyFor S.heard := rfl

@[simp] theorem view_timers : (c.view S).timers = c.loop.timersFor S.heard := rfl

@[simp] theorem view_now : (c.view S).now = c.loop.now := rfl

@[simp] theorem view_waiters : (c.view S).waiters = c.waitersFor S := rfl

theorem view_exited : (c.view S).exited = true ↔ c.HasExited S.child := Iff.rfl

theorem view_exited_eq_false : (c.view S).exited = false ↔ ¬ c.HasExited S.child := by
  rw [← view_exited, Bool.not_eq_true]

/-- What is shown of a promise is how it is. -/
theorem promise_of_view {x : Promise Activity Event} (h : (c.view S).promise r = some x) :
    r ∈ S.own ∧ c.loop.promises[r]? = some x := by
  by_cases own : r ∈ S.own
  · exact ⟨own, (view_promise own).symm.trans h⟩
  · rw [view_promise_of_not own] at h
    cases h

theorem role_of_view {x : Promise Activity Event} (h : (c.view S).promise r = some x) :
    c.loop.role? r = some x.role := by
  unfold Loop.role?
  rw [(promise_of_view h).2]
  rfl

theorem outcome_of_view {x : Promise Activity Event} (h : (c.view S).promise r = some x) :
    c.loop.outcome? r = x.outcome := by
  unfold Loop.outcome?
  rw [(promise_of_view h).2]
  rfl

/-- Clients that agree on a share show the same of it. -/
theorem view_congr (promises : ∀ r ∈ S.own, c'.loop.promises[r]? = c.loop.promises[r]?)
    (ready : c'.loop.readyFor S.heard = c.loop.readyFor S.heard)
    (timers : c'.loop.timersFor S.heard = c.loop.timersFor S.heard) (now : c'.loop.now = c.loop.now)
    (exited : (c'.childAt S.child).exitCode = (c.childAt S.child).exitCode)
    (waiters : c'.waitersFor S = c.waitersFor S) : c'.view S = c.view S := by
  refine View.ext (funext fun r => ?_) ready timers now (congrArg Option.isSome exited) waiters
  by_cases own : r ∈ S.own
  · rw [view_promise own, view_promise own]
    exact promises r own
  · rw [view_promise_of_not own, view_promise_of_not own]

end Client

namespace View

variable {v : View} {heard : List PromiseId}

theorem settle_open {r : PromiseId} {observers : List (Job Event)} (h : v.promise r = some ⟨none, observers, .plain⟩) :
    v.settle heard r =
    (v.set r ⟨some (.ok .null), [], .plain⟩).adds (observers.filter fun job => job.concerns heard) := by
  unfold settle
  rw [h]

theorem settle_settled {r : PromiseId} {o : Outcome} {observers : List (Job Event)} {role : Role Activity}
    (h : v.promise r = some ⟨some o, observers, role⟩) : v.settle heard r = v := by
  unfold settle
  rw [h]

/-- A promise of the share is settled. -/
def IsSettled (v : View) (r : PromiseId) : Prop :=
  ∃ o observers role, v.promise r = some ⟨some o, observers, role⟩

/-- When the process exits, nothing happens to promises that are settled already. -/
theorem exits_of_settled (h : ∀ r ∈ v.waiters, v.IsSettled r) :
    v.exits heard = { v with exited := true, waiters := [] } := by
  have nothing : ∀ ws : List PromiseId, (∀ r ∈ ws, v.IsSettled r) → ws.foldl (settle heard) v = v := fun ws hws => by
    induction ws with
    | nil => rfl
    | cons r ws ih =>
      obtain ⟨o, observers, role, hr⟩ := hws r (List.mem_cons_self ..)
      rw [List.foldl_cons, settle_settled hr]
      exact ih fun q hq => hws q (List.mem_cons_of_mem _ hq)
  unfold exits
  rw [nothing v.waiters h]

end View

/-! ## What happens elsewhere -/

/-- A promise of the share is settled in a loop. -/
theorem view_settle (c : Client) (own : r ∈ S.own) :
    ({ c with loop := c.loop.settle r (.ok .null) } : Client).view S = (c.view S).settle S.heard r := by
  have role : ∀ {x}, c.loop.promises[r]? = some x → c.loop.role? r = some x.role := fun h => by
    unfold Loop.role?
    rw [h]
    rfl
  have same : c.loop.settle r (.ok .null) = c.loop →
      ({ c with loop := c.loop.settle r (.ok .null) } : Client).view S = c.view S := fun e => by rw [e]
  unfold View.settle
  rw [view_promise own]
  split
  · next observers h =>
    have opened := Loop.settle_of_open h (.ok .null)
    refine View.ext (funext fun q => ?_) ?_ ?_ ?_ rfl rfl
    · show (if q ∈ S.own then _ else none) = if q = r then _ else _
      by_cases e : q = r
      · subst e
        rw [if_pos own, if_pos rfl]
        exact Loop.getElem?_settle_self h _
      · rw [if_neg e]
        by_cases mine : q ∈ S.own
        · rw [if_pos mine, Loop.getElem?_settle_of_ne e]
          exact (view_promise mine).symm
        · rw [if_neg mine]
          exact (view_promise_of_not mine).symm
    · show (c.loop.settle r (.ok .null)).readyFor S.heard = c.loop.readyFor S.heard ++ _
      unfold Loop.readyFor
      rw [opened, List.filter_append, List.filter_map]
      rfl
    · show (c.loop.settle r (.ok .null)).timersFor S.heard = c.loop.timersFor S.heard
      rw [opened]
      rfl
    · exact Loop.now_settle ..
  · next other =>
    refine same ?_
    rcases Loop.settle_cases c.loop r (.ok .null) with e | ⟨plain, e⟩
    · exact e
    · cases h : c.loop.promises[r]? with
      | none => rw [e, Loop.complete_of_role?_none (by unfold Loop.role?; rw [h]; rfl)]
      | some x =>
        obtain ⟨outcome, observers, role'⟩ := x
        cases (role h).symm.trans plain
        cases outcome with
        | none => exact absurd h (other observers)
        | some o' =>
          rw [e]
          exact Loop.complete_of_settled (Loop.isSettled_iff.2 ⟨o', by unfold Loop.outcome?; rw [h]; rfl⟩) _

/-- What respects a share changes nothing of what is shown of its loop. -/
theorem view_respects {l : Loop Activity Event} (h : c.loop.Respects S l) :
    ({ c with loop := l } : Client).view S = c.view S :=
  view_congr h.promise h.ready h.timers h.now rfl rfl

/-- Of what is settled when the process exits, those who wait for it are shown. -/
theorem view_settles {ws : List PromiseId} {l l' : Loop Activity Event} (h : l.Settles S ws l')
    (own : ∀ w ∈ ws, w ∈ S.own) (c : Client) : ({ c with loop := l' } : Client).view S =
    ws.foldl (View.settle S.heard) (({ c with loop := l } : Client).view S) := by
  induction h with
  | done respects => exact view_respects (c := { c with loop := _ }) respects
  | @next w ws l m l' respects rest ih =>
    have first : ({ c with loop := m.settle w (.ok .null) } : Client).view S =
        (({ c with loop := l } : Client).view S).settle S.heard w := by
      rw [← view_respects (c := { c with loop := l }) respects]
      exact view_settle { c with loop := m } (own w (List.mem_cons_self ..))
    rw [ih fun w hw => own w (List.mem_cons_of_mem _ hw), first]
    rfl

/-- What happens beside a task changes nothing of what is shown of its share, but for the exit of the process. -/
theorem view_elsewhere (h : c.Elsewhere S c') :
    c'.view S = c.view S ∨ (c.view S).exited = false ∧ c'.view S = (c.view S).exits S.heard := by
  rcases h.loop with ⟨same, waiters, respects⟩ | ⟨alive, exited, none, settles⟩
  · exact .inl (view_congr respects.promise respects.ready respects.timers respects.now (by rw [same]) waiters)
  · refine .inr ⟨view_exited_eq_false.2 alive, ?_⟩
    have settled := view_settles settles (fun w hw => List.contains_iff_mem.1 (List.mem_filter.1 hw).2) c
    exact View.ext (congrArg View.promise settled :) (congrArg View.ready settled :) (congrArg View.timers settled :)
      (congrArg View.now settled :) (view_exited.2 exited) none

/-! ## Time and turns -/

theorem view_setNow (now : Float) : ({ c with loop := { c.loop with now } } : Client).view S = { c.view S with now } :=
    rfl

/-- When a round begins, timers of the share ring. -/
theorem view_begins {l : Loop Activity Event} (h : c.loop.BeginsRound S l) :
    (c.view S).Rings (({ c with loop := l } : Client).view S) := by
  obtain ⟨come, timers, due, ready⟩ := h.ready
  have same : ({ c with loop := l } : Client).view S =
      { c.view S with
        ready := (c.view S).ready ++ come.map fun t => (some t.id, t.job)
        timers := l.timersFor S.heard } := by
    refine View.ext (funext fun r => ?_) ready rfl h.now rfl rfl
    show (if r ∈ S.own then l.promises[r]? else none) = _
    rw [h.promises]
    rfl
  rw [same]
  exact .rings come _ timers due

/-- A job is taken: it was the first one of the share, or what is shown of the share is the same. -/
theorem view_pops {l : Loop Activity Event} (h : c.loop.Pops S job l) :
    (job.concerns S.heard = true ∧ ∃ k, c.view S =
      { ({ c with loop := l } : Client).view S with
        ready := (k, job) :: (({ c with loop := l } : Client).view S).ready }) ∨
    (job.concerns S.heard = false ∧ ({ c with loop := l } : Client).view S = c.view S) := by
  have promise : ∀ {r}, (if r ∈ S.own then l.promises[r]? else none) = (c.view S).promise r := by
    intro r
    rw [h.promises]
    rfl
  have ready := h.ready
  cases concerns : job.concerns S.heard with
  | true =>
    rw [concerns, if_pos rfl] at ready
    obtain ⟨k, ready⟩ := ready
    exact .inl ⟨rfl, k, View.ext (funext fun r => promise.symm) ready h.timers.symm h.now.symm rfl rfl⟩
  | false =>
    rw [concerns, if_neg nofun] at ready
    exact .inr ⟨rfl, View.ext (funext fun r => promise) ready h.timers h.now rfl rfl⟩

end LspClient
