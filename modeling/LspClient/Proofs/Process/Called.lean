/-
How a task that waits for the exit of a process is called. If the inner task has ended, the task goes on; if not, it
cancels the inner task first, and then goes on with the fault that its time is over. What it had to itself is let go.
-/
import LspClient.Proofs.Process.Within

namespace LspClient

open Client

variable {E : Executor} {S : Share} {c d : Client} {v : View} {own : List PromiseId} {n : Nat}
  {p q r : PromiseId} {k : TimerId}

/-! ## Letting go -/

/-- A task takes up what it is in the middle of, and lets go all but itself. -/
theorem Client.Presents.alone (h : c.Presents S v) (task : S.task = p) (all : S.heard = S.own)
    {observers : List (Job Event)} {role : Role Activity} (known : v.promise p = some ⟨none, observers, role⟩)
    (idle : ∀ r x, v.promise r = some x → r ≠ p →
      (x.role = .plain ∨ x.role = .task [] none false) ∧ ∀ job ∈ x.observers, job.concerns [p] = false)
    (ready : ∀ y ∈ v.ready, y.2.concerns [p] = false) (timers : ∀ t ∈ v.timers, t.job.concerns [p] = false)
    (unheard : p ∉ v.waiters) : (c.resumed p).Alone p S.child S.transports := by
  subst task
  have lets := h.lets all [S.task] (fun r hr => by rw [List.mem_singleton.1 hr]; exact (h.promise known).1)
    (fun r x hx other => idle r x hx fun e => other (List.mem_singleton.2 e))
    (fun y hy hc => by rw [ready y hy] at hc; cases hc) timers
  have kept : (v.restrict [S.task]).promise S.task = some ⟨none, observers, role⟩ :=
    (if_pos (List.mem_cons_self ..)).trans known
  refine ⟨_, lets.resumed kept, ⟨observers, View.promise_set_self ..⟩, fun r x hx => ?_, ?_, ?_, ?_⟩
  · by_contra e
    have kept : (v.restrict [S.task]).promise r = some x := (View.promise_set_of_ne e ..).symm.trans hx
    rw [show (v.restrict [S.task]).promise r = none from if_neg fun mine => e (List.mem_singleton.1 mine)] at kept
    cases kept
  · exact List.filter_eq_nil_iff.2 fun y hy => by rw [ready y hy]; nofun
  · exact List.filter_eq_nil_iff.2 fun t ht => by rw [timers t ht]; nofun
  · refine List.filter_eq_nil_iff.2 fun r hr mine => unheard ?_
    have e : r = S.task := by simpa using mine
    exact e ▸ hr

/-! ## The activities of a task that is called -/

theorem goOn_withinAwaited_ended {w : Value} (ended : c.loop.outcome? q = some (.ok w)) (bell : PromiseId) (k : TimerId)
    (o : Outcome) :
    does E (goOn (.withinAwaited q bell k) o) c = (.ok (.done w), { c with loop := c.loop.cancelTimer k }) := by
  have settled : does E (isSettled q) c = (.ok true, c) := by
    show ((.ok (c.loop.isSettled q), c) : Except Fault Bool × Client) = _
    rw [Loop.isSettled_iff.2 ⟨_, ended⟩]
  have told : does E (outcomeOf q) { c with loop := c.loop.cancelTimer k } =
      (.ok w, { c with loop := c.loop.cancelTimer k }) := by
    have same : (c.loop.cancelTimer k).outcome? q = some (.ok w) := ended
    unfold outcomeOf
    rw [does_bind_of_ok (does_get _), same]
    rfl
  show does E (withinAwaited q bell k o) c = _
  unfold withinAwaited
  rw [does_bind_of_ok settled]
  exact does_bind_of_ok told _

theorem goOn_withinAwaited_open (opened : c.loop.outcome? q = none) (bell : PromiseId) (k : TimerId) :
    does E (goOn (.withinAwaited q bell k) (.ok .null)) c =
      (.ok (.call (.halt q) (.overdue q (some k))), { c with loop := c.loop.unobserve q bell }) := by
  have settled : does E (isSettled q) c = (.ok false, c) := by
    show ((.ok (c.loop.isSettled q), c) : Except Fault Bool × Client) = _
    rw [Loop.isSettled_eq_false.2 opened]
  show does E (withinAwaited q bell k (.ok .null)) c = _
  unfold withinAwaited
  rw [does_bind_of_ok settled]
  rfl

theorem goOn_halted (q w : PromiseId) : does E (goOn (.halted q w) (.ok .null)) c =
    (.ok (.done .null), { c with loop := c.loop.unobserve q w }) := rfl

theorem goOn_overdue (broken : c.loop.outcome? q = some (.error .cancelled)) (k : Option TimerId) :
    ∃ l, does E (goOn (.overdue q k) (.ok .null)) c = (.error .timedOut, { c with loop := l }) ∧ l.now = c.loop.now ∧
      ∀ S, S.timers = [] → c.loop.Apart S → c.loop.Beside S l := by
  -- What is done once the timer is stopped does not depend on whether there was one.
  have thrown : ∀ {c : Client}, c.loop.outcome? q = some (.error .cancelled) →
      does E (goOn (.overdue q none) (.ok .null)) c = (.error .timedOut, c) := fun {c} h => by
    have stops : does E (stopTimer none) c = (.ok (), c) := rfl
    have first : does E (valueOf (.ok .null)) c = (.ok .null, c) := rfl
    show does E (overdue q none (.ok .null)) c = _
    unfold overdue
    rw [does_bind_of_ok stops, does_bind_of_ok first, does_bind_of_ok (does_get c), h]
    rfl
  cases k with
  | none => exact ⟨c.loop, thrown broken, rfl, fun _ _ apart => apart.beside⟩
  | some k =>
    refine ⟨c.loop.cancelTimer k, thrown (c := { c with loop := c.loop.cancelTimer k }) broken, rfl,
      fun S none apart => apart.cancelTimer ?_⟩
    rw [none]
    exact List.not_mem_nil

/-! ## The task is called -/

/-- Nobody of the promises that are kept waits for the exit any more. -/
theorem IsExit.idle {inner : PromiseId} {x : Promise Activity Event} (h : IsExit inner r x) (other : inner ∉ own) :
    (x.role = .plain ∨ x.role = .task [] none false) ∧ ∀ job ∈ x.observers, job.concerns own = false :=
  ⟨.inl h.1, fun job hj => by
    rw [h.2 job hj]
    exact Job.concerns_eq_false.2 fun q e => by cases e; exact other⟩

namespace Watch

variable {w : Watch} {late : Prop}

theorem concerns_ring (other : w.bell ∉ own) : Job.concerns own (w.ring : Job Event) = false :=
  Job.concerns_eq_false.2 fun r e => by cases e; exact other

/-- What is ready and concerns promises other than the bell is ready beside what rings the bell. -/
theorem filter_ready (other : w.bell ∉ own) :
    (v.ready.filter fun y => y.2.concerns own) = (w.core v).filter fun y => y.2.concerns own := by
  unfold core
  rw [List.filter_filter]
  refine List.filter_congr fun y _ => ?_
  cases rings : Loop.Job.fulfils w.bell y.2 with
  | true => rw [eq_ring rings, concerns_ring other]; rfl
  | false => simp

/-- The inner task has ended: the task goes on. -/
theorem Called.goes_on (called : w.Called n late own c) (ended : w.Ended (c.view (w.share n own)))
    (nothing : w.core (c.view (w.share n own)) = []) :
    ∃ d, d.Alone w.task w.child n ∧ d.HasExited w.child ∧ d.notes = c.notes ∧
    ∀ {m e}, Advances E w.task m [w.next] (.ok .null) d e →
      Advances E w.task (m + 1) [.withinAwaited w.inner w.bell w.timer, w.next] (.ok .null) (c.resumed w.task) e := by
  have fits := called.fits
  obtain ⟨observers, closing⟩ := fits.closing
  have bell : w.bell ∉ [w.task] := fun mine => fits.apart.2.1 (List.mem_singleton.1 mine).symm
  have inner : w.inner ∉ [w.task] := fun mine => fits.apart.1 (List.mem_singleton.1 mine).symm
  have alone : (c.resumed w.task).Alone w.task w.child n := by
    refine called.apart.shows.alone rfl rfl closing (fun r x hx other => ?_) (fun y hy => ?_)
      (fun t ht => ?_) fits.unheard
    · rcases fits.others r x hx with mine | exit
      · rcases List.mem_cons.1 mine with e | mine
        · exact absurd e other
        · rcases List.mem_pair.1 mine with rfl | rfl
          · cases ended.1.symm.trans hx
            exact ⟨.inr rfl, nofun⟩
          · cases called.rung.symm.trans hx
            exact ⟨.inl rfl, nofun⟩
      · exact exit.idle inner
    · refine Bool.eq_false_iff.2 fun hc => ?_
      have left := filter_ready (v := c.view (w.share n own)) bell
      rw [nothing] at left
      exact List.filter_eq_nil_iff.1 left y hy hc
    · rw [(fits.alarms t ht).1]
      exact concerns_ring bell
  have told :=
    (called.apart.shows.resumed closing).outcome ((View.promise_set_of_ne fits.apart.1.symm ..).trans ended.1)
  obtain ⟨v, shows, _⟩ := id alone
  refine ⟨{ c.resumed w.task with loop := (c.resumed w.task).loop.cancelTimer w.timer }, ?_, ?_, rfl,
    fun goes => .step ?_ goes⟩
  · exact alone.beside (shows.apart.withLoop (shows.apart.loop.cancelTimer List.not_mem_nil))
  · exact view_exited.1 ended.2
  · rw [goOn_withinAwaited_ended told]
    exact .done ..

/-- What is found of an inner task that has not ended: it waits, or is about to go on. -/
inductive Unfinished (w : Watch) (v : View) (source : Option PromiseId) : Prop
  | waits (exit : PromiseId) (inner : w.Waits v exit) (core : w.core v = []) (e : source = some exit)
  | woken (exit : PromiseId) (inner : w.Woken v exit) (core : w.core v = [(none, .wake w.inner exit)])
    (e : source = some exit)

/-- What is shown of a task that is called before the inner task has ended, once it has let go the bell. -/
def released (w : Watch) (own : List PromiseId) (observers : List (Job Event)) (source : Option PromiseId)
    (v : View) : View :=
  ((v.restrict (own.filter (· != w.bell))).set w.task ⟨none, observers, .task [] none false⟩).set w.inner
    ⟨none, [], .task [.relay] source false⟩

variable {observers : List (Job Event)} {source : Option PromiseId}

theorem bell_not_mem : w.bell ∉ own.filter (· != w.bell) := by simp

theorem Unfinished.inner (u : w.Unfinished v source) :
    v.promise w.inner = some ⟨none, [w.ring], .task [.relay] source false⟩ := by
  cases u with
  | waits exit inner _ e | woken exit inner _ e => rw [e]; exact inner.1

theorem Unfinished.core (u : w.Unfinished v source) : ∀ y ∈ w.core v, y.1 = none := by
  cases u with
  | waits _ _ core => rw [core]; nofun
  | woken _ _ core => rw [core]; exact List.forall_mem_singleton.2 rfl

theorem released_of_ne (only : ∀ r x, v.promise r = some x → r ∈ own) (e : r ≠ w.task) (e' : r ≠ w.inner)
    (e'' : r ≠ w.bell) :
    (w.released own observers source v).promise r = v.promise r := by
  refine (View.promise_set_of_ne e' ..).trans ((View.promise_set_of_ne e ..).trans ?_)
  by_cases mine : r ∈ own
  · exact if_pos (by simp [mine, e''])
  · refine (if_neg (by simp [mine])).trans ?_
    cases known : v.promise r with
    | none => rfl
    | some x => exact absurd (only r x known) mine

/-- The task is about to cancel the inner task. -/
theorem Fits.released (fits : w.Fits v) (rung : w.HasRung v) (u : w.Unfinished v source)
    (only : ∀ r x, v.promise r = some x → r ∈ own) (waiter : PromiseId) :
    Halt.Begins ⟨w.task, w.child, w.inner, waiter, some w.timer, w.next⟩ (w.released own observers source v) := by
  obtain ⟨ne, ne', ne''⟩ := fits.apart
  have inner := u.inner
  have mine : w.inner ∈ own := only _ _ inner
  refine ⟨⟨observers, (View.promise_set_of_ne ne ..).trans (View.promise_set_self ..)⟩, ne, fun r x hx => ?_,
    fun heard => ?_, ?_, ?_⟩
  · by_cases e : r = w.task
    · exact .inl (by simp [e])
    · by_cases e' : r = w.inner
      · exact .inl (by simp [e'])
      · by_cases e'' : r = w.bell
        · subst e''
          have none : (w.released own observers source v).promise w.bell = none :=
            (View.promise_set_of_ne e' ..).trans ((View.promise_set_of_ne e ..).trans (if_neg bell_not_mem))
          rw [none] at hx
          cases hx
        · rcases fits.others r x ((released_of_ne only e e' e'').symm.trans hx) with mine | exit
          · simp [e, e', e''] at mine
          · exact .inr exit
  · exact fits.unheard (List.mem_filter.1 heard).1
  · exact List.filter_eq_nil_iff.2 fun t ht => by
      rw [(fits.alarms t ht).1, concerns_ring bell_not_mem]
      nofun
  · have ready : (w.released own observers source v).ready =
        (w.core v).filter fun y => y.2.concerns (own.filter (· != w.bell)) :=
      filter_ready bell_not_mem
    obtain ⟨_, closing⟩ := fits.closing
    cases u with
    | waits exit waits core e =>
      obtain ⟨known, opened, running, waiters⟩ := waits
      have bell : exit ≠ w.bell := ne_of_promise opened rung nofun
      refine .waits exit (e ▸ View.promise_set_self ..) ?_ (ready.trans (by rw [core]; rfl)) ?_
      · exact (released_of_ne only (ne_of_promise opened closing nofun) (ne_of_promise opened known nofun) bell).trans
          opened
      · show v.waiters.filter _ = _
        rw [waiters]
        exact List.filter_cons_of_pos (by simp [only _ _ opened, bell])
    | woken exit woken core e =>
      obtain ⟨known, settled, exited, bell⟩ := woken
      refine .woken exit (e ▸ View.promise_set_self ..) ?_ (ready.trans ?_) exited
      · exact (released_of_ne only (ne_of_promise settled closing nofun) (ne_of_promise settled known nofun)
          bell.symm).trans settled
      · rw [core]
        exact List.filter_cons_of_pos (Job.concerns_iff.2 ⟨w.inner, rfl, by simp [mine, ne'']⟩)

/-- The inner task has not ended: the task cancels it, and waits for its end. -/
theorem Called.gives_up (called : w.Called n late own c) (u : w.Unfinished (c.view (w.share n own)) source) :
    ∃ (h : Halt) (own' : List PromiseId) (d : Client), h.Holds n own' d.atRest ∧ h.task = w.task ∧ h.child = w.child ∧
      h.next = w.next ∧ d.notes = c.notes ∧
      Advances E w.task 2 [.withinAwaited w.inner w.bell w.timer, w.next] (.ok .null) (c.resumed w.task) d := by
  have fits := called.fits
  obtain ⟨observers, closing⟩ := fits.closing
  obtain ⟨ne, ne', ne''⟩ := fits.apart
  have only : ∀ r x, (c.view (w.share n own)).promise r = some x → r ∈ own := fun r x hx => (promise_of_view hx).1
  have lets := called.apart.shows.lets rfl (own.filter (· != w.bell)) (fun r hr => (List.mem_filter.1 hr).1)
    (fun r x hx other => ?_) (fun y hy hc => ?_) (fun t ht => ?_)
  rotate_left
  · -- Of what belonged to the share, only the bell is let go.
    have e : r = w.bell := by_contra fun e => other (by simp [only r x hx, e])
    subst e
    cases called.rung.symm.trans hx
    exact ⟨.inl rfl, nofun⟩
  · have left : y ∈ (w.core (c.view (w.share n own))).filter fun y => y.2.concerns (own.filter (· != w.bell)) := by
      rw [← filter_ready bell_not_mem]
      exact List.mem_filter.2 ⟨hy, hc⟩
    exact u.core y (List.mem_filter.1 left).1
  · rw [(fits.alarms t ht).1]
    exact concerns_ring bell_not_mem
  have restricted : ∀ {r x}, (c.view (w.share n own)).promise r = some x → r ≠ w.bell →
      ((c.view (w.share n own)).restrict (own.filter (· != w.bell))).promise r = some x := fun {r x} hx e =>
    (if_pos (by simp [only r x hx, e])).trans hx
  have resumed := lets.resumed (restricted closing ne')
  have inner :=
    (View.promise_set_of_ne ne.symm _ ⟨none, observers, .task [] none false⟩).trans (restricted u.inner ne'')
  have unobserved := resumed.unobserve inner w.bell
  dsimp only at unobserved
  rw [List.filter_cons_of_neg (by rw [fulfils_ring]; nofun), List.filter_nil] at unobserved
  obtain ⟨d, goes, holds, notes⟩ := (fits.released called.rung u only _).holds (E := E) _ unobserved rfl
  exact ⟨_, _, d, holds, rfl, rfl, rfl, notes,
    .step (by rw [goOn_withinAwaited_open (resumed.outcome inner)]; exact .call ..) goes⟩

end Watch

namespace Halt

variable {h : Halt}

/-- The inner task was cancelled: the time of the task is over. -/
theorem Called.goes_on (called : h.Called n own c) :
    ∃ l, Client.Alone h.task h.child n { c with loop := l, running := some h.task } ∧ l.now = c.loop.now ∧
      ∀ {m e}, Advances E h.task m [h.next] (.error .timedOut) { c with loop := l, running := some h.task } e →
        Advances E h.task (m + 2) [.halted h.inner h.waiter, .overdue h.inner h.timer,
        h.next] (.ok .null) (c.resumed h.task) e := by
  have fits := called.fits
  obtain ⟨observers, closing⟩ := fits.closing
  have inner : h.inner ∉ [h.task] := fun mine => fits.apart.1 (List.mem_singleton.1 mine).symm
  have alone : (c.resumed h.task).Alone h.task h.child n := by
    refine called.apart.shows.alone rfl rfl closing (fun r x hx other => ?_) (fun y hy => ?_)
      (fun t ht => ?_) fits.unheard
    · rcases fits.others r x hx with mine | exit
      · rcases List.mem_cons.1 mine with e | mine
        · exact absurd e other
        · rcases List.mem_pair.1 mine with rfl | rfl
          · cases called.inner.symm.trans hx
            exact ⟨.inr rfl, nofun⟩
          · cases called.rung.symm.trans hx
            exact ⟨.inl rfl, nofun⟩
      · exact exit.idle inner
    · rw [called.ready] at hy
      cases hy
    · rw [fits.timers] at ht
      cases ht
  have told :=
    (called.apart.shows.resumed closing).outcome ((View.promise_set_of_ne fits.apart.1.symm ..).trans called.inner)
  obtain ⟨v, shows, _⟩ := id alone
  have unobserved := shows.apart.withLoop (shows.apart.loop.beside_unobserve (r := h.inner) inner h.waiter)
  have broken : ((c.resumed h.task).loop.unobserve h.inner h.waiter).outcome? h.inner = some (.error .cancelled) := by
    rw [Loop.outcome?_unobserve]
    exact told
  obtain ⟨l, overdue, now, beside⟩ := goOn_overdue (E := E)
    (c := { c.resumed h.task with loop := (c.resumed h.task).loop.unobserve h.inner h.waiter }) broken h.timer
  refine ⟨l, alone.beside (unobserved.trans (unobserved.apart.withLoop (beside _ rfl unobserved.apart.loop))), now,
    fun goes => ?_⟩
  exact .step (by rw [goOn_halted]; exact .done ..) (.step (by rw [overdue]; exact .fault ..) goes)

end Halt

end LspClient
