/-
The turns of tasks: which job is next, how a task begins a turn, and the ways in which a turn ends.
-/
import LspClient.Proofs.Loop.Tasks

namespace LspClient.Loop

variable {φ ω : Type} {N : Notices ω} {A : φ → Prop} {running : Option PromiseId} {l l' : Loop φ ω}

/-! ## What tasks are in the middle of -/

/-- What a task has put down; nothing, if it runs, or has ended. -/
def stackOf (l : Loop φ ω) (p : PromiseId) : List φ :=
  match l.role? p with
  | some (.task stack _ _) => stack
  | _ => []

theorem stackOf_of_role? {p : PromiseId} {stack : List φ} {source : Option PromiseId} {i : Bool}
    (h : l.role? p = some (.task stack source i)) : l.stackOf p = stack := by
  unfold stackOf
  rw [h]

theorem stackOf_congr {p : PromiseId} (h : l'.role? p = l.role? p) : l'.stackOf p = l.stackOf p := by
  unfold stackOf
  rw [h]

/-- There is no such task. -/
theorem stackOf_of_size_le {p : PromiseId} (h : l.promises.size ≤ p) : l.stackOf p = [] := by
  unfold stackOf role?
  rw [Array.getElem?_eq_none h]
  rfl

/-- Tasks keep what they have put down, and new ones are about to begin. -/
theorem Moves.stackOf {but : Option PromiseId} (m : Moves A but l l') {p : PromiseId} (hb : but ≠ some p) :
    l'.stackOf p = l.stackOf p ∨ l.promises.size ≤ p ∧ ∃ a, A a ∧ l'.stackOf p = [a] := by
  cases h : l.role? p with
  | none =>
    have none : l.stackOf p = [] := by
      unfold Loop.stackOf
      rw [h]
    cases h' : l'.role? p with
    | none => exact .inl (stackOf_congr (by rw [h, h']))
    | some role =>
      have new := m.fresh hb h h'
      cases role with
      | task stack source i =>
        obtain ⟨a, ha, rfl, rfl⟩ := new
        exact .inr ⟨size_le_of_role? h, a, ha, stackOf_of_role? h'⟩
      | plain =>
        left
        rw [none]
        unfold Loop.stackOf
        rw [h']
      | group members left' i =>
        left
        rw [none]
        unfold Loop.stackOf
        rw [h']
  | some role =>
    left
    cases role with
    | plain => exact stackOf_congr (by rw [h, m.plain h])
    | task stack source i =>
      obtain ⟨i', h', _⟩ := m.task hb h
      rw [stackOf_of_role? h, stackOf_of_role? h']
    | group members left' i =>
      obtain ⟨n, i', h'⟩ := m.group h
      unfold Loop.stackOf
      rw [h, h']

theorem stackOf_setRole_of_ne (l : Loop φ ω) {p q : PromiseId} (h : q ≠ p) (role : Role φ) :
    (l.setRole p role).stackOf q = l.stackOf q :=
  stackOf_congr (role?_setRole_of_ne h role)

/-! ## The next job -/

theorem WF.beginRound (w : WF N running l) : WF N running l.beginRound := by
  have timed : ∀ {t}, t ∈ l.timers.takeWhile (fun t => isDue l.now t.due) → IsTimed N t.job := fun h =>
    w.timed (List.takeWhile_sublist _ |>.subset h)
  refine w.of_promises rfl (fun h => ?_) (fun h => w.timed ((List.dropWhile_sublist _).subset h)) fun p => ?_
  · rcases List.mem_append.1 h with h | h
    · exact w.due h
    · obtain ⟨t, ht, e⟩ := List.mem_map.1 h
      cases e
      exact (timed ht).isDue
  · show List.countP _ (l.ready ++ List.map _ _) ≤ 1
    have none : (l.timers.takeWhile fun t => isDue l.now t.due).countP
        ((fun e : Option TimerId × Job ω => e.2.drives p) ∘ fun t => (some t.id, t.job)) = 0 :=
      List.countP_eq_zero.2 fun t ht => by simp [(timed ht).not_drives p]
    rw [List.countP_append, List.countP_map, none]
    exact w.once p

/-- The next job is the first of those that are ready when the round begins, or goes on. -/
theorem next?_eq {job : Job ω} (h : l.next? = some (job, l')) :
    ∃ m : Loop φ ω, (m = l ∨ m = l.beginRound) ∧ ∃ timer rest, m.ready = (timer, job) :: rest ∧
      l' = { m with ready := rest, budget := m.budget - 1 } := by
  unfold Loop.next? at h
  by_cases hb : l.budget = 0
  · simp only [hb, if_true] at h
    split at h
    · cases h
    · next hr =>
      cases h
      exact ⟨_, .inr rfl, _, _, hr, rfl⟩
  · simp only [hb, if_false] at h
    split at h
    · cases h
    · next hr =>
      cases h
      exact ⟨_, .inl rfl, _, _, hr, rfl⟩

/-- The next job may run, and no other job that is ready drives the same task. -/
theorem WF.next? (w : WF N running l) {job : Job ω} (h : l.next? = some (job, l')) :
    WF N running l' ∧ l'.promises = l.promises ∧ l'.IsDue N running job ∧
      ∀ p, job.drives p = true → ∀ e ∈ l'.ready, e.2.drives p = false := by
  obtain ⟨m, hm, timer, rest, hr, rfl⟩ := next?_eq h
  have wm : WF N running m := by
    rcases hm with rfl | rfl
    · exact w
    · exact w.beginRound
  have promises : m.promises = l.promises := by
    rcases hm with rfl | rfl <;> rfl
  have once := fun p => wm.once p
  simp only [hr, List.countP_cons] at once
  have left : WF N running { m with ready := rest, budget := m.budget - 1 } :=
    wm.of_promises rfl (fun h => wm.due (by rw [hr]; exact List.mem_cons_of_mem _ h)) wm.timed fun p =>
      Nat.le_trans (Nat.le_add_right _ _) (once p)
  refine ⟨left, promises, ?_, fun p hd e he => ?_⟩
  · exact (wm.due (by rw [hr]; exact List.mem_cons_self ..)).keeps (moves_of_promises (A := fun _ => True) rfl).keeps
  · refine Bool.eq_false_iff.2 fun he' => ?_
    have atMost := once p
    rw [if_pos hd] at atMost
    have : 0 < rest.countP fun e => e.2.drives p := List.countP_pos_iff.2 ⟨e, he, he'⟩
    omega

/-! ## Beginning a turn -/

/-- A job that may run now is the only one that drives its task. -/
theorem WF.not_heard_of_due (w : WF N running l) {job : Job ω} (d : l.IsDue N running job) {p : PromiseId}
    (hd : job.drives p = true) {q : PromiseId} {job' : Job ω} (h : job' ∈ l.observers q) : job'.drives p = false := by
  refine Bool.eq_false_iff.2 fun hd' => ?_
  rcases Job.drives_iff.1 hd' with rfl | ⟨source, rfl⟩
  · exact w.heeds h
  · obtain ⟨rfl, a, stack, i, hr⟩ := w.heeds h
    rcases Job.drives_iff.1 hd with rfl | ⟨source', rfl⟩
    · obtain ⟨_, _, _, _, hr'⟩ := d
      rw [hr] at hr'
      cases hr'
    · obtain ⟨⟨o, ho⟩, _, _, _, hr'⟩ := d
      rw [hr] at hr'
      cases hr'
      rw [w.quiet ho] at h
      cases h

theorem resume_eq {p : PromiseId} {stack : List φ} {source : Option PromiseId} {i : Bool}
    (h : l.role? p = some (.task stack source i)) : l.resume p = (stack, i, l.setRole p (.task [] none false)) := by
  unfold resume
  rw [h]

/-- A change of the role of one task. -/
theorem moves_setRole_task {p : PromiseId} {stack stack' : List φ} {source source' : Option PromiseId} {i i' : Bool}
    (h : l.role? p = some (.task stack source i)) :
    Moves A (some p) l (l.setRole p (.task stack' source' i')) := by
  refine ⟨fun ho => by rwa [outcome?_setRole], fun {q} hq => ?_, fun {q _ _ _} hb hq => ?_, fun {q _ _ _} hq => ?_,
    fun {q _} _ hn hq => ?_, Nat.le_of_eq (size_setRole ..).symm⟩
  · rwa [role?_setRole_of_ne fun e => by rw [e, h] at hq; cases hq]
  · exact ⟨_, by rwa [role?_setRole_of_ne fun e => hb (by rw [e])], id⟩
  · exact ⟨_, _, by rwa [role?_setRole_of_ne fun e => by rw [e, h] at hq; cases hq]⟩
  · rw [role?_setRole_of_ne (fun e => by rw [e, h] at hn; cases hn), hn] at hq
    cases hq

/-- The task of a job that is due takes up what it was in the middle of. -/
theorem WF.resume (w : WF N none l) {job : Job ω} (d : l.IsDue N none job) {p : PromiseId} (hd : job.drives p = true)
    (alone : ∀ e ∈ l.ready, e.2.drives p = false) : WF N (some p) (l.resume p).2.2 := by
  obtain ⟨a, stack, source, i, hr⟩ := d.role?_of_drives hd
  rw [resume_eq hr]
  have self := role?_setRole_self hr (.task [] none false)
  have keep : ∀ {q : PromiseId} {r : Role φ}, q ≠ p → l.role? q = some r →
      (l.setRole p (.task [] none false)).role? q = some r := fun h hq => by rwa [role?_setRole_of_ne h]
  refine ⟨fun h => ?_, fun h => ?_, w.timed, w.once, fun q r => ?_, fun h => ?_, fun h => ?_, fun h => ?_⟩
  · have known := w.due h
    have other := alone _ h
    rename_i timer job'
    cases job' with
    | step q =>
      have hq : q ≠ p := by simpa [Job.drives] using other
      obtain ⟨_, b, stack, i, hr⟩ := known
      exact ⟨fun e => hq (by cases e; rfl), b, stack, i, keep hq hr⟩
    | wake q source =>
      have hq : q ≠ p := by simpa [Job.drives] using other
      obtain ⟨⟨o, ho⟩, b, stack, i, hr⟩ := known
      exact ⟨⟨o, by rwa [outcome?_setRole]⟩, b, stack, i, keep hq hr⟩
    | notify e =>
      rcases known with known | ⟨q, o, ho, known⟩
      · exact .inl known
      · exact .inr ⟨q, o, by rwa [outcome?_setRole], known⟩
    | fulfil q => trivial
    | idle => trivial
    | member g q => trivial
  · rw [observers_setRole] at h
    have known := w.heeds h
    have other := w.not_heard_of_due d hd h
    rename_i q job'
    cases job' with
    | step r => exact known.elim
    | wake r source =>
      have hq : r ≠ p := by simpa [Job.drives] using other
      obtain ⟨rfl, b, stack, i, hr⟩ := known
      exact ⟨rfl, b, stack, i, keep hq hr⟩
    | notify e => exact known
    | fulfil q => trivial
    | idle => trivial
    | member g q => trivial
  · rw [observers_setRole]
    exact w.onceHeard q r
  · rw [outcome?_setRole] at h
    rw [observers_setRole]
    exact w.quiet h
  · rename_i q b stack' source' i'
    rw [outcome?_setRole]
    by_cases e : q = p
    · rw [e, self] at h
      cases h
    · rw [role?_setRole_of_ne e] at h
      exact w.unfinished h
  · cases h
    refine ⟨⟨false, self⟩, ?_⟩
    rw [outcome?_setRole]
    exact w.unfinished hr

/-! ## Ending a turn -/

/-- The running task is in no job. -/
theorem WF.not_drives_running {p : PromiseId} (w : WF N (some p) l) :
    (∀ e ∈ l.ready, e.2.drives p = false) ∧ ∀ q, ∀ job ∈ l.observers q, job.drives p = false := by
  obtain ⟨⟨i, hr⟩, _⟩ := w.runs rfl
  refine ⟨fun e he => Bool.eq_false_iff.2 fun hd => ?_, fun q job hj => Bool.eq_false_iff.2 fun hd => ?_⟩
  · obtain ⟨timer, job⟩ := e
    obtain ⟨a, stack, source, i', hr'⟩ := (w.due he).role?_of_drives hd
    rw [hr] at hr'
    cases hr'
  · rcases Job.drives_iff.1 hd with rfl | ⟨source, rfl⟩
    · exact w.heeds hj
    · obtain ⟨_, a, stack, i', hr'⟩ := w.heeds hj
      rw [hr] at hr'
      cases hr'

/-- A running task ends. -/
theorem finish_spec {p : PromiseId} (w : WF N (some p) l) (o : Outcome) :
    Moves A none l (l.finish p o) ∧ WF N none (l.finish p o) ∧ ∃ x, (l.finish p o).outcome? p = some x := by
  obtain ⟨⟨i, hr⟩, ho⟩ := w.runs rfl
  have done : ∀ o', Moves A none l (l.complete p o') ∧ WF N none (l.complete p o') ∧
      ∃ x, (l.complete p o').outcome? p = some x := fun o' => by
    refine ⟨moves_complete l p o', w.idle.complete o' (by simp) fun _ _ _ _ h => ?_,
      o', (complete_of_role? hr ho o').1⟩
    rw [hr] at h
    cases h
  unfold finish
  split
  · exact done _
  · exact done _

/-- A running task puts down what it is in the middle of; a job that drives it is still to come. -/
theorem WF.putDown {p : PromiseId} (w : WF N (some p) l) (a : φ) (stack : List φ) (source : Option PromiseId)
    (i : Bool) : WF N none (l.setRole p (.task (a :: stack) source i)) := by
  obtain ⟨⟨i', hr⟩, ho⟩ := w.runs rfl
  obtain ⟨notReady, notHeard⟩ := w.not_drives_running
  have keep : ∀ {q : PromiseId} {r : Role φ}, q ≠ p → l.role? q = some r →
      (l.setRole p (.task (a :: stack) source i)).role? q = some r := fun h hq => by rwa [role?_setRole_of_ne h]
  refine ⟨fun h => ?_, fun h => ?_, w.timed, w.once, fun q r => ?_, fun h => ?_, fun h => ?_, fun h => by cases h⟩
  · have known := w.idle.due h
    have other := notReady _ h
    rename_i timer job
    cases job with
    | step q =>
      have hq : q ≠ p := by simpa [Job.drives] using other
      obtain ⟨_, b, stack, i, hr⟩ := known
      exact ⟨by simp, b, stack, i, keep hq hr⟩
    | wake q source =>
      have hq : q ≠ p := by simpa [Job.drives] using other
      obtain ⟨⟨o, ho⟩, b, stack, i, hr⟩ := known
      exact ⟨⟨o, by rwa [outcome?_setRole]⟩, b, stack, i, keep hq hr⟩
    | notify e =>
      rcases known with known | ⟨q, o, ho, known⟩
      · exact .inl known
      · exact .inr ⟨q, o, by rwa [outcome?_setRole], known⟩
    | fulfil q => trivial
    | idle => trivial
    | member g q => trivial
  · rw [observers_setRole] at h
    have known := w.heeds h
    have other := notHeard _ _ h
    rename_i q job
    cases job with
    | step r => exact known.elim
    | wake r source =>
      have hq : r ≠ p := by simpa [Job.drives] using other
      obtain ⟨rfl, b, stack, i, hr⟩ := known
      exact ⟨rfl, b, stack, i, keep hq hr⟩
    | notify e => exact known
    | fulfil q => trivial
    | idle => trivial
    | member g q => trivial
  · rw [observers_setRole]
    exact w.onceHeard q r
  · rw [outcome?_setRole] at h
    rw [observers_setRole]
    exact w.quiet h
  · rename_i q b stack' source' i'
    rw [outcome?_setRole]
    by_cases e : q = p
    · rw [e]
      exact ho
    · rw [role?_setRole_of_ne e] at h
      exact w.unfinished h

/-- A running task yields: it is ready to go on. -/
theorem pause_spec {p : PromiseId} (w : WF N (some p) l) (a : φ) (stack : List φ) :
    Moves A (some p) l (l.pause p (a :: stack)) ∧ WF N none (l.pause p (a :: stack)) ∧
      ∃ i, (l.pause p (a :: stack)).role? p = some (.task (a :: stack) none i) := by
  obtain ⟨⟨i, hr⟩, ho⟩ := w.runs rfl
  have self := role?_setRole_self hr (.task (a :: stack) none i)
  have eq : l.pause p (a :: stack) = (l.setRole p (.task (a :: stack) none i)).schedule (.step p) := by
    unfold pause
    rw [hr]
  rw [eq]
  refine ⟨(moves_setRole_task hr).trans (moves_schedule _ _), ?_, i, self⟩
  refine (w.putDown a stack none i).schedule ⟨by simp, a, stack, i, self⟩ fun q hd e he => ?_
  rcases Job.drives_iff.1 hd with e | ⟨_, e⟩
  · cases e
    exact w.not_drives_running.1 _ he
  · cases e

/-- A running task waits for a promise. -/
theorem suspend_spec {p : PromiseId} (w : WF N (some p) l) (a : φ) (stack : List φ) (q : PromiseId) :
    Moves A (some p) l (l.suspend p (a :: stack) q) ∧ WF N none (l.suspend p (a :: stack) q) ∧
      ∃ i, (l.suspend p (a :: stack) q).role? p = some (.task (a :: stack) (some q) i) := by
  obtain ⟨⟨i, hr⟩, ho⟩ := w.runs rfl
  have self := role?_setRole_self hr (.task (a :: stack) (some q) i)
  have waiting : ((l.observe q (.wake p q)).setRole p (.task (a :: stack) (some q) i)).role? p =
      some (.task (a :: stack) (some q) i) := by
    rw [setRole_observe, role?_observe]
    exact self
  have m : Moves A (some p) l ((l.observe q (.wake p q)).setRole p (.task (a :: stack) (some q) i)) := by
    rw [setRole_observe]
    exact (moves_setRole_task hr).trans (moves_observe _ _ _)
  have w' : WF N none ((l.observe q (.wake p q)).setRole p (.task (a :: stack) (some q) i)) := by
    rw [setRole_observe]
    refine (w.putDown a stack (some q) i).observe ⟨rfl, a, stack, i, self⟩ fun r hd => ?_
    rcases Job.drives_iff.1 hd with e | ⟨_, e⟩
    · cases e
    · cases e
      exact ⟨w.not_drives_running.1, fun j hj => w.not_drives_running.2 q j (by rwa [observers_setRole] at hj)⟩
  unfold suspend
  rw [hr]
  cases i with
  | false => exact ⟨m, w', false, waiting⟩
  | true =>
    -- The task was interrupted while it ran: the promise is cancelled in its place.
    have mc := moves_cancel (A := A) w' q
    have wc := w'.cancel q
    obtain ⟨i', hr', _⟩ := mc.task (by simp) waiting
    dsimp only
    rw [if_pos rfl]
    split
    · have back := role?_setRole_self hr' (.task (a :: stack) (some q) false)
      have unset : Keeps (l.observe q (.wake p q) |>.setRole p (.task (a :: stack) (some q) true) |>.cancel q).2
          ((l.observe q (.wake p q) |>.setRole p (.task (a :: stack) (some q) true) |>.cancel q).2.setRole p
            (.task (a :: stack) (some q) false)) := by
        refine ⟨fun h => by rwa [outcome?_setRole], fun {r _ _ i} h => ?_⟩
        by_cases e : r = p
        · rw [e, hr'] at h
          cases h
          exact ⟨false, by rw [e, back]⟩
        · exact ⟨i, by rwa [role?_setRole_of_ne e]⟩
      exact ⟨(m.trans mc.but_of_none).trans (moves_setRole_task hr'),
        wc.setRole unset fun e => by cases e; exact ⟨i', hr'⟩, false, back⟩
    · exact ⟨m.trans mc.but_of_none, wc, i', hr'⟩

end LspClient.Loop
