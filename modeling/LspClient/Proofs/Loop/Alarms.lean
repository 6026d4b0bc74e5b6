/-
What timers bring about. A timer stands in line until its time has come; then its job is ready, and remembers where it
comes from until its turn comes. Nothing else changes what is ahead but new timers, cancelled ones and jobs that come
from no timer.
-/
import LspClient.Proofs.Loop.Turns
import Mathlib.Data.List.TakeWhile

namespace LspClient.Loop

variable {φ ω : Type} {l l' : Loop φ ω} {job : Job ω} {jobs : List (Job ω)} {timer : TimerId} {due : Float}
  {A : Job ω → Prop} {gone : Option TimerId}

/-! ## Definitions -/

/-- What is ahead: the jobs that are ready and those of the timers, each with the timer that it comes from. -/
def ahead (l : Loop φ ω) : List (Option TimerId × Job ω) :=
  l.ready ++ l.timers.map fun t => (some t.id, t.job)

/-- A loop whose timers stand in the order of their times, each once, and whose round has so many jobs left. -/
structure Orderly (l : Loop φ ω) : Prop where
  sorted : l.timers.Pairwise fun t u => isDue u.due t.due = true
  apart : (l.ahead.filterMap (·.1)).Nodup
  made : ∀ t ∈ l.ahead.filterMap (·.1), t < l.nextTimer
  budget : l.budget ≤ l.ready.length

/-- The job of a timer is ahead, and is not ready before its time has come. -/
def Rings (l : Loop φ ω) (timer : TimerId) (due : Float) (job : Job ω) : Prop :=
  ⟨timer, due, job⟩ ∈ l.timers ∨ (some timer, job) ∈ l.ready ∧ isDue l.now due = true

/-- Jobs have become ready that come from no timer, and nothing else has changed of what is ahead. -/
structure Gains (l : Loop φ ω) (jobs : List (Job ω)) (l' : Loop φ ω) : Prop where
  ready : l'.ready = l.ready ++ jobs.map fun job => (none, job)
  timers : l'.timers = l.timers
  now : l'.now = l.now
  nextTimer : l'.nextTimer = l.nextTimer
  budget : l'.budget = l.budget

/-- Of the jobs of a kind that are ahead, at most the one of a timer is gone, and none is new. -/
structure Disarms (A : Job ω → Prop) (gone : Option TimerId) (l l' : Loop φ ω) : Prop where
  orderly : l'.Orderly
  old : ∀ x ∈ l'.ahead, A x.2 → x ∈ l.ahead ∧ ∀ t, gone = some t → x.1 ≠ some t
  rings : ∀ {t d j}, A j → gone ≠ some t → l.Rings t d j → l'.Rings t d j

/-- The timer that the next job comes from, if it comes from one. -/
def nextTimer? (l : Loop φ ω) : Option TimerId :=
  (if l.budget = 0 then l.beginRound else l).ready.head?.bind (·.1)

/-! ## Times -/

theorem isDue_iff {now due : Float} : isDue now due = true ↔ Decimal.orderKey due ≤ Decimal.orderKey now := by
  simp [isDue]

/-- What has come by a time has come by any later one. -/
theorem isDue_trans {a b c : Float} (h : isDue b a = true) (h' : isDue c b = true) : isDue c a = true :=
  isDue_iff.2 (Int.le_trans (isDue_iff.1 h) (isDue_iff.1 h'))

theorem isDue_total (a b : Float) : isDue a b = true ∨ isDue b a = true := by
  rw [isDue_iff, isDue_iff]
  exact Int.le_total _ _

/-! ## What is ahead -/

theorem mem_ahead {x : Option TimerId × Job ω} :
    x ∈ l.ahead ↔ x ∈ l.ready ∨ ∃ t ∈ l.timers, (some t.id, t.job) = x := by
  simp [ahead]

theorem Rings.mem_ahead (h : l.Rings timer due job) : (some timer, job) ∈ l.ahead := by
  rcases h with h | ⟨h, _⟩
  · exact Loop.mem_ahead.2 (.inr ⟨_, h, rfl⟩)
  · exact Loop.mem_ahead.2 (.inl h)

/-- Two items that go to the same one are one, if what they all go to is distinct. -/
theorem eq_of_nodup_filterMap {α β : Type} {f : α → Option β} {as : List α} (h : (as.filterMap f).Nodup)
    {x y : α} {b : β} (hx : x ∈ as) (hy : y ∈ as) (fx : f x = some b) (fy : f y = some b) : x = y := by
  obtain ⟨before, after, rfl⟩ := List.append_of_mem hx
  rw [List.filterMap_append, List.filterMap_cons_some fx, List.nodup_append, List.nodup_cons] at h
  obtain ⟨_, ⟨later, _⟩, earlier⟩ := h
  rcases List.mem_append.1 hy with hy | hy
  · exact absurd rfl (earlier b (List.mem_filterMap.2 ⟨y, hy, fy⟩) b (List.mem_cons_self ..))
  · rcases List.mem_cons.1 hy with rfl | hy
    · rfl
    · exact absurd (List.mem_filterMap.2 ⟨y, hy, fy⟩) later

/-- A timer brings about one job. -/
theorem Orderly.eq_of_timer (h : l.Orderly) {job' : Job ω} (hj : (some timer, job) ∈ l.ahead)
    (hj' : (some timer, job') ∈ l.ahead) : job = job' :=
  congrArg Prod.snd (eq_of_nodup_filterMap h.apart hj hj' rfl rfl)

theorem orderly_new : ({} : Loop φ ω).Orderly :=
  ⟨.nil, .nil, by simp [ahead], Nat.le_refl _⟩

/-! ## Jobs that come from no timer -/

theorem Gains.mem_ahead (g : l.Gains jobs l') {x : Option TimerId × Job ω} :
    x ∈ l'.ahead ↔ x ∈ l.ahead ∨ ∃ job ∈ jobs, x = (none, job) := by
  rw [Loop.mem_ahead, Loop.mem_ahead, g.ready, g.timers, List.mem_append, List.mem_map]
  constructor
  · rintro ((h | ⟨job, hj, rfl⟩) | h)
    · exact .inl (.inl h)
    · exact .inr ⟨job, hj, rfl⟩
    · exact .inl (.inr h)
  · rintro ((h | h) | ⟨job, hj, rfl⟩)
    · exact .inl (.inl h)
    · exact .inr h
    · exact .inl (.inr ⟨job, hj, rfl⟩)

theorem Gains.orderly (g : l.Gains jobs l') (h : l.Orderly) : l'.Orderly := by
  have same : l'.ahead.filterMap (·.1) = l.ahead.filterMap (·.1) := by
    unfold ahead
    rw [g.ready, g.timers]
    simp [List.filterMap_append, List.filterMap_map]
  refine ⟨by rw [g.timers]; exact h.sorted, by rw [same]; exact h.apart, ?_, ?_⟩
  · rw [same, g.nextTimer]
    exact h.made
  · rw [g.budget, g.ready, List.length_append]
    exact Nat.le_trans h.budget (Nat.le_add_right _ _)

theorem Gains.rings (g : l.Gains jobs l') (h : l.Rings timer due job) : l'.Rings timer due job := by
  unfold Rings
  rw [g.timers, g.ready, g.now]
  exact h.imp_right fun ⟨hr, hd⟩ => ⟨List.mem_append_left _ hr, hd⟩

theorem Gains.trans {l'' : Loop φ ω} {jobs' : List (Job ω)} (g : l.Gains jobs l') (g' : l'.Gains jobs' l'') :
    l.Gains (jobs ++ jobs') l'' :=
  ⟨by rw [g'.ready, g.ready, List.append_assoc, List.map_append], g'.timers.trans g.timers, g'.now.trans g.now,
    g'.nextTimer.trans g.nextTimer, g'.budget.trans g.budget⟩

theorem gains_newPromise (l : Loop φ ω) (role : Role φ) : l.Gains [] (l.newPromise role).2 :=
  ⟨(List.append_nil _).symm, rfl, rfl, rfl, rfl⟩

/-- An observer waits with an open promise. -/
theorem gains_observe {p : PromiseId} (h : l.outcome? p = none) (job : Job ω) : l.Gains [] (l.observe p job) := by
  unfold observe
  rw [isSettled_eq_false.2 h]
  exact ⟨(List.append_nil _).symm, rfl, rfl, rfl, rfl⟩

/-- The observers of a promise that is settled become ready. -/
theorem gains_settle (l : Loop φ ω) (p : PromiseId) (o : Outcome) :
    ∃ jobs, jobs ⊆ l.observers p ∧ l.Gains jobs (l.settle p o) := by
  have nothing : l.Gains [] l := ⟨(List.append_nil _).symm, rfl, rfl, rfl, rfl⟩
  rcases settle_cases l p o with e | ⟨_, e⟩
  · rw [e]
    exact ⟨[], List.nil_subset _, nothing⟩
  · rw [e]
    unfold complete
    split
    · next observers _ hp =>
      have same : l.observers p = observers := by
        unfold Loop.observers
        rw [hp]
        rfl
      exact ⟨observers, by rw [same]; exact List.Subset.refl _, rfl, rfl, rfl, rfl, rfl⟩
    · exact ⟨[], List.nil_subset _, nothing⟩

/-! ## Timers -/

theorem insertTimer_perm (t : Timer ω) (ts : List (Timer ω)) : (insertTimer t ts).Perm (t :: ts) := by
  induction ts with
  | nil => exact .refl _
  | cons u ts ih =>
    unfold insertTimer
    split
    · exact (ih.cons u).trans (.swap t u ts)
    · exact .refl _

/-- Timers stay in the order of their times. -/
theorem sorted_insertTimer {t : Timer ω} {ts : List (Timer ω)} (h : ts.Pairwise fun t u => isDue u.due t.due = true) :
    (insertTimer t ts).Pairwise fun t u => isDue u.due t.due = true := by
  induction ts with
  | nil => exact List.pairwise_singleton ..
  | cons u ts ih =>
    obtain ⟨first, rest⟩ := List.pairwise_cons.1 h
    unfold insertTimer
    split
    · next later =>
      refine List.pairwise_cons.2 ⟨fun v hv => ?_, ih rest⟩
      rcases mem_insertTimer hv with rfl | hv
      · exact later
      · exact first v hv
    · next sooner =>
      have before : isDue u.due t.due = true := (isDue_total u.due t.due).resolve_right sooner
      refine List.pairwise_cons.2 ⟨fun v hv => ?_, h⟩
      rcases List.mem_cons.1 hv with rfl | hv
      · exact before
      · exact isDue_trans before (first v hv)

theorem ahead_callLater_perm (l : Loop φ ω) (seconds : Float) (job : Job ω) :
    (l.callLater seconds job).2.ahead.Perm ((some l.nextTimer, job) :: l.ahead) := by
  have inserted := (insertTimer_perm ⟨l.nextTimer, l.now + seconds, job⟩ l.timers).map fun t => (some t.id, t.job)
  exact (inserted.append_left l.ready).trans List.perm_middle

theorem mem_ahead_callLater {seconds : Float} {x : Option TimerId × Job ω} :
    x ∈ (l.callLater seconds job).2.ahead ↔ x = (some l.nextTimer, job) ∨ x ∈ l.ahead := by
  rw [(ahead_callLater_perm l seconds job).mem_iff, List.mem_cons]

theorem Orderly.callLater (h : l.Orderly) (seconds : Float) (job : Job ω) : (l.callLater seconds job).2.Orderly := by
  have perm : ((l.callLater seconds job).2.ahead.filterMap (·.1)).Perm (l.nextTimer :: l.ahead.filterMap (·.1)) :=
    (ahead_callLater_perm l seconds job).filterMap (·.1)
  refine ⟨sorted_insertTimer h.sorted, perm.nodup_iff.2 (List.nodup_cons.2 ⟨fun mem => ?_, h.apart⟩), fun t ht => ?_,
    h.budget⟩
  · exact Nat.lt_irrefl _ (h.made _ mem)
  · rcases List.mem_cons.1 (perm.mem_iff.1 ht) with rfl | ht
    · exact Nat.lt_succ_self _
    · exact Nat.lt_succ_of_lt (h.made t ht)

/-- A new timer rings when its seconds are over. -/
theorem rings_callLater (l : Loop φ ω) (seconds : Float) (job : Job ω) :
    (l.callLater seconds job).2.Rings l.nextTimer (l.now + seconds) job :=
  .inl ((insertTimer_perm _ l.timers).mem_iff.2 (List.mem_cons_self ..))

theorem Rings.callLater (h : l.Rings timer due job) (seconds : Float) (job' : Job ω) :
    (l.callLater seconds job').2.Rings timer due job :=
  h.imp_left fun ht => (insertTimer_perm _ l.timers).mem_iff.2 (List.mem_cons_of_mem _ ht)

/-! ## Cancelled timers -/

/-- What a cancelled timer leaves behind comes from no timer, and does nothing. -/
theorem mem_ahead_cancelTimer {x : Option TimerId × Job ω} (h : x ∈ (l.cancelTimer timer).ahead) :
    x = (none, .idle) ∨ x ∈ l.ahead ∧ x.1 ≠ some timer := by
  rcases mem_ahead.1 h with h | ⟨t, ht, rfl⟩
  · obtain ⟨⟨from?, job⟩, hj, rfl⟩ := List.mem_map.1 h
    dsimp only
    split
    · exact .inl rfl
    · next other => exact .inr ⟨mem_ahead.2 (.inl hj), other⟩
  · obtain ⟨ht, other⟩ := List.mem_filter.1 ht
    exact .inr ⟨mem_ahead.2 (.inr ⟨t, ht, rfl⟩), by simpa using other⟩

theorem timers_ahead_cancelTimer (l : Loop φ ω) (timer : TimerId) :
    (l.cancelTimer timer).ahead.filterMap (·.1) = (l.ahead.filterMap (·.1)).filter fun t => t ≠ timer := by
  have ready : ∀ js : List (Option TimerId × Job ω),
      (js.map fun j => if j.1 = some timer then ((none : Option TimerId), Job.idle) else j).filterMap (·.1) =
        (js.filterMap (·.1)).filter fun t => t ≠ timer := by
    intro js
    induction js with
    | nil => rfl
    | cons j js ih =>
      obtain ⟨_ | t, job⟩ := j
      · simpa using ih
      · by_cases e : t = timer <;> simpa [e] using ih
  have waiting : ∀ ts : List (Timer ω),
    ((ts.filter fun t => t.id != timer).map fun t => (some t.id, t.job)).filterMap (·.1) =
      ((ts.map fun t => (some t.id, t.job)).filterMap (·.1)).filter fun t => t ≠ timer := by
    intro ts
    induction ts with
    | nil => rfl
    | cons t ts ih => by_cases e : t.id = timer <;> simpa [e] using ih
  unfold ahead
  rw [List.filterMap_append, List.filterMap_append, List.filter_append, ← ready, ← waiting]
  rfl

theorem Orderly.cancelTimer (h : l.Orderly) (timer : TimerId) : (l.cancelTimer timer).Orderly := by
  refine ⟨h.sorted.filter _, ?_, fun t ht => ?_, ?_⟩
  · rw [timers_ahead_cancelTimer]
    exact h.apart.filter _
  · rw [timers_ahead_cancelTimer] at ht
    exact h.made t (List.mem_filter.1 ht).1
  · show l.budget ≤ (l.ready.map _).length
    rw [List.length_map]
    exact h.budget

theorem Rings.cancelTimer (h : l.Rings timer due job) {other : TimerId} (ne : timer ≠ other) :
    (l.cancelTimer other).Rings timer due job := by
  refine h.imp (fun ht => List.mem_filter.2 ⟨ht, by simpa using ne⟩) fun ⟨hr, hd⟩ => ⟨List.mem_map.2 ⟨_, hr, ?_⟩, hd⟩
  simp [ne]

/-! ## Rounds -/

theorem Rings.setNow (h : l.Rings timer due job) {now : Float} (later : isDue now l.now = true) :
    Rings { l with now } timer due job :=
  h.imp_right fun ⟨hr, hd⟩ => ⟨hr, isDue_trans hd later⟩

theorem ahead_beginRound (l : Loop φ ω) : l.beginRound.ahead = l.ahead := by
  show (l.ready ++ (l.timers.takeWhile _).map _) ++ (l.timers.dropWhile _).map _ = l.ready ++ l.timers.map _
  rw [List.append_assoc, ← List.map_append, List.takeWhile_append_dropWhile]

theorem Orderly.beginRound (h : l.Orderly) : l.beginRound.Orderly :=
  ⟨h.sorted.sublist (List.dropWhile_sublist _), by rw [ahead_beginRound]; exact h.apart,
    by rw [ahead_beginRound]; exact h.made, Nat.le_refl _⟩

/-- A timer whose time has come becomes ready. -/
theorem Rings.beginRound (h : l.Rings timer due job) : l.beginRound.Rings timer due job := by
  rcases h with ht | ⟨hr, hd⟩
  · rw [← List.takeWhile_append_dropWhile (p := fun t => isDue l.now t.due) (l := l.timers), List.mem_append] at ht
    rcases ht with come | waits
    · have due : isDue l.now due = true := List.mem_takeWhile_imp (p := fun t : Timer ω => isDue l.now t.due) come
      exact .inr ⟨List.mem_append_right _ (List.mem_map.2 ⟨_, come, rfl⟩), due⟩
    · exact .inl waits
  · exact .inr ⟨List.mem_append_left _ hr, hd⟩

/-- The first job that is ready is taken. -/
theorem Orderly.take (h : l.Orderly) {from? : Option TimerId} {rest : List (Option TimerId × Job ω)}
    (hr : l.ready = (from?, job) :: rest) {taken : Loop φ ω}
    (eq : taken = { l with ready := rest, budget := l.budget - 1 }) :
    taken.Orderly ∧ l.ahead = (from?, job) :: taken.ahead ∧
      ∀ {t d j}, l.Rings t d j → taken.Rings t d j ∨ from? = some t ∧ job = j ∧ isDue l.now d = true := by
  subst eq
  have all : l.ahead = (from?, job) :: Loop.ahead { l with ready := rest, budget := l.budget - 1 } := by
    unfold Loop.ahead
    rw [hr]
    rfl
  refine ⟨⟨h.sorted, ?_, fun t ht => ?_, ?_⟩, all, fun hj => ?_⟩
  · have apart := h.apart
    rw [all, List.filterMap_cons] at apart
    split at apart
    · exact apart
    · exact (List.nodup_cons.1 apart).2
  · refine h.made t ?_
    rw [all, List.filterMap_cons]
    split
    · exact ht
    · exact List.mem_cons_of_mem _ ht
  · have budget := h.budget
    rw [hr, List.length_cons] at budget
    exact Nat.sub_le_of_le_add budget
  · rcases hj with ht | ⟨ready, due⟩
    · exact .inl (.inl ht)
    · rw [hr] at ready
      rcases List.mem_cons.1 ready with e | ready
      · cases e
        exact .inr ⟨rfl, rfl, due⟩
      · exact .inl (.inr ⟨ready, due⟩)

/-- The next job is ahead, with the timer that it comes from; the others still are, and those that ring still do. -/
theorem Orderly.next? (h : l.Orderly) (next : l.next? = some (job, l')) :
    l'.Orderly ∧ l'.promises = l.promises ∧ l'.now = l.now ∧ l.ahead = (l.nextTimer?, job) :: l'.ahead ∧
      ∀ {t d j}, l.Rings t d j → l'.Rings t d j ∨ l.nextTimer? = some t ∧ job = j ∧ isDue l.now d = true := by
  unfold Loop.next? at next
  unfold nextTimer?
  -- A round begins, or goes on.
  by_cases ended : l.budget = 0
  · simp only [ended, if_true] at next ⊢
    split at next
    · cases next
    next from? job' rest hr =>
    cases next
    obtain ⟨orderly, all, rings⟩ := h.beginRound.take hr rfl
    rw [hr, ← ahead_beginRound]
    exact ⟨orderly, rfl, rfl, all, fun hj => rings hj.beginRound⟩
  · simp only [ended, if_false] at next ⊢
    split at next
    · cases next
    next from? job' rest hr =>
    cases next
    obtain ⟨orderly, all, rings⟩ := h.take hr rfl
    rw [hr]
    exact ⟨orderly, rfl, rfl, all, rings⟩

/-- When nothing is left to do, no timer is due. -/
theorem Orderly.idle (h : l.Orderly) (nothing : l.next? = none) :
    l.ready = [] ∧ ∀ t ∈ l.timers, isDue l.now t.due = false := by
  unfold Loop.next? at nothing
  by_cases ended : l.budget = 0
  · simp only [ended, if_true] at nothing
    split at nothing
    next none =>
      obtain ⟨ready, early⟩ := List.append_eq_nil_iff.1 none
      refine ⟨ready, ?_⟩
      -- The first timer is not due yet, and the others come later.
      have early := List.map_eq_nil_iff.1 early
      have sorted := h.sorted
      cases timers : l.timers with
      | nil => nofun
      | cons first rest =>
        rw [timers, List.takeWhile_cons] at early
        rw [timers] at sorted
        have notYet : isDue l.now first.due = false := by
          cases due : isDue l.now first.due with
          | false => rfl
          | true => simp [due] at early
        intro t ht
        rcases List.mem_cons.1 ht with rfl | ht
        · exact notYet
        · refine Bool.eq_false_iff.2 fun due => ?_
          rw [isDue_trans ((List.pairwise_cons.1 sorted).1 t ht) due] at notYet
          cases notYet
    · cases nothing
  · simp only [ended, if_false] at nothing
    split at nothing
    next none =>
      have budget := h.budget
      rw [none] at budget
      exact absurd (Nat.le_zero.1 budget) ended
    · cases nothing

/-! ## Jobs of a kind -/

theorem Disarms.trans {l'' : Loop φ ω} {gone' : Option TimerId} (d : Disarms A gone l l') (d' : Disarms A gone' l' l'')
    (same : gone' = none ∨ gone' = gone) : Disarms A gone l l'' := by
  refine ⟨d'.orderly, fun x hx kind => d.old x (d'.old x hx kind).1 kind, fun kind other hj => ?_⟩
  refine d'.rings kind ?_ (d.rings kind other hj)
  rcases same with rfl | rfl
  · nofun
  · exact other

theorem Disarms.refl (A : Job ω → Prop) (h : l.Orderly) : Disarms A none l l :=
  ⟨h, fun _ hx _ => ⟨hx, nofun⟩, fun _ _ hj => hj⟩

/-- New jobs of other kinds disarm nothing. -/
theorem Gains.disarms (g : l.Gains jobs l') (h : l.Orderly) (others : ∀ job ∈ jobs, ¬ A job) : Disarms A none l l' := by
  refine ⟨g.orderly h, fun x hx kind => ⟨?_, nofun⟩, fun _ _ hj => g.rings hj⟩
  rcases g.mem_ahead.1 hx with hx | ⟨job, hj, rfl⟩
  · exact hx
  · exact absurd kind (others job hj)

/-- A timer that is cancelled is gone. -/
theorem disarms_cancelTimer (h : l.Orderly) (idle : ¬ A .idle) (timer : TimerId) :
    Disarms A (some timer) l (l.cancelTimer timer) := by
  refine ⟨h.cancelTimer timer, fun x hx kind => ?_, fun _ other hj => ?_⟩
  · rcases mem_ahead_cancelTimer hx with rfl | ⟨hx, other⟩
    · exact absurd kind idle
    · exact ⟨hx, fun t e => by cases e; exact other⟩
  · exact hj.cancelTimer fun e => other (congrArg some e.symm)

theorem disarms_setNow (h : l.Orderly) {now : Float} (later : isDue now l.now = true) :
    Disarms A none l { l with now } :=
  ⟨⟨h.sorted, h.apart, h.made, h.budget⟩, fun _ hx _ => ⟨hx, nofun⟩, fun _ _ hj => hj.setNow later⟩

/-- The timer of the next job is gone, if it comes from one. -/
theorem disarms_next? (h : l.Orderly) (next : l.next? = some (job, l')) : Disarms A l.nextTimer? l l' := by
  obtain ⟨orderly, _, _, all, rings⟩ := h.next? next
  refine ⟨orderly, fun x hx _ => ⟨?_, fun t e same => ?_⟩, fun _ other hj => ?_⟩
  · rw [all]
    exact List.mem_cons_of_mem _ hx
  · have apart := h.apart
    rw [all, e] at apart
    exact (List.nodup_cons.1 apart).1 (List.mem_filterMap.2 ⟨x, hx, same⟩)
  · exact (rings hj).resolve_right fun own => other own.1

/-- A job of another kind that is next disarms nothing. -/
theorem disarms_next?_of_not (h : l.Orderly) (next : l.next? = some (job, l')) (other : ¬ A job) :
    Disarms A none l l' := by
  have d := disarms_next? (A := A) h next
  obtain ⟨_, _, _, _, rings⟩ := h.next? next
  refine ⟨d.orderly, fun x hx kind => ⟨(d.old x hx kind).1, nofun⟩, fun kind _ hj => ?_⟩
  rcases rings hj with hj | ⟨_, rfl, _⟩
  · exact hj
  · exact absurd kind other

end LspClient.Loop
