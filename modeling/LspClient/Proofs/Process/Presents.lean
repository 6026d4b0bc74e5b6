/-
What a client shows of a share when it changes itself: one equation for each operation on promises, jobs and timers that
belong to the share. A turn of the task is computed with them from what was shown before.
-/
import LspClient.Proofs.Process.View

namespace LspClient

open Client

/-! ## Definitions -/

/-- A client in which a task has its share to itself, and what the client shows of it. -/
structure Client.Presents (c : Client) (S : Share) (v : View) : Prop where
  apart : c.Apart S
  view : c.view S = v

/-- Some of what belongs to a share is let go. -/
def View.restrict (own : List PromiseId) (v : View) : View where
  promise r := if r ∈ own then v.promise r else none
  ready := v.ready.filter fun x => x.2.concerns own
  timers := v.timers.filter fun t => t.job.concerns own
  now := v.now
  exited := v.exited
  waiters := v.waiters.filter own.contains

variable {S : Share} {c d : Client} {v : View} {p r : PromiseId} {x : Promise Activity Event} {job : Job Event}

namespace Client

theorem Apart.shows (h : c.Apart S) : c.Presents S (c.view S) :=
  ⟨h, rfl⟩

theorem Presents.promise (h : c.Presents S v) (known : v.promise r = some x) :
    r ∈ S.own ∧ c.loop.promises[r]? = some x :=
  promise_of_view (by rw [h.view]; exact known)

theorem Presents.role (h : c.Presents S v) (known : v.promise r = some x) : c.loop.role? r = some x.role :=
  role_of_view (S := S) (by rw [h.view]; exact known)

theorem Presents.outcome (h : c.Presents S v) (known : v.promise r = some x) : c.loop.outcome? r = x.outcome :=
  outcome_of_view (S := S) (by rw [h.view]; exact known)

theorem Presents.lt_size (h : c.Presents S v) (known : v.promise r = some x) : r < c.loop.promises.size :=
  h.apart.loop.own r (h.promise known).1

theorem Presents.promise_new (h : c.Presents S v) : v.promise c.loop.promises.size = none := by
  cases known : v.promise c.loop.promises.size with
  | none => rfl
  | some x => exact absurd (h.lt_size known) (Nat.lt_irrefl _)

theorem Presents.ne_new (h : c.Presents S v) (known : v.promise r = some x) : r ≠ c.loop.promises.size :=
  Nat.ne_of_lt (h.lt_size known)

/-! ## Promises -/

/-- A promise of the share is changed. -/
theorem Presents.modify (h : c.Presents S v) (known : v.promise r = some x)
    (f : Promise Activity Event → Promise Activity Event)
    (fits : ∀ job ∈ (f x).observers, job.Fits c.loop.promises.size) :
    Client.Presents { c with loop := { c.loop with promises := c.loop.promises.modify r f } } S (v.set r (f x)) := by
  obtain rfl := h.view
  obtain ⟨own, hx⟩ := h.promise known
  have apart := h.apart.loop.modify r f (fun other => absurd own other) fun y hy job hj => by
    cases hx.symm.trans hy
    exact ⟨fits job hj, fun other => absurd own other⟩
  refine ⟨h.apart.replace apart (Nat.le_of_eq (Array.size_modify ..).symm), ?_⟩
  refine View.ext (funext fun q => ?_) rfl rfl rfl rfl rfl
  show (if q ∈ S.own then (c.loop.promises.modify r f)[q]? else none) = if q = r then _ else _
  rw [Array.getElem?_modify]
  by_cases e : q = r
  · subst e
    rw [if_pos own, if_pos rfl, if_pos rfl, hx]
    rfl
  · rw [if_neg (Ne.symm e), if_neg e]
    rfl

theorem Presents.fits (h : c.Presents S v) (known : v.promise r = some x) :
    ∀ job ∈ x.observers, job.Fits c.loop.promises.size :=
  fun job hj => (h.apart.loop.observers (r := r) (by
    unfold Loop.observers
    rw [(h.promise known).2]
    exact hj)).1

theorem Presents.setRole (h : c.Presents S v) (known : v.promise r = some x) (role : Role Activity) :
    Client.Presents { c with loop := c.loop.setRole r role } S (v.set r { x with role }) :=
  h.modify known (fun p => { p with role }) fun job hj => h.fits known job hj

/-- Someone hears of a promise of the share that is not settled yet. -/
theorem Presents.observe (h : c.Presents S v) {observers : List (Job Event)} {role : Role Activity}
    (known : v.promise r = some ⟨none, observers, role⟩) (fits : job.Fits c.loop.promises.size) :
    Client.Presents { c with loop := c.loop.observe r job } S (v.set r ⟨none, observers ++ [job], role⟩) := by
  have opened : c.loop.observe r job =
      { c.loop with promises := c.loop.promises.modify r fun p => { p with observers := p.observers ++ [job] } } := by
    unfold Loop.observe
    rw [if_neg]
    rw [Loop.isSettled_eq_false.2 (h.outcome known)]
    nofun
  rw [opened]
  refine h.modify known (fun p => { p with observers := p.observers ++ [job] }) fun j hj => ?_
  rcases List.mem_append.1 hj with hj | hj
  · exact h.fits known j hj
  · cases List.mem_singleton.1 hj
    exact fits

/-- A promise of the share is heard of no more by those that settle another one. -/
theorem Presents.unobserve (h : c.Presents S v) (known : v.promise r = some x) (target : PromiseId) :
    Client.Presents { c with loop := c.loop.unobserve r target } S
      (v.set r { x with observers := x.observers.filter fun job => !Loop.Job.fulfils target job }) :=
  h.modify known (fun p => { p with observers := p.observers.filter fun job => !Loop.Job.fulfils target job })
    fun job hj => h.fits known job (List.mem_filter.1 hj).1

/-- A promise of the share is completed. -/
theorem Presents.complete (h : c.Presents S v) {observers : List (Job Event)} {role : Role Activity}
    (known : v.promise r = some ⟨none, observers, role⟩) (all : ∀ job ∈ observers, job.concerns S.heard = true)
    (o : Outcome) :
    Client.Presents { c with loop := c.loop.complete r o } S ((v.set r ⟨some o, [], role⟩).adds observers) := by
  obtain rfl := h.view
  obtain ⟨own, hx⟩ := h.promise known
  refine ⟨h.apart.replace (h.apart.loop.complete r o) (Nat.le_of_eq (Loop.size_complete ..).symm), ?_⟩
  refine View.ext (funext fun q => ?_) (Loop.readyFor_complete hx all o) ?_ ?_ rfl rfl
  · show (if q ∈ S.own then (c.loop.complete r o).promises[q]? else none) = if q = r then _ else _
    by_cases e : q = r
    · subst e
      rw [if_pos own, if_pos rfl]
      exact Loop.getElem?_complete_self hx o
    · rw [Loop.getElem?_complete_of_ne e, if_neg e]
      rfl
  · show (c.loop.complete r o).timers.filter _ = _
    rw [Loop.complete_of_open hx]
    rfl
  · show (c.loop.complete r o).now = _
    rw [Loop.complete_of_open hx]
    rfl

/-- A new promise belongs to the share. -/
theorem Presents.newOwn (h : c.Presents S v) (new : r = c.loop.promises.size) (role : Role Activity) :
    Client.Presents { c with loop := (c.loop.newPromise role).2 } { S with own := r :: S.own, heard := r :: S.heard }
      (v.set r ⟨none, [], role⟩) := by
  obtain rfl := h.view
  subst new
  have le : c.loop.promises.size ≤ (c.loop.newPromise role).2.promises.size := by
    rw [Loop.size_newPromise]
    exact Nat.le_succ _
  have widen : ∀ {q}, c.loop.Known S q → (c.loop.newPromise role).2.Known
      { S with own := c.loop.promises.size :: S.own, heard := c.loop.promises.size :: S.heard } q := fun {q} k =>
    ⟨Nat.lt_of_lt_of_le k.1 le, fun own => (List.mem_cons.1 own).elim (Nat.ne_of_lt k.1) k.2⟩
  refine ⟨⟨h.apart.loop.newOwn role, fun hx hw => widen (h.apart.pipes hx hw), h.apart.count,
    fun hx => ⟨(h.apart.transports hx).1, fun d hd => widen ((h.apart.transports hx).2 d hd)⟩, h.apart.links,
    fun hx hw => ?_, fun ht => ?_⟩, ?_⟩
  · have old := h.apart.children hx hw
    exact ⟨Nat.lt_of_lt_of_le old.1 le, fun ne own => (List.mem_cons.1 own).elim (Nat.ne_of_lt old.1) (old.2 ne)⟩
  · have old := h.apart.tasks ht
    exact ⟨Nat.lt_of_lt_of_le old.1 le,
      fun own => (List.mem_cons.1 own).elim (fun e => absurd e (Nat.ne_of_lt old.1)) old.2⟩
  · refine View.ext (funext fun q => ?_) h.apart.loop.readyFor_new h.apart.loop.timersFor_new rfl rfl ?_
    · show (if q ∈ c.loop.promises.size :: S.own then (c.loop.newPromise role).2.promises[q]? else none) =
        if q = _ then _ else _
      by_cases e : q = c.loop.promises.size
      · subst e
        rw [if_pos (List.mem_cons_self ..), if_pos rfl]
        exact Loop.getElem?_newPromise_self _ role
      · rw [if_neg e]
        by_cases own : q ∈ S.own
        · rw [if_pos (List.mem_cons_of_mem _ own), Loop.getElem?_newPromise_of_own h.apart.loop own]
          exact (view_promise own).symm
        · rw [if_neg fun new => (List.mem_cons.1 new).elim e own]
          exact (view_promise_of_not own).symm
    · -- Nobody waits for what is new.
      refine List.filter_congr fun w hw => ?_
      obtain ⟨y, hy, hw⟩ := mem_waiters_childAt hw
      have ne : w ≠ c.loop.promises.size := Nat.ne_of_lt (h.apart.children hy hw).1
      simp [ne]

/-! ## Jobs and timers -/

/-- A job of the share becomes ready. -/
theorem Presents.schedule (h : c.Presents S v) (target : job.target? = some r) (heard : r ∈ S.heard) :
    Client.Presents { c with loop := c.loop.schedule job } S (v.adds [job]) := by
  obtain rfl := h.view
  have concerns : job.concerns S.heard = true := Job.concerns_iff.2 ⟨r, target, heard⟩
  have fits : job.Fits c.loop.promises.size :=
    Job.fits_of_target? target (h.apart.loop.own r (h.apart.loop.heard r heard))
  refine ⟨h.apart.replace (h.apart.loop.schedule fits) (Nat.le_refl _), ?_⟩
  refine View.ext rfl ?_ rfl rfl rfl rfl
  show (c.loop.ready ++ [(none, job)]).filter _ = c.loop.readyFor S.heard ++ [(none, job)]
  rw [List.filter_append]
  exact congrArg _ (List.filter_cons_of_pos concerns)

/-- A task of the share is made. -/
theorem Presents.spawnOwn (h : c.Presents S v) (new : r = c.loop.promises.size) (a : Activity) :
    Client.Presents { c with loop := (c.loop.spawn a).2 } { S with own := r :: S.own, heard := r :: S.heard }
      ((v.set r ⟨none, [], .task [a] none false⟩).adds [.step r]) := by
  have made := (h.newOwn new (.task [a] none false)).schedule
    (show Job.target? (.step r : Job Event) = some r from rfl) (List.mem_cons_self ..)
  subst new
  exact made

theorem filter_insertTimer {keep : Timer Event → Bool} (t : Timer Event) (kept : keep t = true)
    {ts : List (Timer Event)} (others : ts.filter keep = []) : (Loop.insertTimer t ts).filter keep = [t] := by
  induction ts with
  | nil => exact List.filter_cons_of_pos kept
  | cons u ts ih =>
    have other : ¬ keep u = true := List.filter_eq_nil_iff.1 others u (List.mem_cons_self ..)
    unfold Loop.insertTimer
    split
    · rw [List.filter_cons_of_neg other] at others ⊢
      exact ih others
    · rw [List.filter_cons_of_pos kept, others]

/-- The first timer of the share is set. -/
theorem Presents.callLater (h : c.Presents S v) (target : job.target? = some r) (heard : r ∈ S.heard)
    {seconds due : Float} {timer : TimerId} (new : timer = c.loop.nextTimer) (time : due = c.loop.now + seconds)
    (none : v.timers = []) :
    Client.Presents { c with loop := (c.loop.callLater seconds job).2 } { S with timers := timer :: S.timers }
      { v with timers := [⟨timer, due, job⟩] } := by
  subst new time
  obtain rfl := h.view
  have fits : job.Fits c.loop.promises.size :=
    Job.fits_of_target? target (h.apart.loop.own r (h.apart.loop.heard r heard))
  refine ⟨⟨h.apart.loop.ownTimer seconds fits, h.apart.pipes, h.apart.count, h.apart.transports, h.apart.links,
    h.apart.children, h.apart.tasks⟩, ?_⟩
  refine View.ext rfl rfl ?_ rfl rfl rfl
  exact filter_insertTimer _ (Job.concerns_iff.2 ⟨r, target, heard⟩) none

/-! ## Other changes -/

theorem Presents.running (h : c.Presents S v) (running : Option PromiseId) : Client.Presents { c with running } S v :=
  ⟨(h.apart.running running).apart, h.view⟩

/-- One of the share waits for its process to exit. -/
theorem Presents.awaitOwn (h : c.Presents S v) (known : v.promise r = some x) (launched : S.child < c.children.size) :
    Client.Presents { c with children := c.children.modify S.child fun y => { y with waiters := y.waiters ++ [r] } } S
      { v with waiters := v.waiters ++ [r] } := by
  obtain rfl := h.view
  have waiting := childAt_modify c S.child S.child fun y => { y with waiters := y.waiters ++ [r] }
  rw [if_pos ⟨rfl, launched⟩] at waiting
  refine ⟨⟨h.apart.loop, h.apart.pipes, h.apart.count, h.apart.transports, fun hx hl hj => ?_, fun {j y w} hy hw => ?_,
    h.apart.tasks⟩, ?_⟩
  · exact Nat.lt_of_lt_of_eq (h.apart.links hx hl hj) (Array.size_modify ..).symm
  · have hy : (c.children.modify S.child _)[j]? = some y := hy
    rw [Array.getElem?_modify] at hy
    split at hy
    · next e =>
      obtain ⟨z, hz, rfl⟩ := Option.map_eq_some_iff.1 hy
      refine ⟨?_, fun ne => absurd e.symm ne⟩
      rcases List.mem_append.1 hw with hw | hw
      · exact (h.apart.children hz hw).1
      · cases List.mem_singleton.1 hw
        exact h.lt_size known
    · exact h.apart.children hy hw
  · refine View.ext rfl rfl rfl rfl ?_ ?_
    · exact (congrArg (fun y : Child => y.exitCode.isSome) waiting :)
    · refine (congrArg (fun y : Child => y.waiters.filter S.own.contains) waiting :).trans ?_
      show ((c.childAt S.child).waiters ++ [r]).filter _ = _
      rw [List.filter_append, List.filter_cons_of_pos (by simpa using (h.promise known).1), List.filter_nil]
      rfl

/-- What happens beside a share for whose process nobody of the share waits: nothing is shown of it but the exit. -/
theorem Presents.beside (h : c.Presents S v) (b : c.Beside S d) (none : v.waiters = []) :
    d.Presents S { v with exited := (d.childAt S.child).exitCode.isSome } := by
  have exits : ∀ {w : View}, d.view S = w → w.exited = (d.childAt S.child).exitCode.isSome := fun e => by rw [← e]; rfl
  refine ⟨b.apart, ?_⟩
  rcases view_elsewhere b.elsewhere with same | ⟨-, exited⟩
  · rw [h.view] at same
    rw [← exits same]
    exact same
  · rw [h.view, View.exits_of_settled (by rw [none]; nofun)] at exited
    rw [← exits exited, exited, none]

/-- The timers of the share are over, and only some of its promises are kept: what is let go does nothing any more. -/
theorem Presents.lets (h : c.Presents S v) (all : S.heard = S.own) (own : List PromiseId) (less : ∀ r ∈ own, r ∈ S.own)
    (idle : ∀ r x, v.promise r = some x → r ∉ own →
      (x.role = .plain ∨ x.role = .task [] none false) ∧ ∀ job ∈ x.observers, job.concerns own = false)
    (ready : ∀ y ∈ v.ready, y.2.concerns own = true → y.1 = none)
    (timers : ∀ t ∈ v.timers, t.job.concerns own = false) :
    c.Presents { S with own, heard := own, timers := [] } (v.restrict own) := by
  obtain rfl := h.view
  have more : ∀ {job : Job Event}, job.concerns own = true → job.concerns S.heard = true := fun hc => by
    obtain ⟨r, target, mine⟩ := Job.concerns_iff.1 hc
    exact Job.concerns_iff.2 ⟨r, target, all ▸ less r mine⟩
  have shown : ∀ r ∈ S.own, ∀ x, c.loop.promises[r]? = some x → (c.view S).promise r = some x :=
    fun r mine x hx => (view_promise mine).trans hx
  have loop : c.loop.Apart { S with own, heard := own, timers := [] } := by
    refine h.apart.loop.release less (fun _ mine => mine) (fun r mine => all ▸ less r mine) nofun ?_ ?_ ?_
    · intro r mine other role hr
      have hx := Loop.getElem?_of_role? hr
      rcases (idle r _ (shown r mine _ hx) other).1 with e | e <;> cases e
      · trivial
      · exact ⟨nofun, nofun⟩
    · intro r mine other job hj
      unfold Loop.observers at hj
      cases hx : c.loop.promises[r]? with
      | none =>
        rw [hx] at hj
        cases hj
      | some x =>
        rw [hx] at hj
        exact (idle r x (shown r mine x hx) other).2 job hj
    · intro y hy hc k hk
      rcases Loop.mem_ahead.1 hy with hy | ⟨t, ht, rfl⟩
      · have mem : y ∈ (c.view S).ready := List.mem_filter.2 ⟨hy, more hc⟩
        rw [ready y mem hc] at hk
        cases hk
      · have mem : t ∈ (c.view S).timers := List.mem_filter.2 ⟨ht, more hc⟩
        rw [timers t mem] at hc
        cases hc
  have widen : ∀ {q}, c.loop.Known S q → c.loop.Known { S with own, heard := own, timers := [] } q := fun k =>
    ⟨k.1, fun mine => k.2 (less _ mine)⟩
  refine ⟨⟨loop, fun hx hw => widen (h.apart.pipes hx hw), h.apart.count,
    fun hx => ⟨(h.apart.transports hx).1, fun d hd => widen ((h.apart.transports hx).2 d hd)⟩, h.apart.links,
    fun hx hw => ⟨(h.apart.children hx hw).1, fun ne mine => (h.apart.children hx hw).2 ne (less _ mine)⟩,
    fun ht => ⟨(h.apart.tasks ht).1, fun mine => (h.apart.tasks ht).2 (less _ mine)⟩⟩, ?_⟩
  refine View.ext (funext fun r => ?_) ?_ ?_ rfl rfl ?_
  · show (if r ∈ own then _ else none) = if r ∈ own then (c.view S).promise r else none
    split
    · next mine => exact (view_promise (less r mine)).symm
    · rfl
  · show c.loop.ready.filter _ = (c.loop.ready.filter _).filter _
    rw [List.filter_filter]
    refine List.filter_congr fun y _ => ?_
    cases hc : y.2.concerns own with
    | true => rw [more hc]; rfl
    | false => rfl
  · show c.loop.timers.filter _ = (c.loop.timers.filter _).filter _
    rw [List.filter_filter]
    refine List.filter_congr fun t _ => ?_
    cases hc : t.job.concerns own with
    | true => rw [more hc]; rfl
    | false => rfl
  · show (c.childAt S.child).waiters.filter _ = ((c.childAt S.child).waiters.filter _).filter _
    rw [List.filter_filter]
    refine List.filter_congr fun r _ => ?_
    by_cases mine : r ∈ own
    · simp [mine, less r mine]
    · simp [mine]

end Client

end LspClient
