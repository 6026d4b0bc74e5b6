/-
What is in a loop: the faults that promises are settled with, the activities of tasks, and the events
of jobs. If all of them have some property, then they keep it whatever the loop does, as long as what
comes in has it too.
-/
import LspClient.Proofs.Loop.Tasks

namespace LspClient

/-! ## Definitions -/

/-- What may be in a loop. Promises may always be cancelled. -/
structure Contents (φ ω : Type) where
  activity : φ → Prop
  event : ω → Prop
  fault : Fault → Prop
  cancelled : fault .cancelled

/-- A result that is no fault but some. -/
def Fault.Only {α : Type} (F : Fault → Prop) (r : Except Fault α) : Prop :=
  ∀ f, r = .error f → F f

variable {φ ω : Type}

/-- A job whose event may be in a loop. -/
def Job.Holds (K : Contents φ ω) : Job ω → Prop
  | .notify e => K.event e
  | _ => True

/-- A task whose activities may be in a loop. -/
def Role.Holds (K : Contents φ ω) : Role φ → Prop
  | .task stack _ _ => ∀ a ∈ stack, K.activity a
  | _ => True

structure Promise.Holds (K : Contents φ ω) (x : Promise φ ω) : Prop where
  outcome : ∀ o, x.outcome = some o → Fault.Only K.fault o
  observers : ∀ job ∈ x.observers, job.Holds K
  role : x.role.Holds K

/-- A loop in which there is nothing else. -/
structure Loop.Holds (K : Contents φ ω) (l : Loop φ ω) : Prop where
  promises : ∀ x ∈ l.promises, x.Holds K
  ready : ∀ e ∈ l.ready, e.2.Holds K
  timers : ∀ t ∈ l.timers, t.job.Holds K

variable {K : Contents φ ω}

theorem Fault.only_ok {α : Type} {F : Fault → Prop} (a : α) : Fault.Only F (.ok a) :=
  fun _ h => by cases h

theorem Fault.only_error {α : Type} {F : Fault → Prop} {f : Fault} (h : F f) : Fault.Only (α := α) F (.error f) :=
  fun _ e => by cases e; exact h

namespace Loop

variable {l l' : Loop φ ω}

theorem Holds.new : Holds K ({} : Loop φ ω) :=
  ⟨by simp, by simp, by simp⟩

/-! ## What is looked up -/

theorem Holds.getElem? (h : l.Holds K) {p : PromiseId} {x : Promise φ ω} (hp : l.promises[p]? = some x) : x.Holds K :=
  h.promises x (Array.mem_of_getElem? hp)

theorem Holds.outcome? (h : l.Holds K) {p : PromiseId} {o : Outcome} (ho : l.outcome? p = some o) :
    Fault.Only K.fault o := by
  unfold Loop.outcome? at ho
  obtain ⟨x, hx, e⟩ := Option.bind_eq_some_iff.1 ho
  exact (h.getElem? hx).outcome o e

theorem Holds.role? (h : l.Holds K) {p : PromiseId} {role : Role φ} (hr : l.role? p = some role) : role.Holds K := by
  unfold Loop.role? at hr
  obtain ⟨x, hx, rfl⟩ := Option.map_eq_some_iff.1 hr
  exact (h.getElem? hx).role

/-! ## Promises -/

/-- A change of one promise. -/
theorem Holds.modify (h : l.Holds K) (p : PromiseId) {f : Promise φ ω → Promise φ ω}
    (hf : ∀ x, x.Holds K → (f x).Holds K) : Holds K { l with promises := l.promises.modify p f } := by
  refine ⟨fun x hx => ?_, h.ready, h.timers⟩
  obtain ⟨i, hi⟩ := Array.mem_iff_getElem?.1 hx
  rw [Array.getElem?_modify] at hi
  split at hi
  · obtain ⟨y, hy, rfl⟩ := Option.map_eq_some_iff.1 hi
    exact hf y (h.getElem? hy)
  · exact h.getElem? hi

theorem Holds.schedule (h : l.Holds K) {job : Job ω} (hj : job.Holds K) : (l.schedule job).Holds K := by
  refine ⟨h.promises, fun e he => ?_, h.timers⟩
  rcases List.mem_append.1 he with he | he
  · exact h.ready e he
  · cases List.mem_singleton.1 he
    exact hj

theorem Holds.newPromise (h : l.Holds K) (role : Role φ) (hr : role.Holds K) : (l.newPromise role).2.Holds K := by
  refine ⟨fun x hx => ?_, h.ready, h.timers⟩
  rcases Array.mem_push.1 hx with hx | rfl
  · exact h.promises x hx
  · exact ⟨by simp, by simp, hr⟩

theorem Holds.setRole (h : l.Holds K) (p : PromiseId) (role : Role φ) (hr : role.Holds K) :
    (l.setRole p role).Holds K :=
  h.modify p fun _ hx => ⟨hx.outcome, hx.observers, hr⟩

theorem Holds.complete (h : l.Holds K) (p : PromiseId) {o : Outcome} (ho : Fault.Only K.fault o) :
    (l.complete p o).Holds K := by
  unfold Loop.complete
  split
  · next observers role hp =>
    have settled := h.modify p (f := fun x => { x with outcome := some o, observers := [] }) fun x hx =>
      ⟨fun o' e => by cases e; exact ho, by simp, hx.role⟩
    refine ⟨settled.promises, fun e he => ?_, h.timers⟩
    rcases List.mem_append.1 he with he | he
    · exact h.ready e he
    · obtain ⟨job, hj, rfl⟩ := List.mem_map.1 he
      exact (h.getElem? hp).observers job hj
  · exact h

theorem Holds.settle (h : l.Holds K) (p : PromiseId) {o : Outcome} (ho : Fault.Only K.fault o) :
    (l.settle p o).Holds K := by
  unfold Loop.settle
  split
  · exact h.complete p ho
  · exact h

theorem Holds.observe (h : l.Holds K) (p : PromiseId) {job : Job ω} (hj : job.Holds K) : (l.observe p job).Holds K := by
  unfold Loop.observe
  split
  · exact h.schedule hj
  · refine h.modify p fun x hx => ⟨hx.outcome, fun job' h' => ?_, hx.role⟩
    rcases List.mem_append.1 h' with h' | h'
    · exact hx.observers job' h'
    · cases List.mem_singleton.1 h'
      exact hj

theorem Holds.unobserve (h : l.Holds K) (p target : PromiseId) : (l.unobserve p target).Holds K :=
  h.modify p fun _ hx => ⟨hx.outcome, fun job h' => hx.observers job (List.mem_filter.1 h').1, hx.role⟩

/-! ## Tasks and groups -/

theorem Holds.spawn (h : l.Holds K) {a : φ} (ha : K.activity a) : (l.spawn a).2.Holds K :=
  (h.newPromise (.task [a] none false) (by simpa [Role.Holds] using ha)).schedule trivial

theorem Holds.gather (h : l.Holds K) (members : List PromiseId) : (l.gather members).2.Holds K := by
  have observed : ∀ (g : PromiseId) (ms : List PromiseId) {l : Loop φ ω}, l.Holds K →
      (ms.foldl (fun l m => l.observe m (.member g m)) l).Holds K := by
    intro g ms
    induction ms with
    | nil => exact id
    | cons m ms ih => exact fun h => ih (h.observe m trivial)
  exact observed _ members (h.newPromise (.group members members.length false) trivial)

theorem Holds.memberSettled (h : l.Holds K) (g : PromiseId) : (l.memberSettled g).Holds K := by
  unfold Loop.memberSettled
  split
  · next members left interrupted _ =>
    have counted := h.setRole g (.group members (left - 1) interrupted) trivial
    dsimp only
    split
    · refine counted.complete g ?_
      split
      · exact Fault.only_error K.cancelled
      · exact Fault.only_ok _
    · exact counted
  · exact h

theorem Holds.cancelMembers {cancel : PromiseId → Loop φ ω → Bool × Loop φ ω}
    (keeps : ∀ p {l : Loop φ ω}, l.Holds K → (cancel p l).2.Holds K) (members : List PromiseId) (h : l.Holds K) :
    (Loop.cancelMembers cancel members l).2.Holds K := by
  induction members generalizing l with
  | nil => exact h
  | cons m members ih => exact ih (keeps m h)

theorem Holds.cancelFrom (fuel : Nat) (p : PromiseId) (h : l.Holds K) : (Loop.cancelFrom fuel p l).2.Holds K := by
  induction fuel generalizing p l with
  | zero => exact h
  | succ fuel ih =>
    unfold Loop.cancelFrom
    split
    · next observers role hp =>
      have known : role.Holds K := (h.getElem? hp).role
      cases role with
      | plain => exact h.settle p (Fault.only_error K.cancelled)
      | task stack awaiting interrupted =>
        have interrupts : ∀ {l : Loop φ ω}, l.Holds K → (l.setRole p (.task stack awaiting true)).Holds K :=
          fun h => h.setRole p (.task stack awaiting true) known
        cases awaiting with
        | none => exact interrupts h
        | some source =>
          dsimp only
          split
          · exact ih source h
          · exact interrupts (ih source h)
      | group members left interrupted =>
        have cancels : (Loop.cancelMembers (Loop.cancelFrom fuel) members l).2.Holds K :=
          Holds.cancelMembers (fun p _ h => ih p h) members h
        dsimp only
        split
        · split
          · exact cancels.setRole p _ trivial
          · exact cancels
        · exact cancels
    · exact h

theorem Holds.cancel (h : l.Holds K) (p : PromiseId) : (l.cancel p).2.Holds K :=
  Holds.cancelFrom _ p h

/-! ## Turns -/

/-- A task puts down what it is in the middle of, and takes it up again. -/
theorem Holds.suspend (h : l.Holds K) (p : PromiseId) {stack : List φ} (hs : ∀ a ∈ stack, K.activity a)
    (source : PromiseId) : (l.suspend p stack source).Holds K := by
  have put : ∀ {l : Loop φ ω} (i : Bool), l.Holds K → (l.setRole p (.task stack (some source) i)).Holds K :=
    fun i h => h.setRole p (.task stack (some source) i) hs
  unfold Loop.suspend
  extract_lets interrupted l₁
  have waits : l₁.Holds K := put _ (h.observe source trivial)
  split
  · dsimp only
    split
    · exact put _ (waits.cancel source)
    · exact waits.cancel source
  · exact waits

theorem Holds.pause (h : l.Holds K) (p : PromiseId) {stack : List φ} (hs : ∀ a ∈ stack, K.activity a) :
    (l.pause p stack).Holds K := by
  unfold Loop.pause
  extract_lets interrupted
  exact (h.setRole p (.task stack none interrupted) hs).schedule trivial

theorem Holds.resume (h : l.Holds K) (p : PromiseId) :
    (∀ a ∈ (l.resume p).1, K.activity a) ∧ (l.resume p).2.2.Holds K := by
  unfold Loop.resume
  split
  · next stack _ _ hr =>
    have idle : Role.Holds K (.task [] none false) := fun _ ha => by cases ha
    exact ⟨h.role? hr, h.setRole p _ idle⟩
  · exact ⟨fun _ ha => (List.not_mem_nil ha).elim, h⟩

theorem Holds.finish (h : l.Holds K) (p : PromiseId) {o : Outcome} (ho : Fault.Only K.fault o) :
    (l.finish p o).Holds K := by
  unfold Loop.finish
  split
  · exact h.complete p (Fault.only_error K.cancelled)
  · exact h.complete p ho

/-! ## Timers -/

theorem Holds.callLater (h : l.Holds K) (seconds : Float) {job : Job ω} (hj : job.Holds K) :
    (l.callLater seconds job).2.Holds K := by
  refine ⟨h.promises, h.ready, fun t ht => ?_⟩
  rcases mem_insertTimer ht with rfl | ht
  · exact hj
  · exact h.timers t ht

theorem Holds.cancelTimer (h : l.Holds K) (timer : TimerId) : (l.cancelTimer timer).Holds K := by
  refine ⟨h.promises, fun e he => ?_, fun t ht => h.timers t (List.mem_filter.1 ht).1⟩
  obtain ⟨⟨id, job⟩, hj, rfl⟩ := List.mem_map.1 he
  dsimp only
  split
  · trivial
  · exact h.ready _ hj

theorem Holds.setNow (h : l.Holds K) (now : Float) : Holds K { l with now } :=
  ⟨h.promises, h.ready, h.timers⟩

theorem Holds.beginRound (h : l.Holds K) : l.beginRound.Holds K := by
  refine ⟨h.promises, fun e he => ?_, fun t ht => h.timers t ((List.dropWhile_sublist _).subset ht)⟩
  rcases List.mem_append.1 he with he | he
  · exact h.ready e he
  · obtain ⟨t, ht, rfl⟩ := List.mem_map.1 he
    exact h.timers t ((List.takeWhile_sublist _).subset ht)

/-- The next job is in the loop, and the others still are. -/
theorem Holds.next? (h : l.Holds K) {job : Job ω} (next : l.next? = some (job, l')) : job.Holds K ∧ l'.Holds K := by
  unfold Loop.next? at next
  have begun : (if l.budget = 0 then l.beginRound else l).Holds K := by
    split
    · exact h.beginRound
    · exact h
  dsimp only at next
  split at next
  · cases next
  · next timer job' rest hr =>
    cases next
    have front := begun.ready (timer, job)
    have others : ∀ e ∈ rest, e ∈ (if l.budget = 0 then l.beginRound else l).ready := fun e he => by
      rw [hr]
      exact List.mem_cons_of_mem _ he
    refine ⟨front (by rw [hr]; exact List.mem_cons_self ..), begun.promises, fun e he => ?_, begun.timers⟩
    exact begun.ready e (others e he)

end Loop

end LspClient
