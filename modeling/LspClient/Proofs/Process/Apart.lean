/-
What a task has to itself. A task may have promises and timers that nobody else knows of: no other task waits for them,
and no job that comes from elsewhere does anything to them. Whatever the rest of the loop does then leaves them as they
are, and the jobs and timers that concern them, too.
-/
import LspClient.Activity
import LspClient.Proofs.Loop.Alarms

namespace LspClient

/-! ## Definitions -/

/-- The promise or task that a job does something to. -/
def Job.target? {ω : Type} : Job ω → Option PromiseId
  | .step p | .wake p _ | .fulfil p | .member p _ => some p
  | .notify _ | .idle => none

/-- Whether a job does something to one of some promises. -/
def Job.concerns {ω : Type} (own : List PromiseId) (job : Job ω) : Bool :=
  job.target?.any own.contains

/-- Whether an event tells of the end of a task or of a process. -/
def Event.isMild : Event → Bool
  | .taskEnded .. | .childExits .. => true
  | _ => false

/-- A job that does something to one of so many promises, or tells of the end of a task or of a process. -/
def Job.Fits (size : Nat) (job : Job Event) : Prop :=
  (∀ r, job.target? = some r → r < size) ∧ ∀ e, job = .notify e → e.isMild = true

/-- An activity of a task that opens, reads or closes the transports of processes, with what it holds on to. -/
def Activity.Minds (V : PromiseId → Prop) (U : TimerId → Prop) (transports : Nat) : Activity → Prop
  | .openTransport t | .receive t | .closeTransport t | .closeAwaited t _ | .closeTerminated t _ | .closeKilled t _ =>
    t < transports
  | .relay | .receiveFramed | .takeFrame .. | .takeFrameMore .. | .drain _ | .drainMore _ | .awaitExit _
  | .closeDrained _ => True
  | .within inner _ => ∃ i, inner = .awaitExit i
  | .withinAwaited task waiter timer => V task ∧ V waiter ∧ U timer
  | .halt task => V task
  | .halted task waiter => V task ∧ V waiter
  | .overdue task timer => V task ∧ ∀ k, timer = some k → U k
  | .abandoned timer _ => U timer
  | _ => False

/-- What settles a promise, with what it waits for. -/
def Role.Minds (V : PromiseId → Prop) (U : TimerId → Prop) (transports : Nat) : Role Activity → Prop
  | .plain => True
  | .task stack awaiting _ => (∀ a ∈ stack, a.Minds V U transports) ∧ ∀ source, awaiting = some source → V source
  | .group members _ _ => ∀ m ∈ members, V m

/-- What the task that closes a process has to itself. -/
structure Share where
  task : PromiseId
  child : ChildId
  /-- Promises that nobody else knows of. -/
  own : List PromiseId
  /-- Those of them that nothing else makes jobs for. -/
  heard : List PromiseId
  timers : List TimerId
  /-- How many transports there are. -/
  transports : Nat

namespace Loop

variable {S : Share} {l l' l'' : Loop Activity Event} {r : PromiseId} {job : Job Event}

/-- What is ready and concerns some promises. -/
def readyFor (heard : List PromiseId) (l : Loop Activity Event) : List (Option TimerId × Job Event) :=
  l.ready.filter fun x => x.2.concerns heard

/-- The timers that concern some promises. -/
def timersFor (heard : List PromiseId) (l : Loop Activity Event) : List (Timer Event) :=
  l.timers.filter fun t => t.job.concerns heard

/-- A promise that others may know of. -/
def Known (S : Share) (l : Loop Activity Event) (r : PromiseId) : Prop :=
  r < l.promises.size ∧ r ∉ S.own

/-- A timer that others may know of. -/
def KnownTimer (S : Share) (l : Loop Activity Event) (k : TimerId) : Prop :=
  k < l.nextTimer ∧ k ∉ S.timers

/-- A loop in which a task has its share to itself. -/
structure Apart (S : Share) (l : Loop Activity Event) : Prop where
  orderly : l.Orderly
  own : ∀ r ∈ S.own, r < l.promises.size
  heard : ∀ r ∈ S.heard, r ∈ S.own
  timers : ∀ k ∈ S.timers, k < l.nextTimer
  roles : ∀ {r role}, l.role? r = some role → r ∉ S.own → role.Minds (l.Known S) (l.KnownTimer S) S.transports
  observers : ∀ {r job}, job ∈ l.observers r →
    job.Fits l.promises.size ∧ (r ∉ S.own → job.concerns S.heard = false)
  ahead : ∀ x ∈ l.ahead, x.2.Fits l.promises.size ∧
    (x.2.concerns S.heard = true → ∀ k, x.1 = some k → k ∈ S.timers)

/-- A change that leaves the share of a task as it is. -/
structure Respects (S : Share) (l l' : Loop Activity Event) : Prop where
  promise : ∀ r ∈ S.own, l'.promises[r]? = l.promises[r]?
  ready : l'.readyFor S.heard = l.readyFor S.heard
  timers : l'.timersFor S.heard = l.timersFor S.heard
  now : l'.now = l.now
  size : l.promises.size ≤ l'.promises.size
  nextTimer : l.nextTimer ≤ l'.nextTimer

/-- A change in the rest of a loop, which stays the rest. -/
structure Beside (S : Share) (l l' : Loop Activity Event) : Prop where
  respects : l.Respects S l'
  apart : l'.Apart S

/-! ## What is held on to -/

theorem Known.mono (h : l.Known S r) (size : l.promises.size ≤ l'.promises.size) : l'.Known S r :=
  ⟨Nat.lt_of_lt_of_le h.1 size, h.2⟩

theorem KnownTimer.mono {k : TimerId} (h : l.KnownTimer S k) (next : l.nextTimer ≤ l'.nextTimer) : l'.KnownTimer S k :=
  ⟨Nat.lt_of_lt_of_le h.1 next, h.2⟩

end Loop

section

variable {V V' : PromiseId → Prop} {U U' : TimerId → Prop} {transports : Nat}

theorem Activity.Minds.mono {a : Activity} (h : a.Minds V U transports) (hV : ∀ r, V r → V' r) (hU : ∀ k, U k → U' k) :
    a.Minds V' U' transports := by
  cases a with
  | withinAwaited task waiter timer => exact ⟨hV _ h.1, hV _ h.2.1, hU _ h.2.2⟩
  | halt task => exact hV _ h
  | halted task waiter => exact ⟨hV _ h.1, hV _ h.2⟩
  | overdue task timer => exact ⟨hV _ h.1, fun k e => hU k (h.2 k e)⟩
  | abandoned timer f => exact hU _ h
  | _ => exact h

theorem Role.Minds.mono {role : Role Activity} (h : role.Minds V U transports) (hV : ∀ r, V r → V' r)
    (hU : ∀ k, U k → U' k) :
    role.Minds V' U' transports := by
  cases role with
  | plain => trivial
  | task stack awaiting i => exact ⟨fun a ha => (h.1 a ha).mono hV hU, fun source e => hV _ (h.2 source e)⟩
  | group members left i => exact fun m hm => hV _ (h m hm)

theorem Job.Fits.mono {n n' : Nat} {job : Job Event} (h : job.Fits n) (le : n ≤ n') : job.Fits n' :=
  ⟨fun r hr => Nat.lt_of_lt_of_le (h.1 r hr) le, h.2⟩

theorem Job.fits_notify {n : Nat} {e : Event} (mild : e.isMild = true) : Job.Fits n (.notify e) :=
  ⟨nofun, fun _ h => by cases h; exact mild⟩

/-- A job that does something to a promise tells of nothing. -/
theorem Job.fits_of_target? {n : Nat} {job : Job Event} {r : PromiseId} (h : job.target? = some r)
    (lt : r < n) : job.Fits n :=
  ⟨fun _ h' => by cases h.symm.trans h'; exact lt, fun _ e => by rw [e] at h; cases h⟩

/-- A job that was there before does nothing to a promise that is new. -/
theorem Job.Fits.concerns_new {n : Nat} {job : Job Event} (h : job.Fits n) (heard : List PromiseId) :
    job.concerns (n :: heard) = job.concerns heard := by
  unfold Job.concerns
  cases ht : job.target? with
  | none => rfl
  | some q =>
    have ne : q ≠ n := Nat.ne_of_lt (h.1 q ht)
    simp [ne]

theorem Job.concerns_eq_false {ω : Type} {own : List PromiseId} {job : Job ω} :
    job.concerns own = false ↔ ∀ r, job.target? = some r → r ∉ own := by
  unfold Job.concerns
  cases job.target? <;> simp

theorem Job.concerns_iff {ω : Type} {own : List PromiseId} {job : Job ω} :
    job.concerns own = true ↔ ∃ r, job.target? = some r ∧ r ∈ own := by
  unfold Job.concerns
  cases job.target? <;> simp

end

namespace Loop

variable {S : Share} {l l' l'' : Loop Activity Event} {r : PromiseId} {job : Job Event}

theorem Respects.refl (S : Share) (l : Loop Activity Event) : l.Respects S l :=
  ⟨fun _ _ => rfl, rfl, rfl, rfl, Nat.le_refl _, Nat.le_refl _⟩

theorem Respects.trans (h : l.Respects S l') (h' : l'.Respects S l'') : l.Respects S l'' :=
  ⟨fun r hr => (h'.promise r hr).trans (h.promise r hr), h'.ready.trans h.ready, h'.timers.trans h.timers,
    h'.now.trans h.now, Nat.le_trans h.size h'.size, Nat.le_trans h.nextTimer h'.nextTimer⟩

theorem Apart.beside (h : l.Apart S) : l.Beside S l :=
  ⟨.refl S l, h⟩

theorem Beside.trans (h : l.Beside S l') (h' : l'.Beside S l'') : l.Beside S l'' :=
  ⟨h.respects.trans h'.respects, h'.apart⟩

theorem Beside.known (b : l.Beside S l') (h : l.Known S r) : l'.Known S r :=
  h.mono b.respects.size

theorem Beside.minds (b : l.Beside S l') {a : Activity} (h : a.Minds (l.Known S) (l.KnownTimer S) S.transports) :
    a.Minds (l'.Known S) (l'.KnownTimer S) S.transports :=
  h.mono (fun _ k => k.mono b.respects.size) fun _ k => k.mono b.respects.nextTimer

/-! ## Promises -/

/-- A change of one promise. -/
theorem Apart.modify (h : l.Apart S) (r : PromiseId) (f : Promise Activity Event → Promise Activity Event)
    (role : r ∉ S.own → ∀ x, l.promises[r]? = some x → (f x).role.Minds (l.Known S) (l.KnownTimer S) S.transports)
    (observers : ∀ x, l.promises[r]? = some x → ∀ job ∈ (f x).observers,
      job.Fits l.promises.size ∧ (r ∉ S.own → job.concerns S.heard = false)) :
    Apart S { l with promises := l.promises.modify r f } := by
  have size : (l.promises.modify r f).size = l.promises.size := Array.size_modify ..
  refine ⟨⟨h.orderly.sorted, h.orderly.apart, h.orderly.made, h.orderly.budget⟩, fun q hq => ?_, h.heard,
    h.timers, ?_, ?_, ?_⟩
  · rw [size]
    exact h.own q hq
  · intro q role' hr hq
    have same : role'.Minds (l.Known S) (l.KnownTimer S) S.transports := by
      unfold role? at hr
      rw [Array.getElem?_modify] at hr
      by_cases e : r = q
      · subst e
        simp only [if_true, Option.map_map, Option.map_eq_some_iff] at hr
        obtain ⟨x, hx, rfl⟩ := hr
        exact role hq x hx
      · rw [if_neg e] at hr
        exact h.roles hr hq
    exact same.mono (fun _ k => ⟨by rw [size]; exact k.1, k.2⟩) fun _ k => k
  · intro q job hj
    rw [size]
    unfold Loop.observers at hj
    rw [Array.getElem?_modify] at hj
    by_cases e : r = q
    · subst e
      rw [if_pos rfl] at hj
      cases hx : l.promises[r]? with
      | none =>
        rw [hx] at hj
        cases hj
      | some x =>
        rw [hx] at hj
        exact observers x hx job hj
    · rw [if_neg e] at hj
      exact h.observers hj
  · rw [size]
    exact h.ahead

theorem respects_modify (l : Loop Activity Event) (other : r ∉ S.own)
    (f : Promise Activity Event → Promise Activity Event) :
    l.Respects S { l with promises := l.promises.modify r f } := by
  have ne : ∀ {q}, q ∈ S.own → r ≠ q := fun hq e => other (e ▸ hq)
  refine ⟨fun q hq => ?_, rfl, rfl, rfl, Nat.le_of_eq (Array.size_modify ..).symm, Nat.le_refl _⟩
  simp [Array.getElem?_modify, ne hq]

/-- Jobs become ready. -/
theorem Apart.append (h : l.Apart S) (jobs : List (Job Event)) (fits : ∀ job ∈ jobs, job.Fits l.promises.size) :
    Apart S { l with ready := l.ready ++ jobs.map fun job => (none, job) } := by
  have gains : l.Gains jobs { l with ready := l.ready ++ jobs.map fun job => (none, job) } := ⟨rfl, rfl, rfl, rfl, rfl⟩
  refine ⟨gains.orderly h.orderly, h.own, h.heard, h.timers, h.roles, h.observers, fun x hx => ?_⟩
  rcases gains.mem_ahead.1 hx with hx | ⟨job, hj, rfl⟩
  · exact h.ahead x hx
  · exact ⟨fits job hj, fun _ k e => by cases e⟩

theorem filter_map_ready {heard : List PromiseId} {jobs : List (Job Event)}
    (other : ∀ job ∈ jobs, job.concerns heard = false) :
    (jobs.map fun job => ((none : Option TimerId), job)).filter (fun x => x.2.concerns heard) = [] := by
  refine List.filter_eq_nil_iff.2 fun x hx => ?_
  obtain ⟨job, hj, rfl⟩ := List.mem_map.1 hx
  simp [other job hj]

theorem respects_append (l : Loop Activity Event) (jobs : List (Job Event))
    (other : ∀ job ∈ jobs, job.concerns S.heard = false) :
    l.Respects S { l with ready := l.ready ++ jobs.map fun job => (none, job) } := by
  refine ⟨fun _ _ => rfl, ?_, rfl, rfl, Nat.le_refl _, Nat.le_refl _⟩
  unfold readyFor
  rw [List.filter_append, filter_map_ready other, List.append_nil]

theorem Apart.schedule (h : l.Apart S) (fits : job.Fits l.promises.size) : (l.schedule job).Apart S :=
  h.append [job] (List.forall_mem_singleton.2 fits)

/-- A promise is completed, and its observers become ready. -/
theorem Apart.complete (h : l.Apart S) (r : PromiseId) (o : Outcome) : (l.complete r o).Apart S := by
  unfold Loop.complete
  split
  · next observers role hp =>
    have heard : l.observers r = observers := by
      unfold Loop.observers
      rw [hp]
      rfl
    have settled :
        Apart S { l with promises := l.promises.modify r fun x => { x with outcome := some o, observers := [] } } := by
      refine h.modify r _ (fun other x hx => h.roles (r := r) ?_ other) fun _ _ _ hj => by cases hj
      unfold role?
      rw [hx]
      rfl
    refine settled.append observers fun job hj => ?_
    have size : (l.promises.modify r fun x => { x with outcome := some o, observers := [] }).size = l.promises.size :=
      Array.size_modify ..
    show job.Fits (l.promises.modify r _).size
    rw [size]
    exact (h.observers (heard ▸ hj)).1
  · exact h

/-- A known promise is completed. -/
theorem Apart.beside_complete (h : l.Apart S) (other : r ∉ S.own) (o : Outcome) : l.Beside S (l.complete r o) := by
  refine ⟨?_, h.complete r o⟩
  unfold Loop.complete
  split
  · next observers role hp =>
    have heard : l.observers r = observers := by
      unfold Loop.observers
      rw [hp]
      rfl
    have appended := respects_append (S := S)
      { l with promises := l.promises.modify r fun x => { x with outcome := some o, observers := [] } } observers
      fun job hj => (h.observers (heard ▸ hj)).2 other
    exact (respects_modify l other _).trans appended
  · exact .refl S l

theorem Apart.settle (h : l.Apart S) (r : PromiseId) (o : Outcome) : (l.settle r o).Apart S := by
  rcases settle_cases l r o with e | ⟨_, e⟩ <;> rw [e]
  · exact h
  · exact h.complete r o

theorem Apart.beside_settle (h : l.Apart S) (other : r ∉ S.own) (o : Outcome) : l.Beside S (l.settle r o) := by
  rcases settle_cases l r o with e | ⟨_, e⟩ <;> rw [e]
  · exact h.beside
  · exact h.beside_complete other o

theorem Apart.setRole (h : l.Apart S) (r : PromiseId) (role : Role Activity)
    (minds : r ∉ S.own → role.Minds (l.Known S) (l.KnownTimer S) S.transports) : (l.setRole r role).Apart S := by
  refine h.modify r _ (fun other _ _ => minds other) fun x hx job hj => h.observers ?_
  unfold Loop.observers
  rw [hx]
  exact hj

theorem Apart.beside_setRole (h : l.Apart S) (other : r ∉ S.own) (role : Role Activity)
    (minds : role.Minds (l.Known S) (l.KnownTimer S) S.transports) : l.Beside S (l.setRole r role) :=
  ⟨respects_modify l other _, h.setRole r role fun _ => minds⟩

/-- An observer of a promise is added, or becomes ready at once. -/
theorem Apart.observe (h : l.Apart S) (r : PromiseId) (fits : job.Fits l.promises.size)
    (other : r ∉ S.own → job.concerns S.heard = false) : (l.observe r job).Apart S := by
  unfold Loop.observe
  split
  · exact h.schedule fits
  · refine h.modify r _ (fun known x hx => h.roles (r := r) ?_ known) fun x hx job' hj => ?_
    · unfold role?
      rw [hx]
      rfl
    · rcases List.mem_append.1 hj with hj | hj
      · refine h.observers ?_
        unfold Loop.observers
        rw [hx]
        exact hj
      · cases List.mem_singleton.1 hj
        exact ⟨fits, other⟩

theorem Apart.beside_observe (h : l.Apart S) (known : r ∉ S.own) (fits : job.Fits l.promises.size)
    (other : job.concerns S.heard = false) : l.Beside S (l.observe r job) := by
  refine ⟨?_, h.observe r fits fun _ => other⟩
  unfold Loop.observe
  split
  · exact respects_append l [job] (List.forall_mem_singleton.2 other)
  · exact respects_modify l known _

theorem Apart.unobserve (h : l.Apart S) (r target : PromiseId) : (l.unobserve r target).Apart S := by
  refine h.modify r _ (fun known x hx => h.roles (r := r) ?_ known) fun x hx job hj => h.observers ?_
  · unfold role?
    rw [hx]
    rfl
  · unfold Loop.observers
    rw [hx]
    exact (List.mem_filter.1 hj).1

theorem Apart.beside_unobserve (h : l.Apart S) (other : r ∉ S.own) (target : PromiseId) :
    l.Beside S (l.unobserve r target) :=
  ⟨respects_modify l other _, h.unobserve r target⟩

/-! ## New promises and timers -/

theorem getElem?_newPromise_of_own (h : l.Apart S) {q : PromiseId} (hq : q ∈ S.own) (role : Role Activity) :
    (l.newPromise role).2.promises[q]? = l.promises[q]? :=
  getElem?_newPromise_of_lt role (h.own q hq)

theorem observers_newPromise_mem {role : Role Activity} (hj : job ∈ (l.newPromise role).2.observers r) :
    job ∈ l.observers r := by
  unfold Loop.observers at hj ⊢
  rw [promises_newPromise, Array.getElem?_push] at hj
  split at hj
  · cases hj
  · exact hj

/-- A new promise that others may know of. -/
theorem Apart.newPromise (h : l.Apart S) (role : Role Activity)
    (minds : role.Minds (l.Known S) (l.KnownTimer S) S.transports) :
    l.Beside S (l.newPromise role).2 ∧ (l.newPromise role).2.Known S l.promises.size := by
  have size := size_newPromise l role
  have le : l.promises.size ≤ (l.newPromise role).2.promises.size := by rw [size]; exact Nat.le_succ _
  have new : (l.newPromise role).2.Known S l.promises.size :=
    ⟨by rw [size]; exact Nat.lt_succ_self _, fun own => Nat.lt_irrefl _ (h.own _ own)⟩
  refine ⟨⟨⟨fun q hq => getElem?_newPromise_of_own h hq role, rfl, rfl, rfl, le, Nat.le_refl _⟩, ?_⟩, new⟩
  refine ⟨(gains_newPromise l role).orderly h.orderly, fun q hq => Nat.lt_of_lt_of_le (h.own q hq) le,
    h.heard, h.timers, fun {q role'} hr hq => ?_, fun hj => ?_, fun x hx => ?_⟩
  · rw [role?_newPromise] at hr
    have minds' : role'.Minds (l.Known S) (l.KnownTimer S) S.transports := by
      split at hr
      · cases hr
        exact minds
      · exact h.roles hr hq
    exact minds'.mono (fun _ k => k.mono le) fun _ k => k
  · have old := h.observers (observers_newPromise_mem hj)
    exact ⟨old.1.mono le, old.2⟩
  · exact ⟨(h.ahead x hx).1.mono le, (h.ahead x hx).2⟩

/-- A new promise that belongs to the share. -/
theorem Apart.newOwn (h : l.Apart S) (role : Role Activity) :
    (l.newPromise role).2.Apart { S with own := l.promises.size :: S.own, heard := l.promises.size :: S.heard } := by
  have size := size_newPromise l role
  have le : l.promises.size ≤ (l.newPromise role).2.promises.size := by rw [size]; exact Nat.le_succ _
  have widen : ∀ {q}, l.Known S q → (l.newPromise role).2.Known
      { S with own := l.promises.size :: S.own, heard := l.promises.size :: S.heard } q := fun {q} k => by
    refine ⟨Nat.lt_of_lt_of_le k.1 le, fun own => ?_⟩
    rcases List.mem_cons.1 own with rfl | own
    · exact Nat.lt_irrefl _ k.1
    · exact k.2 own
  refine ⟨(gains_newPromise l role).orderly h.orderly, fun q hq => ?_, fun q hq => ?_, h.timers,
    fun {q role'} hr hq => ?_, fun hj => ?_, fun x hx => ?_⟩
  · rw [size]
    rcases List.mem_cons.1 hq with rfl | hq
    · exact Nat.lt_succ_self _
    · exact Nat.lt_succ_of_lt (h.own q hq)
  · rcases List.mem_cons.1 hq with rfl | hq
    · exact List.mem_cons_self ..
    · exact List.mem_cons_of_mem _ (h.heard q hq)
  · obtain ⟨ne, hq⟩ := not_or.1 (mt List.mem_cons.2 hq)
    rw [role?_newPromise, if_neg ne] at hr
    exact (h.roles hr hq).mono (fun _ => widen) fun _ k => k
  · have old := h.observers (observers_newPromise_mem hj)
    refine ⟨old.1.mono le, fun hq => ?_⟩
    show Job.concerns (l.promises.size :: S.heard) _ = false
    rw [old.1.concerns_new]
    exact old.2 fun own => hq (List.mem_cons_of_mem _ own)
  · have old := h.ahead x hx
    refine ⟨old.1.mono le, fun hc => old.2 ?_⟩
    rwa [← old.1.concerns_new]

/-- A new timer for others. -/
theorem Apart.callLater (h : l.Apart S) (seconds : Float) (fits : job.Fits l.promises.size)
    (other : job.concerns S.heard = false) :
    l.Beside S (l.callLater seconds job).2 ∧ (l.callLater seconds job).2.KnownTimer S l.nextTimer := by
  refine ⟨⟨⟨fun _ _ => rfl, rfl, ?_, rfl, Nat.le_refl _, Nat.le_succ _⟩, ?_⟩, Nat.lt_succ_self _,
    fun own => Nat.lt_irrefl _ (h.timers _ own)⟩
  · -- The timer is put among the others, and the others stay in their order.
    show (insertTimer _ l.timers).filter _ = l.timers.filter _
    have inserted : ∀ ts : List (Timer Event), (insertTimer ⟨l.nextTimer, l.now + seconds, job⟩ ts).filter
        (fun t => t.job.concerns S.heard) = ts.filter fun t => t.job.concerns S.heard := by
      intro ts
      induction ts with
      | nil => simp [insertTimer, other]
      | cons t ts ih =>
        unfold insertTimer
        split
        · rw [List.filter_cons, List.filter_cons, ih]
        · simp [List.filter_cons, other]
    exact inserted _
  · refine ⟨h.orderly.callLater seconds job, h.own, h.heard, fun k hk => Nat.lt_succ_of_lt (h.timers k hk),
      fun hr hq => (h.roles hr hq).mono (fun _ k => k) fun _ k => ⟨Nat.lt_succ_of_lt k.1, k.2⟩, h.observers,
      fun x hx => ?_⟩
    rcases mem_ahead_callLater.1 hx with rfl | hx
    · exact ⟨fits, fun hc => by rw [other] at hc; cases hc⟩
    · exact h.ahead x hx

/-- A new timer that belongs to the share. -/
theorem Apart.ownTimer (h : l.Apart S) (seconds : Float) (fits : job.Fits l.promises.size) :
    (l.callLater seconds job).2.Apart { S with timers := l.nextTimer :: S.timers } := by
  refine ⟨h.orderly.callLater seconds job, h.own, h.heard, fun k hk => ?_, fun hr hq => ?_, h.observers, fun x hx => ?_⟩
  · rcases List.mem_cons.1 hk with rfl | hk
    · exact Nat.lt_succ_self _
    · exact Nat.lt_succ_of_lt (h.timers k hk)
  · refine (h.roles hr hq).mono (fun _ k => k) fun k hk => ⟨Nat.lt_succ_of_lt hk.1, fun own => ?_⟩
    rcases List.mem_cons.1 own with rfl | own
    · exact Nat.lt_irrefl _ hk.1
    · exact hk.2 own
  · rcases mem_ahead_callLater.1 hx with rfl | hx
    · exact ⟨fits, fun _ k e => by cases e; exact List.mem_cons_self ..⟩
    · exact ⟨(h.ahead x hx).1, fun hc k e => List.mem_cons_of_mem _ ((h.ahead x hx).2 hc k e)⟩

/-- A timer of others is cancelled. -/
theorem Apart.cancelTimer (h : l.Apart S) {timer : TimerId} (other : timer ∉ S.timers) :
    l.Beside S (l.cancelTimer timer) := by
  refine ⟨⟨fun _ _ => rfl, ?_, ?_, rfl, Nat.le_refl _, Nat.le_refl _⟩, ?_⟩
  · show (l.ready.map _).filter _ = l.ready.filter _
    have mapped : ∀ xs : List (Option TimerId × Job Event), (∀ x ∈ xs, x ∈ l.ready) →
        (xs.map fun x => if x.1 = some timer then ((none : Option TimerId), Job.idle) else x).filter
        (fun x => x.2.concerns S.heard) =
          xs.filter fun x => x.2.concerns S.heard := by
      intro xs hxs
      induction xs with
      | nil => rfl
      | cons x xs ih =>
        have rest := ih fun y hy => hxs y (List.mem_cons_of_mem _ hy)
        rw [List.map_cons, List.filter_cons, List.filter_cons, rest]
        split
        · next e =>
          have none : x.2.concerns S.heard = false := Bool.eq_false_iff.2 fun hc =>
            other ((h.ahead x (mem_ahead.2 (.inl (hxs x (List.mem_cons_self ..))))).2 hc timer e)
          rw [none]
          rfl
        · rfl
    exact mapped l.ready fun _ hx => hx
  · show (l.timers.filter _).filter _ = l.timers.filter _
    rw [List.filter_filter]
    refine List.filter_congr fun t ht => ?_
    cases hc : t.job.concerns S.heard with
    | false => rfl
    | true =>
      have own := (h.ahead (some t.id, t.job) (mem_ahead.2 (.inr ⟨t, ht, rfl⟩))).2 hc t.id rfl
      have ne : t.id ≠ timer := fun e => other (e ▸ own)
      simp [ne]
  · refine ⟨h.orderly.cancelTimer timer, h.own, h.heard, h.timers, h.roles, h.observers, fun x hx => ?_⟩
    rcases mem_ahead_cancelTimer hx with rfl | ⟨hx, _⟩
    · exact ⟨⟨nofun, nofun⟩, nofun⟩
    · exact h.ahead x hx

theorem Apart.setNow (h : l.Apart S) (now : Float) : Apart S { l with now } :=
  ⟨⟨h.orderly.sorted, h.orderly.apart, h.orderly.made, h.orderly.budget⟩, h.own, h.heard, h.timers,
    h.roles, h.observers, h.ahead⟩

/-! ## Tasks and groups -/

/-- A new task of others. -/
theorem Apart.spawn (h : l.Apart S) {a : Activity} (minds : a.Minds (l.Known S) (l.KnownTimer S) S.transports) :
    l.Beside S (l.spawn a).2 ∧ (l.spawn a).2.Known S l.promises.size := by
  obtain ⟨made, new⟩ := h.newPromise (.task [a] none false) ⟨List.forall_mem_singleton.2 minds, nofun⟩
  have fits : Job.Fits (l.newPromise (.task [a] none false)).2.promises.size (.step l.promises.size) :=
    ⟨fun r e => by cases e; exact new.1, nofun⟩
  have other : ∀ job ∈ [(Job.step l.promises.size : Job Event)], job.concerns S.heard = false :=
    List.forall_mem_singleton.2 (Job.concerns_eq_false.2 fun r e own => by cases e; exact new.2 (h.heard _ own))
  exact ⟨made.trans ⟨respects_append _ _ other, made.apart.schedule fits⟩, new⟩

/-- Some known promises are gathered. -/
theorem Apart.gather (h : l.Apart S) {members : List PromiseId} (known : ∀ m ∈ members, l.Known S m) :
    l.Beside S (l.gather members).2 ∧ (l.gather members).2.Known S l.promises.size := by
  obtain ⟨made, new⟩ := h.newPromise (.group members members.length false) known
  have observed : ∀ (g : PromiseId) (ms : List PromiseId) {l : Loop Activity Event}, l.Apart S → l.Known S g →
      (∀ m ∈ ms, l.Known S m) → l.Beside S (ms.foldl (fun l m => l.observe m (.member g m)) l) := by
    intro g ms
    induction ms with
    | nil => exact fun h _ _ => h.beside
    | cons m ms ih =>
      intro l h new known
      have step : l.Beside S (l.observe m (.member g m)) :=
        h.beside_observe (known m (List.mem_cons_self ..)).2 ⟨fun r e => by cases e; exact new.1, nofun⟩
          (Job.concerns_eq_false.2 fun r e own => by cases e; exact new.2 (h.heard _ own))
      exact step.trans (ih step.apart (step.known new) fun m' hm => step.known (known m' (List.mem_cons_of_mem _ hm)))
  have rest := observed l.promises.size members made.apart new fun m hm => made.known (known m hm)
  exact ⟨made.trans rest, rest.known new⟩

/-- A member of a group of others is settled. -/
theorem Apart.memberSettled (h : l.Apart S) {g : PromiseId} (other : g ∉ S.own) : l.Beside S (l.memberSettled g) := by
  unfold Loop.memberSettled
  split
  · next members left interrupted hr =>
    have known : ∀ m ∈ members, l.Known S m := h.roles hr other
    have counted := h.beside_setRole other (.group members (left - 1) interrupted) known
    dsimp only
    split
    · exact counted.trans (counted.apart.beside_complete other _)
    · exact counted
  · exact h.beside

theorem Apart.cancelMembers {cancel : PromiseId → Loop Activity Event → Bool × Loop Activity Event}
    (each : ∀ {r l}, Apart S l → r ∉ S.own → l.Beside S (cancel r l).2) {members : List PromiseId} (h : l.Apart S)
    (others : ∀ m ∈ members, m ∉ S.own) : l.Beside S (Loop.cancelMembers cancel members l).2 := by
  induction members generalizing l with
  | nil => exact h.beside
  | cons m members ih =>
    have first := each h (others m (List.mem_cons_self ..))
    exact first.trans (ih first.apart fun m' hm => others m' (List.mem_cons_of_mem _ hm))

/-- Cancelling a promise of others goes on to promises of others. -/
theorem Apart.cancelFrom (fuel : Nat) (h : l.Apart S) (other : r ∉ S.own) :
    l.Beside S (Loop.cancelFrom fuel r l).2 := by
  induction fuel generalizing r l with
  | zero => exact h.beside
  | succ fuel ih =>
    unfold Loop.cancelFrom
    split
    · next observers role hp =>
      have minds : role.Minds (l.Known S) (l.KnownTimer S) S.transports :=
        h.roles (r := r) (by unfold role?; rw [hp]; rfl) other
      cases role with
      | plain => exact h.beside_settle other _
      | task stack awaiting interrupted =>
        have interrupts : ∀ {l' : Loop Activity Event}, l.Beside S l' →
            l.Beside S (l'.setRole r (.task stack awaiting true)) :=
          fun b => b.trans (b.apart.beside_setRole other _ ⟨fun a ha => b.minds (minds.1 a ha),
            fun source e => b.known (minds.2 source e)⟩)
        cases awaiting with
        | none => exact interrupts h.beside
        | some source =>
          have first := ih h (minds.2 source rfl).2
          dsimp only
          split
          · exact first
          · exact interrupts first
      | group members left interrupted =>
        have all : l.Beside S (Loop.cancelMembers (Loop.cancelFrom fuel) members l).2 :=
          h.cancelMembers (fun h other => ih h other) fun m hm => (minds m hm).2
        dsimp only
        split
        · split
          · next members' left' interrupted' hr =>
            have known : ∀ m ∈ members', _ := all.apart.roles hr other
            exact all.trans (all.apart.beside_setRole other (.group members' left' true) known)
          · exact all
        · exact all
    · exact h.beside

theorem Apart.cancel (h : l.Apart S) (other : r ∉ S.own) : l.Beside S (l.cancel r).2 :=
  h.cancelFrom _ other

/-! ## Turns -/

/-- A task of others puts down what it is in the middle of, to wait for a promise of others. -/
theorem Apart.suspend (h : l.Apart S) {p source : PromiseId} (other : p ∉ S.own) {stack : List Activity}
    (minds : ∀ a ∈ stack, a.Minds (l.Known S) (l.KnownTimer S) S.transports) (known : l.Known S source)
    (size : p < l.promises.size) :
    l.Beside S (l.suspend p stack source) := by
  have observed : l.Beside S (l.observe source (.wake p source)) :=
    h.beside_observe known.2 ⟨fun r e => by cases e; exact size, nofun⟩
      (Job.concerns_eq_false.2 fun r e own => by cases e; exact other (h.heard _ own))
  have puts : ∀ (i : Bool) {l' : Loop Activity Event}, l.Beside S l' →
      l.Beside S (l'.setRole p (.task stack (some source) i)) := fun i _ b =>
    b.trans (b.apart.beside_setRole other _ ⟨fun a ha => b.minds (minds a ha),
      fun _ e => by cases e; exact b.known known⟩)
  unfold Loop.suspend
  extract_lets interrupted l₁
  have waits : l.Beside S l₁ := puts _ observed
  split
  · have cancelled := waits.trans (waits.apart.cancel known.2)
    dsimp only
    split
    · exact puts _ cancelled
    · exact cancelled
  · exact waits

/-- A task of others is ready to go on. -/
theorem Apart.pause (h : l.Apart S) {p : PromiseId} (other : p ∉ S.own) {stack : List Activity}
    (minds : ∀ a ∈ stack, a.Minds (l.Known S) (l.KnownTimer S) S.transports) (size : p < l.promises.size) :
    l.Beside S (l.pause p stack) := by
  unfold Loop.pause
  extract_lets interrupted
  have put := h.beside_setRole other (.task stack none interrupted) ⟨minds, nofun⟩
  have none : ∀ job ∈ [(Job.step p : Job Event)], job.concerns S.heard = false :=
    List.forall_mem_singleton.2 (Job.concerns_eq_false.2 fun r e own => by cases e; exact other (h.heard _ own))
  refine put.trans ⟨respects_append _ _ none, put.apart.schedule ⟨fun r e => ?_, nofun⟩⟩
  cases e
  exact Nat.lt_of_lt_of_le size put.respects.size

/-- A task of others takes up what it is in the middle of. -/
theorem Apart.resume (h : l.Apart S) {p : PromiseId} (other : p ∉ S.own) :
    l.Beside S (l.resume p).2.2 ∧ ∀ a ∈ (l.resume p).1, a.Minds (l.Known S) (l.KnownTimer S) S.transports := by
  unfold Loop.resume
  split
  · next stack source i hr => exact ⟨h.beside_setRole other _ ⟨nofun, nofun⟩, (h.roles hr other).1⟩
  · exact ⟨h.beside, nofun⟩

theorem Apart.finish (h : l.Apart S) {p : PromiseId} (other : p ∉ S.own) (o : Outcome) : l.Beside S (l.finish p o) := by
  unfold Loop.finish
  split <;> exact h.beside_complete other _

/-! ## The share itself -/

theorem readyFor_complete {heard : List PromiseId} {observers : List (Job Event)} {role : Role Activity}
    (h : l.promises[r]? = some ⟨none, observers, role⟩) (all : ∀ job ∈ observers, job.concerns heard = true)
    (o : Outcome) :
    (l.complete r o).readyFor heard = l.readyFor heard ++ observers.map fun job => (none, job) := by
  unfold readyFor
  rw [complete_of_open h, List.filter_append]
  refine congrArg _ (List.filter_eq_self.2 fun x hx => ?_)
  obtain ⟨job, hj, rfl⟩ := List.mem_map.1 hx
  exact all job hj

theorem Apart.readyFor_new (h : l.Apart S) : l.readyFor (l.promises.size :: S.heard) = l.readyFor S.heard :=
  List.filter_congr fun x hx => (h.ahead x (mem_ahead.2 (.inl hx))).1.concerns_new S.heard

theorem Apart.timersFor_new (h : l.Apart S) : l.timersFor (l.promises.size :: S.heard) = l.timersFor S.heard :=
  List.filter_congr fun t ht => (h.ahead (some t.id, t.job) (mem_ahead.2 (.inr ⟨t, ht, rfl⟩))).1.concerns_new S.heard

/-- Some of what belongs to the share is let go. -/
theorem Apart.release (h : l.Apart S) {own heard : List PromiseId} {timers : List TimerId} (less : ∀ r ∈ own, r ∈ S.own)
    (within : ∀ r ∈ heard, r ∈ own) (fewer : ∀ r ∈ heard, r ∈ S.heard) (still : ∀ k ∈ timers, k ∈ S.timers)
    (roles : ∀ r ∈ S.own, r ∉ own → ∀ role, l.role? r = some role →
      role.Minds (l.Known { S with own }) (l.KnownTimer { S with timers }) S.transports)
    (observers : ∀ r ∈ S.own, r ∉ own → ∀ job ∈ l.observers r, job.concerns heard = false)
    (ahead : ∀ x ∈ l.ahead, x.2.concerns heard = true → ∀ k, x.1 = some k → k ∈ timers) :
    l.Apart { S with own, heard, timers } := by
  have quiet : ∀ {job : Job Event}, job.concerns S.heard = false → job.concerns heard = false := fun h =>
    Job.concerns_eq_false.2 fun r e hr => Job.concerns_eq_false.1 h r e (fewer r hr)
  refine ⟨h.orderly, fun r hr => h.own r (less r hr), within, fun k hk => h.timers k (still k hk),
    fun {r role} hr hown => ?_, fun {r job} hj => ⟨(h.observers hj).1, fun hown => ?_⟩, fun x hx =>
    ⟨(h.ahead x hx).1, ahead x hx⟩⟩
  · by_cases mine : r ∈ S.own
    · exact roles r mine hown role hr
    · exact (h.roles hr mine).mono (fun _ known => ⟨known.1, fun own => known.2 (less _ own)⟩)
        fun _ known => ⟨known.1, fun own => known.2 (still _ own)⟩
  · by_cases mine : r ∈ S.own
    · exact observers r mine hown job hj
    · exact quiet ((h.observers hj).2 mine)

/-! ## The next job -/

/-- A round begins: timers of the share whose time has come become ready, behind what is ready. -/
structure BeginsRound (S : Share) (l l' : Loop Activity Event) : Prop where
  apart : l'.Apart S
  promises : l'.promises = l.promises
  now : l'.now = l.now
  nextTimer : l'.nextTimer = l.nextTimer
  ready : ∃ come, l.timersFor S.heard = come ++ l'.timersFor S.heard ∧ (∀ t ∈ come, isDue l.now t.due = true) ∧
    l'.readyFor S.heard = l.readyFor S.heard ++ come.map fun t => (some t.id, t.job)

/-- The first of the jobs that are ready is taken. -/
structure Pops (S : Share) (l : Loop Activity Event) (job : Job Event) (l' : Loop Activity Event) : Prop where
  apart : l'.Apart S
  promises : l'.promises = l.promises
  now : l'.now = l.now
  nextTimer : l'.nextTimer = l.nextTimer
  timers : l'.timersFor S.heard = l.timersFor S.heard
  fits : job.Fits l.promises.size
  ready : if job.concerns S.heard then ∃ k, l.readyFor S.heard = (k, job) :: l'.readyFor S.heard
    else l'.readyFor S.heard = l.readyFor S.heard

theorem Apart.begins_self (h : l.Apart S) : l.BeginsRound S l :=
  ⟨h, rfl, rfl, rfl, [], rfl, nofun, (List.append_nil _).symm⟩

theorem Apart.beginRound (h : l.Apart S) : l.BeginsRound S l.beginRound := by
  refine ⟨⟨h.orderly.beginRound, h.own, h.heard, h.timers, h.roles,
    h.observers, by rw [ahead_beginRound]; exact h.ahead⟩, rfl, rfl, rfl,
    (l.timers.takeWhile fun t => isDue l.now t.due).filter fun t => t.job.concerns S.heard, ?_, fun t ht => ?_, ?_⟩
  · show l.timers.filter _ = _ ++ (l.timers.dropWhile _).filter _
    rw [← List.filter_append, List.takeWhile_append_dropWhile]
  · exact List.mem_takeWhile_imp (p := fun t : Timer Event => isDue l.now t.due) (List.mem_filter.1 ht).1
  · show (l.ready ++ (l.timers.takeWhile _).map _).filter _ = l.ready.filter _ ++ _
    rw [List.filter_append, List.filter_map]
    rfl

theorem Apart.pops (h : l.Apart S) {timer : Option TimerId} {rest : List (Option TimerId × Job Event)}
    (ready : l.ready = (timer, job) :: rest) : l.Pops S job { l with ready := rest, budget := l.budget - 1 } := by
  obtain ⟨orderly, all, _⟩ := h.orderly.take ready rfl
  have fits := (h.ahead (timer, job) (by rw [all]; exact List.mem_cons_self ..)).1
  refine ⟨⟨orderly, h.own, h.heard, h.timers, h.roles, h.observers, fun x hx => h.ahead x ?_⟩, rfl, rfl, rfl,
    rfl, fits, ?_⟩
  · rw [all]
    exact List.mem_cons_of_mem _ hx
  · unfold readyFor
    rw [ready, List.filter_cons]
    cases job.concerns S.heard with
    | true => exact ⟨timer, rfl⟩
    | false => rfl

/-- To take the next job, a round may begin first. -/
theorem Apart.next? (h : l.Apart S) (next : l.next? = some (job, l')) : ∃ m, l.BeginsRound S m ∧ m.Pops S job l' := by
  obtain ⟨m, hm, timer, rest, hr, rfl⟩ := next?_eq next
  have begins : l.BeginsRound S m := by
    rcases hm with rfl | rfl
    · exact h.begins_self
    · exact h.beginRound
  exact ⟨m, begins, begins.apart.pops hr⟩

end Loop

end LspClient
