/-
What each operation of a loop does to its promises and to what is ready, as equations: which
promises exist, what they are settled with, and who hears of it.
-/
import LspClient.Loop

namespace LspClient.Loop

variable {φ ω : Type}

/-- Who hears of a promise when it is settled. -/
def observers (l : Loop φ ω) (p : PromiseId) : List (Job ω) :=
  (l.promises[p]?.map (·.observers)).getD []

/-- A ready job, whatever timer it comes from. -/
def IsReady (l : Loop φ ω) (job : Job ω) : Prop :=
  ∃ timer, (timer, job) ∈ l.ready

theorem isSettled_iff {l : Loop φ ω} {p : PromiseId} : l.isSettled p = true ↔ ∃ o, l.outcome? p = some o := by
  unfold isSettled
  exact Option.isSome_iff_exists

theorem isSettled_eq_false {l : Loop φ ω} {p : PromiseId} : l.isSettled p = false ↔ l.outcome? p = none := by
  unfold isSettled
  simp

theorem lt_size_of_outcome? {l : Loop φ ω} {p : PromiseId} {o : Outcome} (h : l.outcome? p = some o) :
    p < l.promises.size := by
  refine Nat.lt_of_not_le fun hn => ?_
  unfold outcome? at h
  rw [Array.getElem?_eq_none hn] at h
  cases h

theorem outcome?_congr {l l' : Loop φ ω} {p : PromiseId} (h : l'.promises[p]? = l.promises[p]?) :
    l'.outcome? p = l.outcome? p := by
  unfold outcome?
  rw [h]

theorem role?_congr {l l' : Loop φ ω} {p : PromiseId} (h : l'.promises[p]? = l.promises[p]?) :
    l'.role? p = l.role? p := by
  unfold role?
  rw [h]

theorem observers_congr {l l' : Loop φ ω} {p : PromiseId} (h : l'.promises[p]? = l.promises[p]?) :
    l'.observers p = l.observers p := by
  unfold observers
  rw [h]

theorem lt_size_of_role? {l : Loop φ ω} {p : PromiseId} {role : Role φ} (h : l.role? p = some role) :
    p < l.promises.size := by
  refine Nat.lt_of_not_le fun hn => ?_
  unfold role? at h
  rw [Array.getElem?_eq_none hn] at h
  cases h

/-- What is unknown is not made yet. -/
theorem size_le_of_role? {l : Loop φ ω} {p : PromiseId} (h : l.role? p = none) : l.promises.size ≤ p := by
  refine Nat.le_of_not_lt fun known => ?_
  unfold role? at h
  rw [Array.getElem?_eq_getElem known] at h
  cases h

theorem outcome?_eq_none {l : Loop φ ω} {p : PromiseId} (h : l.promises.size ≤ p) : l.outcome? p = none := by
  unfold outcome?
  rw [Array.getElem?_eq_none h]
  rfl

/-- A promise, put together again from what is known of it. -/
theorem getElem?_of_role? {l : Loop φ ω} {p : PromiseId} {role : Role φ} (h : l.role? p = some role) :
    l.promises[p]? = some ⟨l.outcome? p, l.observers p, role⟩ := by
  unfold role? at h
  unfold outcome? observers
  cases hp : l.promises[p]? with
  | none =>
    rw [hp] at h
    cases h
  | some x =>
    rw [hp] at h
    cases h
    rfl

/-! ## Making promises -/

theorem newPromise_fst (l : Loop φ ω) (role : Role φ) : (l.newPromise role).1 = l.promises.size := rfl

theorem promises_newPromise (l : Loop φ ω) (role : Role φ) :
    (l.newPromise role).2.promises = l.promises.push { role } := rfl

theorem ready_newPromise (l : Loop φ ω) (role : Role φ) : (l.newPromise role).2.ready = l.ready := rfl

theorem getElem?_newPromise_of_lt {l : Loop φ ω} {p : PromiseId} (role : Role φ) (h : p < l.promises.size) :
    (l.newPromise role).2.promises[p]? = l.promises[p]? := by
  rw [promises_newPromise, Array.getElem?_push_lt h, Array.getElem?_eq_getElem h]

theorem getElem?_newPromise_self (l : Loop φ ω) (role : Role φ) :
    (l.newPromise role).2.promises[l.promises.size]? = some { role } := by
  rw [promises_newPromise, Array.getElem?_push_size]

theorem size_newPromise (l : Loop φ ω) (role : Role φ) :
    (l.newPromise role).2.promises.size = l.promises.size + 1 := by
  rw [promises_newPromise, Array.size_push]

theorem role?_newPromise (l : Loop φ ω) (role : Role φ) (p : PromiseId) :
    (l.newPromise role).2.role? p = if p = l.promises.size then some role else l.role? p := by
  unfold role?
  rw [promises_newPromise, Array.getElem?_push]
  split <;> rfl

@[simp] theorem outcome?_newPromise (l : Loop φ ω) (role : Role φ) (p : PromiseId) :
    (l.newPromise role).2.outcome? p = l.outcome? p := by
  unfold outcome?
  rw [promises_newPromise, Array.getElem?_push]
  split
  · next h => rw [h, Array.getElem?_eq_none (Nat.le_refl _)]; rfl
  · rfl

@[simp] theorem observers_newPromise (l : Loop φ ω) (role : Role φ) (p : PromiseId) :
    (l.newPromise role).2.observers p = l.observers p := by
  unfold observers
  rw [promises_newPromise, Array.getElem?_push]
  split
  · next h => rw [h, Array.getElem?_eq_none (Nat.le_refl _)]; rfl
  · rfl

/-! ## Changing roles -/

@[simp] theorem size_setRole (l : Loop φ ω) (p : PromiseId) (role : Role φ) :
    (l.setRole p role).promises.size = l.promises.size := by
  simp [setRole]

@[simp] theorem ready_setRole (l : Loop φ ω) (p : PromiseId) (role : Role φ) : (l.setRole p role).ready = l.ready := rfl

@[simp] theorem timers_setRole (l : Loop φ ω) (p : PromiseId) (role : Role φ) :
    (l.setRole p role).timers = l.timers := rfl

theorem role?_setRole_of_ne {l : Loop φ ω} {p q : PromiseId} (h : q ≠ p) (role : Role φ) :
    (l.setRole p role).role? q = l.role? q := by
  simp [setRole, role?, Array.getElem?_modify, Ne.symm h]

theorem role?_setRole_self {l : Loop φ ω} {p : PromiseId} {old : Role φ} (h : l.role? p = some old) (role : Role φ) :
    (l.setRole p role).role? p = some role := by
  rw [role?, setRole, Array.getElem?_modify, if_pos rfl, getElem?_of_role? h]
  rfl

@[simp] theorem outcome?_setRole (l : Loop φ ω) (p q : PromiseId) (role : Role φ) :
    (l.setRole p role).outcome? q = l.outcome? q := by
  simp only [setRole, outcome?, Array.getElem?_modify]
  split
  · cases l.promises[q]? <;> rfl
  · rfl

@[simp] theorem observers_setRole (l : Loop φ ω) (p q : PromiseId) (role : Role φ) :
    (l.setRole p role).observers q = l.observers q := by
  simp only [setRole, observers, Array.getElem?_modify]
  split
  · cases l.promises[q]? <;> rfl
  · rfl

/-! ## Settling -/

/-- Completing an open promise: its observers become ready, and it has none any more. -/
theorem complete_of_open {l : Loop φ ω} {p : PromiseId} {observers : List (Job ω)} {role : Role φ}
    (h : l.promises[p]? = some ⟨none, observers, role⟩) (o : Outcome) :
    l.complete p o = { l with
      promises := l.promises.modify p fun x => { x with outcome := some o, observers := [] }
      ready := l.ready ++ observers.map fun job => (none, job) } := by
  unfold complete
  rw [h]

/-- Completing a promise again changes nothing. -/
theorem complete_of_settled {l : Loop φ ω} {p : PromiseId} (h : l.isSettled p = true) (o : Outcome) :
    l.complete p o = l := by
  obtain ⟨o', h⟩ := isSettled_iff.1 h
  unfold complete
  split
  · next hp =>
    unfold outcome? at h
    rw [hp] at h
    cases h
  · rfl

@[simp] theorem size_complete (l : Loop φ ω) (p : PromiseId) (o : Outcome) :
    (l.complete p o).promises.size = l.promises.size := by
  unfold complete
  split
  · simp
  · rfl

theorem getElem?_complete_of_ne {l : Loop φ ω} {p q : PromiseId} (h : q ≠ p) (o : Outcome) :
    (l.complete p o).promises[q]? = l.promises[q]? := by
  unfold complete
  split
  · simp [Array.getElem?_modify, Ne.symm h]
  · rfl

theorem getElem?_complete_self {l : Loop φ ω} {p : PromiseId} {observers : List (Job ω)} {role : Role φ}
    (h : l.promises[p]? = some ⟨none, observers, role⟩) (o : Outcome) :
    (l.complete p o).promises[p]? = some ⟨some o, [], role⟩ := by
  rw [complete_of_open h]
  simp [Array.getElem?_modify, h]

theorem mem_ready_complete {l : Loop φ ω} {p : PromiseId} {o : Outcome} {e : Option TimerId × Job ω}
    (h : e ∈ l.ready) : e ∈ (l.complete p o).ready := by
  unfold complete
  split
  · exact List.mem_append_left _ h
  · exact h

@[simp] theorem timers_complete (l : Loop φ ω) (p : PromiseId) (o : Outcome) :
    (l.complete p o).timers = l.timers := by
  unfold complete
  split <;> rfl

@[simp] theorem role?_complete (l : Loop φ ω) (p q : PromiseId) (o : Outcome) :
    (l.complete p o).role? q = l.role? q := by
  unfold complete
  split
  · simp only [role?, Array.getElem?_modify]
    split
    · cases l.promises[q]? <;> rfl
    · rfl
  · rfl

theorem complete_of_role?_none {l : Loop φ ω} {p : PromiseId} (h : l.role? p = none) (o : Outcome) :
    l.complete p o = l := by
  unfold complete
  split
  · next hp =>
    rw [role?, hp] at h
    cases h
  · rfl

/-- Completing an open promise: it has an outcome and nobody waits for it, but those who waited are
ready. -/
theorem complete_of_role? {l : Loop φ ω} {p : PromiseId} {role : Role φ} (h : l.role? p = some role)
    (ho : l.outcome? p = none) (o : Outcome) :
    (l.complete p o).outcome? p = some o ∧ (l.complete p o).observers p = [] ∧
      (l.complete p o).ready = l.ready ++ (l.observers p).map fun job => (none, job) := by
  have hp := getElem?_of_role? h
  rw [ho] at hp
  refine ⟨?_, ?_, ?_⟩
  · rw [outcome?, getElem?_complete_self hp]
    rfl
  · rw [observers, getElem?_complete_self hp]
    rfl
  · rw [complete_of_open hp]

/-- A plain promise is settled by completing it. -/
theorem settle_of_plain {l : Loop φ ω} {p : PromiseId} (h : l.role? p = some .plain) (o : Outcome) :
    l.settle p o = l.complete p o := by
  unfold settle
  rw [h]

/-- Settling changes nothing but a plain promise. -/
theorem settle_cases (l : Loop φ ω) (p : PromiseId) (o : Outcome) :
    l.settle p o = l ∨ l.role? p = some .plain ∧ l.settle p o = l.complete p o := by
  by_cases h : l.role? p = some .plain
  · exact .inr ⟨h, settle_of_plain h o⟩
  · left
    unfold settle
    split
    · exact absurd ‹_› h
    · rfl

/-- Settling an open promise: its observers become ready, and it has none any more. -/
theorem settle_of_open {l : Loop φ ω} {p : PromiseId} {observers : List (Job ω)}
    (h : l.promises[p]? = some ⟨none, observers, .plain⟩) (o : Outcome) :
    l.settle p o = { l with
      promises := l.promises.modify p fun x => { x with outcome := some o, observers := [] }
      ready := l.ready ++ observers.map fun job => (none, job) } := by
  rw [settle_of_plain (by rw [role?, h]; rfl), complete_of_open h]

theorem getElem?_settle_of_ne {l : Loop φ ω} {p q : PromiseId} (h : q ≠ p) (o : Outcome) :
    (l.settle p o).promises[q]? = l.promises[q]? := by
  rcases settle_cases l p o with e | ⟨_, e⟩
  · rw [e]
  · rw [e, getElem?_complete_of_ne h]

theorem getElem?_settle_self {l : Loop φ ω} {p : PromiseId} {observers : List (Job ω)}
    (h : l.promises[p]? = some ⟨none, observers, .plain⟩) (o : Outcome) :
    (l.settle p o).promises[p]? = some ⟨some o, [], .plain⟩ := by
  rw [settle_of_open h]
  simp [Array.getElem?_modify, h]

theorem ready_settle_of_open {l : Loop φ ω} {p : PromiseId} {observers : List (Job ω)}
    (h : l.promises[p]? = some ⟨none, observers, .plain⟩) (o : Outcome) :
    (l.settle p o).ready = l.ready ++ observers.map fun job => (none, job) := by
  rw [settle_of_open h]

theorem now_settle (l : Loop φ ω) (p : PromiseId) (o : Outcome) : (l.settle p o).now = l.now := by
  unfold settle
  split
  · unfold complete
    split <;> rfl
  · rfl

theorem mem_ready_settle {l : Loop φ ω} {p : PromiseId} {o : Outcome} {e : Option TimerId × Job ω}
    (h : e ∈ l.ready) : e ∈ (l.settle p o).ready := by
  rcases settle_cases l p o with e | ⟨_, e⟩
  · rwa [e]
  · rw [e]
    exact mem_ready_complete h

/-! ## Observing -/

@[simp] theorem size_observe (l : Loop φ ω) (p : PromiseId) (job : Job ω) :
    (l.observe p job).promises.size = l.promises.size := by
  unfold observe schedule
  split
  · rfl
  · simp

theorem getElem?_observe_of_ne {l : Loop φ ω} {p q : PromiseId} (h : q ≠ p) (job : Job ω) :
    (l.observe p job).promises[q]? = l.promises[q]? := by
  unfold observe schedule
  split
  · rfl
  · simp [Array.getElem?_modify, Ne.symm h]

theorem getElem?_observe_self {l : Loop φ ω} {p : PromiseId} {x : Promise φ ω} (h : l.promises[p]? = some x)
    (hx : x.outcome = none) (job : Job ω) :
    (l.observe p job).promises[p]? = some { x with observers := x.observers ++ [job] } := by
  unfold observe
  rw [if_neg]
  · simp [Array.getElem?_modify, h]
  · simp [isSettled, outcome?, h, hx]

@[simp] theorem timers_observe (l : Loop φ ω) (p : PromiseId) (job : Job ω) :
    (l.observe p job).timers = l.timers := by
  unfold observe schedule
  split <;> rfl

@[simp] theorem role?_observe (l : Loop φ ω) (p q : PromiseId) (job : Job ω) :
    (l.observe p job).role? q = l.role? q := by
  unfold observe schedule
  split
  · rfl
  · simp only [role?, Array.getElem?_modify]
    split
    · cases l.promises[q]? <;> rfl
    · rfl

@[simp] theorem outcome?_observe (l : Loop φ ω) (p q : PromiseId) (job : Job ω) :
    (l.observe p job).outcome? q = l.outcome? q := by
  unfold observe schedule
  split
  · rfl
  · simp only [outcome?, Array.getElem?_modify]
    split
    · cases l.promises[q]? <;> rfl
    · rfl

/-- Observing a settled promise makes the job ready, and observing another one adds an observer. -/
theorem observe_cases (l : Loop φ ω) (p : PromiseId) (job : Job ω) :
    ((∃ o, l.outcome? p = some o) ∧ (l.observe p job).ready = l.ready ++ [(none, job)] ∧
        ∀ q, (l.observe p job).observers q = l.observers q) ∨
      l.outcome? p = none ∧ (l.observe p job).ready = l.ready ∧
        (∀ q, q ≠ p → (l.observe p job).observers q = l.observers q) ∧
        (l.observe p job).observers p = if p < l.promises.size then l.observers p ++ [job] else [] := by
  cases h : l.outcome? p with
  | some o =>
    left
    have hs : l.isSettled p = true := isSettled_iff.2 ⟨o, h⟩
    refine ⟨⟨o, rfl⟩, ?_, fun q => ?_⟩ <;> simp [observe, hs, schedule, observers]
  | none =>
    right
    have hs : l.isSettled p = false := isSettled_eq_false.2 h
    refine ⟨rfl, ?_, fun q hq => ?_, ?_⟩
    · simp [observe, hs]
    · simp [observe, hs, observers, Array.getElem?_modify, Ne.symm hq]
    · rw [observe, if_neg (by simp [hs])]
      simp only [observers, Array.getElem?_modify, if_true]
      split
      · next hp => simp [Array.getElem?_eq_getElem hp]
      · next hp => simp [Array.getElem?_eq_none (Nat.le_of_not_lt hp)]

/-- Observing and changing roles do not touch each other. -/
theorem setRole_observe (l : Loop φ ω) (p q : PromiseId) (job : Job ω) (role : Role φ) :
    (l.observe q job).setRole p role = (l.setRole p role).observe q job := by
  have hs : (l.setRole p role).isSettled q = l.isSettled q := by simp [isSettled]
  unfold observe
  rw [hs]
  split
  · rfl
  · unfold setRole
    congr 1
    refine Array.ext_getElem? fun i => ?_
    simp only [Array.getElem?_modify]
    cases l.promises[i]? with
    | none => split <;> split <;> rfl
    | some x => split <;> split <;> rfl

/-! ## Observing no more -/

@[simp] theorem size_unobserve (l : Loop φ ω) (p target : PromiseId) :
    (l.unobserve p target).promises.size = l.promises.size := by
  simp [unobserve]

@[simp] theorem ready_unobserve (l : Loop φ ω) (p target : PromiseId) : (l.unobserve p target).ready = l.ready := rfl

@[simp] theorem timers_unobserve (l : Loop φ ω) (p target : PromiseId) :
    (l.unobserve p target).timers = l.timers := rfl

@[simp] theorem role?_unobserve (l : Loop φ ω) (p q target : PromiseId) :
    (l.unobserve p target).role? q = l.role? q := by
  simp only [unobserve, role?, Array.getElem?_modify]
  split
  · cases l.promises[q]? <;> rfl
  · rfl

@[simp] theorem outcome?_unobserve (l : Loop φ ω) (p q target : PromiseId) :
    (l.unobserve p target).outcome? q = l.outcome? q := by
  simp only [unobserve, outcome?, Array.getElem?_modify]
  split
  · cases l.promises[q]? <;> rfl
  · rfl

theorem observers_unobserve_sublist (l : Loop φ ω) (p q target : PromiseId) :
    ((l.unobserve p target).observers q).Sublist (l.observers q) := by
  simp only [unobserve, observers, Array.getElem?_modify]
  split
  · cases l.promises[q]? with
    | none => exact List.Sublist.refl _
    | some x => exact List.filter_sublist
  · exact List.Sublist.refl _

theorem ready_observe_of_open {l : Loop φ ω} {p : PromiseId} (h : l.outcome? p = none) (job : Job ω) :
    (l.observe p job).ready = l.ready := by
  unfold observe
  rw [if_neg]
  rw [isSettled_eq_false.2 h]
  exact Bool.false_ne_true

/-! ## Cancelling -/

/-- A plain promise is cancelled by settling it. -/
theorem cancel_of_plain {l : Loop φ ω} {p : PromiseId} {observers : List (Job ω)}
    (h : l.promises[p]? = some ⟨none, observers, .plain⟩) :
    l.cancel p = (true, l.settle p (.error .cancelled)) := by
  unfold cancel cancelFrom
  rw [h]

/-- A settled promise is not cancelled. -/
theorem cancel_of_settled {l : Loop φ ω} {p : PromiseId} (h : l.isSettled p = true) :
    l.cancel p = (false, l) := by
  obtain ⟨o, h⟩ := isSettled_iff.1 h
  unfold cancel cancelFrom
  split
  · next hp =>
    unfold outcome? at h
    rw [hp] at h
    cases h
  · rfl

/-! ## Timers -/

@[simp] theorem promises_callLater (l : Loop φ ω) (seconds : Float) (job : Job ω) :
    (l.callLater seconds job).2.promises = l.promises := rfl

@[simp] theorem ready_callLater (l : Loop φ ω) (seconds : Float) (job : Job ω) :
    (l.callLater seconds job).2.ready = l.ready := rfl

@[simp] theorem promises_cancelTimer (l : Loop φ ω) (id : TimerId) :
    (l.cancelTimer id).promises = l.promises := rfl

/-- A job that comes from no timer stays ready when a timer is cancelled. -/
theorem mem_ready_cancelTimer {l : Loop φ ω} {id : TimerId} {job : Job ω} (h : (none, job) ∈ l.ready) :
    (none, job) ∈ (l.cancelTimer id).ready := by
  unfold cancelTimer
  exact List.mem_map.2 ⟨_, h, by simp⟩

end LspClient.Loop
