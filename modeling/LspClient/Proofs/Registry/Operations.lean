/-
What each operation of a registry answers and leaves, as equations. A memory with room is all they
ask for: none of them fails then, but for a registration under an id that is pending, or with a
timeout that no double is near.
-/
import LspClient.Proofs.Exec
import LspClient.Proofs.Loop.Promises
import LspClient.Registry

namespace LspClient.Registry

variable {κ φ ω : Type}

/-- The loop once the timer of an entry is stopped. -/
def stopped (p : Pending κ) (l : Loop φ ω) : Loop φ ω :=
  match p.timer with
  | some timer => l.cancelTimer timer
  | none => l

/-- The registry with an id remembered. -/
def remembering (r : Registry κ) (id : RequestId) : Registry κ :=
  { r with remembered := r.remembered.insert id () }

@[simp] theorem promises_stopped (p : Pending κ) (l : Loop φ ω) : (stopped p l).promises = l.promises := by
  unfold stopped
  split <;> rfl

@[simp] theorem outcome?_stopped (p : Pending κ) (l : Loop φ ω) (q : PromiseId) :
    (stopped p l).outcome? q = l.outcome? q :=
  Loop.outcome?_congr (by rw [promises_stopped])

@[simp] theorem isSettled_stopped (p : Pending κ) (l : Loop φ ω) (q : PromiseId) :
    (stopped p l).isSettled q = l.isSettled q := by
  unfold Loop.isSettled
  rw [outcome?_stopped]

theorem now_stopped (p : Pending κ) (l : Loop φ ω) : (stopped p l).now = l.now := by
  unfold stopped
  split <;> rfl

theorem mem_ready_stopped (p : Pending κ) {l : Loop φ ω} {job : Job ω} (h : (none, job) ∈ l.ready) :
    (none, job) ∈ (stopped p l).ready := by
  unfold stopped
  split
  · exact Loop.mem_ready_cancelTimer h
  · exact h

/-! ## Finding entries -/

theorem mem_of_find? {r : Registry κ} {id : RequestId} {p : Pending κ} (h : r.find? id = some p) :
    p ∈ r.pending ∧ p.id = id := by
  unfold find? at h
  exact ⟨List.mem_of_find?_eq_some h, by simpa using List.find?_some h⟩

theorem contains_eq_true {r : Registry κ} {id : RequestId} :
    r.contains id = true ↔ ∃ p ∈ r.pending, p.id = id := by
  simp [contains]

/-- An entry is found under its id, if no other has it. -/
theorem find?_of_mem {r : Registry κ} {p : Pending κ} (hn : r.ids.Nodup) (h : p ∈ r.pending) :
    r.find? p.id = some p := by
  obtain ⟨before, after, he⟩ := List.append_of_mem h
  unfold find?
  rw [he, List.find?_append, List.find?_eq_none.2]
  · simp
  · intro q hq
    unfold ids at hn
    rw [he, List.map_append, List.map_cons, List.nodup_append] at hn
    simpa using hn.2.2 q.id (List.mem_map_of_mem hq) p.id (by simp)

/-- What is left without the first entry is the rest, if no other has its id. -/
theorem filter_ne_head {p : Pending κ} {ps : List (Pending κ)} (hn : ((p :: ps).map (·.id)).Nodup) :
    (p :: ps).filter (fun q => q.id ≠ p.id) = ps := by
  rw [List.map_cons, List.nodup_cons] at hn
  rw [List.filter_cons_of_neg (by simp), List.filter_eq_self]
  exact fun q hq => decide_eq_true fun e => hn.1 (List.mem_map.2 ⟨q, hq, e⟩)

/-! ## Parts of the operations -/

theorem exec_onLoop (f : Loop φ ω → Loop φ ω) (r : Registry κ) (l : Loop φ ω) :
    exec (onLoop f) (r, l) = (.ok (), r, f l) := rfl

theorem exec_stopTimer (p : Pending κ) (r : Registry κ) (l : Loop φ ω) :
    exec (stopTimer p) (r, l) = (.ok (), r, stopped p l) := by
  unfold stopTimer stopped
  cases p.timer <;> rfl

theorem exec_remember {r : Registry κ} (hr : r.remembered.canHold = true) (l : Loop φ ω) (id : RequestId) :
    exec (remember id) (r, l) = (.ok (), r.remembering id, l) := by
  simp [remember, remembering, hr, exec_bind]

theorem exec_settlePromise {l : Loop φ ω} {p : PromiseId} (h : l.outcome? p = none) (r : Registry κ)
    (o : Outcome) : exec (settlePromise p o) (r, l) = (.ok (), r, l.settle p o) := by
  simp [settlePromise, exec_bind, exec_onLoop, Loop.isSettled_eq_false.2 h]

theorem exec_take?_none {r : Registry κ} {id : RequestId} (h : r.find? id = none) (l : Loop φ ω) :
    exec (take? id) (r, l) = (.ok none, r, l) := by
  simp [take?, h, exec_bind]

theorem exec_take?_open {r : Registry κ} {l : Loop φ ω} {id : RequestId} {p : Pending κ}
    (h : r.find? id = some p) (ho : l.outcome? p.promise = none) :
    exec (take? id) (r, l) = (.ok (some p), r.erase id, stopped p l) := by
  simp [take?, h, exec_stopTimer, exec_bind, Loop.isSettled_eq_false.2 ho]

theorem exec_take?_settled {r : Registry κ} {l : Loop φ ω} {id : RequestId} {p : Pending κ}
    (hr : r.remembered.canHold = true) (h : r.find? id = some p) (ho : l.isSettled p.promise = true) :
    exec (take? id) (r, l) = (.ok none, (r.erase id).remembering id, stopped p l) := by
  simp [take?, h, exec_stopTimer, exec_bind, ho, exec_remember (r := r.erase id) hr]

/-! ## Registering -/

/-- The loop with a new promise for an id, which the registry hears of first. -/
def watching (events : Events ω) (id : RequestId) (l : Loop φ ω) : Loop φ ω :=
  l.newPromise.2.observe l.promises.size (.notify (events.settled id l.promises.size))

/-- A registration under a fresh id fails only with a timeout that no double is near. A timer is made for any other
timeout. -/
theorem exec_register_fresh (events : Events ω) {r : Registry κ} {id : RequestId} (h : r.contains id = false)
    (l : Loop φ ω) (method : String) (timeout : Option Number) (hook : Option κ) :
    exec (register events id method timeout hook) (r, l) =
      match timeout with
      | none => (.ok l.promises.size,
          { r with pending := r.pending ++ [⟨id, method, l.promises.size, none, hook⟩] }, watching events id l)
      | some n => match n.widen with
        | .error f => (.error (.range f), r, watching events id l)
        | .ok seconds => (.ok l.promises.size,
            { r with
              pending := r.pending ++
                [⟨id, method, l.promises.size, some (watching events id l).nextTimer, hook⟩] },
            ((watching events id l).callLater seconds (.notify (events.expire id n))).2) := by
  cases timeout with
  | none => simp [register, exec_bind, h, Loop.newPromise_fst, watching]
  | some n =>
    cases hn : n.widen with
    | error f => simp [register, exec_bind, h, hn, Loop.newPromise_fst, watching]
    | ok seconds => simp [register, exec_bind, h, hn, Loop.newPromise_fst, Loop.callLater, watching]

/-- A registration under a fresh id: a new promise, which the registry hears of first. -/
theorem exec_register (events : Events ω) {r : Registry κ} {id : RequestId} (h : r.contains id = false)
    (l : Loop φ ω) (method : String) (timeout : Option Number) (hook : Option κ) :
    let watched := l.newPromise.2.observe l.promises.size (.notify (events.settled id l.promises.size))
    (∃ n f, timeout = some n ∧ n.widen = .error f ∧
      exec (register events id method timeout hook) (r, l) = (.error (.range f), r, watched)) ∨
    (∀ n f, timeout = some n → n.widen ≠ .error f) ∧
    ∃ timer l', (l' = watched ∨
        ∃ seconds n, l' = (watched.callLater seconds (.notify (events.expire id n))).2) ∧
      exec (register events id method timeout hook) (r, l) = (.ok l.promises.size,
        { r with pending := r.pending ++ [⟨id, method, l.promises.size, timer, hook⟩] }, l') := by
  intro watched
  rw [exec_register_fresh events h]
  cases timeout with
  | none => exact .inr ⟨nofun, none, watched, .inl rfl, rfl⟩
  | some n =>
    cases hn : n.widen with
    | error f =>
      refine .inl ⟨n, f, rfl, hn, ?_⟩
      simp only [hn]
      rfl
    | ok seconds =>
      have accepted : ∀ m f, some n = some m → m.widen ≠ .error f := by
        intro m f e hm
        cases e
        cases hn.symm.trans hm
      refine .inr ⟨accepted, some watched.nextTimer, (watched.callLater seconds (.notify (events.expire id n))).2,
        .inr ⟨_, _, rfl⟩, ?_⟩
      simp only [hn]
      rfl

/-- A registration under a pending id changes nothing. -/
theorem exec_register_duplicate (events : Events ω) {r : Registry κ} {id : RequestId}
    (h : r.contains id = true) (l : Loop φ ω) (method : String) (timeout : Option Number) (hook : Option κ) :
    exec (register events id method timeout hook) (r, l) = (.error (.duplicateId id), r, l) := by
  simp [register, exec_bind, h]

/-! ## Settling -/

/-- An open promise is settled, whatever memory there is. -/
theorem exec_settle_open {r : Registry κ} {l : Loop φ ω} {id : RequestId} {p : Pending κ} (h : r.find? id = some p)
    (ho : l.outcome? p.promise = none) (o : Outcome) :
    exec (settle id o) (r, l) = (.ok .settled, r.erase id, (stopped p l).settle p.promise o) := by
  have hp : (stopped p l).outcome? p.promise = none := by rw [outcome?_stopped, ho]
  simp [settle, exec_bind, exec_take?_open h ho, exec_settlePromise hp]

/-- Settling an id: the open promise registered under it is settled; one that was cancelled behind
the registry's back is only forgotten; and nothing happens to an id that is not pending. -/
theorem exec_settle {r : Registry κ} (hr : r.remembered.canHold = true) (l : Loop φ ω) (id : RequestId)
    (o : Outcome) :
    (∃ p, r.find? id = some p ∧ l.outcome? p.promise = none ∧
      exec (settle id o) (r, l) = (.ok .settled, r.erase id, (stopped p l).settle p.promise o)) ∨
    (∃ p, r.find? id = some p ∧ l.isSettled p.promise = true ∧
      exec (settle id o) (r, l) = (.ok .late, (r.erase id).remembering id, stopped p l)) ∨
    (r.find? id = none ∧
      exec (settle id o) (r, l) = (.ok (if r.wasCancelled id then .late else .unknown), r, l)) := by
  cases h : r.find? id with
  | none =>
    refine .inr (.inr ⟨rfl, ?_⟩)
    simp [settle, exec_bind, exec_take?_none h]
  | some p =>
    cases ho : l.isSettled p.promise with
    | false =>
      have ho := Loop.isSettled_eq_false.1 ho
      exact .inl ⟨p, rfl, ho, exec_settle_open h ho o⟩
    | true =>
      refine .inr (.inl ⟨p, rfl, ho, ?_⟩)
      simp [settle, exec_bind, exec_take?_settled hr h ho, wasCancelled, remembering,
        Recency.contains_insert_self]

/-- Cancelling an id, in the same three cases. -/
theorem exec_cancel {r : Registry κ} (hr : r.remembered.canHold = true) (l : Loop φ ω) (id : RequestId) :
    (∃ p, r.find? id = some p ∧ l.outcome? p.promise = none ∧
      exec (cancel id) (r, l) =
        (.ok (some p), (r.erase id).remembering id, ((stopped p l).cancel p.promise).2)) ∨
    (∃ p, r.find? id = some p ∧ l.isSettled p.promise = true ∧
      exec (cancel id) (r, l) = (.ok none, (r.erase id).remembering id, stopped p l)) ∨
    (r.find? id = none ∧ exec (cancel id) (r, l) = (.ok none, r, l)) := by
  cases h : r.find? id with
  | none =>
    refine .inr (.inr ⟨rfl, ?_⟩)
    simp [cancel, exec_bind, exec_take?_none h]
  | some p =>
    cases ho : l.isSettled p.promise with
    | false =>
      have ho := Loop.isSettled_eq_false.1 ho
      refine .inl ⟨p, rfl, ho, ?_⟩
      simp [cancel, exec_bind, exec_take?_open h ho, exec_remember (r := r.erase id) hr, exec_onLoop]
    | true =>
      refine .inr (.inl ⟨p, rfl, ho, ?_⟩)
      simp [cancel, exec_bind, exec_take?_settled hr h ho]

/-- The time of a request is up: it is settled like any other, and remembered. -/
theorem exec_expire {r : Registry κ} (hr : r.remembered.canHold = true) (l : Loop φ ω) (id : RequestId)
    (timeout : Number) :
    (∃ p, r.find? id = some p ∧ l.outcome? p.promise = none ∧
      exec (expire id timeout) (r, l) = (.ok .settled, (r.erase id).remembering id,
        (stopped p l).settle p.promise (.error (.requestTimeout id p.method timeout)))) ∨
    (∃ p, r.find? id = some p ∧ l.isSettled p.promise = true ∧
      exec (expire id timeout) (r, l) =
        (.ok .late, ((r.erase id).remembering id).remembering id, stopped p l)) ∨
    (r.find? id = none ∧ exec (expire id timeout) (r, l) = (.ok .unknown, r, l)) := by
  cases h : r.find? id with
  | none =>
    refine .inr (.inr ⟨rfl, ?_⟩)
    simp [expire, exec_bind, h]
  | some p =>
    rcases exec_settle hr l id (.error (.requestTimeout id p.method timeout)) with
      ⟨q, hq, ho, he⟩ | ⟨q, hq, ho, he⟩ | ⟨hq, _⟩
    · cases h.symm.trans hq
      refine .inl ⟨p, rfl, ho, ?_⟩
      simp [expire, exec_bind, h, he, exec_remember (r := r.erase id) hr]
    · cases h.symm.trans hq
      refine .inr (.inl ⟨p, rfl, ho, ?_⟩)
      simp [expire, exec_bind, h, he, exec_remember (r := (r.erase id).remembering id) hr]
    · cases h.symm.trans hq

/-- The registry hears that a promise is settled: it forgets the entry that holds the promise, if
the promise was cancelled. -/
theorem exec_forgetCancelled {r : Registry κ} (hr : r.remembered.canHold = true) (l : Loop φ ω)
    (id : RequestId) (promise : PromiseId) :
    (∃ p, r.find? id = some p ∧ p.promise = promise ∧ l.outcome? promise = some (.error .cancelled) ∧
      exec (forgetCancelled id promise) (r, l) = (.ok (some p), (r.erase id).remembering id, stopped p l)) ∨
    ((∀ p, r.find? id = some p → p.promise = promise → l.outcome? promise ≠ some (.error .cancelled)) ∧
      exec (forgetCancelled id promise) (r, l) = (.ok none, r, l)) := by
  by_cases h : ∃ p, r.find? id = some p ∧ p.promise = promise ∧ l.outcome? promise = some (.error .cancelled)
  · obtain ⟨p, hp, he, ho⟩ := h
    refine .inl ⟨p, hp, he, ho, ?_⟩
    simp [forgetCancelled, exec_bind, hp, he, ho, exec_stopTimer, exec_remember (r := r.erase id) hr,
      Fault.isCancellation]
  · refine .inr ⟨fun p hp he ho => h ⟨p, hp, he, ho⟩, ?_⟩
    cases hp : r.find? id with
    | none => simp [forgetCancelled, exec_bind, hp]
    | some p =>
      simp only [forgetCancelled, exec_bind, exec_get, hp]
      rw [if_neg]
      · rfl
      · intro hb
        rw [Bool.and_eq_true, beq_iff_eq] at hb
        refine h ⟨p, hp, hb.2, ?_⟩
        rcases ho : l.outcome? promise with _ | f | v
        · simp [ho] at hb
        · cases f <;> simp_all [Fault.isCancellation]
        · simp [ho] at hb

/-! ## Rejecting everything -/

/-- The loop once the timer of an entry is stopped, and its promise rejected if it is open. -/
def rejected (reason : Fault) (l : Loop φ ω) (p : Pending κ) : Loop φ ω :=
  if l.isSettled p.promise then stopped p l else (stopped p l).settle p.promise (.error reason)

/-- How many of some entries are rejected one after another: those that are open when their turn comes. -/
def rejections (reason : Fault) : Loop φ ω → List (Pending κ) → Nat
  | _, [] => 0
  | l, p :: ps => (if l.isSettled p.promise then 0 else 1) + rejections reason (rejected reason l p) ps

/-- Rejecting everything: no entry is left, and they are rejected in order, whatever memory there is. -/
theorem exec_rejectAll_fold (reason : Fault) (r : Registry κ) (l : Loop φ ω) :
    exec (rejectAll reason) (r, l) =
      (.ok (rejections reason l r.pending), { r with pending := [] }, r.pending.foldl (rejected reason) l) := by
  have each : ∀ (ps : List (Pending κ)) (count : Nat) (s : Registry κ) (l : Loop φ ω),
      exec (ps.foldlM (fun count p => do
          stopTimer p
          if (← get).2.isSettled p.promise then return count
          settlePromise p.promise (.error reason)
          return count + 1) count : Operation κ φ ω Nat) (s, l) =
        (.ok (count + rejections reason l ps), s, ps.foldl (rejected reason) l) := by
    intro ps
    induction ps with
    | nil => exact fun count s l => rfl
    | cons p ps ih =>
      intro count s l
      rw [List.foldlM_cons, List.foldl_cons, rejections, ← Nat.add_assoc]
      refine (exec_bind_of_ok ?_ _).trans (ih _ s _)
      cases ho : l.isSettled p.promise with
      | true => simp [exec_bind, exec_stopTimer, rejected, ho]
      | false =>
        have hp : (stopped p l).outcome? p.promise = none := by
          rw [outcome?_stopped]
          exact Loop.isSettled_eq_false.1 ho
        simp [exec_bind, exec_stopTimer, exec_settlePromise hp, rejected, ho]
  have all := each r.pending 0 { r with pending := [] } l
  rw [Nat.zero_add] at all
  exact all

/-! ## Whatever memory there is -/

/-- The entry of a request is taken out, whatever is remembered of it. Its timer is stopped, and its promise is settled
if it is open, unless the operation fails before. -/
structure Ends (p : Pending κ) (o : Outcome) (r : Registry κ) (l : Loop φ ω) (s : Registry κ × Loop φ ω) : Prop where
  pending : s.1.pending = (r.erase p.id).pending
  loop : s.2 = stopped p l ∨ l.outcome? p.promise = none ∧ s.2 = (stopped p l).settle p.promise o

/-- Remembering an id touches nothing but the memory. -/
theorem exec_remember_cases (id : RequestId) (r : Registry κ) (l : Loop φ ω) :
    exec (remember id) (r, l) = (.ok (), r.remembering id, l) ∨ ∃ f, exec (remember id) (r, l) = (.error f, r, l) := by
  cases hr : r.remembered.canHold with
  | true => exact .inl (exec_remember hr l id)
  | false => exact .inr ⟨.invalid "value too large", by simp [remember, hr, exec_bind]⟩

variable {r : Registry κ} {l : Loop φ ω} {id : RequestId} {p : Pending κ}

/-- An entry whose promise was settled behind the registry's back is taken out and not answered. -/
theorem exec_take?_forgotten (h : r.find? id = some p) (ho : l.isSettled p.promise = true) :
    ∃ a r', exec (take? id) (r, l) = (a, r', stopped p l) ∧ r'.pending = (r.erase id).pending ∧
      ∀ q, a ≠ .ok (some q) := by
  rcases exec_remember_cases id (r.erase id) (stopped p l) with hx | ⟨f, hx⟩
  · exact ⟨.ok none, (r.erase id).remembering id, by simp [take?, h, exec_stopTimer, exec_bind, ho, hx], rfl, nofun⟩
  · exact ⟨.error f, r.erase id, by simp [take?, h, exec_stopTimer, exec_bind, ho, hx], rfl, nofun⟩

theorem ends_settle (h : r.find? id = some p) (o : Outcome) : Ends p o r l (exec (settle id o) (r, l)).2 := by
  obtain ⟨_, rfl⟩ := mem_of_find? h
  cases ho : l.isSettled p.promise with
  | false =>
    have ho := Loop.isSettled_eq_false.1 ho
    rw [exec_settle_open h ho o]
    exact ⟨rfl, .inr ⟨ho, rfl⟩⟩
  | true =>
    obtain ⟨a, r', taken, pending, nobody⟩ := exec_take?_forgotten h ho
    simp only [settle, exec_bind, taken]
    rcases a with f | _ | q
    · exact ⟨pending, .inl rfl⟩
    · exact ⟨pending, .inl rfl⟩
    · exact absurd rfl (nobody q)

/-- A promise that nothing but its holder settles is cancelled. -/
theorem ends_cancel (h : r.find? id = some p) (plain : l.role? p.promise = some .plain) :
    Ends p (.error .cancelled) r l (exec (cancel id) (r, l)).2 := by
  obtain ⟨_, rfl⟩ := mem_of_find? h
  cases ho : l.isSettled p.promise with
  | false =>
    have ho := Loop.isSettled_eq_false.1 ho
    have hp := Loop.getElem?_of_role? plain
    rw [ho, ← promises_stopped p l] at hp
    simp only [cancel, exec_bind, exec_take?_open h ho]
    rcases exec_remember_cases p.id (r.erase p.id) (stopped p l) with hx | ⟨f, hx⟩
    · simp only [hx, exec_onLoop, Loop.cancel_of_plain hp]
      exact ⟨rfl, .inr ⟨ho, rfl⟩⟩
    · simp only [hx]
      exact ⟨rfl, .inl rfl⟩
  | true =>
    obtain ⟨a, r', taken, pending, nobody⟩ := exec_take?_forgotten h ho
    simp only [cancel, exec_bind, taken]
    rcases a with f | _ | q
    · exact ⟨pending, .inl rfl⟩
    · exact ⟨pending, .inl rfl⟩
    · exact absurd rfl (nobody q)

theorem ends_expire (h : r.find? id = some p) (timeout : Number) :
    Ends p (.error (.requestTimeout id p.method timeout)) r l (exec (expire id timeout) (r, l)).2 := by
  have ends := ends_settle (l := l) h (.error (.requestTimeout id p.method timeout))
  simp only [expire, exec_bind, exec_get, h]
  rcases settled : exec (settle id (.error (.requestTimeout id p.method timeout))) (r, l) with ⟨a | a, r', l'⟩
  · rw [settled] at ends
    exact ends
  · -- What is remembered then touches neither the entries nor the loop.
    rw [settled] at ends
    rcases exec_remember_cases id r' l' with hx | ⟨f, hx⟩
    · simp only [hx]
      exact ⟨ends.pending, ends.loop⟩
    · simp only [hx]
      exact ends

/-- The registry hears that a promise is settled: at most it takes out the entry that holds the promise. -/
theorem ends_forgetCancelled (r : Registry κ) (l : Loop φ ω) (id : RequestId) (promise : PromiseId) :
    (exec (forgetCancelled id promise) (r, l)).2 = (r, l) ∨
      ∃ p, r.find? id = some p ∧ (exec (forgetCancelled id promise) (r, l)).2.1.pending = (r.erase p.id).pending ∧
        (exec (forgetCancelled id promise) (r, l)).2.2 = stopped p l := by
  simp only [forgetCancelled, exec_bind, exec_get]
  cases hp : r.find? id with
  | none => exact .inl rfl
  | some p =>
    obtain ⟨_, rfl⟩ := mem_of_find? hp
    dsimp only
    split
    · right
      refine ⟨p, rfl, ?_⟩
      simp only [exec_bind, exec_modify, exec_stopTimer]
      rcases exec_remember_cases p.id (r.erase p.id) (stopped p l) with hx | ⟨f, hx⟩
      · simp [hx, remembering]
      · simp [hx]
    · exact .inl rfl

/-- Nothing happens to an id that is not pending. -/
theorem exec_unknown (h : r.find? id = none) (o : Outcome) (timeout : Number) :
    (exec (settle id o) (r, l)).2 = (r, l) ∧ (exec (cancel id) (r, l)).2 = (r, l) ∧
      (exec (expire id timeout) (r, l)).2 = (r, l) := by
  refine ⟨?_, ?_, ?_⟩
  · simp [settle, exec_bind, exec_take?_none h]
  · simp [cancel, exec_bind, exec_take?_none h]
  · simp [expire, exec_bind, h]

/-! ## What settles promises -/

section

variable {q : PromiseId} {o x : Outcome} {s : Registry κ × Loop φ ω}

/-- A plain promise is settled, with what it is to be settled with unless it is already. -/
theorem outcome?_settle_of_plain {p : PromiseId} (h : l.role? p = some .plain) (o : Outcome) :
    (l.settle p o).outcome? p = some ((l.outcome? p).getD o) := by
  rw [Loop.settle_of_plain h]
  exact Loop.outcome?_complete_self l p o (Loop.lt_size_of_role? h)

/-- A promise that is settled just now is the one that is meant, and is settled as it is meant to be. -/
theorem eq_of_settle (before : l.outcome? q = none) (after : (l.settle p.promise o).outcome? q = some x) :
    q = p.promise ∧ x = o := by
  rcases Loop.settle_cases l p.promise o with e | ⟨role, e⟩
  · rw [e, before] at after
    cases after
  · rw [e] at after
    by_cases same : q = p.promise
    · subst same
      rw [Loop.outcome?_complete_self l _ o (Loop.lt_size_of_role? role), before] at after
      exact ⟨rfl, (Option.some.inj after).symm⟩
    · rw [Loop.outcome?_congr (Loop.getElem?_complete_of_ne same o), before] at after
      cases after

theorem Ends.eq_of_settled (e : Ends p o r l s) (before : l.outcome? q = none) (after : s.2.outcome? q = some x) :
    q = p.promise ∧ x = o := by
  rcases e.loop with hl | ⟨_, hl⟩
  · rw [hl, outcome?_stopped, before] at after
    cases after
  · rw [hl] at after
    exact eq_of_settle (by rw [outcome?_stopped, before]) after

theorem outcome?_rejected_of_settled (reason : Fault) (p : Pending κ) (h : l.outcome? q = some x) :
    (rejected reason l p).outcome? q = some x := by
  unfold rejected
  rw [← outcome?_stopped p] at h
  split
  · exact h
  · exact Loop.outcome?_settle_of_settled h _ _

/-- A promise that is settled while requests are rejected is that of one of them, and is rejected with the reason. -/
theorem eq_of_rejected {reason : Fault} {ps : List (Pending κ)} (before : l.outcome? q = none)
    (after : (ps.foldl (rejected reason) l).outcome? q = some x) : ∃ p ∈ ps, q = p.promise ∧ x = .error reason := by
  induction ps generalizing l with
  | nil =>
    rw [List.foldl_nil, before] at after
    cases after
  | cons p rest ih =>
    cases first : (rejected reason l p).outcome? q with
    | none =>
      obtain ⟨p', hp', settled⟩ := ih first after
      exact ⟨p', List.mem_cons_of_mem _ hp', settled⟩
    | some y =>
      have kept : ∀ ps' : List (Pending κ), ∀ l' : Loop φ ω, l'.outcome? q = some y →
          (ps'.foldl (rejected reason) l').outcome? q = some y := by
        intro ps'
        induction ps' with
        | nil => exact fun _ h => h
        | cons p' ps' ih => exact fun l' h => ih _ (outcome?_rejected_of_settled reason p' h)
      cases (kept rest _ first).symm.trans after
      unfold rejected at first
      split at first
      · rw [outcome?_stopped, before] at first
        cases first
      · obtain ⟨same, rfl⟩ := eq_of_settle (by rw [outcome?_stopped, before]) first
        exact ⟨p, List.mem_cons_self .., same, rfl⟩

end

end LspClient.Registry
