/-
What the operations of a registry leave alone. The tasks of the loop go on waiting as they did, and
a request that is given up is settled: none is lost.
-/
import LspClient.Proofs.Loop.Tasks
import LspClient.Proofs.Registry.Operations

namespace LspClient.Registry

open Loop (Notices Moves WF)

variable {κ φ ω α : Type} {N : Notices ω} {A : φ → Prop} {running : Option PromiseId}
  {r r' : Registry κ} {l l' : Loop φ ω}

/-! ## Definitions -/

/-- A registry that can take care of its requests: its memory has room, an id is pending only once,
and each request has a plain promise. -/
structure Fit (r : Registry κ) (l : Loop φ ω) : Prop where
  room : r.remembered.canHold = true
  distinct : r.ids.Nodup
  plain : ∀ p ∈ r.pending, l.role? p.promise = some .plain

/-- No request has become pending, and those that are not any more are settled. -/
structure Shrinks (r r' : Registry κ) (l' : Loop φ ω) : Prop where
  fewer : r'.pending ⊆ r.pending
  kept : ∀ p ∈ r.pending, p ∈ r'.pending ∨ ∃ o, l'.outcome? p.promise = some o

/-- The request that is pending under an id is settled, and forgotten; nothing else is. -/
structure Settles (r : Registry κ) (id : RequestId) (o : Outcome) (l : Loop φ ω) (r' : Registry κ)
    (l' : Loop φ ω) : Prop where
  pending : r'.pending = r.pending.filter fun p => p.id ≠ id
  settled : ∀ p, r.find? id = some p → l'.outcome? p.promise = some ((l.outcome? p.promise).getD o)
  others : ∀ q, (∀ p, r.find? id = some p → p.promise ≠ q) → l'.outcome? q = l.outcome? q
  now : l'.now = l.now

/-- An operation of a registry that drives no task, and that loses no request. -/
def IsQuiet (N : Notices ω) (A : φ → Prop) (op : Operation κ φ ω α) : Prop :=
  ∀ r l running, WF N running l → Fit r l →
    Moves A none l (exec op (r, l)).2.2 ∧ WF N running (exec op (r, l)).2.2 ∧
      Fit (exec op (r, l)).2.1 (exec op (r, l)).2.2 ∧ Shrinks r (exec op (r, l)).2.1 (exec op (r, l)).2.2

/-! ## Fit registries -/

theorem Fit.moves {but : Option PromiseId} (h : r.Fit l) (m : Moves A but l l') : r.Fit l' :=
  ⟨h.room, h.distinct, fun p hp => m.plain (h.plain p hp)⟩

theorem Fit.erase (h : r.Fit l) (id : RequestId) : (r.erase id).Fit l := by
  refine ⟨h.room, ?_, ?_⟩
  · rw [ids_erase]
    exact h.distinct.filter _
  · intro p hp
    exact h.plain p (List.mem_filter.1 hp).1

theorem Fit.remembering (h : r.Fit l) (id : RequestId) : (r.remembering id).Fit l :=
  ⟨h.room, h.distinct, h.plain⟩

/-- Each id is pending once: entries with the same id are the same. -/
theorem Fit.eq_of_id (h : r.Fit l) {p q : Pending κ} (hp : p ∈ r.pending) (hq : q ∈ r.pending) (e : p.id = q.id) :
    p = q := by
  have hp' := find?_of_mem h.distinct hp
  have hq' := find?_of_mem h.distinct hq
  rw [e] at hp'
  exact Option.some.inj (hp'.symm.trans hq')

theorem Shrinks.refl (r : Registry κ) (l : Loop φ ω) : r.Shrinks r l :=
  ⟨List.Subset.refl _, fun _ hp => .inl hp⟩

/-- An entry whose promise is settled is taken out. -/
theorem Fit.shrinks_erase (h : r.Fit l) {p : Pending κ} (hp : p ∈ r.pending) {o : Outcome}
    (ho : l'.outcome? p.promise = some o) : r.Shrinks (r.erase p.id) l' := by
  refine ⟨fun q hq => (List.mem_filter.1 hq).1, fun q hq => ?_⟩
  by_cases e : q.id = p.id
  · rw [h.eq_of_id hq hp e]
    exact .inr ⟨o, ho⟩
  · exact .inl (List.mem_filter.2 ⟨hq, by simpa using e⟩)

/-! ## Parts of the operations -/

theorem moves_stopped (p : Pending κ) (l : Loop φ ω) : Moves A none l (stopped p l) :=
  Loop.moves_of_promises (promises_stopped p l)

theorem wf_stopped (w : WF N running l) (p : Pending κ) : WF N running (stopped p l) := by
  unfold stopped
  split
  · exact w.cancelTimer _
  · exact w

/-- An entry is taken out, and its promise is settled. -/
theorem quiet_settled (w : WF N running l) (h : r.Fit l) {p : Pending κ} (hp : p ∈ r.pending) (o : Outcome) :
    Moves A none l ((stopped p l).settle p.promise o) ∧ WF N running ((stopped p l).settle p.promise o) ∧
      (r.erase p.id).Fit ((stopped p l).settle p.promise o) ∧
      r.Shrinks (r.erase p.id) ((stopped p l).settle p.promise o) := by
  have m : Moves A none l ((stopped p l).settle p.promise o) :=
    (moves_stopped p l).trans (Loop.moves_settle _ _ _)
  have plain := (h.moves (moves_stopped (A := A) p l)).plain p hp
  exact ⟨m, (wf_stopped w p).settle _ _, (h.erase p.id).moves m, h.shrinks_erase hp (outcome?_settle_of_plain plain o)⟩

/-- An entry is taken out whose promise was settled behind the registry's back. -/
theorem quiet_forgotten (w : WF N running l) (h : r.Fit l) {p : Pending κ} (hp : p ∈ r.pending)
    (ho : l.isSettled p.promise = true) :
    Moves A none l (stopped p l) ∧ WF N running (stopped p l) ∧ (r.erase p.id).Fit (stopped p l) ∧
      r.Shrinks (r.erase p.id) (stopped p l) := by
  obtain ⟨o, ho⟩ := Loop.isSettled_iff.1 ho
  have m : Moves A none l (stopped p l) := moves_stopped p l
  exact ⟨m, wf_stopped w p, (h.erase p.id).moves m, h.shrinks_erase hp (by rw [outcome?_stopped, ho])⟩

/-! ## Operations -/

theorem isQuiet_settle (id : RequestId) (o : Outcome) :
    IsQuiet N A (settle id o : Operation κ φ ω Settlement) := by
  intro r l running w h
  -- The request is open, or was cancelled behind the registry's back, or is not pending at all.
  rcases exec_settle h.room l id o with ⟨p, hp, _, hx⟩ | ⟨p, hp, ho, hx⟩ | ⟨_, hx⟩
  · obtain ⟨hm, rfl⟩ := mem_of_find? hp
    rw [hx]
    exact quiet_settled w h hm o
  · obtain ⟨hm, rfl⟩ := mem_of_find? hp
    obtain ⟨m, w', f, s⟩ := quiet_forgotten (A := A) w h hm ho
    rw [hx]
    exact ⟨m, w', f.remembering _, s.fewer, s.kept⟩
  · rw [hx]
    exact ⟨Moves.refl l, w, h, Shrinks.refl r l⟩

/-- Settling an id settles what is pending under it, unless its promise is settled already, and forgets it. -/
theorem Fit.settles (h : r.Fit l) (id : RequestId) (o : Outcome) :
    ∃ b r' l', exec (settle id o) (r, l) = (.ok b, r', l') ∧ r.Settles id o l r' l' := by
  have same : ∀ {p q : Pending κ}, r.find? id = some p → r.find? id = some q → q = p :=
    fun hp hq => Option.some.inj (hq.symm.trans hp)
  rcases exec_settle h.room l id o with ⟨p, hp, _, hx⟩ | ⟨p, hp, ho, hx⟩ | ⟨none, hx⟩
  · have plain := (h.moves (moves_stopped (A := fun _ => True) p l)).plain p (mem_of_find? hp).1
    refine ⟨_, _, _, hx, rfl, fun q hq => ?_, fun q other => ?_, (Loop.now_settle _ _ _).trans (now_stopped p l)⟩
    · rw [same hp hq, outcome?_settle_of_plain plain, outcome?_stopped]
    · rw [Loop.outcome?_congr (Loop.getElem?_settle_of_ne (other p hp).symm o), outcome?_stopped]
  · obtain ⟨o', ho'⟩ := Loop.isSettled_iff.1 ho
    refine ⟨_, _, _, hx, rfl, fun q hq => ?_, fun q _ => outcome?_stopped p l q, now_stopped p l⟩
    rw [same hp hq, outcome?_stopped, ho']
    rfl
  · refine ⟨_, _, _, hx, ?_, fun q hq => ?_, fun _ _ => rfl, rfl⟩
    · refine (List.filter_eq_self.2 fun p hp => ?_).symm
      simpa using List.find?_eq_none.1 none p hp
    · rw [none] at hq
      cases hq

theorem isQuiet_cancel (id : RequestId) :
    IsQuiet N A (cancel id : Operation κ φ ω (Option (Pending κ))) := by
  intro r l running w h
  rcases exec_cancel h.room l id with ⟨p, hp, ho, hx⟩ | ⟨p, hp, ho, hx⟩ | ⟨_, hx⟩
  · obtain ⟨hm, rfl⟩ := mem_of_find? hp
    have hq := Loop.getElem?_of_role? ((h.moves (moves_stopped (A := A) p l)).plain p hm)
    rw [outcome?_stopped, ho] at hq
    obtain ⟨m, w', f, s⟩ := quiet_settled (A := A) w h hm (.error .cancelled)
    rw [hx, Loop.cancel_of_plain hq]
    exact ⟨m, w', f.remembering _, s.fewer, s.kept⟩
  · obtain ⟨hm, rfl⟩ := mem_of_find? hp
    obtain ⟨m, w', f, s⟩ := quiet_forgotten (A := A) w h hm ho
    rw [hx]
    exact ⟨m, w', f.remembering _, s.fewer, s.kept⟩
  · rw [hx]
    exact ⟨Moves.refl l, w, h, Shrinks.refl r l⟩

theorem isQuiet_forgetCancelled (id : RequestId) (promise : PromiseId) :
    IsQuiet N A (forgetCancelled id promise : Operation κ φ ω (Option (Pending κ))) := by
  intro r l running w h
  rcases exec_forgetCancelled h.room l id promise with ⟨p, hp, rfl, ho, hx⟩ | ⟨_, hx⟩
  · obtain ⟨hm, rfl⟩ := mem_of_find? hp
    obtain ⟨m, w', f, s⟩ := quiet_forgotten (A := A) w h hm (Loop.isSettled_iff.2 ⟨_, ho⟩)
    rw [hx]
    exact ⟨m, w', f.remembering _, s.fewer, s.kept⟩
  · rw [hx]
    exact ⟨Moves.refl l, w, h, Shrinks.refl r l⟩

theorem isQuiet_expire (id : RequestId) (timeout : Number) :
    IsQuiet N A (expire id timeout : Operation κ φ ω Settlement) := by
  intro r l running w h
  rcases exec_expire h.room l id timeout with ⟨p, hp, _, hx⟩ | ⟨p, hp, ho, hx⟩ | ⟨_, hx⟩
  · obtain ⟨hm, rfl⟩ := mem_of_find? hp
    obtain ⟨m, w', f, s⟩ := quiet_settled (A := A) w h hm (.error (.requestTimeout p.id p.method timeout))
    rw [hx]
    exact ⟨m, w', f.remembering _, s.fewer, s.kept⟩
  · obtain ⟨hm, rfl⟩ := mem_of_find? hp
    obtain ⟨m, w', f, s⟩ := quiet_forgotten (A := A) w h hm ho
    rw [hx]
    exact ⟨m, w', (f.remembering _).remembering _, s.fewer, s.kept⟩
  · rw [hx]
    exact ⟨Moves.refl l, w, h, Shrinks.refl r l⟩

/-! ## Registering -/

/-- A registry with one more request, whose id is new and whose promise is plain. -/
theorem Fit.register (h : r.Fit l) {id : RequestId} (fresh : r.contains id = false) {promise : PromiseId}
    (plain : l.role? promise = some .plain) (method : String) (timer : Option TimerId) (onCancel : Option κ) :
    Fit { r with pending := r.pending ++ [⟨id, method, promise, timer, onCancel⟩] } l := by
  refine ⟨h.room, ?_, ?_⟩
  · have distinct : (r.ids ++ [id]).Nodup := by
      refine List.nodup_append.2 ⟨h.distinct, by simp, ?_⟩
      intro i hi j hj e
      obtain ⟨p, hp, rfl⟩ := List.mem_map.1 hi
      cases List.mem_singleton.1 hj
      have contained := contains_eq_true.2 ⟨p, hp, e⟩
      rw [fresh] at contained
      cases contained
    simpa [ids] using distinct
  · intro p hp
    rcases List.mem_append.1 hp with hp | hp
    · exact h.plain p hp
    · cases List.mem_singleton.1 hp
      exact plain

/-- A registration under a new id fails only with a timeout that no double is near. -/
theorem register_spec {events : Events ω} {id : RequestId} (hears : ∀ p, N.hears p (events.settled id p))
    (free : ∀ timeout, N.free (events.expire id timeout)) (w : WF N running l) (h : r.Fit l)
    (fresh : r.contains id = false) (method : String) (timeout : Option Number) (onCancel : Option κ) :
    ∃ l', Moves A none l l' ∧ WF N running l' ∧
      ((∃ n f, timeout = some n ∧ n.widen = .error f ∧
          exec (register events id method timeout onCancel) (r, l) = (.error (.range f), r, l')) ∨
        ∃ r' promise, Fit r' l' ∧ (∃ timer, r'.pending = r.pending ++ [⟨id, method, promise, timer, onCancel⟩]) ∧
          exec (register events id method timeout onCancel) (r, l) = (.ok promise, r', l')) := by
  have m : Moves A none l
      (l.newPromise.2.observe l.promises.size (.notify (events.settled id l.promises.size))) :=
    (Loop.moves_newPromise l (show Role.IsNew A .plain from trivial)).trans (Loop.moves_observe _ _ _)
  have w' : WF N running
      (l.newPromise.2.observe l.promises.size (.notify (events.settled id l.promises.size))) :=
    (w.newPromise .plain).observe (hears _) fun _ h => absurd h Bool.false_ne_true
  have plain : (l.newPromise.2.observe l.promises.size
      (.notify (events.settled id l.promises.size))).role? l.promises.size = some .plain := by
    rw [Loop.role?_observe, Loop.role?_newPromise, if_pos rfl]
  rcases exec_register events fresh l method timeout onCancel with ⟨n, f, hn, hf, hx⟩ | ⟨_, timer, l', hl, hx⟩
  · exact ⟨_, m, w', .inl ⟨n, f, hn, hf, hx⟩⟩
  · rcases hl with rfl | ⟨seconds, n, rfl⟩
    · exact ⟨_, m, w', .inr ⟨_, _, (h.moves m).register fresh plain method timer onCancel, ⟨timer, rfl⟩, hx⟩⟩
    · have timed : Loop.IsTimed N (.notify (events.expire id n)) := free n
      have m' := m.trans (Loop.moves_of_promises (Loop.promises_callLater _ seconds (.notify (events.expire id n))))
      exact ⟨_, m', w'.callLater timed seconds,
        .inr ⟨_, _, (h.moves m').register fresh plain method timer onCancel, ⟨timer, rfl⟩, hx⟩⟩

/-! ## Rejecting everything -/

/-- An entry is rejected, if it is open. -/
theorem rejected_spec (w : WF N running l) {p : Pending κ} (plain : l.role? p.promise = some .plain) (reason : Fault) :
    Moves A none l (rejected reason l p) ∧ WF N running (rejected reason l p) ∧
      (rejected reason l p).outcome? p.promise = some ((l.outcome? p.promise).getD (.error reason)) ∧
      ∀ q, q ≠ p.promise → (rejected reason l p).outcome? q = l.outcome? q := by
  have m := moves_stopped (A := A) p l
  unfold rejected
  split
  · next done =>
    obtain ⟨o, ho⟩ := Loop.isSettled_iff.1 done
    exact ⟨m, wf_stopped w p, by simp [ho], by simp⟩
  · refine ⟨m.trans (Loop.moves_settle _ _ _), (wf_stopped w p).settle _ _, ?_, fun q hq => ?_⟩
    · rw [outcome?_settle_of_plain (m.plain plain), outcome?_stopped]
    · rw [Loop.outcome?_congr (Loop.getElem?_settle_of_ne hq _), outcome?_stopped]

/-- Requests are rejected one after another: those that are open are settled with the reason. -/
theorem foldl_rejected_spec (reason : Fault) {ps : List (Pending κ)} (w : WF N running l)
    (plain : ∀ p ∈ ps, l.role? p.promise = some .plain) :
    Moves A none l (ps.foldl (rejected reason) l) ∧ WF N running (ps.foldl (rejected reason) l) ∧
      ∀ p ∈ ps, (ps.foldl (rejected reason) l).outcome? p.promise =
        some ((l.outcome? p.promise).getD (.error reason)) := by
  induction ps generalizing l with
  | nil => exact ⟨Moves.refl l, w, by simp⟩
  | cons p ps ih =>
    obtain ⟨m₁, w₁, ho₁, same⟩ := rejected_spec (A := A) w (plain p (List.mem_cons_self ..)) reason
    obtain ⟨m', w', ho'⟩ := ih w₁ fun q hq => m₁.plain (plain q (List.mem_cons_of_mem _ hq))
    refine ⟨m₁.trans m', w', fun q hq => ?_⟩
    rw [List.foldl_cons]
    rcases List.mem_cons.1 hq with rfl | hq
    · exact m'.outcome ho₁
    · rw [ho' q hq]
      by_cases e : q.promise = p.promise
      · rw [e, ho₁]
        rfl
      · rw [same _ e]

/-- Rejecting everything leaves no request pending, and those that are open are settled with the
reason. -/
theorem exec_rejectAll (w : WF N running l) (h : r.Fit l) (reason : Fault) :
    ∃ n l', exec (rejectAll reason : Operation κ φ ω Nat) (r, l) = (.ok n, { r with pending := [] }, l') ∧
      Moves A none l l' ∧ WF N running l' ∧
      ∀ p ∈ r.pending, l'.outcome? p.promise = some ((l.outcome? p.promise).getD (.error reason)) :=
  ⟨_, _, exec_rejectAll_fold reason r l, foldl_rejected_spec reason w h.plain⟩

theorem isQuiet_rejectAll (reason : Fault) : IsQuiet N A (rejectAll reason : Operation κ φ ω Nat) := by
  intro r l running w h
  obtain ⟨n, l', hx, m, w', ho⟩ := exec_rejectAll (A := A) w h reason
  rw [hx]
  refine ⟨m, w', ⟨h.room, List.nodup_nil, ?_⟩, List.nil_subset _, ?_⟩
  · intro p hp
    cases hp
  · intro p hp
    exact .inr ⟨_, ho p hp⟩

end LspClient.Registry
