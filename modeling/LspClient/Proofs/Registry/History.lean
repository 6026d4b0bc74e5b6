/-
What registries are asked to do, one thing after another, and which of their requests lapse by it: whoever holds the
handle of a request cancels it, whoever awaits it is cancelled, or its time is up. Of the ids that have lapsed so far, a
registry remembers the ones that lapsed last, as many different ones as its memory has room for.
-/
import LspClient.Proofs.Registry.Operations
import Mathlib.Data.List.Dedup
import Mathlib.Data.List.DropRight

namespace LspClient

/-! ## Definitions -/

/-- The different items of a list that come last in it, the last one at the end; so many at most. -/
def latest {α : Type} [DecidableEq α] (n : Nat) (items : List α) : List α :=
  items.dedup.rtake n

/-- A memory of the last keys that were written, when it has been written to only with these. -/
def Recency.Recalls {κ α : Type} [DecidableEq κ] (m : Recency κ α) (written : List κ) : Prop :=
  m.entries.map (·.1) = latest m.limit written

namespace Registry

variable {κ φ ω : Type}

/-- Something that a registry is asked to do. -/
inductive Deed (κ ω : Type) where
  | register (events : Events ω) (id : RequestId) (method : String) (timeout : Option Number) (onCancel : Option κ)
  | settle (id : RequestId) (o : Outcome)
  | cancel (id : RequestId)
  /-- It is told that a promise is settled. -/
  | hear (id : RequestId) (promise : PromiseId)
  | rejectAll (reason : Fault)
  | expire (id : RequestId) (timeout : Number)

/-- The operation that a deed stands for. -/
def Deed.operation : Deed κ ω → Operation κ φ ω Unit
  | register events id method timeout onCancel =>
    (fun _ => ()) <$> Registry.register events id method timeout onCancel
  | settle id o => (fun _ => ()) <$> Registry.settle id o
  | cancel id => (fun _ => ()) <$> Registry.cancel id
  | hear id promise => (fun _ => ()) <$> forgetCancelled id promise
  | rejectAll reason => (fun _ => ()) <$> Registry.rejectAll reason
  | expire id timeout => (fun _ => ()) <$> Registry.expire id timeout

/-- The request that lapses by a deed, if one does: it is cancelled through its handle, its time is up, or the registry
finds out that whoever awaits it was cancelled, when it is told so or finds its promise settled. -/
def Deed.lapses (r : Registry κ) (l : Loop φ ω) : Deed κ ω → List RequestId
  | cancel id | expire id _ => if (r.find? id).isSome then [id] else []
  | settle id _ => if (r.find? id).any fun p => l.isSettled p.promise then [id] else []
  | hear id promise =>
    if (r.find? id).any fun p => p.promise == promise && (l.outcome? promise).any (·.isCancelled) then [id] else []
  | register .. | rejectAll _ => []

/-- An operation that does what some deed does, whatever it answers. -/
def IsDeed {α : Type} (op : Operation κ φ ω α) : Prop :=
  ∃ d : Deed κ ω, ∀ s, (exec op s).2 = (exec d.operation s).2

/-- A registry and its loop come of others by deeds, while other things happen in the loop. The ids are those of the
requests that lapse meanwhile, in order. -/
inductive Lives (r : Registry κ) (l : Loop φ ω) : List RequestId → Registry κ → Loop φ ω → Prop
  | refl : Lives r l [] r l
  /-- What is settled stays settled, whatever happens elsewhere. -/
  | elsewhere {ids : List RequestId} {r' : Registry κ} {l' l'' : Loop φ ω} (life : Lives r l ids r' l')
    (kept : ∀ p o, l'.outcome? p = some o → l''.outcome? p = some o) : Lives r l ids r' l''
  | deed {ids : List RequestId} {r' : Registry κ} {l' : Loop φ ω} (life : Lives r l ids r' l') (d : Deed κ ω) :
    Lives r l (ids ++ d.lapses r' l') (exec d.operation (r', l')).2.1 (exec d.operation (r', l')).2.2

/-- A registry and its loop have come of others, and no request is lost: those that are not pending any more are
settled. -/
structure Endures (r : Registry κ) (l : Loop φ ω) (r' : Registry κ) (l' : Loop φ ω) : Prop where
  kept : ∀ p ∈ r.pending, p ∈ r'.pending ∨ ∃ o, l'.outcome? p.promise = some o
  life : ∃ ids, Lives r l ids r' l'

end Registry

/-! ## The latest items -/

section

variable {α : Type}

/-- The last items of a list whose end is long enough are those of its end. -/
theorem rtake_append_of_le {n : Nat} (before : List α) {rear : List α} (h : n ≤ rear.length) :
    (before ++ rear).rtake n = rear.rtake n := by
  unfold List.rtake
  rw [List.length_append, Nat.add_sub_assoc h, List.drop_append, List.drop_eq_nil_of_le (Nat.le_add_right _ _),
    Nat.add_sub_cancel_left, List.nil_append]

theorem rtake_append_singleton (n : Nat) (items : List α) (a : α) :
    (items ++ [a]).rtake (n + 1) = items.rtake n ++ [a] := by
  unfold List.rtake
  rw [List.length_append, List.length_singleton, Nat.add_sub_add_right, List.drop_append_of_le_length (Nat.sub_le _ _)]

variable [DecidableEq α]

theorem dedup_append_singleton (items : List α) (a : α) :
    (items ++ [a]).dedup = (items.dedup.filter fun b => b ≠ a) ++ [a] := by
  induction items with
  | nil => simp
  | cons b items ih =>
    rw [List.cons_append]
    by_cases there : b ∈ items
    · rw [List.dedup_cons_of_mem (List.mem_append_left _ there), List.dedup_cons_of_mem there, ih]
    · rw [List.dedup_cons_of_notMem there]
      by_cases same : b = a
      · rw [List.dedup_cons_of_mem (by simp [same]), ih, List.filter_cons_of_neg (by simpa using same)]
      · rw [List.dedup_cons_of_notMem (by simp [there, same]), ih, List.filter_cons_of_pos (by simpa using same)]
        rfl

/-- An item that comes again comes last. -/
theorem latest_append_self (n : Nat) (items : List α) (a : α) :
    latest n (items ++ [a] ++ [a]) = latest n (items ++ [a]) := by
  unfold latest
  rw [dedup_append_singleton (items ++ [a]), dedup_append_singleton items, List.filter_append, List.filter_filter]
  simp

/-- An item taken out leaves the others as they were, one fewer at most. -/
theorem length_filter_ne {items : List α} (distinct : items.Nodup) (a : α) :
    items.length - 1 ≤ (items.filter fun b => b ≠ a).length := by
  have same : items.filter (fun b => b ≠ a) = items.erase a := by
    rw [distinct.erase_eq_filter]
    exact List.filter_congr fun b _ => by by_cases e : b = a <;> simp [e]
  rw [same]
  exact List.le_length_erase

/-- The last items without one of them are found among the last ones, of which there is one more. -/
theorem rtake_filter_rtake {items : List α} (distinct : items.Nodup) (n : Nat) (a : α) :
    ((items.rtake (n + 1)).filter fun b => b ≠ a).rtake n = (items.filter fun b => b ≠ a).rtake n := by
  by_cases short : items.length ≤ n + 1
  · have all : items.rtake (n + 1) = items := by rw [List.rtake, Nat.sub_eq_zero_of_le short, List.drop_zero]
    rw [all]
  · have length : (items.rtake (n + 1)).length = n + 1 := by
      rw [List.rtake, List.length_drop]
      omega
    have apart : (items.rtake (n + 1)).Nodup := distinct.sublist (List.drop_sublist _ _)
    have long : n ≤ ((items.rtake (n + 1)).filter fun b => b ≠ a).length := by
      have fewer := length_filter_ne apart a
      rwa [length] at fewer
    have whole : items.filter (fun b => b ≠ a) = (items.take (items.length - (n + 1))).filter (fun b => b ≠ a) ++
        (items.rtake (n + 1)).filter fun b => b ≠ a := by
      rw [← List.filter_append, List.rtake, List.take_append_drop]
    rw [whole, rtake_append_of_le _ long]

end

/-! ## Memories -/

namespace Recency

variable {κ α : Type} [DecidableEq κ] {m : Recency κ α} {written : List κ}

theorem recalls_empty (limit : Nat) : (empty limit : Recency κ α).Recalls [] :=
  (List.rtake_nil _).symm

/-- A memory with room recalls what is written to it. -/
theorem Recalls.insert (h : m.Recalls written) (room : m.canHold = true) (key : κ) (value : α) :
    (m.insert key value).Recalls (written ++ [key]) := by
  obtain ⟨n, limit⟩ : ∃ n, m.limit = n + 1 := Nat.exists_eq_succ_of_ne_zero (Nat.ne_of_gt (of_decide_eq_true room))
  obtain ⟨others, eq⟩ : ∃ others, others = m.entries.filter fun e => e.1 ≠ key := ⟨_, rfl⟩
  have keys : others.map (·.1) = (latest m.limit written).filter fun k => k ≠ key := by
    rw [eq, ← h, List.filter_map]
    rfl
  have length : others.length = (others.map (·.1)).length := (List.length_map _).symm
  show ((m.entries.filter fun e => e.1 ≠ key).drop
      ((m.entries.filter fun e => e.1 ≠ key).length + 1 - m.limit) ++ [(key, value)]).map (·.1) =
    latest m.limit (written ++ [key])
  rw [← eq, List.map_append, List.map_drop, length, keys, limit, Nat.add_sub_add_right]
  unfold latest
  rw [dedup_append_singleton, rtake_append_singleton]
  exact congrArg (· ++ [key]) (rtake_filter_rtake (List.nodup_dedup written) n key)

theorem Recalls.contains_iff (h : m.Recalls written) (key : κ) :
    m.contains key = true ↔ key ∈ latest m.limit written := by
  rw [← h, contains, List.any_eq_true, List.mem_map]
  simp

end Recency

namespace Registry

variable {κ φ ω : Type} {n : Nat} {ids ids' : List RequestId} {r r' r'' : Registry κ} {l l' l'' : Loop φ ω}

/-! ## Lives of registries -/

theorem Lives.trans (h : Lives r l ids r' l') (h' : Lives r' l' ids' r'' l'') : Lives r l (ids ++ ids') r'' l'' := by
  induction h' with
  | refl =>
    rw [List.append_nil]
    exact h
  | elsewhere _ kept ih => exact ih.elsewhere kept
  | deed _ d ih =>
    rw [← List.append_assoc]
    exact ih.deed d

theorem Endures.refl (r : Registry κ) (l : Loop φ ω) : Endures r l r l :=
  ⟨fun _ hp => .inl hp, [], .refl⟩

/-- The registry stays as it is, whatever happens in the loop. -/
theorem Endures.elsewhere (r : Registry κ) (kept : ∀ p o, l.outcome? p = some o → l'.outcome? p = some o) :
    Endures r l r l' :=
  ⟨fun _ hp => .inl hp, [], Lives.refl.elsewhere kept⟩

theorem Endures.trans (h : Endures r l r' l') (h' : Endures r' l' r'' l'')
    (settled : ∀ p o, l'.outcome? p = some o → l''.outcome? p = some o) : Endures r l r'' l'' := by
  obtain ⟨kept, ids, life⟩ := h
  obtain ⟨kept', ids', life'⟩ := h'
  refine ⟨fun p hp => ?_, ids ++ ids', life.trans life'⟩
  rcases kept p hp with hp | ⟨o, ho⟩
  · exact kept' p hp
  · exact .inr ⟨o, settled _ o ho⟩

/-! ## Deeds -/

section

variable {α : Type}

/-- A deed does what its operation does. -/
theorem exec_discard (op : Operation κ φ ω α) (s : Registry κ × Loop φ ω) :
    (exec ((fun _ => ()) <$> op) s).2 = (exec op s).2 :=
  exec_map_snd _ op s

theorem isDeed_register (events : Events ω) (id : RequestId) (method : String) (timeout : Option Number)
    (onCancel : Option κ) : IsDeed (register events id method timeout onCancel : Operation κ φ ω PromiseId) :=
  ⟨.register events id method timeout onCancel, fun s => (exec_discard _ s).symm⟩

theorem isDeed_settle (id : RequestId) (o : Outcome) : IsDeed (settle id o : Operation κ φ ω Settlement) :=
  ⟨.settle id o, fun s => (exec_discard _ s).symm⟩

theorem isDeed_cancel (id : RequestId) : IsDeed (cancel id : Operation κ φ ω (Option (Pending κ))) :=
  ⟨.cancel id, fun s => (exec_discard _ s).symm⟩

theorem isDeed_forgetCancelled (id : RequestId) (promise : PromiseId) :
    IsDeed (forgetCancelled id promise : Operation κ φ ω (Option (Pending κ))) :=
  ⟨.hear id promise, fun s => (exec_discard _ s).symm⟩

theorem isDeed_rejectAll (reason : Fault) : IsDeed (rejectAll reason : Operation κ φ ω Nat) :=
  ⟨.rejectAll reason, fun s => (exec_discard _ s).symm⟩

theorem isDeed_expire (id : RequestId) (timeout : Number) : IsDeed (expire id timeout : Operation κ φ ω Settlement) :=
  ⟨.expire id timeout, fun s => (exec_discard _ s).symm⟩

theorem IsDeed.life {op : Operation κ φ ω α} (h : IsDeed op) (r : Registry κ) (l : Loop φ ω) :
    ∃ ids, Lives r l ids (exec op (r, l)).2.1 (exec op (r, l)).2.2 := by
  obtain ⟨d, same⟩ := h
  rw [same]
  exact ⟨_, Lives.refl.deed d⟩

end

/-! ## What registries remember -/

/-- A registry that remembers the last ids of some, so many at most. -/
structure Remembers (r : Registry κ) (n : Nat) (ids : List RequestId) : Prop where
  limit : r.remembered.limit = n
  recalls : r.remembered.Recalls ids

theorem remembers_empty (n : Nat) : (empty n : Registry κ).Remembers n [] :=
  ⟨rfl, Recency.recalls_empty n⟩

theorem Remembers.canHold (h : r.Remembers n ids) (room : 0 < n) : r.remembered.canHold = true :=
  decide_eq_true (show 0 < r.remembered.limit by rwa [h.limit])

theorem Remembers.remembering (h : r.Remembers n ids) (room : 0 < n) (id : RequestId) :
    (r.remembering id).Remembers n (ids ++ [id]) :=
  ⟨h.limit, h.recalls.insert (h.canHold room) id ()⟩

theorem Remembers.wasCancelled_iff (h : r.Remembers n ids) (id : RequestId) :
    r.wasCancelled id = true ↔ id ∈ latest n ids := by
  rw [← h.limit]
  exact h.recalls.contains_iff id

/-- A registry with the same memory. -/
theorem Remembers.congr (h : r.Remembers n ids) (same : r'.remembered = r.remembered) : r'.Remembers n ids :=
  ⟨by rw [same, h.limit], by rw [same]; exact h.recalls⟩

/-- An id that is remembered twice in a row is remembered once. -/
theorem Remembers.of_append_self {id : RequestId} (h : r.Remembers n (ids ++ [id] ++ [id])) :
    r.Remembers n (ids ++ [id]) := by
  refine ⟨h.limit, ?_⟩
  have recalls := h.recalls
  unfold Recency.Recalls at recalls ⊢
  rwa [latest_append_self] at recalls

theorem eq_cancelled_of_isCancelled {o : Outcome} (h : o.isCancelled = true) : o = .error .cancelled := by
  rcases o with f | v
  · cases f <;> first | rfl | cases h
  · cases h

/-- What a deed remembers is what lapses by it. -/
theorem Remembers.deed (h : r.Remembers n ids) (room : 0 < n) (l : Loop φ ω) (d : Deed κ ω) :
    (exec d.operation (r, l)).2.1.Remembers n (ids ++ d.lapses r l) := by
  have canHold := h.canHold room
  -- Taking an entry out leaves the memory alone.
  have taken : ∀ id, (r.erase id).Remembers n ids := fun id => h.congr rfl
  cases d with
  | register events id method timeout onCancel =>
    rw [Deed.operation, exec_discard]
    show Remembers _ n (ids ++ [])
    rw [List.append_nil]
    cases fresh : r.contains id with
    | true =>
      rw [exec_register_duplicate events fresh]
      exact h
    | false =>
      rcases exec_register events fresh l method timeout onCancel with ⟨_, _, _, _, hx⟩ | ⟨_, _, _, _, hx⟩
      · rw [hx]
        exact h
      · rw [hx]
        exact h.congr rfl
  | settle id o =>
    rw [Deed.operation, exec_discard]
    unfold Deed.lapses
    rcases exec_settle canHold l id o with ⟨p, hp, ho, hx⟩ | ⟨p, hp, ho, hx⟩ | ⟨hp, hx⟩
    · simpa [hx, hp, Loop.isSettled_eq_false.2 ho] using taken id
    · simpa [hx, hp, ho] using (taken id).remembering room id
    · simpa [hx, hp] using h
  | cancel id =>
    rw [Deed.operation, exec_discard]
    unfold Deed.lapses
    rcases exec_cancel canHold l id with ⟨p, hp, _, hx⟩ | ⟨p, hp, _, hx⟩ | ⟨hp, hx⟩
    · simpa [hx, hp] using (taken id).remembering room id
    · simpa [hx, hp] using (taken id).remembering room id
    · simpa [hx, hp] using h
  | hear id promise =>
    rw [Deed.operation, exec_discard]
    unfold Deed.lapses
    rcases exec_forgetCancelled canHold l id promise with ⟨p, hp, rfl, ho, hx⟩ | ⟨none, hx⟩
    · simpa [hx, hp, ho, Outcome.isCancelled, Fault.isCancellation] using (taken id).remembering room id
    · have nothing : ((r.find? id).any fun p => p.promise == promise && (l.outcome? promise).any (·.isCancelled)) =
          false := by
        refine Bool.eq_false_iff.2 fun any => ?_
        obtain ⟨p, hp, both⟩ := (Option.any_eq_true _ _).1 any
        rw [Bool.and_eq_true, beq_iff_eq] at both
        obtain ⟨o, ho, cancelled⟩ := (Option.any_eq_true _ _).1 both.2
        rw [eq_cancelled_of_isCancelled cancelled] at ho
        exact none p hp both.1 ho
      simpa [hx, nothing] using h
  | rejectAll reason =>
    rw [Deed.operation, exec_discard]
    have hx := exec_rejectAll_fold reason r l
    rw [hx]
    show Remembers _ n (ids ++ [])
    rw [List.append_nil]
    exact h.congr rfl
  | expire id timeout =>
    rw [Deed.operation, exec_discard]
    unfold Deed.lapses
    rcases exec_expire canHold l id timeout with ⟨p, hp, _, hx⟩ | ⟨p, hp, _, hx⟩ | ⟨hp, hx⟩
    · simpa [hx, hp] using (taken id).remembering room id
    · have twice := ((taken id).remembering room id).remembering room id
      simpa [hx, hp] using twice.of_append_self
    · simpa [hx, hp] using h

/-- Whatever a registry has been asked to do, it remembers the ids that lapsed last. -/
theorem Lives.remembers (life : Lives r l ids' r' l') (room : 0 < n) (h : r.Remembers n ids) :
    r'.Remembers n (ids ++ ids') := by
  induction life with
  | refl =>
    rw [List.append_nil]
    exact h
  | elsewhere _ _ ih => exact ih
  | deed _ d ih =>
    rw [← List.append_assoc]
    exact ih.deed room _ d

end Registry

end LspClient
