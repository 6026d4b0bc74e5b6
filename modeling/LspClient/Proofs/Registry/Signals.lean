/-
Who is told that a request is cancelled. What its caller wants done then is what cancelling it answers, and what hearing
of a promise that was cancelled behind the registry's back answers. Nobody is told twice, and nobody of a request that
is not cancelled. A request whose promise was cancelled may be overtaken: whatever comes for its id before the notice of
that, a response, a cancellation, its time or the end, takes its entry out and tells nobody. Once no notice is on its
way any more, whoever has a cancelled request was told, or overtaken, and not both.
-/
import LspClient.Proofs.Registry.Settlement

namespace LspClient.Registry

/-! ## Definitions -/

/-- Who is told, when an operation answers an entry. -/
def told : Except Fault (Option (Pending CancelHook)) → List Issued
  | .ok (some p) => [(p.id, p.promise)]
  | _ => []

namespace World

/-- Who is told by a call. -/
def signals (w : World) : Call → List Issued
  | .cancel id => told (exec (Registry.cancel id) (w.registry, w.loop)).1
  | _ => []

/-- Whose entries a call takes out although their promises were cancelled before. -/
def overtaken (owner : Owner) (w : World) (c : Call) : List Issued :=
  (w.registry.pending.filter fun e =>
    w.loop.isSettled e.promise && !(w.perform owner c).2.registry.contains e.id).map fun e => (e.id, e.promise)

/-- The worlds that may come of a world, with those who are told meanwhile and those who are overtaken. -/
inductive Unfolds (owner : Owner) (w : World) : List Issued → List Issued → World → Prop where
  | refl : Unfolds owner w [] [] w
  /-- A call hands no cancellation in. -/
  | call {S O : List Issued} {w' : World} (h : Unfolds owner w S O w') (c : Call) (own : c.fault? ≠ some .cancelled) :
    Unfolds owner w (S ++ w'.signals c) (O ++ w'.overtaken owner c) (w'.perform owner c).2
  /-- Whoever awaits a handle is cancelled. -/
  | cancelHandle {S O : List Issued} {w' : World} (h : Unfolds owner w S O w') (g : Issued) (mem : g ∈ w'.handles) :
    Unfolds owner w S O { w' with loop := (w'.loop.cancel g.2).2 }
  /-- The loop gets to a notice. -/
  | hear {S O : List Issued} {w' : World} (h : Unfolds owner w S O w') (g : Issued) (timer : Option TimerId)
    (before after : List (Option TimerId × Job Event))
    (ready : w'.loop.ready = before ++ (timer, notice owner g) :: after) :
    Unfolds owner w (S ++ told (World.hear g { w' with loop := { w'.loop with ready := before ++ after } }).1) O
      (World.hear g { w' with loop := { w'.loop with ready := before ++ after } }).2
  | elsewhere {S O : List Issued} {w' : World} (h : Unfolds owner w S O w') (l : Loop Activity Event)
    (spares : Spares owner w'.handles w'.loop l) : Unfolds owner w S O { w' with loop := l }

/-- What holds between a world and those who were told and overtaken so far. -/
structure Heard (w : World) (S O : List Issued) : Prop where
  apart : (S ++ O).Nodup
  listed : ∀ h ∈ S ++ O, h ∈ w.handles ∧ w.loop.outcome? h.2 = some (.error .cancelled) ∧
    ∀ e ∈ w.registry.pending, e.promise ≠ h.2
  all : ∀ h ∈ w.handles, w.loop.outcome? h.2 = some (.error .cancelled) →
    h ∈ S ++ O ∨ ∃ e ∈ w.registry.pending, e.promise = h.2

/-- What a step adds to those who were told and overtaken so far. -/
structure Adds (w w' : World) (S O : List Issued) : Prop where
  apart : (S ++ O).Nodup
  handles : ∀ h ∈ w'.handles, h ∈ w.handles ∨ w'.loop.outcome? h.2 = none
  fewer : ∀ e ∈ w'.registry.pending, e ∈ w.registry.pending ∨ ∀ h ∈ w.handles, h.2 ≠ e.promise
  ended : ∀ h ∈ S ++ O, (∃ e ∈ w.registry.pending, h = (e.id, e.promise)) ∧
    w'.loop.outcome? h.2 = some (.error .cancelled) ∧ ∀ e ∈ w'.registry.pending, e.promise ≠ h.2
  gone : ∀ e ∈ w.registry.pending, w'.loop.outcome? e.promise = some (.error .cancelled) →
    (e.id, e.promise) ∈ S ++ O ∨ e ∈ w'.registry.pending

variable {owner : Owner} {w w' : World} {S S' O O' : List Issued}

theorem Unfolds.reaches (h : Unfolds owner w S O w') : Reaches owner w w' := by
  induction h with
  | refl => exact .refl
  | call _ c _ ih => exact ih.step (.call _ c)
  | cancelHandle _ g mem ih => exact ih.step (.cancelHandle _ g mem)
  | hear _ g timer before after ready ih => exact ih.step (.hear _ g timer before after ready)
  | elsewhere _ l spares ih => exact ih.step (.elsewhere _ l spares)

theorem Heard.adds (h : w.Heard S O) (s : w.Sound owner) (x : w.Extends w') (a : w.Adds w' S' O') :
    w'.Heard (S ++ S') (O ++ O') := by
  have perm : ((S ++ S') ++ (O ++ O')).Perm ((S ++ O) ++ (S' ++ O')) := by
    rw [List.append_assoc, List.append_assoc]
    refine List.Perm.append_left S ?_
    rw [← List.append_assoc, ← List.append_assoc]
    exact List.perm_append_comm.append_right O'
  refine ⟨perm.nodup_iff.2 (List.nodup_append.2 ⟨h.apart, a.apart, fun g hg g' hg' e => ?_⟩), fun g hg => ?_,
    fun g hg cancelled => ?_⟩
  · -- Those who are new to the lists were pending until now.
    obtain ⟨⟨e', he', rfl⟩, _⟩ := a.ended g' hg'
    exact (h.listed g hg).2.2 e' he' (congrArg Prod.snd e.symm)
  · rcases List.mem_append.1 (perm.mem_iff.1 hg) with hg | hg
    · obtain ⟨given, cancelled, out⟩ := h.listed g hg
      refine ⟨x.1 given, x.2 g given _ cancelled, fun e he same => ?_⟩
      rcases a.fewer e he with he | new
      · exact out e he same
      · exact new g given same.symm
    · obtain ⟨⟨e, he, rfl⟩, cancelled, out⟩ := a.ended g hg
      exact ⟨x.1 (s.issued e he), cancelled, out⟩
  · simp only [perm.mem_iff]
    rcases a.handles g hg with given | new
    · -- The handle is pending before the step, unless it was listed already.
      have pending : g ∈ S ++ O ∨ ∃ e ∈ w.registry.pending, e.promise = g.2 := by
        cases ho : w.loop.outcome? g.2 with
        | none =>
          obtain ⟨e, he, _, same⟩ := s.registered g given ho
          exact .inr ⟨e, he, same⟩
        | some o =>
          cases (x.2 g given o ho).symm.trans cancelled
          exact h.all g given ho
      rcases pending with listed | ⟨e, he, same⟩
      · exact .inl (List.mem_append_left _ listed)
      · rw [← same] at cancelled
        rcases a.gone e he cancelled with new | still
        · rw [s.eq_of_promise (s.issued e he) given same] at new
          exact .inl (List.mem_append_right _ new)
        · exact .inr ⟨e, still, same⟩
    · rw [new] at cancelled
      cases cancelled

/-! ## Steps -/

/-- Nothing is told where no entry goes and no handle comes. -/
theorem adds_nothing (registry : w'.registry = w.registry) (handles : w'.handles = w.handles) : w.Adds w' [] [] := by
  refine ⟨.nil, fun g hg => .inl (by rwa [← handles]), fun e he => .inl (by rwa [← registry]), nofun,
    fun e he _ => .inr (by rwa [registry])⟩

theorem mem_overtaken {c : Call} {h : Issued} : h ∈ w.overtaken owner c ↔ ∃ e ∈ w.registry.pending,
    w.loop.isSettled e.promise = true ∧ (w.perform owner c).2.registry.contains e.id = false ∧
    (e.id, e.promise) = h := by
  unfold overtaken
  simp [and_assoc]

/-- What a call adds that takes entries out: those whose promises it cancels are told, and those whose promises were
cancelled before are overtaken. -/
theorem adds_call (s : w.Sound owner) {c : Call} (handles : (w.perform owner c).2.handles = w.handles)
    (fewer : ∀ e ∈ (w.perform owner c).2.registry.pending, e ∈ w.registry.pending) (once : (w.signals c).Nodup)
    (signalled : ∀ h ∈ w.signals c, ∃ e ∈ w.registry.pending, h = (e.id, e.promise) ∧
      w.loop.outcome? e.promise = none ∧ (w.perform owner c).2.loop.outcome? e.promise = some (.error .cancelled) ∧
      (w.perform owner c).2.registry.contains e.id = false)
    (settled : ∀ e ∈ w.registry.pending, w.loop.outcome? e.promise = none →
      (w.perform owner c).2.loop.outcome? e.promise = some (.error .cancelled) → (e.id, e.promise) ∈ w.signals c) :
    w.Adds (w.perform owner c).2 (w.signals c) (w.overtaken owner c) := by
  have kept := (sound_perform s c).2
  -- An entry whose id is pending no more is gone, whatever promise it has.
  have out : ∀ e ∈ w.registry.pending, (w.perform owner c).2.registry.contains e.id = false →
      ∀ d ∈ (w.perform owner c).2.registry.pending, d.promise ≠ e.promise := fun e he gone d hd same => by
    cases s.eq_of_entry_promise (fewer d hd) he same
    rw [contains_eq_true.2 ⟨e, hd, rfl⟩] at gone
    cases gone
  have overtaken : ∀ e ∈ w.registry.pending, w.loop.isSettled e.promise = true →
      w.loop.outcome? e.promise = some (.error .cancelled) := fun e he done => by
    obtain ⟨o, ho⟩ := Loop.isSettled_iff.1 done
    rw [ho, (s.noticed e he o ho).1]
  refine ⟨List.nodup_append.2 ⟨once, ?_, fun g hg g' hg' e => ?_⟩, fun g hg => .inl (by rwa [← handles]),
    fun e he => .inl (fewer e he), fun g hg => ?_, fun e he cancelled => ?_⟩
  · have apart : (w.registry.pending.map fun e => (e.id, e.promise)).Nodup :=
      List.Nodup.of_map Prod.fst (by rw [List.map_map]; exact s.distinct)
    exact apart.sublist (List.filter_sublist.map _)
  · obtain ⟨d, _, rfl, before, _⟩ := signalled g hg
    obtain ⟨d', _, done, _, rfl⟩ := mem_overtaken.1 hg'
    rw [← (Prod.mk.inj e).2, Loop.isSettled_eq_false.2 before] at done
    cases done
  · rcases List.mem_append.1 hg with hg | hg
    · obtain ⟨e, he, rfl, _, after, gone⟩ := signalled g hg
      exact ⟨⟨e, he, rfl⟩, after, out e he gone⟩
    · obtain ⟨e, he, done, gone, rfl⟩ := mem_overtaken.1 hg
      exact ⟨⟨e, he, rfl⟩, kept.2 _ (s.issued e he) _ (overtaken e he done), out e he gone⟩
  · cases before : w.loop.isSettled e.promise with
    | false =>
      exact .inl (List.mem_append_left _ (settled e he (Loop.isSettled_eq_false.1 before) cancelled))
    | true =>
      cases gone : (w.perform owner c).2.registry.contains e.id with
      | false => exact .inl (List.mem_append_right _ (mem_overtaken.2 ⟨e, he, before, gone, rfl⟩))
      | true =>
        obtain ⟨d, hd, same⟩ := contains_eq_true.1 gone
        cases s.eq_of_id (fewer d hd) he same
        exact .inr hd

/-- Only cancelling an id cancels promises, but for calls that hand a cancellation in. -/
theorem eq_cancel_of_gives? {c : Call} (own : c.fault? ≠ some .cancelled) {e : Pending CancelHook}
    (given : c.gives? e = some (.error .cancelled)) : c = .cancel e.id := by
  cases c with
  | register => cases given
  | rejectAll reason =>
    cases given
    exact absurd rfl own
  | resolve | resolveError | expire =>
    replace given : (if e.id = _ then some _ else none) = some _ := given
    split at given <;> cases given
  | reject id fault =>
    replace given : (if e.id = _ then some _ else none) = some _ := given
    split at given
    · cases given
      exact absurd rfl own
    · cases given
  | cancel id =>
    replace given : (if e.id = id then some _ else none) = some _ := given
    split at given
    · next same => rw [same]
    · cases given

theorem Sound.role?_promise (s : w.Sound owner) : ∀ e ∈ w.registry.pending, w.loop.role? e.promise = some .plain := by
  intro e he
  obtain ⟨o, observers, hp⟩ := s.plain _ (s.issued e he)
  rw [Loop.role?, hp]
  rfl

/-- Calls take entries out, but for registrations. -/
theorem pending_perform (s : w.Sound owner) {c : Call}
    (other : ∀ id method timeout hook, c ≠ .register id method timeout hook) :
    ∀ e ∈ (w.perform owner c).2.registry.pending, e ∈ w.registry.pending := by
  intro e he
  replace he : e ∈ (exec (c.operation owner) (w.registry, w.loop)).2.1.pending := he
  have taken : ∀ {p o s'}, Ends p o w.registry w.loop s' → e ∈ s'.1.pending →
      e ∈ w.registry.pending := fun ends he => by
    rw [ends.pending] at he
    exact (Registry.Sound.mem_erase.1 he).1
  have single : ∀ {id o}, c.settlement? = some (id, o) → e ∈ w.registry.pending := by
    intro id o hc
    cases h : w.registry.find? id with
    | none => rwa [exec_operation_unknown hc h] at he
    | some p => exact taken (ends_operation hc h (s.role?_promise p (mem_of_find? h).1)) he
  cases c with
  | register id method timeout hook => exact absurd rfl (other id method timeout hook)
  | resolve | resolveError | reject | cancel => exact single rfl
  | rejectAll reason =>
    have hx := exec_rejectAll_fold reason w.registry w.loop
    rw [Call.operation, exec_map_snd, hx] at he
    cases he
  | expire id timeout =>
    rw [Call.operation, exec_map_snd] at he
    cases h : w.registry.find? id with
    | none => rwa [(exec_unknown h (.ok .null) timeout).2.2] at he
    | some p => exact taken (ends_expire h timeout) he

/-- A registration leaves the entries and the handles that there are, and may add one, with a new promise. -/
theorem perform_register_adds (owner : Owner) (w : World) (id : RequestId) (method : String) (timeout : Option Number)
    (hook : Option CancelHook) :
    (∃ new, (w.perform owner (.register id method timeout hook)).2.registry.pending = w.registry.pending ++ new ∧
      ∀ e ∈ new, e.promise = w.loop.promises.size) ∧
    ∃ new, (w.perform owner (.register id method timeout hook)).2.handles = w.handles ++ new ∧
      ∀ h ∈ new, h.2 = w.loop.promises.size := by
  have same : (∃ new, w.registry.pending = w.registry.pending ++ new ∧ ∀ e ∈ new, e.promise = w.loop.promises.size) ∧
      ∃ new, w.handles = w.handles ++ new ∧ ∀ h ∈ new, h.2 = w.loop.promises.size :=
    ⟨⟨[], by simp⟩, [], by simp⟩
  cases fresh : w.registry.contains id with
  | true =>
    rw [perform_eq (c := .register id method timeout hook)
      (by rw [Call.operation, exec_map, exec_register_duplicate _ fresh])]
    exact same
  | false =>
    rcases Registry.exec_register (Client.registryEvents owner) fresh w.loop method timeout hook with
      ⟨n, f, _, _, hx⟩ | ⟨_, timer, l, _, hx⟩
    · rw [perform_eq (c := .register id method timeout hook) (by rw [Call.operation, exec_map, hx])]
      exact same
    · rw [perform_eq (c := .register id method timeout hook) (by rw [Call.operation, exec_map, hx])]
      exact ⟨⟨[_], rfl, by simp⟩, [_], rfl, by simp⟩

/-- A registration tells nobody, and overtakes nobody. -/
theorem adds_register (s : w.Sound owner) (id : RequestId) (method : String) (timeout : Option Number)
    (hook : Option CancelHook) :
    w.Adds (w.perform owner (.register id method timeout hook)).2 (w.signals (.register id method timeout hook))
      (w.overtaken owner (.register id method timeout hook)) := by
  obtain ⟨⟨entries, pending, latest⟩, given, handles, newest⟩ := perform_register_adds owner w id method timeout hook
  have nobody : w.overtaken owner (.register id method timeout hook) = [] := by
    refine List.eq_nil_iff_forall_not_mem.2 fun h hh => ?_
    obtain ⟨e, he, _, gone, _⟩ := mem_overtaken.1 hh
    rw [contains_eq_true.2 ⟨e, by rw [pending]; exact List.mem_append_left _ he, rfl⟩] at gone
    cases gone
  rw [nobody]
  refine ⟨.nil, fun h hh => ?_, fun e he => ?_, nofun,
    fun e he _ => .inr (by rw [pending]; exact List.mem_append_left _ he)⟩
  · rw [handles] at hh
    refine (List.mem_append.1 hh).imp_right fun new => ?_
    rw [newest h new]
    exact (outcome?_register owner _ _ _ id method timeout hook).trans (Loop.outcome?_eq_none (Nat.le_refl _))
  · rw [pending] at he
    refine (List.mem_append.1 he).imp_right fun new h hh same => ?_
    rw [latest e new] at same
    exact Nat.ne_of_lt (s.lt_size hh) same

/-- Cancelling an id tells whoever has the request of it, if that was open. -/
theorem adds_cancel (s : w.Sound owner) (id : RequestId) :
    w.Adds (w.perform owner (.cancel id)).2 (w.signals (.cancel id)) (w.overtaken owner (.cancel id)) := by
  -- What is cancelled by the call is the open entry under the id.
  have found : ∀ e ∈ w.registry.pending, w.loop.outcome? e.promise = none →
      (w.perform owner (.cancel id)).2.loop.outcome? e.promise = some (.error .cancelled) →
      w.registry.find? id = some e := by
    intro e he before after
    obtain ⟨p, hp, same, given⟩ := gives?_of_settled owner (.cancel id) s.role?_promise before after
    obtain rfl : id = p.id := Call.cancel.inj (eq_cancel_of_gives? (c := .cancel id) nofun given)
    rw [s.eq_of_entry_promise he hp same]
    exact find?_of_mem s.distinct hp
  have nobody : (exec (Registry.cancel id) (w.registry, w.loop)).1 = .ok none →
      (∀ e, w.registry.find? id = some e → w.loop.isSettled e.promise = true) →
      w.Adds (w.perform owner (.cancel id)).2 (w.signals (.cancel id)) (w.overtaken owner (.cancel id)) := by
    intro answer closed
    have signals : w.signals (.cancel id) = [] := congrArg told answer
    refine adds_call s rfl (pending_perform s nofun) (by rw [signals]; exact .nil) (by rw [signals]; nofun)
      fun e he before after => ?_
    have done := closed e (found e he before after)
    rw [Loop.isSettled_eq_false.2 before] at done
    cases done
  rcases Registry.exec_cancel s.room w.loop id with ⟨p, hp, ho, hx⟩ | ⟨p, hp, done, hx⟩ | ⟨none, hx⟩
  · have signals : w.signals (.cancel id) = [(p.id, p.promise)] := by
      rw [World.signals, hx]
      rfl
    obtain ⟨mem, own⟩ := mem_of_find? hp
    refine adds_call s rfl (pending_perform s nofun) (by rw [signals]; exact List.nodup_singleton _) (fun h hh => ?_)
      fun e he before after => ?_
    · rw [signals, List.mem_singleton] at hh
      obtain ⟨observers, open'⟩ := s.open_promise mem ho
      rw [← promises_stopped p w.loop] at open'
      rw [Loop.cancel_of_plain open'] at hx
      refine ⟨p, mem, hh, ho, ?_, ?_⟩
      · show (exec (_ <$> Registry.cancel id) _).2.2.outcome? _ = _
        rw [exec_map_snd, hx, Loop.outcome?, Loop.getElem?_settle_self open']
        rfl
      · show (exec (_ <$> Registry.cancel id) _).2.1.contains _ = _
        rw [exec_map_snd, hx, own]
        exact contains_erase_self w.registry id
    · cases hp.symm.trans (found e he before after)
      rw [signals]
      exact List.mem_singleton.2 rfl
  · refine nobody (congrArg Prod.fst hx) fun e he => ?_
    cases hp.symm.trans he
    exact done
  · exact nobody (congrArg Prod.fst hx) fun e he => by cases none.symm.trans he

theorem adds_perform (s : w.Sound owner) (c : Call) (own : c.fault? ≠ some .cancelled) :
    w.Adds (w.perform owner c).2 (w.signals c) (w.overtaken owner c) := by
  have cancelled : ∀ e ∈ w.registry.pending, w.loop.outcome? e.promise = none →
      (w.perform owner c).2.loop.outcome? e.promise = some (.error .cancelled) → ∃ id, c = .cancel id := by
    intro e he before after
    obtain ⟨p, _, _, given⟩ := gives?_of_settled owner c s.role?_promise before after
    exact ⟨_, eq_cancel_of_gives? own given⟩
  cases c with
  | register id method timeout hook => exact adds_register s id method timeout hook
  | cancel id => exact adds_cancel s id
  | resolve | resolveError | reject | rejectAll | expire =>
    refine adds_call s rfl (pending_perform s nofun) .nil nofun fun e he before after => ?_
    obtain ⟨id, same⟩ := cancelled e he before after
    cases same

/-- The notice of a promise that was cancelled tells whoever has the request, if that is pending still. -/
theorem adds_hear (s : w.Sound owner) (h : Issued) (before after : List (Option TimerId × Job Event)) :
    w.Adds (World.hear h { w with loop := { w.loop with ready := before ++ after } }).2
      (told (World.hear h { w with loop := { w.loop with ready := before ++ after } }).1) [] := by
  unfold World.hear
  rcases exec_forgetCancelled s.room { w.loop with ready := before ++ after } h.1 h.2 with ⟨e, he, hp, ho, hx⟩ | ⟨_, hx⟩
  · obtain ⟨mem, own⟩ := mem_of_find? he
    rw [hx]
    have left : ∀ {d}, d ∈ ((w.registry.erase h.1).remembering h.1).pending ↔ d ∈ w.registry.pending ∧ d.id ≠ h.1 :=
      Registry.Sound.mem_erase
    refine ⟨List.nodup_singleton _, fun g hg => .inl hg, fun d hd => .inl (left.1 hd).1, fun g hg => ?_,
      fun d hd _ => ?_⟩
    · cases List.mem_singleton.1 hg
      refine ⟨⟨e, mem, rfl⟩, ?_, fun d hd same => ?_⟩
      · rw [outcome?_stopped, hp]
        exact ho
      · rw [s.eq_of_entry_promise (left.1 hd).1 mem same] at hd
        exact (left.1 hd).2 own
    · by_cases same : d.id = h.1
      · rw [s.eq_of_id hd mem (same.trans own.symm)]
        exact .inl (List.mem_singleton.2 rfl)
      · exact .inr (left.2 ⟨hd, same⟩)
  · rw [hx]
    exact adds_nothing rfl rfl

/-- What a world unfolds into, and who was told and overtaken meanwhile. -/
theorem Unfolds.heard (h : Unfolds owner w S O w') (s : w.Sound owner) (new : w.Heard [] []) : w'.Heard S O := by
  induction h with
  | refl => exact new
  | call run c own ih =>
    have s := (run.reaches.sound s).1
    exact ih.adds s (sound_perform s c).2 (adds_perform s c own)
  | cancelHandle run g mem ih =>
    have s := (run.reaches.sound s).1
    have added := ih.adds s ((Step.cancelHandle _ g mem).sound s).2 (adds_nothing rfl rfl)
    rwa [List.append_nil, List.append_nil] at added
  | hear run g timer before after ready ih =>
    have s := (run.reaches.sound s).1
    have added := ih.adds s ((Step.hear _ g timer before after ready).sound s).2 (adds_hear s g before after)
    rwa [List.append_nil] at added
  | elsewhere run l spares ih =>
    have s := (run.reaches.sound s).1
    have added := ih.adds s ((Step.elsewhere _ l spares).sound s).2 (adds_nothing rfl rfl)
    rwa [List.append_nil, List.append_nil] at added

/-- In every world that comes of an empty registry with room in its memory, nobody is told twice, and nobody but whoever
has a cancelled request. Once no notice is on its way, whoever has one was told, or overtaken, and not both. -/
theorem told_or_overtaken (owner : Owner) {memory : Nat} (room : 1 ≤ memory) (l : Loop Activity Event)
    (h : Unfolds owner ⟨.empty memory, l, []⟩ S O w) :
    (S ++ O).Nodup ∧ (∀ g ∈ S, g ∈ w.handles ∧ w.loop.outcome? g.2 = some (.error .cancelled)) ∧
      ((∀ g, ¬ w.loop.IsReady (notice owner g)) →
        ∀ g ∈ w.handles, w.loop.outcome? g.2 = some (.error .cancelled) → g ∈ S ∨ g ∈ O) := by
  have empty : Sound owner ⟨.empty memory, l, []⟩ := Registry.Sound.empty owner room l
  have s := (h.reaches.sound empty).1
  have heard := h.heard empty ⟨.nil, nofun, nofun⟩
  refine ⟨heard.apart, fun g hg => ?_, fun quiet g hg cancelled => ?_⟩
  · obtain ⟨given, cancelled, _⟩ := heard.listed g (List.mem_append_left _ hg)
    exact ⟨given, cancelled⟩
  · rcases heard.all g hg cancelled with listed | ⟨e, he, same⟩
    · exact List.mem_append.1 listed
    · -- A cancelled request that is pending still has its notice on the way.
      rw [← same] at cancelled
      exact absurd ⟨_, (s.noticed e he _ cancelled).2⟩ (quiet (e.id, e.promise))

/-- A request is cancelled by whoever awaits it, and then through its handle, before the notice of the first comes: it
is overtaken, and nobody is told. -/
theorem overtaken_by_cancel : ∃ w, Unfolds .alone ⟨.empty 1, {}, []⟩ [] [(.int 1, 0)] w ∧
    w.loop.outcome? 0 = some (.error .cancelled) ∧ w.registry.pending = [] ∧ w.loop.ready = [] := by
  have start : Unfolds .alone ⟨.empty 1, {}, []⟩ [] [] ⟨.empty 1, {}, []⟩ := .refl
  have registered := start.call (.register (.int 1) "m" none (some (.record false))) nofun
  have cancelled := (registered.cancelHandle (.int 1, 0) (by decide)).call (.cancel (.int 1)) nofun
  exact ⟨_, cancelled.hear (.int 1, 0) none [] [] rfl, rfl, rfl, rfl⟩

end World

end LspClient.Registry
