/-
What holds between a registry, its loop and the handles it has given out, and that every operation
of the registry keeps it. An open handle is pending under its id; the promise of an entry is open,
or it was cancelled behind the registry's back and the notice of that is on its way.
-/
import LspClient.Client.Requests
import LspClient.Proofs.Registry.Operations
import Mathlib.Data.List.Nodup

namespace LspClient.Registry

/-- A handle: the id it was registered under, and its promise. -/
abbrev Issued := RequestId × PromiseId

/-- The notice that the promise of a request is settled. -/
def notice (owner : Owner) (h : Issued) : Job Event :=
  .notify (.requestSettled owner h.1 h.2)

theorem notice_inj {owner : Owner} {g h : Issued} (e : notice owner g = notice owner h) : g = h := by
  unfold notice at e
  cases g
  cases h
  cases e
  rfl

/-- The loop with a new promise for an id, whose settling the registry hears of. -/
def issue (owner : Owner) (id : RequestId) (l : Loop Activity Event) : Loop Activity Event :=
  l.newPromise.2.observe l.promises.size (notice owner (id, l.promises.size))

theorem getElem?_issue_self (owner : Owner) (id : RequestId) (l : Loop Activity Event) :
    (issue owner id l).promises[l.promises.size]? = some ⟨none, [notice owner (id, l.promises.size)], .plain⟩ :=
  Loop.getElem?_observe_self (Loop.getElem?_newPromise_self l .plain) rfl _

theorem getElem?_issue_of_lt (owner : Owner) (id : RequestId) {l : Loop Activity Event} {q : PromiseId}
    (h : q < l.promises.size) : (issue owner id l).promises[q]? = l.promises[q]? := by
  unfold issue
  rw [Loop.getElem?_observe_of_ne (Nat.ne_of_lt h), Loop.getElem?_newPromise_of_lt .plain h]

theorem ready_issue (owner : Owner) (id : RequestId) (l : Loop Activity Event) :
    (issue owner id l).ready = l.ready := by
  unfold issue
  rw [Loop.ready_observe_of_open, Loop.ready_newPromise]
  rw [Loop.outcome?, Loop.getElem?_newPromise_self]
  rfl

/-- What happens elsewhere in a loop: the promises of the handles keep what they are settled with and
that the registry hears of it, and notices that are ready stay so. -/
structure Spares (owner : Owner) (handles : List Issued) (l l' : Loop Activity Event) : Prop where
  size : l.promises.size ≤ l'.promises.size
  promise : ∀ h ∈ handles, ∀ x, l.promises[h.2]? = some x → ∃ observers,
    l'.promises[h.2]? = some { x with observers } ∧ (notice owner h ∈ x.observers → notice owner h ∈ observers)
  ready : ∀ h, (none, notice owner h) ∈ l.ready → (none, notice owner h) ∈ l'.ready

/-! ## The invariant -/

/-- What holds between a registry, its loop and the handles it gave out. -/
structure Sound (owner : Owner) (r : Registry CancelHook) (l : Loop Activity Event) (handles : List Issued) :
    Prop where
  room : r.remembered.canHold = true
  distinct : r.ids.Nodup
  issued : ∀ e ∈ r.pending, (e.id, e.promise) ∈ handles
  apart : (handles.map (·.2)).Nodup
  plain : ∀ h ∈ handles, ∃ o observers, l.promises[h.2]? = some ⟨o, observers, .plain⟩
  /-- An open handle is pending under its id. -/
  registered : ∀ h ∈ handles, l.outcome? h.2 = none → ∃ e ∈ r.pending, e.id = h.1 ∧ e.promise = h.2
  /-- The registry will hear when the promise of an entry is settled, -/
  watched : ∀ e ∈ r.pending, l.outcome? e.promise = none →
    notice owner (e.id, e.promise) ∈ l.observers e.promise
  /-- or it was cancelled, and the notice of that is on its way. -/
  noticed : ∀ e ∈ r.pending, ∀ o, l.outcome? e.promise = some o →
    o = .error .cancelled ∧ (none, notice owner (e.id, e.promise)) ∈ l.ready

namespace Sound

variable {owner : Owner} {r : Registry CancelHook} {l l' : Loop Activity Event} {handles : List Issued}

theorem empty (owner : Owner) {memory : Nat} (h : 1 ≤ memory) (l : Loop Activity Event) :
    Sound owner (.empty memory) l [] where
  room := decide_eq_true (show 0 < memory from h)
  distinct := by simp [Registry.empty, ids]
  issued := by simp [Registry.empty]
  apart := by simp
  plain := by simp
  registered := by simp
  watched := by simp [Registry.empty]
  noticed := by simp [Registry.empty]

/-- Handles with the same promise are the same. -/
theorem eq_of_promise (s : Sound owner r l handles) {g h : Issued} (hg : g ∈ handles) (hh : h ∈ handles)
    (e : g.2 = h.2) : g = h :=
  List.inj_on_of_nodup_map s.apart hg hh e

/-- Entries with the same id are the same. -/
theorem eq_of_id (s : Sound owner r l handles) {d e : Pending CancelHook} (hd : d ∈ r.pending)
    (he : e ∈ r.pending) (h : d.id = e.id) : d = e := by
  have h1 := find?_of_mem s.distinct hd
  have h2 := find?_of_mem s.distinct he
  rw [h] at h1
  exact Option.some.inj (h1.symm.trans h2)

/-- Entries with the same promise are the same. -/
theorem eq_of_entry_promise (s : Sound owner r l handles) {d e : Pending CancelHook} (hd : d ∈ r.pending)
    (he : e ∈ r.pending) (h : d.promise = e.promise) : d = e :=
  s.eq_of_id hd he (congrArg Prod.fst (s.eq_of_promise (s.issued d hd) (s.issued e he) h))

/-- The promise of an open entry. -/
theorem open_promise (s : Sound owner r l handles) {e : Pending CancelHook} (he : e ∈ r.pending)
    (ho : l.outcome? e.promise = none) : ∃ observers, l.promises[e.promise]? = some ⟨none, observers, .plain⟩ := by
  obtain ⟨o, observers, h⟩ := s.plain _ (s.issued e he)
  unfold Loop.outcome? at ho
  rw [h] at ho
  cases ho
  exact ⟨observers, h⟩

/-! ### What keeps it -/

theorem outcome?_spares (s : Sound owner r l handles) (f : Spares owner handles l l') {h : Issued}
    (hh : h ∈ handles) : l'.outcome? h.2 = l.outcome? h.2 := by
  obtain ⟨o, observers, hp⟩ := s.plain h hh
  obtain ⟨observers', hp', _⟩ := f.promise h hh _ hp
  unfold Loop.outcome?
  rw [hp, hp']
  rfl

theorem spares (s : Sound owner r l handles) (f : Spares owner handles l l') :
    Sound owner r l' handles where
  room := s.room
  distinct := s.distinct
  issued := s.issued
  apart := s.apart
  plain h hh := by
    obtain ⟨o, observers, hp⟩ := s.plain h hh
    obtain ⟨observers', hp', _⟩ := f.promise h hh _ hp
    exact ⟨o, observers', hp'⟩
  registered h hh ho := s.registered h hh (by rwa [← s.outcome?_spares f hh])
  watched e he ho := by
    have hi := s.issued e he
    rw [s.outcome?_spares f hi] at ho
    obtain ⟨observers, hp⟩ := s.open_promise he ho
    obtain ⟨observers', hp', hn⟩ := f.promise _ hi _ hp
    have hw := s.watched e he ho
    unfold Loop.observers at hw ⊢
    rw [hp] at hw
    rw [hp']
    exact hn hw
  noticed e he o ho := by
    rw [s.outcome?_spares f (s.issued e he)] at ho
    obtain ⟨hc, hr⟩ := s.noticed e he o ho
    exact ⟨hc, f.ready _ hr⟩

theorem remembering (s : Sound owner r l handles) (id : RequestId) :
    Sound owner (r.remembering id) l handles :=
  ⟨s.room, s.distinct, s.issued, s.apart, s.plain, s.registered, s.watched, s.noticed⟩

theorem stopped (s : Sound owner r l handles) (e : Pending CancelHook) :
    Sound owner r (stopped e l) handles :=
  s.spares ⟨by simp, fun h _ x hx => ⟨x.observers, by simpa using hx, id⟩, fun _ => mem_ready_stopped e⟩

theorem mem_erase {e : Pending CancelHook} {id : RequestId} :
    e ∈ (r.erase id).pending ↔ e ∈ r.pending ∧ e.id ≠ id := by
  simp [erase]

/-- An entry whose promise is settled may be erased. -/
theorem erase (s : Sound owner r l handles) {e : Pending CancelHook} (he : e ∈ r.pending)
    (ho : l.isSettled e.promise = true) : Sound owner (r.erase e.id) l handles where
  room := s.room
  distinct := by
    rw [ids_erase]
    exact s.distinct.filter _
  issued d hd := s.issued d (mem_erase.1 hd).1
  apart := s.apart
  plain := s.plain
  registered h hh hn := by
    obtain ⟨d, hd, hid, hp⟩ := s.registered h hh hn
    refine ⟨d, mem_erase.2 ⟨hd, fun heq => ?_⟩, hid, hp⟩
    cases s.eq_of_id hd he heq
    rw [Loop.isSettled_iff, hp, hn] at ho
    obtain ⟨o, ho⟩ := ho
    cases ho
  watched d hd := s.watched d (mem_erase.1 hd).1
  noticed d hd := s.noticed d (mem_erase.1 hd).1

/-- An entry whose promise is open may be erased when the promise is settled. -/
theorem settle (s : Sound owner r l handles) {e : Pending CancelHook} (he : e ∈ r.pending)
    (ho : l.outcome? e.promise = none) (o : Outcome) :
    Sound owner (r.erase e.id) (l.settle e.promise o) handles := by
  obtain ⟨observers, hp⟩ := s.open_promise he ho
  have other : ∀ d ∈ (r.erase e.id).pending, d ∈ r.pending ∧ d.promise ≠ e.promise := fun d hd =>
    ⟨(mem_erase.1 hd).1, fun h => (mem_erase.1 hd).2 (congrArg _ (s.eq_of_entry_promise (mem_erase.1 hd).1 he h))⟩
  have keep : ∀ {q}, q ≠ e.promise → (l.settle e.promise o).outcome? q = l.outcome? q := fun h =>
    Loop.outcome?_congr (Loop.getElem?_settle_of_ne h o)
  refine ⟨s.room, ?_, fun d hd => s.issued d (other d hd).1, s.apart, ?_, ?_, ?_, ?_⟩
  · rw [ids_erase]
    exact s.distinct.filter _
  · intro h hh
    by_cases heq : h.2 = e.promise
    · exact ⟨some o, [], by rw [heq]; exact Loop.getElem?_settle_self hp o⟩
    · rw [Loop.getElem?_settle_of_ne heq]
      exact s.plain h hh
  · intro h hh hn
    by_cases heq : h.2 = e.promise
    · rw [heq, Loop.outcome?, Loop.getElem?_settle_self hp o] at hn
      cases hn
    · rw [keep heq] at hn
      obtain ⟨d, hd, hid, hdp⟩ := s.registered h hh hn
      refine ⟨d, mem_erase.2 ⟨hd, fun h' => heq ?_⟩, hid, hdp⟩
      rw [← hdp, s.eq_of_id hd he h']
  · intro d hd hn
    obtain ⟨hd, hne⟩ := other d hd
    rw [keep hne] at hn
    unfold Loop.observers
    rw [Loop.getElem?_settle_of_ne hne]
    exact s.watched d hd hn
  · intro d hd o' hs
    obtain ⟨hd, hne⟩ := other d hd
    rw [keep hne] at hs
    obtain ⟨hc, hr⟩ := s.noticed d hd o' hs
    exact ⟨hc, Loop.mem_ready_settle hr⟩

/-- The promise of a handle may be cancelled behind the registry's back. -/
theorem cancel (s : Sound owner r l handles) {h : Issued} (hh : h ∈ handles) :
    Sound owner r (l.cancel h.2).2 handles := by
  obtain ⟨o, observers, hp⟩ := s.plain h hh
  cases o with
  | some o =>
    rw [Loop.cancel_of_settled (by simp [Loop.isSettled, Loop.outcome?, hp])]
    exact s
  | none =>
    rw [Loop.cancel_of_plain hp]
    have keep : ∀ {q}, q ≠ h.2 → (l.settle h.2 (.error .cancelled)).outcome? q = l.outcome? q := fun hq =>
      Loop.outcome?_congr (Loop.getElem?_settle_of_ne hq _)
    refine ⟨s.room, s.distinct, s.issued, s.apart, ?_, ?_, ?_, ?_⟩
    · intro g hg
      by_cases heq : g.2 = h.2
      · exact ⟨_, [], by rw [heq]; exact Loop.getElem?_settle_self hp _⟩
      · rw [Loop.getElem?_settle_of_ne heq]
        exact s.plain g hg
    · intro g hg hn
      by_cases heq : g.2 = h.2
      · rw [heq, Loop.outcome?, Loop.getElem?_settle_self hp] at hn
        cases hn
      · rw [keep heq] at hn
        exact s.registered g hg hn
    · intro e he hn
      by_cases heq : e.promise = h.2
      · rw [heq, Loop.outcome?, Loop.getElem?_settle_self hp] at hn
        cases hn
      · rw [keep heq] at hn
        unfold Loop.observers
        rw [Loop.getElem?_settle_of_ne heq]
        exact s.watched e he hn
    · intro e he o' hs
      by_cases heq : e.promise = h.2
      · rw [heq, Loop.outcome?, Loop.getElem?_settle_self hp] at hs
        cases hs
        -- The notice waited with the promise, and settling it makes the notice ready.
        have hw := s.watched e he (by rw [heq, Loop.outcome?, hp]; rfl)
        rw [Loop.observers, heq, hp] at hw
        refine ⟨rfl, ?_⟩
        rw [Loop.ready_settle_of_open hp]
        exact List.mem_append_right _ (List.mem_map.2 ⟨_, by rw [heq]; exact hw, rfl⟩)
      · rw [keep heq] at hs
        obtain ⟨hc, hr⟩ := s.noticed e he o' hs
        exact ⟨hc, Loop.mem_ready_settle hr⟩

/-- A notice may be taken from what is ready, unless an entry needs it. -/
theorem take (s : Sound owner r l handles) {h : Issued} {timer : Option TimerId}
    {before after : List (Option TimerId × Job Event)} (hr : l.ready = before ++ (timer, notice owner h) :: after)
    (hn : ∀ e ∈ r.pending, (e.id, e.promise) = h → l.outcome? e.promise = none) :
    Sound owner r { l with ready := before ++ after } handles where
  room := s.room
  distinct := s.distinct
  issued := s.issued
  apart := s.apart
  plain := s.plain
  registered := s.registered
  watched := s.watched
  noticed e he o ho := by
    obtain ⟨hc, hm⟩ := s.noticed e he o ho
    refine ⟨hc, ?_⟩
    rw [hr, List.mem_append, List.mem_cons] at hm
    rcases hm with hm | hm | hm
    · exact List.mem_append_left _ hm
    · cases (hn e he (notice_inj (Prod.mk.inj hm).2)).symm.trans ho
    · exact List.mem_append_right _ hm

theorem lt_size (s : Sound owner r l handles) {h : Issued} (hh : h ∈ handles) : h.2 < l.promises.size := by
  obtain ⟨o, observers, hx⟩ := s.plain h hh
  exact (Array.getElem?_eq_some_iff.1 hx).1

/-- A promise may be issued that the registry then does not use. -/
theorem issue_unused (s : Sound owner r l handles) (id : RequestId) : Sound owner r (issue owner id l) handles :=
  s.spares ⟨by simp [issue, Loop.promises_newPromise], fun h hh x hx => ⟨x.observers, by
    rw [getElem?_issue_of_lt owner id (s.lt_size hh), hx], fun hn => hn⟩, fun _ hr => by rwa [ready_issue]⟩

theorem callLater (s : Sound owner r l handles) (seconds : Float) (job : Job Event) :
    Sound owner r (l.callLater seconds job).2 handles :=
  s.spares ⟨Nat.le_refl _, fun _ _ x hx => ⟨x.observers, hx, fun hn => hn⟩, fun _ hr => hr⟩

/-- A new handle may be registered under a fresh id. -/
theorem register (s : Sound owner r l handles) {e : Pending CancelHook} (hid : r.contains e.id = false)
    (hp : e.promise = l.promises.size) :
    Sound owner { r with pending := r.pending ++ [e] } (issue owner e.id l)
      (handles ++ [(e.id, l.promises.size)]) := by
  have hnew := getElem?_issue_self owner e.id l
  have keep : ∀ {q}, q < l.promises.size → (issue owner e.id l).promises[q]? = l.promises[q]? :=
    getElem?_issue_of_lt owner e.id
  have old : ∀ d ∈ r.pending, d.promise < l.promises.size := fun d hd => s.lt_size (s.issued d hd)
  refine ⟨s.room, ?_, ?_, ?_, ?_, ?_, ?_, ?_⟩
  · have hne : ∀ d ∈ r.pending, d.id ≠ e.id := by
      intro d hd h
      rw [contains_eq_true.2 ⟨d, hd, h⟩] at hid
      cases hid
    have := s.distinct
    unfold ids at this ⊢
    rw [List.map_append, List.nodup_append]
    refine ⟨this, by simp, ?_⟩
    simpa using fun d hd => hne d hd
  · intro d hd
    rcases List.mem_append.1 hd with hd | hd
    · exact List.mem_append_left _ (s.issued d hd)
    · rw [List.mem_singleton] at hd
      rw [hd, hp]
      exact List.mem_append_right _ (List.mem_singleton.2 rfl)
  · rw [List.map_append, List.nodup_append]
    refine ⟨s.apart, by simp, ?_⟩
    simpa using fun p id h => Nat.ne_of_lt (s.lt_size (h := (id, p)) h)
  · intro h hh
    rcases List.mem_append.1 hh with hh | hh
    · rw [keep (s.lt_size hh)]
      exact s.plain h hh
    · rw [List.mem_singleton] at hh
      rw [hh]
      exact ⟨_, _, hnew⟩
  · intro h hh hn
    rcases List.mem_append.1 hh with hh | hh
    · rw [Loop.outcome?_congr (keep (s.lt_size hh))] at hn
      obtain ⟨d, hd, h1, h2⟩ := s.registered h hh hn
      exact ⟨d, List.mem_append_left _ hd, h1, h2⟩
    · rw [List.mem_singleton] at hh
      rw [hh]
      exact ⟨e, List.mem_append_right _ (List.mem_singleton.2 rfl), rfl, hp⟩
  · intro d hd hn
    rcases List.mem_append.1 hd with hd | hd
    · rw [Loop.outcome?_congr (keep (old d hd))] at hn
      unfold Loop.observers
      rw [keep (old d hd)]
      exact s.watched d hd hn
    · rw [List.mem_singleton] at hd
      rw [hd, hp, Loop.observers, hnew]
      exact List.mem_singleton.2 rfl
  · intro d hd o ho
    rcases List.mem_append.1 hd with hd | hd
    · rw [Loop.outcome?_congr (keep (old d hd))] at ho
      rw [ready_issue]
      exact s.noticed d hd o ho
    · rw [List.mem_singleton] at hd
      rw [hd, hp, Loop.outcome?, hnew] at ho
      cases ho

end Sound

/-! ## What the operations settle -/

/-- A promise is settled, and no other. -/
def SettlesOnly (p : PromiseId) (o : Outcome) (l l' : Loop Activity Event) : Prop :=
  l.outcome? p = none ∧ l'.outcome? p = some o ∧ ∀ q, q ≠ p → l'.outcome? q = l.outcome? q

/-- No promise is settled. -/
def SettlesNone (l l' : Loop Activity Event) : Prop :=
  ∀ q, l'.outcome? q = l.outcome? q

/-- Settled promises keep their outcomes. -/
def Keeps (l l' : Loop Activity Event) : Prop :=
  ∀ q o, l.outcome? q = some o → l'.outcome? q = some o

theorem SettlesNone.keeps {l l' : Loop Activity Event} (h : SettlesNone l l') : Keeps l l' :=
  fun q _ ho => (h q).trans ho

theorem SettlesOnly.keeps {l l' : Loop Activity Event} {p : PromiseId} {o : Outcome}
    (h : SettlesOnly p o l l') : Keeps l l' := by
  intro q o' ho
  rw [h.2.2 q (fun e => by rw [e, h.1] at ho; cases ho), ho]

theorem Keeps.trans {l l' l'' : Loop Activity Event} (h : Keeps l l') (h' : Keeps l' l'') : Keeps l l'' :=
  fun q o ho => h' q o (h q o ho)

theorem settlesNone_stopped (p : Pending CancelHook) (l : Loop Activity Event) : SettlesNone l (stopped p l) :=
  outcome?_stopped p l

namespace Sound

variable {owner : Owner} {r : Registry CancelHook} {l l' : Loop Activity Event} {handles : List Issued}

theorem settlesOnly (s : Sound owner r l handles) {e : Pending CancelHook} (he : e ∈ r.pending)
    (ho : l.outcome? e.promise = none) (o : Outcome) :
    SettlesOnly e.promise o l ((Registry.stopped e l).settle e.promise o) := by
  obtain ⟨observers, hp⟩ := s.open_promise he ho
  have hp' : (Registry.stopped e l).promises[e.promise]? = some ⟨none, observers, .plain⟩ := by
    rw [promises_stopped, hp]
  refine ⟨ho, ?_, fun q hq => ?_⟩
  · rw [Loop.outcome?, Loop.getElem?_settle_self hp' o]
    rfl
  · rw [Loop.outcome?_congr (Loop.getElem?_settle_of_ne hq o), outcome?_stopped]

/-- Nothing is open under an id without an open entry. -/
theorem none_open (s : Sound owner r l handles) {id : RequestId}
    (h : ∀ e, r.find? id = some e → l.isSettled e.promise = true) {g : Issued} (hg : g ∈ handles)
    (hid : g.1 = id) : l.isSettled g.2 = true := by
  cases ho : l.isSettled g.2 with
  | true => rfl
  | false =>
    obtain ⟨e, he, h1, h2⟩ := s.registered g hg (Loop.isSettled_eq_false.1 ho)
    have := h e (by rw [← hid, ← h1]; exact find?_of_mem s.distinct he)
    rw [h2, ho] at this
    cases this

/-- What settling an id does: it settles the promise registered under the id and says so, or it
settles nothing, and nothing is open under the id. -/
theorem exec_settle (s : Sound owner r l handles) (id : RequestId) (o : Outcome) :
    ∃ b r' l', exec (Registry.settle id o) (r, l) = (.ok b, r', l') ∧ Sound owner r' l' handles ∧
      ((∃ e, r.find? id = some e ∧ b = .settled ∧ SettlesOnly e.promise o l l') ∨
        (b ≠ .settled ∧ SettlesNone l l' ∧ ∀ h ∈ handles, h.1 = id → l.isSettled h.2 = true)) := by
  rcases Registry.exec_settle s.room l id o with ⟨e, he, ho, hx⟩ | ⟨e, he, ho, hx⟩ | ⟨he, hx⟩
  · obtain ⟨hm, rfl⟩ := mem_of_find? he
    exact ⟨_, _, _, hx, (s.stopped e).settle hm (by rw [outcome?_stopped, ho]) o,
      .inl ⟨e, he, rfl, s.settlesOnly hm ho o⟩⟩
  · obtain ⟨hm, rfl⟩ := mem_of_find? he
    refine ⟨_, _, _, hx, ((s.stopped e).erase hm (by rw [isSettled_stopped, ho])).remembering e.id,
      .inr ⟨nofun, settlesNone_stopped e l, fun h => s.none_open fun d hd => ?_⟩⟩
    cases he.symm.trans hd
    exact ho
  · refine ⟨_, _, _, hx, s, .inr ⟨?_, fun _ => rfl, fun h => s.none_open fun d hd => ?_⟩⟩
    · split <;> exact nofun
    · cases he.symm.trans hd

/-- What cancelling an id does, in the same two cases. -/
theorem exec_cancel (s : Sound owner r l handles) (id : RequestId) :
    ∃ p r' l', exec (Registry.cancel id) (r, l) = (.ok p, r', l') ∧ Sound owner r' l' handles ∧
      ((∃ e, r.find? id = some e ∧ p = some e ∧ SettlesOnly e.promise (.error .cancelled) l l') ∨
        (p = none ∧ SettlesNone l l' ∧ ∀ h ∈ handles, h.1 = id → l.isSettled h.2 = true)) := by
  rcases Registry.exec_cancel s.room l id with ⟨e, he, ho, hx⟩ | ⟨e, he, ho, hx⟩ | ⟨he, hx⟩
  · obtain ⟨hm, rfl⟩ := mem_of_find? he
    obtain ⟨observers, hp⟩ := (s.stopped e).open_promise hm (by rw [outcome?_stopped, ho])
    rw [Loop.cancel_of_plain hp] at hx
    exact ⟨_, _, _, hx, ((s.stopped e).settle hm (by rw [outcome?_stopped, ho]) _).remembering e.id,
      .inl ⟨e, he, rfl, s.settlesOnly hm ho _⟩⟩
  · obtain ⟨hm, rfl⟩ := mem_of_find? he
    refine ⟨_, _, _, hx, ((s.stopped e).erase hm (by rw [isSettled_stopped, ho])).remembering e.id,
      .inr ⟨rfl, settlesNone_stopped e l, fun h => s.none_open fun d hd => ?_⟩⟩
    cases he.symm.trans hd
    exact ho
  · refine ⟨_, _, _, hx, s, .inr ⟨rfl, fun _ => rfl, fun h => s.none_open fun d hd => ?_⟩⟩
    cases he.symm.trans hd

/-- When the time of a request is up, its promise is settled unless it is already. -/
theorem exec_expire (s : Sound owner r l handles) (id : RequestId) (timeout : Number) :
    ∃ b r' l', exec (Registry.expire id timeout) (r, l) = (.ok b, r', l') ∧ Sound owner r' l' handles ∧
      Keeps l l' := by
  rcases Registry.exec_expire s.room l id timeout with ⟨e, he, ho, hx⟩ | ⟨e, he, ho, hx⟩ | ⟨he, hx⟩
  · obtain ⟨hm, rfl⟩ := mem_of_find? he
    exact ⟨_, _, _, hx, ((s.stopped e).settle hm (by rw [outcome?_stopped, ho]) _).remembering e.id,
      (s.settlesOnly hm ho _).keeps⟩
  · obtain ⟨hm, rfl⟩ := mem_of_find? he
    exact ⟨_, _, _, hx, (((s.stopped e).erase hm (by rw [isSettled_stopped, ho])).remembering e.id).remembering e.id,
      (settlesNone_stopped e l).keeps⟩
  · exact ⟨_, _, _, hx, s, fun _ _ ho => ho⟩

/-- The notice of a settled promise: it is taken, and an entry that needed it is forgotten. -/
theorem exec_hear (s : Sound owner r l handles) {h : Issued} {timer : Option TimerId}
    {before after : List (Option TimerId × Job Event)} (hr : l.ready = before ++ (timer, notice owner h) :: after) :
    ∃ p r' l', exec (forgetCancelled h.1 h.2) (r, { l with ready := before ++ after }) = (.ok p, r', l') ∧
      Sound owner r' l' handles ∧ SettlesNone l l' := by
  rcases exec_forgetCancelled s.room { l with ready := before ++ after } h.1 h.2 with ⟨e, he, hp, ho, hx⟩ | ⟨hne, hx⟩
  · obtain ⟨hm, hid⟩ := mem_of_find? he
    have hs : l.isSettled e.promise = true := Loop.isSettled_iff.2 ⟨_, by rw [hp]; exact ho⟩
    have := (s.erase hm hs).take hr fun d hd heq =>
      absurd (congrArg Prod.fst heq) (fun h' => (mem_erase.1 hd).2 (h'.trans hid.symm))
    rw [hid] at this
    exact ⟨_, _, _, hx, (this.stopped e).remembering h.1, fun q => outcome?_stopped e _ q⟩
  · refine ⟨_, _, _, hx, s.take hr fun e he heq => ?_, fun _ => rfl⟩
    cases ho : l.outcome? e.promise with
    | none => rfl
    | some o =>
      cases heq
      obtain ⟨rfl, _⟩ := s.noticed e he o ho
      exact absurd ho (hne e (find?_of_mem s.distinct he) rfl)

end Sound

/-! ### Rejecting everything -/

/-- The open handles. -/
def openHandles (l : Loop Activity Event) (handles : List Issued) : List Issued :=
  handles.filter fun h => !l.isSettled h.2

theorem length_openHandles {l l' : Loop Activity Event} {handles : List Issued} {h : Issued} {o : Outcome}
    (apart : (handles.map (·.2)).Nodup) (hh : h ∈ handles) (hs : SettlesOnly h.2 o l l') :
    (openHandles l handles).length = (openHandles l' handles).length + 1 := by
  obtain ⟨before, after, rfl⟩ := List.append_of_mem hh
  rw [List.map_append, List.map_cons, List.nodup_append, List.nodup_cons] at apart
  have same : ∀ gs : List Issued, (∀ g ∈ gs, g.2 ≠ h.2) → openHandles l' gs = openHandles l gs := by
    intro gs hg
    refine List.filter_congr fun g hm => ?_
    unfold Loop.isSettled
    rw [hs.2.2 g.2 (hg g hm)]
  have hb := same before fun g hg => apart.2.2 g.2 (List.mem_map_of_mem hg) h.2 List.mem_cons_self
  have ha := same after fun g hg e => apart.2.1.1 (e ▸ List.mem_map_of_mem hg)
  have ho : l.isSettled h.2 = false := Loop.isSettled_eq_false.2 hs.1
  have hs' : l'.isSettled h.2 = true := Loop.isSettled_iff.2 ⟨o, hs.2.1⟩
  unfold openHandles at hb ha ⊢
  simp only [List.filter_append, List.filter_cons, ho, hs', hb, ha, List.length_append, Bool.not_true,
    Bool.not_false, Bool.false_eq_true, ite_true, ite_false, List.length_cons]
  omega

namespace Sound

variable {owner : Owner} {r : Registry CancelHook} {l : Loop Activity Event} {handles : List Issued}

theorem openHandles_eq_nil (s : Sound owner r l handles) (h : r.pending = []) : openHandles l handles = [] := by
  refine List.filter_eq_nil_iff.2 fun g hg => ?_
  have empty : ∀ e, r.find? g.1 = some e → l.isSettled e.promise = true := fun e he => by
    have := (mem_of_find? he).1
    rw [h] at this
    cases this
  rw [s.none_open empty hg rfl]
  exact Bool.false_ne_true

/-- One entry after the other is taken from the list, and its promise is settled if it is open. -/
theorem foldl_rejected (reason : Fault) {es : List (Pending CancelHook)}
    (s : Sound owner { r with pending := es } l handles) :
    rejections reason l es = (openHandles l handles).length ∧
      Sound owner { r with pending := [] } (es.foldl (rejected reason) l) handles ∧
      Keeps l (es.foldl (rejected reason) l) := by
  induction es generalizing l with
  | nil => exact ⟨by rw [s.openHandles_eq_nil rfl]; rfl, s, fun _ _ ho => ho⟩
  | cons e es ih =>
    have he : e ∈ e :: es := List.mem_cons_self
    have rest : ({ r with pending := e :: es } : Registry CancelHook).erase e.id = { r with pending := es } := by
      unfold Registry.erase
      rw [filter_ne_head s.distinct]
    rw [rejections, List.foldl_cons]
    cases ho : l.isSettled e.promise with
    | true =>
      have first : rejected reason l e = Registry.stopped e l := if_pos ho
      have s' := (s.stopped e).erase he (by rw [isSettled_stopped, ho])
      rw [rest] at s'
      have same : openHandles (Registry.stopped e l) handles = openHandles l handles :=
        List.filter_congr fun g _ => by rw [isSettled_stopped]
      obtain ⟨count, hs, hk⟩ := ih s'
      rw [first, count, same]
      exact ⟨Nat.zero_add _, hs, (settlesNone_stopped e l).keeps.trans hk⟩
    | false =>
      have first : rejected reason l e = (Registry.stopped e l).settle e.promise (.error reason) :=
        if_neg (by simp [ho])
      have ho := Loop.isSettled_eq_false.1 ho
      have s' := (s.stopped e).settle he (by rw [outcome?_stopped, ho]) (.error reason)
      rw [rest] at s'
      have only := s.settlesOnly he ho (.error reason)
      obtain ⟨count, hs, hk⟩ := ih s'
      rw [first, count, length_openHandles s.apart (s.issued e he) only]
      exact ⟨Nat.add_comm 1 _, hs, only.keeps.trans hk⟩

/-- Rejecting everything settles the open handles, and counts them. -/
theorem exec_rejectAll (s : Sound owner r l handles) (reason : Fault) :
    ∃ l', exec (Registry.rejectAll reason) (r, l) =
      (.ok (openHandles l handles).length, { r with pending := [] }, l') ∧
      Sound owner { r with pending := [] } l' handles ∧ Keeps l l' := by
  obtain ⟨count, h⟩ := foldl_rejected (r := r) reason s
  exact ⟨_, by rw [exec_rejectAll_fold, count], h⟩

/-- What registering under a fresh id does: it issues a handle, or refuses the timeout. -/
theorem exec_register (s : Sound owner r l handles) {id : RequestId} (h : r.contains id = false)
    (method : String) (timeout : Option Number) (hook : Option CancelHook) :
    ∃ a r' l', exec (Registry.register (Client.registryEvents owner) id method timeout hook) (r, l) = (a, r', l') ∧
      Keeps l l' ∧
      ((∃ n f, timeout = some n ∧ n.widen = .error f ∧ a = .error (.range f) ∧ Sound owner r' l' handles) ∨
        ((∀ n f, timeout = some n → n.widen ≠ .error f) ∧
          ∃ p, a = .ok p ∧ Sound owner r' l' (handles ++ [(id, p)]))) := by
  have keeps : Keeps l (issue owner id l) := fun q o ho => by
    rw [Loop.outcome?_congr (getElem?_issue_of_lt owner id (Loop.lt_size_of_outcome? ho)), ho]
  rcases Registry.exec_register (Client.registryEvents owner) h l method timeout hook with
    ⟨n, f, hn, hf, hx⟩ | ⟨hn, timer, l', hl, hx⟩
  · exact ⟨_, _, _, hx, keeps, .inl ⟨n, f, hn, hf, rfl, s.issue_unused id⟩⟩
  · have s' := s.register (e := ⟨id, method, l.promises.size, timer, hook⟩) h rfl
    rcases hl with rfl | ⟨seconds, n, rfl⟩
    · exact ⟨_, _, _, hx, keeps, .inr ⟨hn, _, rfl, s'⟩⟩
    · exact ⟨_, _, _, hx, keeps, .inr ⟨hn, _, rfl, s'.callLater seconds _⟩⟩

end Sound

end LspClient.Registry
