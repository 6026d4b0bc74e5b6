/-
What becomes of the records that a poster is given. They wait in its buffer in the order in which they came. A batch
is all that waits there at some time; from then on an activity has the batch in hand until it posts it.
-/
import LspClient.Proofs.Client.Changes
import LspClient.Proofs.Client.Moments
import LspClient.Proofs.Loop.Activities

namespace LspClient

open Client
open Telemetry (Record Poster Backend)

/-! ## Definitions -/

namespace Telemetry

/-- A batch as it is posted. -/
def bodyOf (batch : List Record) : Value :=
  .list (batch.map posted)

/-- A record with a JSON text, and without numbers that are infinite or undefined. -/
def Record.IsPostable (r : Record) : Prop :=
  Json.fault? false (posted r) = none ∧ isFinite (posted r) = true

/-- What a poster has done for a while: the records that came in, the batches that were made of them, and those that
were posted. -/
structure Ledger where
  given : List Record := []
  batches : List (List Record) := []
  posts : List (List Record) := []

/-- An enabled sink with a poster at a place, and nowhere else. -/
structure Sink.HasPoster (s : Sink) (i : Nat) (p : Poster) : Prop where
  enabled : s.enabled = true
  poster : s.backends[i]? = some (.http p)
  only : ∀ j q, s.backends[j]? = some (.http q) → j = i

/-- One while after another. -/
def Ledger.andThen (e e' : Ledger) : Ledger :=
  ⟨e.given ++ e'.given, e.batches ++ e'.batches, e.posts ++ e'.posts⟩

end Telemetry

/-- The events of a client that does nothing but collect telemetry: a task ends, that of a user or one that posts. -/
def Telemetry.events : Loop.Notices Event where
  free _ := False
  hears _
    | .taskEnded .. | .postEnded .. => True
    | _ => False

open Telemetry (Ledger bodyOf events)

/-- The batch that an activity is about to post for the poster at a place. -/
def Activity.batch? (i : Nat) : Activity → Option (List Record)
  | .post j batch => if j = i then some batch else none
  | _ => none

/-- Whether an activity belongs to a poster, or to the closing of backends. -/
def Activity.collects : Activity → Bool
  | .post .. | .posted .. | .flush _ | .closeBackend _ | .closeSink _ | .closeSinkOne _ | .slept _ | .sleep _
  | .relay => true
  | _ => false

/-- What a collector is sent. -/
def Note.body? : Note → Option Value
  | .posted _ _ body => some body
  | _ => none

namespace Client

/-- All that the collector was sent. -/
def bodies (c : Client) : List Value :=
  c.notes.toList.filterMap Note.body?

/-- What a client does for its poster, and the tasks that it makes for that. -/
structure Books (i : Nat) (e : Ledger) (new : List Activity) (c c' : Client) : Prop where
  running : c'.running = c.running
  hasLoop : c'.hasLoop = c.hasLoop
  loop : c.loop.Grows events c.running new c'.loop
  poster : ∀ p, c.sink.HasPoster i p → ∃ p', c'.sink.HasPoster i p' ∧ p'.batchSize = p.batchSize ∧
    p.buffer ++ e.given = e.batches.flatten ++ p'.buffer
  seen : c'.bodies = c.bodies ++ e.posts.map bodyOf

/-- Nothing is done for the poster. -/
abbrev Quiet (i : Nat) (c c' : Client) : Prop :=
  c.Books i {} [] c'

end Client

/-- An operation that does nothing for the poster, at a client. -/
def KeepsBooksAt (E : Executor) (i : Nat) {α : Type} (op : ClientM α) (c : Client) : Prop :=
  c.loop.WF events c.running → c.Quiet i (does E op c).2

/-- An operation that does nothing for the poster. -/
structure KeepsBooks (E : Executor) (i : Nat) {α : Type} (op : ClientM α) : Prop where
  booksAt : ∀ c, KeepsBooksAt E i op c

variable {E : Executor} {α β : Type} {i : Nat} {e e' : Ledger} {new new' : List Activity}
  {c c' c'' : Client} {p : Poster} {r : Record}

namespace Telemetry.Sink

variable {s : Sink} {q : Poster}

theorem HasPoster.unique (h : s.HasPoster i p) (h' : s.HasPoster i q) : q = p := by
  have same := h.poster.symm.trans h'.poster
  cases same
  rfl

/-- Another state of the poster. -/
theorem HasPoster.set (h : s.HasPoster i p) (q : Poster) : (s.setBackend i (.http q)).HasPoster i q := by
  refine ⟨h.enabled, ?_, fun j q' hj => ?_⟩
  · exact List.getElem?_set_self (List.getElem?_eq_some_iff.1 h.poster).1
  · by_cases same : i = j
    · exact same.symm
    · exact h.only j q' ((List.getElem?_set_ne same).symm.trans hj)

/-- Another state of another backend. -/
theorem HasPoster.setOther {j : Nat} {b b' : Backend} (h : s.HasPoster i p) (was : s.backends[j]? = some b)
    (other : ∀ q, b ≠ .http q) (still : ∀ q, b' ≠ .http q) : (s.setBackend j b').HasPoster i p := by
  have ne : j ≠ i := by
    rintro rfl
    exact other p (Option.some.inj (was.symm.trans h.poster))
  refine ⟨h.enabled, (List.getElem?_set_ne ne).trans h.poster, fun k q hk => ?_⟩
  by_cases same : j = k
  · subst same
    have replaced : (s.backends.set j b')[j]? = some b' := List.getElem?_set_self (List.getElem?_eq_some_iff.1 was).1
    exact absurd (Option.some.inj (replaced.symm.trans hk)) (still q)
  · exact h.only k q ((List.getElem?_set_ne same).symm.trans hk)

end Telemetry.Sink

/-! ## Putting operations together -/

namespace Client

theorem Books.trans (h : c.Books i e new c') (h' : c'.Books i e' new' c'') :
    c.Books i (e.andThen e') (new ++ new') c'' where
  running := h'.running.trans h.running
  hasLoop := h'.hasLoop.trans h.hasLoop
  loop := h.loop.trans (h.running ▸ h'.loop)
  poster p hp := by
    obtain ⟨p', hp', size, came⟩ := h.poster p hp
    obtain ⟨p'', hp'', size', came'⟩ := h'.poster p' hp'
    refine ⟨p'', hp'', size'.trans size, ?_⟩
    show p.buffer ++ (e.given ++ e'.given) = (e.batches ++ e'.batches).flatten ++ p''.buffer
    rw [← List.append_assoc, came, List.append_assoc, came', List.flatten_append, List.append_assoc]
  seen := by
    show _ = _ ++ (e.posts ++ e'.posts).map bodyOf
    rw [h'.seen, h.seen, List.map_append, List.append_assoc]

theorem Quiet.refl (w : c.loop.WF events c.running) : c.Quiet i c :=
  ⟨rfl, rfl, .refl w, fun p hp => ⟨p, hp, rfl, List.append_nil _⟩, (List.append_nil _).symm⟩

theorem Quiet.trans (h : c.Quiet i c') (h' : c'.Quiet i c'') : c.Quiet i c'' :=
  Books.trans h h'

theorem Books.wf (h : c.Books i e new c') : c'.loop.WF events c'.running := by
  rw [h.running]
  exact h.loop.wf

/-- Nothing that concerns the poster is changed. -/
theorem quiet_of_eq (loop : c.loop.Grows events c.running [] c'.loop) (running : c'.running = c.running)
    (hasLoop : c'.hasLoop = c.hasLoop) (sink : c'.sink = c.sink) (notes : c'.bodies = c.bodies) : c.Quiet i c' := by
  refine ⟨running, hasLoop, loop, fun p hp => ⟨p, ?_, rfl, List.append_nil _⟩, ?_⟩
  · rw [sink]
    exact hp
  · rw [notes]
    exact (List.append_nil _).symm

end Client

theorem keepsBooksAt_pure (a : α) (c : Client) : KeepsBooksAt E i (pure a) c :=
  Quiet.refl

theorem KeepsBooksAt.bind {x : ClientM α} {f : α → ClientM β} (h : KeepsBooksAt E i x c)
    (hf : ∀ a c', does E x c = (.ok a, c') → KeepsBooksAt E i (f a) c') : KeepsBooksAt E i (x >>= f) c := by
  intro w
  have first := h w
  rw [does_bind]
  rcases hx : does E x c with ⟨f | a, c'⟩
  · rw [hx] at first
    exact first
  · rw [hx] at first
    exact first.trans (hf a c' hx first.wf)

theorem KeepsBooks.bind {x : ClientM α} {f : α → ClientM β} (h : KeepsBooks E i x) (hf : ∀ a, KeepsBooks E i (f a)) :
    KeepsBooks E i (x >>= f) :=
  ⟨fun c => (h.booksAt c).bind fun a c' _ => (hf a).booksAt c'⟩

theorem keepsBooks_pure (a : α) : KeepsBooks E i (pure a) :=
  ⟨keepsBooksAt_pure a⟩

theorem keepsBooks_throw (f : Fault) : KeepsBooks E i (throw f : ClientM α) :=
  ⟨fun _ => Quiet.refl⟩

theorem keepsBooks_get : KeepsBooks E i get :=
  ⟨fun _ => Quiet.refl⟩

/-! ## Small operations -/

namespace Client

theorem bodies_push (c : Client) (n : Note) :
    ({ c with notes := c.notes.push n } : Client).bodies = c.bodies ++ n.body?.toList := by
  unfold bodies
  rw [Array.toList_push, List.filterMap_append]
  cases h : n.body? <;> simp [h]

theorem keepsBooks_note {n : Note} (h : n.body? = none) : KeepsBooks E i (note n) :=
  ⟨fun c w => quiet_of_eq (.refl w) rfl rfl rfl ((bodies_push c n).trans (by rw [h]; exact List.append_nil _))⟩

theorem keepsBooks_log (level : Log.Level) (source : Log.Source) (message : String) (fields : List (String × Value))
    (fault : Option Fault) : KeepsBooks E i (log level source message fields fault) :=
  keepsBooks_get.bind fun _ => keepsBooks_note rfl

theorem keepsBooks_withLoop {f : Loop Activity Event → α × Loop Activity Event}
    (h : ∀ {running} (l : Loop Activity Event), l.WF events running → l.Grows events running [] (f l).2) :
    KeepsBooks E i (withLoop f) :=
  ⟨fun c w => quiet_of_eq (h c.loop w) rfl rfl rfl rfl⟩

theorem keepsBooks_onLoop {f : Loop Activity Event → Loop Activity Event}
    (h : ∀ {running} (l : Loop Activity Event), l.WF events running → l.Grows events running [] (f l)) :
    KeepsBooks E i (onLoop f) :=
  ⟨fun c w => quiet_of_eq (h c.loop w) rfl rfl rfl rfl⟩

theorem keepsBooksAt_setBackend {j : Nat} {b b' : Backend} (was : c.sink.backends[j]? = some b)
    (other : ∀ q, b ≠ .http q) (still : ∀ q, b' ≠ .http q) : KeepsBooksAt E i (setBackend j b') c :=
  fun w => ⟨rfl, rfl, .refl w, fun p hp => ⟨p, hp.setOther was other still, rfl, List.append_nil _⟩,
    (List.append_nil _).symm⟩

theorem keepsBooks_valueOf (o : Outcome) : KeepsBooks E i (valueOf o) := by
  cases o with
  | ok v => exact keepsBooks_pure v
  | error f => exact keepsBooks_throw f

/-! ## The loop -/

theorem grows_notify {running : Option PromiseId} {l : Loop Activity Event} (w : l.WF events running) {q : PromiseId}
    {event : Event} (hears : events.hears q event) : l.Grows events running [] (l.observe q (.notify event)) :=
  Loop.grows_of_moves (Loop.moves_observe l q _) (w.observe hears fun _ h => absurd h Bool.false_ne_true)
    (Loop.spares_observe l q _)

theorem keepsBooks_seconds (n : Number) : KeepsBooks E i (seconds n) := by
  unfold seconds
  split
  · exact keepsBooks_pure _
  · exact keepsBooks_throw _

theorem keepsBooks_cancelTimer (timer : TimerId) : KeepsBooks E i (onLoop fun l => l.cancelTimer timer) :=
  keepsBooks_onLoop fun l w =>
    Loop.grows_of_moves (Loop.moves_of_promises rfl) (w.cancelTimer timer) (Loop.spares_cancelTimer l timer)

/-! ## The poster -/

/-- The poster takes records in, or makes batches of those that wait. -/
theorem books_set (h : c.sink.HasPoster i p) {q : Poster} (size : q.batchSize = p.batchSize)
    (came : p.buffer ++ e.given = e.batches.flatten ++ q.buffer) (none : e.posts = [])
    (loop : c.loop.Grows events c.running new c'.loop) (running : c'.running = c.running)
    (hasLoop : c'.hasLoop = c.hasLoop) (sink : c'.sink = c.sink.setBackend i (.http q)) (notes : c'.bodies = c.bodies) :
    c.Books i e new c' := by
  refine ⟨running, hasLoop, loop, fun p' hp' => ⟨q, ?_, ?_, ?_⟩, ?_⟩
  · rw [sink]
    exact h.set q
  · rw [h.unique hp']
    exact size
  · rw [h.unique hp']
    exact came
  · rw [notes, none]
    exact (List.append_nil _).symm

/-! ## Records -/

/-- A record has come in: it waits, or all that waits is a batch now, which a new task is about to post. Where tasks can
be made, less than a batch waits. -/
def Offered (i : Nat) (r : Record) (c c' : Client) : Prop :=
  ∃ batches p, c.Books i ⟨[r], batches, []⟩ (batches.map (.post i)) c' ∧ c'.sink.HasPoster i p ∧
    (c.hasLoop = true → ∀ n : Int, p.batchSize = .int n → 0 < n → (p.buffer.length : Int) < n)

theorem Quiet.offered (h : c.Quiet i c') (h' : c'.Offered i r c'') : c.Offered i r c'' := by
  obtain ⟨batches, p, books, hp, bound⟩ := h'
  exact ⟨batches, p, Books.trans h books, hp, fun there => bound (h.hasLoop.trans there)⟩

theorem Offered.quiet (h : c.Offered i r c') (h' : c'.Quiet i c'') : c.Offered i r c'' := by
  obtain ⟨batches, p, books, hp, bound⟩ := h
  obtain ⟨p', hp', size, same⟩ := h'.poster p hp
  have same : p.buffer = p'.buffer := by simpa using same
  refine ⟨batches, p', ?_, hp', ?_⟩
  · have both := Books.trans books h'
    simpa [Ledger.andThen] using both
  · rw [size, ← same]
    exact bound

theorem grows_post {running : Option PromiseId} {l : Loop Activity Event} (w : l.WF events running)
    (batch : List Record) {event : Event} (hears : events.hears l.promises.size event) :
    l.Grows events running [.post i batch] ((l.spawn (.post i batch)).2.observe l.promises.size (.notify event)) := by
  have made := Loop.grows_spawn w (.post i batch)
  exact made.trans (grows_notify made.wf hears)

/-- All that waits is a batch. -/
theorem books_schedulePost (hp : c.sink.HasPoster i p) (there : c.hasLoop = true) (w : c.loop.WF events c.running) :
    c.Books i ⟨[], [p.buffer], []⟩ [.post i p.buffer] (does E (schedulePost i p) c).2 ∧
      ∃ q, (does E (schedulePost i p) c).2.sink.HasPoster i q ∧ q.buffer = [] := by
  have same : (does E (schedulePost i p) c).2 = { c with
      loop := (c.loop.spawn (.post i p.buffer)).2.observe c.loop.promises.size
        (.notify (.postEnded i c.loop.promises.size))
      sink := c.sink.setBackend i (.http { p with buffer := [], posts := p.posts ++ [c.loop.promises.size] }) } := by
    unfold schedulePost
    rw [does_bind_of_ok (does_get c), if_pos there]
    rfl
  have hears : events.hears c.loop.promises.size (.postEnded i c.loop.promises.size) := trivial
  rw [same]
  have emptied : p.buffer ++ [] = [p.buffer].flatten ++ [] := by simp
  exact ⟨books_set (q := { p with buffer := [], posts := p.posts ++ [c.loop.promises.size] }) hp rfl emptied rfl
    (grows_post w p.buffer hears) rfl rfl rfl rfl, _, hp.set _, rfl⟩

/-- The poster is given a record. -/
theorem offered_emitTo (hp : c.sink.HasPoster i p) (r : Record) (w : c.loop.WF events c.running) :
    c.Offered i r (does E (emitTo i (.http p) r) c).2 := by
  let q : Poster := { p with buffer := p.buffer ++ [r] }
  let d : Client := { c with sink := c.sink.setBackend i (.http q) }
  have first : c.Books i ⟨[r], [], []⟩ [] d := books_set (q := q) hp rfl rfl rfl (.refl w) rfl rfl rfl rfl
  have hq : d.sink.HasPoster i q := hp.set q
  have same : does E (emitTo i (.http p) r) c =
      does E (if q.batchSize.le (.int q.buffer.length) then schedulePost i q else pure ()) d := rfl
  rw [same]
  split
  case isTrue full =>
    cases there : c.hasLoop with
    | true =>
      obtain ⟨books, q', hq', empty⟩ := books_schedulePost (E := E) hq there w
      refine ⟨[q.buffer], q', first.trans books, hq', fun _ n _ pos => ?_⟩
      rw [empty]
      exact pos
    | false =>
      have nothing : does E (schedulePost i q) d = (.ok (), d) := by
        unfold schedulePost
        rw [does_bind_of_ok (does_get d), show d.hasLoop = false from there]
        rfl
      rw [nothing]
      exact ⟨[], q, first, hq, fun there' => absurd (there.symm.trans there') Bool.false_ne_true⟩
  case isFalse few =>
    refine ⟨[], q, first, hq, fun _ n size _ => ?_⟩
    have less : (q.buffer.length : Int) ≤ n ∧ ¬ n = q.buffer.length := by
      rw [size] at few
      simpa [Number.le, Number.compare?, Int.compare_eq_lt, Int.compare_eq_eq, not_or] using few
    omega

/-- Other backends are given a record. -/
theorem keepsBooksAt_emitTo {j : Nat} {b : Backend} (was : c.sink.backends[j]? = some b) (other : ∀ q, b ≠ .http q)
    (r : Record) : KeepsBooksAt E i (emitTo j b r) c := by
  cases b with
  | memory limit records => exact keepsBooksAt_setBackend was other (by simp)
  | file path isOpen =>
    unfold emitTo
    dsimp only
    split
    · split
      · exact fun w => quiet_of_eq (.refl w) rfl rfl rfl rfl
      · exact (keepsBooks_throw _).booksAt c
    · exact (keepsBooks_pure _).booksAt c
  | http q => exact absurd rfl (other q)
  | broken => exact (keepsBooks_throw _).booksAt c
  | recorder => exact (keepsBooks_note rfl).booksAt c

/-- What is done for the backend at a place when a record is sent. -/
def offer (r : Record) (j : Nat) : ClientM (ForInStep PUnit) := do
  match (← get).sink.backends[j]? with
  | none => pure (.yield ⟨⟩)
  | some b =>
    match ← attempt (emitTo j b r) with
    | .ok () => pure (.yield ⟨⟩)
    | .error f =>
      log .warning .sink ("Telemetry backend " ++ b.kind ++ " failed for " ++ r.event) [] (some f)
      pure (.yield ⟨⟩)

/-- What goes wrong in a backend is no cancellation. -/
theorem isCancellation_emitTo {j : Nat} {b : Backend} {f : Fault} (h : does E (emitTo j b r) c = (.error f, c')) :
    f.isCancellation = false := by
  cases b with
  | memory limit records => cases h
  | file path isOpen =>
    unfold emitTo at h
    dsimp only at h
    split at h
    · split at h
      · cases h
      · next fault _ =>
        cases h
        cases fault <;> rfl
    · cases h
  | http q =>
    have fine : ∀ d, ∃ d', does E (schedulePost j { q with buffer := q.buffer ++ [r] }) d = (.ok (), d') := fun d => by
      unfold schedulePost
      rw [does_bind_of_ok (does_get d)]
      split
      · exact ⟨_, rfl⟩
      · exact ⟨_, rfl⟩
    have step : does E (emitTo j (.http q) r) c = does E
        (if q.batchSize.le (.int (q.buffer ++ [r]).length) then schedulePost j { q with buffer := q.buffer ++ [r] }
          else pure ())
        { c with sink := c.sink.setBackend j (.http { q with buffer := q.buffer ++ [r] }) } := rfl
    rw [step] at h
    split at h
    · obtain ⟨_, scheduled⟩ := fine { c with sink := c.sink.setBackend j (.http { q with buffer := q.buffer ++ [r] }) }
      rw [scheduled] at h
      cases h
    · cases h
  | broken =>
    cases h
    rfl
  | recorder => cases h

/-- Whatever goes wrong in a backend is logged. -/
theorem does_offer {j : Nat} {b : Backend} (was : c.sink.backends[j]? = some b) (h : (does E (emitTo j b r) c).2 = c')
    (w : c'.loop.WF events c'.running) (i : Nat) : ∃ d, does E (offer r j) c = (.ok (.yield ⟨⟩), d) ∧ c'.Quiet i d := by
  unfold offer
  rw [does_bind_of_ok (does_get c), was]
  rcases he : does E (emitTo j b r) c with ⟨f | u, d⟩
  · rw [he] at h
    subst h
    refine ⟨_, (does_bind_of_ok (does_attempt_of_error he (isCancellation_emitTo he)) _).trans rfl, ?_⟩
    exact (keepsBooks_log (E := E) .warning .sink _ [] (some f)).booksAt d w
  · rw [he] at h
    subst h
    exact ⟨d, does_bind_of_ok (does_attempt_of_ok he) _, .refl w⟩

/-- Another backend is given a record. -/
theorem quiet_offer {j : Nat} (hp : c.sink.HasPoster i p) (ne : j ≠ i) (r : Record) (w : c.loop.WF events c.running) :
    ∃ d, does E (offer r j) c = (.ok (.yield ⟨⟩), d) ∧ c.Quiet i d := by
  cases was : c.sink.backends[j]? with
  | none =>
    refine ⟨c, ?_, .refl w⟩
    unfold offer
    rw [does_bind_of_ok (does_get c), was]
    rfl
  | some b =>
    have other : ∀ q, b ≠ .http q := fun q e => ne (hp.only j q (was.trans (congrArg some e)))
    have quiet : c.Quiet i (does E (emitTo j b r) c).2 := keepsBooksAt_emitTo was other r w
    obtain ⟨d, hd, logged⟩ := does_offer was rfl quiet.wf i
    exact ⟨d, hd, quiet.trans logged⟩

/-- Other backends are given a record. -/
theorem quiet_offers {js : List Nat} (hp : c.sink.HasPoster i p) (others : i ∉ js) (r : Record)
    (w : c.loop.WF events c.running) : ∃ d, does E (forIn js PUnit.unit fun j _ => offer r j) c = (.ok ⟨⟩, d) ∧
    c.Quiet i d := by
  induction js generalizing c p with
  | nil => exact ⟨c, rfl, .refl w⟩
  | cons j js ih =>
    obtain ⟨d, hd, quiet⟩ := quiet_offer (E := E) hp (fun e => others (e ▸ List.mem_cons_self)) r w
    obtain ⟨p', hp', _⟩ := quiet.poster p hp
    obtain ⟨d', hd', rest⟩ := ih hp' (fun hi => others (List.mem_cons_of_mem j hi)) quiet.wf
    refine ⟨d', ?_, quiet.trans rest⟩
    rw [List.forIn_cons, does_bind_of_ok hd]
    exact hd'

/-- All backends are given a record, the poster once. -/
theorem offered_offers {js : List Nat} (hp : c.sink.HasPoster i p) (here : i ∈ js) (once : js.Nodup) (r : Record)
    (w : c.loop.WF events c.running) :
    ∃ d, does E (forIn js PUnit.unit fun j _ => offer r j) c = (.ok ⟨⟩, d) ∧ c.Offered i r d := by
  induction js generalizing c p with
  | nil => cases here
  | cons j js ih =>
    obtain ⟨alone, once⟩ := List.nodup_cons.1 once
    by_cases same : j = i
    · subst same
      have taken : c.Offered j r (does E (emitTo j (.http p) r) c).2 := offered_emitTo hp r w
      have taken' := taken
      obtain ⟨_, q, books, hq, _⟩ := taken'
      obtain ⟨d, hd, logged⟩ := does_offer hp.poster rfl books.wf j
      obtain ⟨q', hq', _⟩ := logged.poster q hq
      obtain ⟨d', hd', rest⟩ := quiet_offers (E := E) hq' alone r logged.wf
      refine ⟨d', ?_, (taken.quiet logged).quiet rest⟩
      rw [List.forIn_cons, does_bind_of_ok hd]
      exact hd'
    · obtain ⟨d, hd, quiet⟩ := quiet_offer (E := E) hp same r w
      obtain ⟨p', hp', _⟩ := quiet.poster p hp
      obtain ⟨d', hd', rest⟩ := ih hp' ((List.mem_cons.1 here).resolve_left (Ne.symm same)) once quiet.wf
      refine ⟨d', ?_, quiet.offered rest⟩
      rw [List.forIn_cons, does_bind_of_ok hd]
      exact hd'

/-- A record that is sent comes to the poster. -/
theorem offered_send (hp : c.sink.HasPoster i p) (r : Record) (w : c.loop.WF events c.running) :
    c.Offered i r (does E (send r) c).2 := by
  have here : i ∈ List.range c.sink.backends.length := List.mem_range.2 (List.getElem?_eq_some_iff.1 hp.poster).1
  obtain ⟨d, hd, offered⟩ := offered_offers (E := E) hp here List.nodup_range r w
  have all : does E (send r) c = (.ok ⟨⟩, d) := by
    unfold send
    rw [does_bind_of_ok (does_get c), if_pos hp.enabled, does_bind_of_ok (does_get c)]
    exact does_bind_of_ok hd _
  rw [all]
  exact offered

end Client

end LspClient
