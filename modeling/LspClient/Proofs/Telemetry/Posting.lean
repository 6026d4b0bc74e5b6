/-
What tasks of a poster do with the batches that they have in hand. A batch is posted, unless the task is cancelled or
the batch has no JSON text; a flush makes a batch of all that waits and posts it next; all other activities have none.
-/
import LspClient.Proofs.Json.RoundTrip
import LspClient.Proofs.Telemetry.Batches

namespace LspClient

open Client
open Telemetry (Record Poster Backend Ledger bodyOf events)

variable {E : Executor} {i : Nat} {a b : Activity} {o : Outcome} {c c' : Client} {p : Poster} {r : Except Fault Next}
  {batch : List Record}

namespace Telemetry

/-- A batch of records that can be posted can be posted. -/
theorem isPostable_batch (h : ∀ r ∈ batch, r.IsPostable) :
    (∃ text, Json.print (bodyOf batch) = .ok text) ∧ isFinite (bodyOf batch) = true := by
  constructor
  · have none : Json.fault? false (bodyOf batch) = none := by
      unfold bodyOf
      rw [Json.fault?]
      refine Json.faultItems?_none fun v hv => ?_
      obtain ⟨r, hr, rfl⟩ := List.mem_map.1 hv
      exact (h r hr).1
    unfold Json.print
    rw [none]
    exact ⟨_, rfl⟩
  · unfold bodyOf
    rw [isFinite]
    simp only [List.all_eq_true]
    rintro ⟨v, hv⟩ _
    obtain ⟨r, hr, rfl⟩ := List.mem_map.1 hv
    exact (h r hr).2

end Telemetry

/-! ## Nothing in hand -/

/-- An operation that does nothing for the poster, and leaves to do only what has nothing in hand. -/
structure RestsAt (E : Executor) (i : Nat) (op : ClientM Next) (c : Client) : Prop where
  quiet : KeepsBooksAt E i op c
  frames : ∀ {next c'}, does E op c = (.ok next, c') → ∀ b ∈ next.frames, b.collects = true ∧ b.batch? i = none

theorem restsAt_pure {next : Next} (h : ∀ b ∈ next.frames, b.collects = true ∧ b.batch? i = none) (c : Client) :
    RestsAt E i (pure next) c := by
  refine ⟨keepsBooksAt_pure next c, fun hx => ?_⟩
  cases hx
  exact h

theorem restsAt_done (v : Value) (c : Client) : RestsAt E i (pure (.done v)) c :=
  restsAt_pure (fun _ hb => (List.not_mem_nil hb).elim) c

theorem restsAt_throw (f : Fault) (c : Client) : RestsAt E i (throw f) c :=
  ⟨(keepsBooks_throw f).booksAt c, nofun⟩

theorem RestsAt.bind {α : Type} {x : ClientM α} {f : α → ClientM Next} (h : KeepsBooksAt E i x c)
    (hf : ∀ a d, does E x c = (.ok a, d) → RestsAt E i (f a) d) : RestsAt E i (x >>= f) c := by
  refine ⟨h.bind fun a d hx => (hf a d hx).quiet, fun {next c'} hx => ?_⟩
  rw [does_bind] at hx
  rcases first : does E x c with ⟨f | a, d⟩ <;> rw [first] at hx
  · cases hx
  · exact (hf a d first).frames hx

/-- What comes first is quiet at every client. -/
theorem KeepsBooks.rests {α : Type} {x : ClientM α} {f : α → ClientM Next} (h : KeepsBooks E i x)
    (hf : ∀ a d, RestsAt E i (f a) d) : RestsAt E i (x >>= f) c :=
  .bind (h.booksAt c) fun a d _ => hf a d

namespace Client

/-! ## Batches -/

/-- What an activity does for the poster. The batch that it has in hand and those that it makes are posted, dropped, or
left to do; none is dropped unless the activity is cancelled or the batch cannot be posted. A batch that is left to do
is the next thing to do. -/
structure Handles (i : Nat) (a : Activity) (o : Outcome) (batches posts dropped : List (List Record))
    (r : Except Fault Next) (c c' : Client) : Prop where
  books : c.Books i ⟨[], batches, posts⟩ [] c'
  frames : ∀ b ∈ framesOf r, b.collects = true
  hands : ((a.batch? i).toList ++ batches).Perm ((framesOf r).filterMap (Activity.batch? i) ++ (posts ++ dropped))
  kept : (∀ batch, a.batch? i = some batch → (∃ v, o = .ok v) ∧ ∀ r ∈ batch, r.IsPostable) → dropped = []
  next : ∀ {next}, r = .ok next → (∃ b, next = .become b) ∨ ∀ b ∈ next.frames, b.batch? i = none

/-- Activities with nothing in hand. -/
theorem Quiet.handles (h : c.Quiet i c') (idle : a.batch? i = none)
    (frames : ∀ b ∈ framesOf r, b.collects = true ∧ b.batch? i = none) : c.Handles i a o [] [] [] r c' := by
  refine ⟨h, fun b hb => (frames b hb).1, ?_, fun _ => rfl, ?_⟩
  · rw [idle, List.filterMap_eq_nil_iff.2 fun b hb => (frames b hb).2]
    exact .refl _
  · rintro next rfl
    exact .inr fun b hb => (frames b hb).2

theorem does_poster? (hp : c.sink.HasPoster i p) : does E (poster? i) c = (.ok (some p), c) := by
  unfold poster?
  rw [does_bind_of_ok (does_get c), hp.poster]
  rfl

theorem does_poster?_of_ne {j : Nat} (hp : c.sink.HasPoster i p) (ne : j ≠ i) :
    does E (poster? j) c = (.ok none, c) := by
  unfold poster?
  rw [does_bind_of_ok (does_get c)]
  split
  · next q hq => exact absurd (hp.only j q hq) ne
  · rfl

/-- What is left to do about a batch that was posted: the collector answers, at once or after some time. -/
def awaitAnswer (batch : List Record) (answer : CollectorAnswer) : Next :=
  if answer.delay.le (.int 0) then .become (.posted batch answer.result)
  else .call (.sleep answer.delay) (.posted batch answer.result)

/-- A client that has posted a batch. -/
def posting (c : Client) (p : Poster) (batch : List Record) : Client :=
  { c with
    notes := c.notes.push (.posted p.endpoint p.headers (bodyOf batch))
    collector := c.collector.drop 1 }

/-- A batch is posted, unless it cannot be. -/
theorem does_post (hp : c.sink.HasPoster i p) (batch : List Record) :
    (∃ f, does E (post i batch) c = (.error f, c) ∧ ¬ ∀ r ∈ batch, r.IsPostable) ∨
      does E (post i batch) c =
      (.ok (awaitAnswer batch (c.collector.headD { result := .ok 204 })), c.posting p batch) := by
  unfold post
  rw [does_bind_of_ok (does_poster? hp)]
  dsimp only
  cases printed : Json.print (.list (batch.map Telemetry.posted)) with
  | error f =>
    refine .inl ⟨f.toFault, rfl, fun postable => ?_⟩
    obtain ⟨⟨text, ok⟩, _⟩ := Telemetry.isPostable_batch postable
    cases printed.symm.trans ok
  | ok text =>
    cases finite : isFinite (.list (batch.map Telemetry.posted)) with
    | false =>
      refine .inl ⟨.invalid "Out of range float values are not JSON compliant", rfl, fun postable => ?_⟩
      obtain ⟨_, fine⟩ := Telemetry.isPostable_batch postable
      cases finite.symm.trans fine
    | true =>
      right
      -- What is left is to see how long the collector takes.
      let answer : CollectorAnswer := c.collector.headD { result := .ok 204 }
      show does E (if answer.delay.le (.int 0) then pure (Next.become (.posted batch answer.result))
        else pure (Next.call (.sleep answer.delay) (.posted batch answer.result))) (c.posting p batch) = _
      unfold awaitAnswer
      split <;> rfl

theorem batch?_post_self (batch : List Record) : (Activity.post i batch).batch? i = some batch :=
  if_pos rfl

theorem batch?_post_of_ne {j : Nat} (ne : j ≠ i) (batch : List Record) : (Activity.post j batch).batch? i = none :=
  if_neg ne

/-- A batch that is not posted is dropped. -/
theorem Quiet.drops (h : c.Quiet i c') (batch : List Record) (f : Fault)
    (fails : (∃ v, o = .ok v) → ¬ ∀ r ∈ batch, r.IsPostable) :
    c.Handles i (.post i batch) o [] [] [batch] (.error f) c' := by
  refine ⟨h, fun _ hb => (List.not_mem_nil hb).elim, ?_, fun fine => ?_, nofun⟩
  · rw [batch?_post_self]
    exact .refl _
  · obtain ⟨came, postable⟩ := fine batch (batch?_post_self batch)
    exact absurd postable (fails came)

theorem handles_post (hp : c.sink.HasPoster i p) (w : c.loop.WF events c.running) (j : Nat) (batch : List Record)
    (o : Outcome) :
    ∃ batches posts dropped, c.Handles i (.post j batch) o batches posts dropped
      (does E (goOn (.post j batch) o) c).1 (does E (goOn (.post j batch) o) c).2 := by
  by_cases here : j = i
  case neg =>
    refine ⟨[], [], [], ?_⟩
    cases o with
    | error f => exact (Quiet.refl w).handles (batch?_post_of_ne here batch) fun _ hb => (List.not_mem_nil hb).elim
    | ok v =>
      have nothing : does E (goOn (.post j batch) (.ok v)) c = (.ok (.done .null), c) :=
        (does_bind_of_ok (does_poster?_of_ne hp here) _).trans rfl
      rw [nothing]
      exact (Quiet.refl w).handles (batch?_post_of_ne here batch) fun _ hb => (List.not_mem_nil hb).elim
  case pos =>
  subst here
  cases o with
  | error f =>
    refine ⟨[], [], [batch], (Quiet.refl w).drops batch f fun fine => ?_⟩
    obtain ⟨_, fine⟩ := fine
    cases fine
  | ok v =>
    show ∃ _ _ _, c.Handles j _ _ _ _ _ (does E (post j batch) c).1 (does E (post j batch) c).2
    rcases does_post (E := E) hp batch with ⟨f, refused, unpostable⟩ | posts
    · rw [refused]
      exact ⟨[], [], [batch], (Quiet.refl w).drops batch f fun _ => unpostable⟩
    · rw [posts]
      have books : c.Books j ⟨[], [], [batch]⟩ [] (c.posting p batch) :=
        ⟨rfl, rfl, .refl w, fun q hq => ⟨q, hq, rfl, List.append_nil _⟩, bodies_push c _⟩
      refine ⟨[], [batch], [], books, ?_, ?_, fun _ => rfl, ?_⟩
      · unfold awaitAnswer
        split <;> simp [framesOf, Next.frames, Activity.collects]
      · rw [batch?_post_self]
        unfold awaitAnswer
        split <;> exact .refl _
      · intro next hx
        cases hx
        unfold awaitAnswer
        split <;> simp [Next.frames, Activity.batch?]

/-! ## Waiting -/

/-- An activity with nothing in hand, that makes no batch. -/
theorem handles_of_rests (h : RestsAt E i (goOn a o) c) (idle : a.batch? i = none) (w : c.loop.WF events c.running) :
    ∃ batches posts dropped, c.Handles i a o batches posts dropped (does E (goOn a o) c).1 (does E (goOn a o) c).2 := by
  refine ⟨[], [], [], (h.quiet w).handles idle ?_⟩
  rcases hx : does E (goOn a o) c with ⟨f | next, c'⟩
  · exact fun _ hb => (List.not_mem_nil hb).elim
  · exact h.frames hx

theorem restsAt_gather (promises : List PromiseId) {k : Activity} (h : k.collects = true ∧ k.batch? i = none)
    (c : Client) :
    RestsAt E i (gather promises k) c := by
  have grouped : KeepsBooks E i (withLoop fun l => l.gather promises) := keepsBooks_withLoop fun l w => by
    obtain ⟨m, w'⟩ := Loop.gather_spec (A := fun _ => False) w promises
    exact Loop.grows_of_moves m w' (Loop.spares_gather l promises)
  exact grouped.rests fun _ => restsAt_pure (List.forall_mem_singleton.2 h)

theorem restsAt_sleep (delay : Number) (c : Client) : RestsAt E i (sleep delay) c := by
  have promised : KeepsBooks E i newPromise := keepsBooks_withLoop fun l w => by
    have new : Role.IsNew (fun _ : Activity => False) .plain := trivial
    exact Loop.grows_of_moves (Loop.moves_newPromise l new) (w.newPromise .plain) (Loop.spares_newPromise l _)
  have timed : ∀ q, KeepsBooks E i (callLater delay (.fulfil q)) := fun q =>
    (keepsBooks_seconds delay).bind fun s => keepsBooks_withLoop fun l w => by
      have timed : Loop.IsTimed events (.fulfil q) := trivial
      exact Loop.grows_of_moves (Loop.moves_of_promises rfl) (w.callLater timed s) (Loop.spares_callLater l s _)
  unfold sleep
  split
  · exact restsAt_pure (List.forall_mem_singleton.2 ⟨rfl, rfl⟩) c
  · exact promised.rests fun q _ => (timed q).rests fun _ => restsAt_pure (List.forall_mem_singleton.2 ⟨rfl, rfl⟩)

theorem restsAt_posted (batch : List Record) (answer : Except String Nat) (o : Outcome) (c : Client) :
    RestsAt E i (posted batch answer o) c := by
  refine (keepsBooks_valueOf o).rests fun _ c => ?_
  split
  · split
    · exact (keepsBooks_log ..).rests fun _ => restsAt_done _
    · exact restsAt_done _ c
  · exact (keepsBooks_log ..).rests fun _ => restsAt_done _

/-! ## Flushing -/

/-- All that waits in the buffer is a batch, unless nothing does. -/
theorem does_flush (hp : c.sink.HasPoster i p) : does E (flush i) c =
    (.ok (if p.buffer.isEmpty then .done .null else .become (.post i p.buffer)),
      { c with sink := c.sink.setBackend i (.http { p with buffer := [] }) }) := by
  refine (does_bind_of_ok (does_poster? hp) _).trans ?_
  show does E (if p.buffer.isEmpty then pure (Next.done .null) else pure (Next.become (.post i p.buffer))) _ = _
  split <;> rfl

theorem handles_flush (hp : c.sink.HasPoster i p) (w : c.loop.WF events c.running) (j : Nat) (o : Outcome) :
    ∃ batches posts dropped, c.Handles i (.flush j) o batches posts dropped
      (does E (goOn (.flush j) o) c).1 (does E (goOn (.flush j) o) c).2 := by
  cases o with
  | error f => exact ⟨[], [], [], (Quiet.refl w).handles rfl fun _ hb => (List.not_mem_nil hb).elim⟩
  | ok v =>
  show ∃ _ _ _, c.Handles i _ _ _ _ _ (does E (flush j) c).1 (does E (flush j) c).2
  by_cases here : j = i
  case neg =>
    have nothing : does E (flush j) c = (.ok (.done .null), c) :=
      (does_bind_of_ok (does_poster?_of_ne hp here) _).trans rfl
    rw [nothing]
    exact ⟨[], [], [], (Quiet.refl w).handles rfl fun _ hb => (List.not_mem_nil hb).elim⟩
  case pos =>
  subst here
  rw [does_flush hp]
  cases waiting : p.buffer with
  | nil =>
    have same : p.buffer ++ [] = ([] : List (List Record)).flatten ++ [] := by simp [waiting]
    refine ⟨[], [], [], ?_, fun _ hb => (List.not_mem_nil hb).elim, .refl _, fun _ => rfl, ?_⟩
    · exact books_set (q := { p with buffer := [] }) hp rfl same rfl (.refl w) rfl rfl rfl rfl
    · intro next hx
      cases hx
      exact .inr fun _ hb => (List.not_mem_nil hb).elim
  | cons r rest =>
    have batch : p.buffer ++ [] = [r :: rest].flatten ++ [] := by simp [waiting]
    refine ⟨[r :: rest], [], [], ?_, List.forall_mem_singleton.2 rfl, ?_, fun _ => rfl, ?_⟩
    · exact books_set (q := { p with buffer := [] }) hp rfl batch rfl (.refl w) rfl rfl rfl rfl
    · simp [framesOf, Next.frames, Activity.batch?]
    · intro next hx
      cases hx
      exact .inl ⟨_, rfl⟩

/-! ## Closing -/

theorem restsAt_closeBackend (j : Nat) (c : Client) : RestsAt E i (closeBackend j) c := by
  refine .bind (keepsBooks_get.booksAt c) fun d c' hx => ?_
  cases hx
  split
  · split
    · exact restsAt_pure (List.forall_mem_singleton.2 ⟨rfl, rfl⟩) c
    · exact restsAt_gather _ ⟨rfl, rfl⟩ c
  · next path isOpen was =>
    exact .bind (keepsBooksAt_setBackend was nofun nofun) fun _ d _ => restsAt_done _ d
  · exact restsAt_throw _ c
  · exact restsAt_done _ c

theorem restsAt_closeSink (j : Nat) (c : Client) : RestsAt E i (closeSink j) c := by
  refine keepsBooks_get.rests fun _ c => ?_
  split
  · exact restsAt_pure (List.forall_mem_cons.2 ⟨⟨rfl, rfl⟩, List.forall_mem_singleton.2 ⟨rfl, rfl⟩⟩) c
  · exact restsAt_done _ c

theorem restsAt_closeSinkOne (j : Nat) (o : Outcome) (c : Client) : RestsAt E i (closeSinkOne j o) c := by
  have next : ∀ c, RestsAt E i (pure (.become (.closeSink (j + 1)))) c :=
    restsAt_pure (List.forall_mem_singleton.2 ⟨rfl, rfl⟩)
  unfold closeSinkOne
  split
  · exact next c
  · split
    · exact (keepsBooks_throw _).rests fun _ _ => keepsBooks_get.rests fun _ _ => (keepsBooks_log ..).rests fun _ =>
        next
    · exact keepsBooks_get.rests fun _ _ => (keepsBooks_log ..).rests fun _ => next

/-- Whatever belongs to a poster, or to the closing of backends, keeps account of the batches. -/
theorem handles_goOn (hp : c.sink.HasPoster i p) (w : c.loop.WF events c.running) (collects : a.collects = true)
    (o : Outcome) :
    ∃ batches posts dropped, c.Handles i a o batches posts dropped (does E (goOn a o) c).1 (does E (goOn a o) c).2 := by
  have came : KeepsBooks E i (valueOf o) := keepsBooks_valueOf o
  cases a with
  | post j batch => exact handles_post hp w j batch o
  | flush j => exact handles_flush hp w j o
  | relay => exact handles_of_rests (came.rests fun v => restsAt_done v) rfl w
  | sleep delay => exact handles_of_rests (came.rests fun _ => restsAt_sleep delay) rfl w
  | slept timer =>
    exact handles_of_rests ((keepsBooks_cancelTimer timer).rests fun _ _ => came.rests fun v => restsAt_done v) rfl w
  | posted batch answer => exact handles_of_rests (restsAt_posted batch answer o c) rfl w
  | closeBackend j => exact handles_of_rests (came.rests fun _ => restsAt_closeBackend j) rfl w
  | closeSink j => exact handles_of_rests (came.rests fun _ => restsAt_closeSink j) rfl w
  | closeSinkOne j => exact handles_of_rests (restsAt_closeSinkOne j o c) rfl w
  | _ => cases collects

end Client

end LspClient
