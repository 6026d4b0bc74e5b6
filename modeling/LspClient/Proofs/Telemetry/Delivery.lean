/-
What a poster delivers. Whatever happens, a record is posted at most once, together with those that came right before
and after it. Where nothing is cancelled none is lost, and when the poster was flushed and all has come to rest, every
record was posted.
-/
import LspClient.Proofs.Telemetry.Collecting
import Mathlib.Data.List.Flatten

namespace LspClient.Moment

open Client
open Telemetry (Record Poster Ledger bodyOf events Act given given_append)

variable {E : Executor} {i : Nat} {m m' m'' : Moment} {acts : List Act} {c c' : Client} {p : Poster} {q : PromiseId}
  {l : Loop Activity Event} {e : Ledger} {dropped : List (List Record)}

/-! ## Definitions -/

/-- A client with a poster that has nothing to post yet, and with nothing to do. -/
structure IsBlank (i : Nat) (p : Poster) (c : Client) : Prop where
  wf : c.loop.WF events none
  running : c.running = none
  poster : c.sink.HasPoster i p
  buffer : p.buffer = []
  tasks : c.loop.activities = []

/-- A task is about to flush the poster or begins to, or nothing waits in the buffer. -/
def IsFlushing (i : Nat) (q : PromiseId) (m : Moment) : Prop :=
  m.client.loop.Begins q (.flush i) ∨ m.turn = some ⟨q, [.flush i], .ok .null⟩ ∨
    ∃ p, m.client.sink.HasPoster i p ∧ p.buffer = []

/-! ## Runs -/

/-- Between turns the next job is taken up. -/
theorem IsCollecting.taken (h : IsCollecting i ⟨c, none⟩) : IsCollecting i (takeUp E c) ∧
    Accounts i {} [] ⟨c, none⟩ (takeUp E c) ∧ (IsUndisturbed i ⟨c, none⟩ → IsUndisturbed i (takeUp E c)) := by
  unfold takeUp
  cases next : c.loop.next? with
  | none => exact ⟨h, .refl _, id⟩
  | some x =>
    obtain ⟨job, l⟩ := x
    dsimp only
    cases runs : runsOn? l job with
    | none =>
      have idle : ∀ p o, ¬ job.RunsOn l p o := fun p o r => by cases runs.symm.trans (runsOn_iff.1 r)
      have quiet : c.Quiet i (does E (runJob job) { c with loop := l }).2 := quiet_work h next idle
      obtain ⟨collecting, accounts⟩ := h.work (E := E) next idle
      exact ⟨collecting, accounts, fun calm => isUndisturbed_between (calm.prompt.grows quiet.loop)⟩
    | some y =>
      obtain ⟨q, o⟩ := y
      have drives := runsOn_iff.2 runs
      obtain ⟨collecting, accounts⟩ := h.begin next drives (if (l.resume q).2.1 then .error .cancelled else o)
      exact ⟨collecting, accounts, fun calm => calm.begin h next drives⟩

/-- Whatever is ready goes on. -/
theorem IsCollecting.goesOn (h : IsCollecting i m) : IsCollecting i (m.onward E) ∧ ∃ batches posts dropped,
    Accounts i ⟨[], batches, posts⟩ dropped m (m.onward E) ∧ (IsUndisturbed i m → IsUndisturbed i (m.onward E) ∧
      ((∀ batch ∈ m.waiting i, ∀ r ∈ batch, r.IsPostable) → dropped = [])) := by
  obtain ⟨c, _ | ⟨q, _ | ⟨a, rest⟩, o⟩⟩ := m
  · obtain ⟨collecting, accounts, undisturbed⟩ := h.taken (E := E)
    exact ⟨collecting, [], [], [], accounts, fun calm => ⟨undisturbed calm, fun _ => rfl⟩⟩
  · obtain ⟨collecting, accounts⟩ := h.finish
    exact ⟨collecting, [], [], [], accounts, fun calm => ⟨calm.finish h, fun _ => rfl⟩⟩
  · obtain ⟨collecting, batches, posts, dropped, handles, accounts⟩ := h.further (E := E)
    have running : c.running = some q := h.running
    have wf : (does E (goOn a o) c).2.loop.WF events (some q) := running ▸ handles.books.loop.wf
    refine ⟨collecting, batches, posts, dropped, accounts, fun calm => ⟨?_, fun postable => ?_⟩⟩
    · exact calm.further rfl wf (running ▸ handles.books.loop) handles.next
    · refine handles.kept fun batch hand => ⟨?_, postable batch ?_⟩
      · exact calm.goes _ rfl ⟨a, List.mem_cons_self, by rw [hand]; exact Option.some_ne_none _⟩
      · exact List.mem_filterMap.2 ⟨a, List.mem_append_right _ List.mem_cons_self, hand⟩

/-- A step keeps account of all records, and loses none where nothing is cancelled and all can be posted. -/
theorem Follows.accounts (next : Follows E i acts m m') (h : IsCollecting i m) : IsCollecting i m' ∧
    ∃ batches posts dropped, Accounts i ⟨given acts, batches, posts⟩ dropped m m' ∧
      (IsUndisturbed i m → (∀ a ∈ acts, a.isCalm = true) → IsUndisturbed i m' ∧
        ((∀ batch ∈ m.waiting i, ∀ r ∈ batch, r.IsPostable) → dropped = [])) := by
  cases next with
  | act a =>
    obtain ⟨batches, collecting, accounts, grows⟩ := h.act (E := E) a
    refine ⟨collecting, batches, [], [], ?_, fun calm uncancelled => ⟨?_, fun _ => rfl⟩⟩
    · have one : given [a] = a.record?.toList := by
        unfold given
        cases ha : a.record? <;> simp [ha]
      rwa [one]
    · obtain ⟨_, grows⟩ := grows (uncancelled a (List.mem_singleton.2 rfl))
      exact isUndisturbed_between (calm.prompt.grows grows)
  | clock now =>
    obtain ⟨collecting, accounts⟩ := h.clock now
    exact ⟨collecting, [], [], [], accounts, fun calm _ => ⟨isUndisturbed_between calm.prompt, fun _ => rfl⟩⟩
  | onward =>
    obtain ⟨collecting, batches, posts, dropped, accounts, kept⟩ := h.goesOn (E := E)
    exact ⟨collecting, batches, posts, dropped, accounts, fun calm _ => kept calm⟩

/-- A run keeps account of all records. -/
theorem Collects.accounts (run : Collects E i m acts m') (h : IsCollecting i m) :
    IsCollecting i m' ∧ ∃ batches posts dropped, Accounts i ⟨given acts, batches, posts⟩ dropped m m' := by
  induction run with
  | refl => exact ⟨h, [], [], [], .refl m⟩
  | step run next ih =>
    obtain ⟨collecting, batches, posts, dropped, accounts⟩ := ih
    obtain ⟨collecting', batches', posts', dropped', accounts', _⟩ := next.accounts collecting
    refine ⟨collecting', batches ++ batches', posts ++ posts', dropped ++ dropped', ?_⟩
    rw [given_append]
    exact accounts.trans accounts'

/-- What is about to be posted has come in, where nothing was waiting at the beginning. -/
theorem Accounts.mem_given (accounts : Accounts i e dropped m m') (h : IsCollecting i m) (idle : m.waiting i = [])
    (empty : ∀ p, m.client.sink.HasPoster i p → p.buffer = []) {batch : List Record} (hb : batch ∈ m'.waiting i)
    {r : Record} (hr : r ∈ batch) : r ∈ e.given := by
  obtain ⟨p, hp⟩ := h.poster
  obtain ⟨p', _, _, came⟩ := accounts.poster p hp
  have hands := accounts.hands
  rw [empty p hp, List.nil_append] at came
  rw [idle, List.nil_append] at hands
  rw [came]
  exact List.mem_append_left _ (List.mem_flatten.2 ⟨batch, hands.mem_iff.2 (List.mem_append_left _ hb), hr⟩)

/-- Where nothing is cancelled, nothing is disturbed. -/
theorem Collects.undisturbed (run : Collects E i m acts m') (h : IsCollecting i m) (calm : IsUndisturbed i m)
    (uncancelled : ∀ a ∈ acts, a.isCalm = true) : IsCollecting i m' ∧ IsUndisturbed i m' := by
  induction run with
  | refl => exact ⟨h, calm⟩
  | step run next ih =>
    obtain ⟨before, now⟩ := List.forall_mem_append.1 uncancelled
    obtain ⟨collecting, undisturbed⟩ := ih before
    obtain ⟨collecting', _, _, _, _, kept⟩ := next.accounts collecting
    exact ⟨collecting', (kept undisturbed now).1⟩

/-- A run in which nothing is cancelled loses nothing that can be posted. -/
theorem Collects.accounts_of_calm (run : Collects E i m acts m') (h : IsCollecting i m) (calm : IsUndisturbed i m)
    (idle : m.waiting i = []) (empty : ∀ p, m.client.sink.HasPoster i p → p.buffer = [])
    (uncancelled : ∀ a ∈ acts, a.isCalm = true) (postable : ∀ r ∈ given acts, r.IsPostable) :
    ∃ batches posts, Accounts i ⟨given acts, batches, posts⟩ [] m m' := by
  induction run with
  | refl => exact ⟨[], [], .refl m⟩
  | step run next ih =>
    rw [given_append] at postable ⊢
    obtain ⟨before, now⟩ := List.forall_mem_append.1 uncancelled
    obtain ⟨came, _⟩ := List.forall_mem_append.1 postable
    obtain ⟨collecting, undisturbed⟩ := run.undisturbed h calm before
    obtain ⟨batches, posts, accounts⟩ := ih before came
    obtain ⟨_, batches', posts', dropped, accounts', kept⟩ := next.accounts collecting
    -- What is about to be posted came in before.
    have none : dropped = [] :=
      (kept undisturbed now).2 fun batch hb r hr => came r (accounts.mem_given h idle empty hb hr)
    subst none
    exact ⟨batches ++ batches', posts ++ posts', accounts.trans accounts'⟩

/-- A task that is about to begin stays so until its first turn. -/
theorem Follows.begins (next : Follows E i acts m m') (h : IsCollecting i m) (calm : IsUndisturbed i m)
    (uncancelled : ∀ a ∈ acts, a.isCalm = true) {q : PromiseId} {a : Activity} (begins : m.client.loop.Begins q a) :
    m'.client.loop.Begins q a ∨ m'.turn = some ⟨q, [a], .ok .null⟩ := by
  cases next with
  | act b =>
    obtain ⟨_, _, _, grows⟩ := h.act (E := E) b
    obtain ⟨_, grows⟩ := grows (uncancelled b (List.mem_singleton.2 rfl))
    exact .inl (grows.spares.begins begins)
  | clock now => exact .inl begins
  | onward =>
    obtain ⟨c, _ | ⟨p, _ | ⟨b, rest⟩, o⟩⟩ := m
    · exact begins_takeUp h begins
    · exact .inl ((Loop.spares_finish c.loop p o).begins begins)
    · obtain ⟨_, _, _, _, handles, _⟩ := h.further (E := E)
      have spares := handles.books.loop.spares
      exact .inl (begins_goFurther rfl (spares.task (calm.calm _ rfl)) (spares.begins begins))

/-- At rest no batch is about to be posted. -/
theorem IsUndisturbed.waiting_eq_nil (calm : IsUndisturbed i ⟨c, none⟩) (rest : c.loop.next? = none) :
    waiting i ⟨c, none⟩ = [] := by
  rw [waiting_between]
  refine List.filterMap_eq_nil_iff.2 fun a ha => ?_
  obtain ⟨p, _, ha⟩ := List.mem_flatMap.1 ha
  by_contra hand
  obtain ⟨b, begins⟩ := calm.prompt p ⟨a, ha, hand⟩
  exact Loop.not_begins_of_next? rest p b begins

/-! ## Delivery -/

/-- A new client with a poster is blank. -/
theorem isBlank_of_new (loop : c.loop = {}) (running : c.running = none) (hp : c.sink.HasPoster i p)
    (buffer : p.buffer = []) :
    IsBlank i p c := by
  refine ⟨?_, running, hp, buffer, ?_⟩
  · rw [loop]
    exact .new
  · rw [loop]
    rfl

theorem IsBlank.collecting (h : IsBlank i p c) : IsCollecting i ⟨c, none⟩ := by
  have wf : c.loop.WF events c.running := by
    rw [h.running]
    exact h.wf
  refine ⟨wf, h.running, ⟨p, h.poster⟩, fun a ha => ?_⟩
  rw [activities_between, h.tasks] at ha
  cases ha

theorem IsBlank.waiting (h : IsBlank i p c) : waiting i ⟨c, none⟩ = [] := by
  rw [waiting_between, h.tasks]
  rfl

theorem IsBlank.empty (h : IsBlank i p c) {q : Poster} (hq : c.sink.HasPoster i q) : q.buffer = [] := by
  rw [h.poster.unique hq, h.buffer]

theorem IsBlank.undisturbed (h : IsBlank i p c) : IsUndisturbed i ⟨c, none⟩ := by
  refine isUndisturbed_between fun q ⟨a, ha, _⟩ => ?_
  have some := Loop.mem_activities ha
  rw [h.tasks] at some
  cases some

/-- A batch holds records that came one after another. -/
theorem infix_of_mem {batches : List (List Record)} {batch : List Record} (h : batch ∈ batches) (rest : List Record) :
    batch <:+: batches.flatten ++ rest := by
  obtain ⟨before, after, rfl⟩ := List.append_of_mem h
  refine ⟨before.flatten, after.flatten ++ rest, ?_⟩
  rw [List.flatten_append, List.flatten_cons, List.append_assoc, List.append_assoc, List.append_assoc]

/-- All that came in waits in the buffer or is in batches. -/
theorem IsBlank.came (h : IsBlank i p c) (accounts : Accounts i e dropped ⟨c, none⟩ m) :
    ∃ p', m.client.sink.HasPoster i p' ∧ p'.batchSize = p.batchSize ∧ e.given = e.batches.flatten ++ p'.buffer := by
  obtain ⟨p', hp', size, came⟩ := accounts.poster p h.poster
  rw [h.buffer, List.nil_append] at came
  exact ⟨p', hp', size, came⟩

/-- All batches are about to be posted, or were posted or dropped. -/
theorem IsBlank.hands (h : IsBlank i p c) (accounts : Accounts i e dropped ⟨c, none⟩ m) :
    e.batches.Perm (m.waiting i ++ (e.posts ++ dropped)) := by
  have hands := accounts.hands
  rwa [h.waiting, List.nil_append] at hands

/-- Whatever happens, each post holds records that came one after another, and no record is posted more often than it
came. -/
theorem posts_subperm_given (blank : IsBlank i p c) (run : Collects E i ⟨c, none⟩ acts m) :
    ∃ posts : List (List Record), m.client.bodies = c.bodies ++ posts.map bodyOf ∧
      (∀ post ∈ posts, post <:+: given acts) ∧ posts.flatten.Subperm (given acts) := by
  obtain ⟨_, batches, posts, dropped, accounts⟩ := run.accounts blank.collecting
  obtain ⟨p', _, _, came⟩ := blank.came accounts
  have came : given acts = batches.flatten ++ p'.buffer := came
  have hands : batches.Perm (m.waiting i ++ (posts ++ dropped)) := blank.hands accounts
  rw [came]
  refine ⟨posts, accounts.seen, fun post hpost => ?_, ?_⟩
  · exact infix_of_mem (hands.mem_iff.2 (List.mem_append_right _ (List.mem_append_left _ hpost))) _
  · -- Batches that were dropped, or that wait, are in no post.
    have part : posts.Sublist (m.waiting i ++ (posts ++ dropped)) :=
      (List.sublist_append_left posts dropped).trans (List.sublist_append_right _ _)
    have all : posts.flatten.Subperm batches.flatten := hands.flatten.symm.subperm_left.1 part.flatten.subperm
    exact all.trans (List.sublist_append_left _ _).subperm

/-- Where nothing is cancelled and all records can be posted, at rest each record was posted once, or waits in the
buffer. -/
theorem posts_perm_given (blank : IsBlank i p c) (run : Collects E i ⟨c, none⟩ acts ⟨c', none⟩)
    (rest : c'.loop.next? = none) (uncancelled : ∀ a ∈ acts, a.isCalm = true)
    (postable : ∀ r ∈ given acts, r.IsPostable) :
    ∃ (p' : Poster) (posts : List (List Record)), c'.sink.HasPoster i p' ∧ c'.bodies = c.bodies ++ posts.map bodyOf ∧
      (∀ post ∈ posts, post <:+: given acts) ∧ (posts.flatten ++ p'.buffer).Perm (given acts) := by
  obtain ⟨_, calm⟩ := run.undisturbed blank.collecting blank.undisturbed uncancelled
  obtain ⟨batches, posts, accounts⟩ := run.accounts_of_calm blank.collecting blank.undisturbed blank.waiting
    (fun _ hq => blank.empty hq) uncancelled postable
  obtain ⟨p', hp', _, came⟩ := blank.came accounts
  have came : given acts = batches.flatten ++ p'.buffer := came
  have hands : batches.Perm (waiting i ⟨c', none⟩ ++ (posts ++ [])) := blank.hands accounts
  rw [calm.waiting_eq_nil rest, List.nil_append, List.append_nil] at hands
  refine ⟨p', posts, hp', accounts.seen, ?_⟩
  rw [came]
  exact ⟨fun post hpost => infix_of_mem (hands.mem_iff.2 hpost) _, hands.symm.flatten.append_right _⟩

/-- After a record has come in where tasks can be made, less than a batch waits. -/
theorem length_buffer_lt (blank : IsBlank i p c) (run : Collects E i ⟨c, none⟩ acts ⟨c', none⟩)
    (there : c'.hasLoop = true) {n : Int} (size : p.batchSize = .int n) (pos : 0 < n) (r : Record) :
    ∃ q, (does E (send r) c').2.sink.HasPoster i q ∧ (q.buffer.length : Int) < n := by
  obtain ⟨collecting, _, _, _, accounts⟩ := run.accounts blank.collecting
  obtain ⟨p', hp', size', _⟩ := blank.came accounts
  obtain ⟨batches, q, books, hq, bound⟩ := offered_send (E := E) hp' r collecting.wf
  obtain ⟨q', hq', size'', _⟩ := books.poster p' hp'
  refine ⟨q, hq, bound there n ?_ pos⟩
  rw [hq'.unique hq, size'', size', size]

/-! ## Flushing -/

/-- A task that flushes the poster leaves nothing in the buffer. -/
theorem buffer_goFurther_flush (h : IsCollecting i ⟨c, some ⟨q, [.flush i], .ok .null⟩⟩) :
    ∃ p, (goFurther E q (.flush i) [] (.ok .null) c).client.sink.HasPoster i p ∧ p.buffer = [] := by
  obtain ⟨p, hp⟩ := h.poster
  have hp : c.sink.HasPoster i p := hp
  have running : c.running = some q := h.running
  have wf : c.loop.WF events (some q) := running ▸ h.wf
  have emptied : does E (goOn (.flush i) (.ok .null)) c = _ := does_flush hp
  have left : Leaves _ (framesOf _ ++ []) (goFurther E q (.flush i) [] (.ok .null) c) :=
    leaves_goFurther emptied wf running
  refine ⟨{ p with buffer := [] }, ?_, rfl⟩
  rw [left.sink]
  exact hp.set _

/-- Where no record comes in, a buffer stays empty once it is flushed. -/
theorem Follows.isFlushing (next : Follows E i acts m m') (h : IsCollecting i m) (calm : IsUndisturbed i m)
    (uncancelled : ∀ a ∈ acts, a.isCalm = true) (nothing : given acts = []) (flushing : IsFlushing i q m) :
    IsFlushing i q m' := by
  rcases flushing with begins | turn | ⟨p, hp, empty⟩
  · exact (next.begins h calm uncancelled begins).imp_right .inl
  · -- While a task runs, nothing else happens.
    obtain ⟨c, t⟩ := m
    cases turn
    cases next with
    | onward => exact .inr (.inr (buffer_goFurther_flush h))
  · obtain ⟨_, batches, _, _, accounts, _⟩ := next.accounts h
    obtain ⟨p', hp', _, came⟩ := accounts.poster p hp
    refine .inr (.inr ⟨p', hp', ?_⟩)
    rw [empty, nothing] at came
    exact (List.append_eq_nil_iff.1 came.symm).2

theorem Collects.isFlushing (run : Collects E i m acts m') (h : IsCollecting i m) (calm : IsUndisturbed i m)
    (uncancelled : ∀ a ∈ acts, a.isCalm = true) (nothing : given acts = []) (flushing : IsFlushing i q m) :
    IsFlushing i q m' := by
  induction run with
  | refl => exact flushing
  | step run next ih =>
    rw [given_append] at nothing
    obtain ⟨none, none'⟩ := List.append_eq_nil_iff.1 nothing
    obtain ⟨before, now⟩ := List.forall_mem_append.1 uncancelled
    obtain ⟨collecting, undisturbed⟩ := run.undisturbed h calm before
    exact next.isFlushing collecting undisturbed now none' (ih before none)

/-- At rest, a buffer that was flushed is empty. -/
theorem IsFlushing.buffer_eq_nil (flushing : IsFlushing i q ⟨c, none⟩) (rest : c.loop.next? = none)
    (hp : c.sink.HasPoster i p) : p.buffer = [] := by
  rcases flushing with begins | turn | ⟨p', hp', empty⟩
  · exact absurd begins (Loop.not_begins_of_next? rest q _)
  · cases turn
  · rwa [hp.unique hp'] at empty

/-- A user asks the poster to post what waits. -/
theorem isFlushing_flush (c : Client) (name : String) :
    IsFlushing i c.loop.promises.size ⟨(does E (Act.op i (.flush name)) c).2, none⟩ :=
  .inl ((Loop.spares_observe _ _ _).begins (Loop.begins_spawn c.loop (.flush i)))

theorem Collects.trans {acts' : List Act} (run : Collects E i m acts m') (run' : Collects E i m' acts' m'') :
    Collects E i m (acts ++ acts') m'' := by
  induction run' with
  | refl =>
    rw [List.append_nil]
    exact run
  | step _ next ih =>
    rw [← List.append_assoc]
    exact ih.step next

/-- Where nothing is cancelled and all records can be posted, each record was posted once when all comes to rest after
the poster was flushed, unless others came in since. -/
theorem posts_perm_given_of_flush {acts' : List Act} {c'' : Client} {name : String} (blank : IsBlank i p c)
    (run : Collects E i ⟨c, none⟩ acts ⟨c', none⟩)
    (run' : Collects E i ⟨(does E (Act.op i (.flush name)) c').2, none⟩ acts' ⟨c'', none⟩) (nothing : given acts' = [])
    (rest : c''.loop.next? = none) (uncancelled : ∀ a ∈ acts ++ acts', a.isCalm = true)
    (postable : ∀ r ∈ given acts, r.IsPostable) :
    ∃ posts : List (List Record), c''.bodies = c.bodies ++ posts.map bodyOf ∧ (∀ post ∈ posts, post <:+: given acts) ∧
      posts.flatten.Perm (given acts) := by
  obtain ⟨before, later⟩ := List.forall_mem_append.1 uncancelled
  have flush : Collects E i ⟨c, none⟩ (acts ++ [.flush name]) ⟨(does E (Act.op i (.flush name)) c').2, none⟩ :=
    run.step (.act _)
  have calm : ∀ a ∈ acts ++ [Act.flush name], a.isCalm = true :=
    List.forall_mem_append.2 ⟨before, List.forall_mem_singleton.2 rfl⟩
  have all : given ((acts ++ [.flush name]) ++ acts') = given acts := by
    rw [given_append, given_append, nothing, List.append_nil]
    exact List.append_nil _
  obtain ⟨collecting, undisturbed⟩ := flush.undisturbed blank.collecting blank.undisturbed calm
  obtain ⟨p', posts, hp', seen, runs, perm⟩ := posts_perm_given blank (flush.trans run') rest
    (List.forall_mem_append.2 ⟨calm, later⟩) (by rwa [all])
  have empty : p'.buffer = [] :=
    (run'.isFlushing collecting undisturbed later nothing (isFlushing_flush c' name)).buffer_eq_nil rest hp'
  rw [all] at runs perm
  rw [empty, List.append_nil] at perm
  exact ⟨posts, seen, runs, perm⟩

end LspClient.Moment
