/-
A client that does nothing but collect telemetry: what may happen to it, and what each such step does to the records.
They come in, wait in the buffer, are put into batches, and the batches are posted, dropped, or still about to be
posted.
-/
import LspClient.Proofs.Client.Runs
import LspClient.Proofs.Telemetry.Posting
import Mathlib.Algebra.Order.Group.Multiset
import Mathlib.Tactic.Abel

namespace LspClient

open Client
open Telemetry (Record Poster Backend Ledger bodyOf events)

/-! ## Definitions -/

namespace Telemetry

/-- What users do: they give records to the sink, ask a poster to post what waits, close all backends, or cancel a task,
and they do so where tasks can be made or where they cannot. -/
inductive Act where
  | emit (r : Record)
  | flush (name : String)
  | close (name : String)
  | cancel (task : PromiseId)
  | move (hasLoop : Bool)

/-- An act as an operation; it is the poster at some place that is asked to post. -/
def Act.op (i : Nat) : Act → ClientM Unit
  | .emit r => send r
  | .flush name => do let _ ← spawnNamed name (.flush i)
  | .close name => do let _ ← spawnNamed name (.closeSink 0)
  | .cancel task => do let _ ← cancelPromise task
  | .move hasLoop => modify fun c => { c with hasLoop }

/-- The record that an act gives to the sink. -/
def Act.record? : Act → Option Record
  | .emit r => some r
  | _ => none

/-- Whether nothing is cancelled. -/
def Act.isCalm : Act → Bool
  | .cancel _ => false
  | _ => true

/-- The records that are given to the sink, in their order. -/
def given (acts : List Act) : List Record :=
  acts.filterMap Act.record?

theorem given_append (acts acts' : List Act) : given (acts ++ acts') = given acts ++ given acts' :=
  List.filterMap_append

end Telemetry

open Telemetry (Act given given_append)

namespace Moment

variable {E : Executor} {i : Nat} {m m' m'' : Moment} {acts : List Act} {c c' : Client} {p : Poster}

/-- What tasks have in hand. -/
def activities (m : Moment) : List Activity :=
  m.client.loop.activities ++ (m.turn.map (·.stack)).getD []

/-- The batches that are about to be posted. -/
def waiting (i : Nat) (m : Moment) : List (List Record) :=
  m.activities.filterMap (Activity.batch? i)

/-- What may happen next while users give records to the sink and close it: between turns they act and the clock moves,
and whatever is ready goes on by itself. -/
inductive Follows (E : Executor) (i : Nat) : List Act → Moment → Moment → Prop
  | act {c : Client} (a : Act) : Follows E i [a] ⟨c, none⟩ ⟨(does E (a.op i) c).2, none⟩
  | clock {c : Client} (now : Float) : Follows E i [] ⟨c, none⟩ ⟨{ c with loop := { c.loop with now } }, none⟩
  | onward {m : Moment} : Follows E i [] m (m.onward E)

/-- The moments that may come after a moment. -/
inductive Collects (E : Executor) (i : Nat) (m : Moment) : List Act → Moment → Prop
  | refl : Collects E i m [] m
  | step {done acts : List Act} {m' m'' : Moment} (run : Collects E i m done m') (next : Follows E i acts m' m'') :
    Collects E i m (done ++ acts) m''

/-- A moment of a client that does nothing but collect telemetry for a poster. -/
structure IsCollecting (i : Nat) (m : Moment) : Prop where
  wf : m.client.loop.WF events m.client.running
  running : m.client.running = m.turn.map (·.task)
  poster : ∃ p, m.client.sink.HasPoster i p
  collects : ∀ a ∈ m.activities, a.collects = true

/-- Tasks that have a batch in hand post it as soon as they begin. -/
def IsPrompt (i : Nat) (l : Loop Activity Event) : Prop :=
  ∀ p, (∃ a ∈ l.stackOf p, a.batch? i ≠ none) → ∃ a, l.Begins p a

/-- A moment at which no batch is lost: tasks post what they have in hand when they begin, and the one that runs is not
interrupted, and posts what it has in hand before anything else. -/
structure IsUndisturbed (i : Nat) (m : Moment) : Prop where
  prompt : IsPrompt i m.client.loop
  calm : ∀ t, m.turn = some t → m.client.loop.role? t.task = some (.task [] none false)
  behind : ∀ t, m.turn = some t → ∀ b ∈ t.stack.tail, b.batch? i = none
  goes : ∀ t, m.turn = some t → (∃ a ∈ t.stack, a.batch? i ≠ none) → ∃ v, t.outcome = .ok v

/-- What becomes of the records between two moments: those that come in wait in the buffer or are in batches, in their
order, and the batches are posted, dropped, or still about to be posted. -/
structure Accounts (i : Nat) (e : Ledger) (dropped : List (List Record)) (m m' : Moment) : Prop where
  poster : ∀ p, m.client.sink.HasPoster i p → ∃ p', m'.client.sink.HasPoster i p' ∧ p'.batchSize = p.batchSize ∧
    p.buffer ++ e.given = e.batches.flatten ++ p'.buffer
  hands : (m.waiting i ++ e.batches).Perm (m'.waiting i ++ (e.posts ++ dropped))
  seen : m'.client.bodies = m.client.bodies ++ e.posts.map bodyOf

variable {l l' : Loop Activity Event} {e e' : Ledger} {dropped dropped' : List (List Record)}

theorem Accounts.refl (m : Moment) : m.Accounts i {} [] m :=
  ⟨fun p hp => ⟨p, hp, rfl, List.append_nil _⟩, .refl _, (List.append_nil _).symm⟩

theorem Accounts.trans (h : m.Accounts i e dropped m') (h' : m'.Accounts i e' dropped' m'') :
    m.Accounts i (e.andThen e') (dropped ++ dropped') m'' where
  poster p hp := by
    obtain ⟨p', hp', size, came⟩ := h.poster p hp
    obtain ⟨p'', hp'', size', came'⟩ := h'.poster p' hp'
    refine ⟨p'', hp'', size'.trans size, ?_⟩
    show p.buffer ++ (e.given ++ e'.given) = (e.batches ++ e'.batches).flatten ++ p''.buffer
    rw [← List.append_assoc, came, List.append_assoc, came', List.flatten_append, List.append_assoc]
  hands := by
    have first := h.hands
    have second := h'.hands
    show (m.waiting i ++ (e.batches ++ e'.batches)).Perm (m''.waiting i ++
      (e.posts ++ e'.posts ++ (dropped ++ dropped')))
    simp only [← Multiset.coe_eq_coe, ← Multiset.coe_add] at first second ⊢
    calc (m.waiting i + (e.batches + e'.batches) : Multiset (List Record))
        = m.waiting i + e.batches + e'.batches := (add_assoc ..).symm
      _ = m'.waiting i + (e.posts + dropped) + e'.batches := by rw [first]
      _ = m'.waiting i + e'.batches + (e.posts + dropped) := add_right_comm ..
      _ = m''.waiting i + (e'.posts + dropped') + (e.posts + dropped) := by rw [second]
      _ = m''.waiting i + (e.posts + e'.posts + (dropped + dropped')) := by abel
  seen := by
    show _ = _ ++ (e.posts ++ e'.posts).map bodyOf
    rw [h'.seen, h.seen, List.map_append, List.append_assoc]

/-! ## Between turns -/

theorem activities_between (c : Client) : activities ⟨c, none⟩ = c.loop.activities :=
  List.append_nil _

theorem waiting_between (c : Client) : waiting i ⟨c, none⟩ = c.loop.activities.filterMap (Activity.batch? i) :=
  congrArg _ (activities_between c)

theorem IsPrompt.grows (h : IsPrompt i l) {running : Option PromiseId} {as : List Activity}
    (g : l.Grows events running as l') :
    IsPrompt i l' := by
  intro p hand
  by_cases old : p < l.promises.size
  · rw [g.kept p old] at hand
    exact (h p hand).imp fun _ => g.spares.begins
  · rcases g.new p (Nat.le_of_not_lt old) with none | begins
    · obtain ⟨a, ha, _⟩ := hand
      rw [none] at ha
      cases ha
    · exact begins

theorem isUndisturbed_between (h : IsPrompt i c.loop) : IsUndisturbed i ⟨c, none⟩ :=
  ⟨h, nofun, nofun, nofun⟩

/-- A moment with nothing new for the poster, and with the same things to do. -/
theorem IsCollecting.same (h : IsCollecting i m) (wf : m'.client.loop.WF events m'.client.running)
    (running : m'.client.running = m'.turn.map (·.task)) (sink : m'.client.sink = m.client.sink)
    (bodies : m'.client.bodies = m.client.bodies) (tasks : m.activities.Perm m'.activities) :
    IsCollecting i m' ∧ Accounts i {} [] m m' := by
  have poster : ∀ p, m.client.sink.HasPoster i p → m'.client.sink.HasPoster i p := fun p hp => by rwa [sink]
  refine ⟨⟨wf, running, h.poster.imp poster, fun a ha => h.collects a (tasks.mem_iff.2 ha)⟩,
    fun p hp => ⟨p, poster p hp, rfl, List.append_nil _⟩, ?_, bodies.trans (List.append_nil _).symm⟩
  exact (tasks.filterMap _).append_right []

/-- What is done between turns, with new tasks for the batches that are made. -/
theorem IsCollecting.between {new : List Activity} (h : IsCollecting i ⟨c, none⟩) (books : c.Books i e new c')
    (collects : ∀ a ∈ new, a.collects = true) (made : new.filterMap (Activity.batch? i) = e.batches)
    (quiet : e.posts = []) :
    IsCollecting i ⟨c', none⟩ ∧ Accounts i e [] ⟨c, none⟩ ⟨c', none⟩ := by
  obtain ⟨p, hp⟩ := h.poster
  obtain ⟨p', hp', _⟩ := books.poster p hp
  have tasks : activities ⟨c', none⟩ = c.loop.activities ++ new := (List.append_nil _).trans books.loop.activities
  refine ⟨⟨books.wf, books.running.trans h.running, ⟨p', hp'⟩, fun a ha => ?_⟩, books.poster, ?_, books.seen⟩
  · rw [tasks] at ha
    rcases List.mem_append.1 ha with ha | ha
    · exact h.collects a (List.mem_append_left _ ha)
    · exact collects a ha
  · rw [waiting_between, waiting_between, books.loop.activities, List.filterMap_append, made, quiet]
    exact .of_eq (List.append_nil _).symm

/-- A user begins a task. -/
theorem books_spawnNamed (w : c.loop.WF events c.running) (name : String) (a : Activity) :
    c.Books i {} [a] (does E (do let _ ← spawnNamed name a) c).2 := by
  have same : (does E (do let _ ← spawnNamed name a) c).2 = { c with
      loop := (c.loop.spawn a).2.observe c.loop.promises.size (.notify (.taskEnded name c.loop.promises.size))
      tasks := label name c.loop.promises.size c.tasks } := rfl
  have hears : events.hears c.loop.promises.size (.taskEnded name c.loop.promises.size) := trivial
  have made := Loop.grows_spawn w a
  rw [same]
  exact ⟨rfl, rfl, made.trans (grows_notify made.wf hears), fun p hp => ⟨p, hp, rfl, List.append_nil _⟩,
    (List.append_nil _).symm⟩

/-- A user cancels a task, which may interrupt others. -/
theorem IsCollecting.cancel (h : IsCollecting i ⟨c, none⟩) (task : PromiseId) :
    IsCollecting i ⟨(does E (Act.op i (.cancel task)) c).2, none⟩ ∧
      Accounts i {} [] ⟨c, none⟩ ⟨(does E (Act.op i (.cancel task)) c).2, none⟩ := by
  show IsCollecting i ⟨{ c with loop := (c.loop.cancel task).2 }, none⟩ ∧
    Accounts i {} [] ⟨c, none⟩ ⟨{ c with loop := (c.loop.cancel task).2 }, none⟩
  refine h.same (h.wf.cancel task) h.running rfl rfl ?_
  rw [activities_between, activities_between, Loop.activities_of_moves (Loop.moves_cancel h.wf task)]

/-- What a user does. -/
theorem IsCollecting.act (h : IsCollecting i ⟨c, none⟩) (a : Act) :
    ∃ batches, IsCollecting i ⟨(does E (a.op i) c).2, none⟩ ∧
      Accounts i ⟨a.record?.toList, batches, []⟩ [] ⟨c, none⟩ ⟨(does E (a.op i) c).2, none⟩ ∧
      (a.isCalm = true → ∃ new, c.loop.Grows events c.running new (does E (a.op i) c).2.loop) := by
  obtain ⟨p, hp⟩ := h.poster
  cases a with
  | emit r =>
    obtain ⟨batches, _, books, _⟩ := offered_send (E := E) hp r h.wf
    have made : (batches.map (Activity.post i)).filterMap (Activity.batch? i) = batches := by
      have each : Activity.batch? i ∘ Activity.post i = some := funext batch?_post_self
      rw [List.filterMap_map, each, List.filterMap_some]
    obtain ⟨collecting, accounts⟩ := h.between books (List.forall_mem_map.2 fun _ _ => rfl) made rfl
    exact ⟨batches, collecting, accounts, fun _ => ⟨_, books.loop⟩⟩
  | flush name =>
    have books := books_spawnNamed (E := E) (i := i) h.wf name (.flush i)
    obtain ⟨collecting, accounts⟩ := h.between books (List.forall_mem_singleton.2 rfl) rfl rfl
    exact ⟨[], collecting, accounts, fun _ => ⟨_, books.loop⟩⟩
  | close name =>
    have books := books_spawnNamed (E := E) (i := i) h.wf name (.closeSink 0)
    obtain ⟨collecting, accounts⟩ := h.between books (List.forall_mem_singleton.2 rfl) rfl rfl
    exact ⟨[], collecting, accounts, fun _ => ⟨_, books.loop⟩⟩
  | cancel task =>
    obtain ⟨collecting, accounts⟩ := h.cancel (E := E) task
    exact ⟨[], collecting, accounts, nofun⟩
  | move hasLoop =>
    have moved : IsCollecting i ⟨{ c with hasLoop }, none⟩ ∧ Accounts i {} [] ⟨c, none⟩ ⟨{ c with hasLoop }, none⟩ :=
      h.same h.wf h.running rfl rfl (.refl _)
    exact ⟨[], moved.1, moved.2, fun _ => ⟨[], .refl h.wf⟩⟩

/-- The clock moves. -/
theorem IsCollecting.clock (h : IsCollecting i ⟨c, none⟩) (now : Float) :
    IsCollecting i ⟨{ c with loop := { c.loop with now } }, none⟩ ∧
      Accounts i {} [] ⟨c, none⟩ ⟨{ c with loop := { c.loop with now } }, none⟩ := by
  have later : Loop.WF events c.running { c.loop with now } := Loop.WF.setNow h.wf now
  exact h.same later h.running rfl rfl (.refl _)

/-- The end of a task is noted, or the poster forgets it. -/
theorem keepsBooksAt_handleEvent (hp : c.sink.HasPoster i p) {q : PromiseId} {event : Event}
    (hears : events.hears q event) :
    KeepsBooksAt E i (handleEvent event) c := by
  cases event with
  | taskEnded name q =>
    have tells : KeepsBooks E i (handleEvent (.taskEnded name q)) := by
      refine keepsBooks_get.bind fun _ => ?_
      split
      · exact keepsBooks_note rfl
      · exact keepsBooks_pure _
    exact tells.booksAt c
  | postEnded j q =>
    intro w
    -- There is one poster, so that the end of any other post concerns nobody.
    by_cases here : j = i
    · subst here
      have forgets : does E (handleEvent (.postEnded j q)) c = (.ok (), { c with
          sink := c.sink.setBackend j (.http { p with posts := p.posts.filter (· != q) }) }) :=
        (does_bind_of_ok (does_poster? hp) _).trans rfl
      rw [forgets]
      exact books_set (q := { p with posts := p.posts.filter (· != q) }) hp rfl (List.append_nil _) rfl (.refl w)
        rfl rfl rfl rfl
    · have nothing : does E (handleEvent (.postEnded j q)) c = (.ok (), c) :=
        (does_bind_of_ok (does_poster?_of_ne hp here) _).trans rfl
      rw [nothing]
      exact .refl w
  | _ => cases hears

theorem KeepsBooksAt.ignore {x : ClientM Unit} (h : KeepsBooksAt E i x c) :
    KeepsBooksAt E i (tryCatch x fun _ => pure ()) c := by
  intro w
  have first := h w
  rw [does_tryCatch]
  rcases hx : does E x c with ⟨f | a, d⟩ <;> rw [hx] at first <;> exact first

/-- A job that concerns no task. -/
theorem keepsBooksAt_runJob (hp : c.sink.HasPoster i p) {job : Job Event} (due : c.loop.IsDue events c.running job)
    (idle : ∀ p o, ¬ job.RunsOn c.loop p o) : KeepsBooksAt E i (runJob job) c := by
  cases job with
  | step p => exact absurd ⟨rfl, rfl⟩ (idle p (.ok .null))
  | wake p source =>
    refine (keepsBooks_get.booksAt c).bind fun a d hx => ?_
    cases hx
    split
    · next o ho => exact absurd ⟨rfl, ho⟩ (idle p o)
    · exact keepsBooksAt_pure _ c
  | fulfil q =>
    have settles : KeepsBooks E i (onLoop fun l => l.settle q (.ok .null)) := keepsBooks_onLoop fun l w =>
      Loop.grows_of_moves (Loop.moves_settle l q _) (w.settle q _) (Loop.spares_settle l q _)
    exact settles.booksAt c
  | member g q =>
    have counts : KeepsBooks E i (onLoop fun l => l.memberSettled g) := keepsBooks_onLoop fun l w => by
      obtain ⟨m, w'⟩ := Loop.memberSettled_spec (A := fun _ => False) w g
      exact Loop.grows_of_moves m w' (Loop.spares_memberSettled l g)
    exact counts.booksAt c
  | notify event =>
    rcases due with never | ⟨q, _, _, hears⟩
    · exact never.elim
    · exact KeepsBooksAt.ignore (keepsBooksAt_handleEvent hp hears)
  | idle => exact keepsBooksAt_pure _ c

theorem quiet_work (h : IsCollecting i ⟨c, none⟩) {job : Job Event} {l : Loop Activity Event}
    (next : c.loop.next? = some (job, l)) (idle : ∀ p o, ¬ job.RunsOn l p o) :
    c.Quiet i (does E (runJob job) { c with loop := l }).2 := by
  obtain ⟨p, hp⟩ := h.poster
  have wf : c.loop.WF events c.running := h.wf
  obtain ⟨w, promises, due, _⟩ := wf.next? next
  have spares : c.loop.Spares l := Loop.spares_next? next fun p e => idle p (.ok .null) (e ▸ ⟨rfl, rfl⟩)
  have sooner : c.Quiet i { c with loop := l } :=
    quiet_of_eq (Loop.grows_of_moves (Loop.moves_of_promises promises) w spares) rfl rfl rfl rfl
  have runs : KeepsBooksAt E i (runJob job) { c with loop := l } :=
    keepsBooksAt_runJob (c := { c with loop := l }) hp due idle
  exact sooner.trans (runs w)

/-- A job that concerns no task. -/
theorem IsCollecting.work (h : IsCollecting i ⟨c, none⟩) {job : Job Event} {l : Loop Activity Event}
    (next : c.loop.next? = some (job, l)) (idle : ∀ p o, ¬ job.RunsOn l p o) :
    IsCollecting i ⟨(does E (runJob job) { c with loop := l }).2, none⟩ ∧
      Accounts i {} [] ⟨c, none⟩ ⟨(does E (runJob job) { c with loop := l }).2, none⟩ :=
  h.between (quiet_work h next idle) (fun _ ha => (List.not_mem_nil ha).elim) rfl rfl

/-! ## Turns -/

/-- A task begins a turn. -/
theorem IsCollecting.begin (h : IsCollecting i ⟨c, none⟩) {job : Job Event} {l : Loop Activity Event} {q : PromiseId}
    {o : Outcome} (next : c.loop.next? = some (job, l)) (runs : job.RunsOn l q o) (o' : Outcome) :
    IsCollecting i ⟨c.driving (l.resume q).2.2 (some q), some ⟨q, (l.resume q).1, o'⟩⟩ ∧
      Accounts i {} [] ⟨c, none⟩ ⟨c.driving (l.resume q).2.2 (some q), some ⟨q, (l.resume q).1, o'⟩⟩ := by
  have idle : c.running = none := h.running
  have wf : c.loop.WF events none := idle ▸ h.wf
  obtain ⟨w, promises, due, alone⟩ := wf.next? next
  have drives : job.drives q = true := RunsOn.drives runs
  refine h.same (w.resume due drives (alone q drives)) rfl rfl rfl ?_
  have same : c.loop.activities = l.activities := (Loop.activities_of_moves (Loop.moves_of_promises promises)).symm
  rw [activities_between, same]
  exact Loop.activities_resume l q

/-- The running task ends. -/
theorem IsCollecting.finish {q : PromiseId} {o : Outcome} (h : IsCollecting i ⟨c, some ⟨q, [], o⟩⟩) :
    IsCollecting i ⟨c.driving (c.loop.finish q o) none, none⟩ ∧
      Accounts i {} [] ⟨c, some ⟨q, [], o⟩⟩ ⟨c.driving (c.loop.finish q o) none, none⟩ := by
  have running : c.running = some q := h.running
  have wf : c.loop.WF events (some q) := running ▸ h.wf
  obtain ⟨m, w, _⟩ := Loop.finish_spec (A := fun _ => False) wf o
  refine h.same w rfl rfl rfl ?_
  rw [activities_between]
  show (c.loop.activities ++ []).Perm (c.loop.finish q o).activities
  rw [List.append_nil, Loop.activities_of_moves m]

/-- The moment after the innermost activity has gone on. -/
theorem goFurther_eq {q : PromiseId} {a : Activity} {rest : List Activity} {o : Outcome}
    {t : Option (List Activity × Outcome)} (goes : does E (runActivity q a rest o) c = (.ok t, c')) :
    goFurther E q a rest o c = (t.map fun x => ⟨c', some ⟨q, x.1, x.2⟩⟩).getD ⟨c'.driving c'.loop none, none⟩ := by
  unfold goFurther
  rw [goes]
  cases t <;> rfl

/-- A task with more to do goes on with it, at once or later. -/
structure Leaves (c : Client) (stack : List Activity) (m : Moment) : Prop where
  wf : m.client.loop.WF events m.client.running
  running : m.client.running = m.turn.map (·.task)
  sink : m.client.sink = c.sink
  bodies : m.client.bodies = c.bodies
  tasks : m.activities.Perm (c.loop.activities ++ stack)

theorem leaves_goFurther {q : PromiseId} {a : Activity} {rest : List Activity} {o : Outcome} {r : Except Fault Next}
    {d : Client} (hx : does E (goOn a o) c = (r, d)) (w : d.loop.WF events (some q)) (running : d.running = some q) :
    Leaves d (framesOf r ++ rest) (goFurther E q a rest o c) := by
  obtain ⟨t, d', hd, goes⟩ := does_runActivity (E := E) q a rest o c
  rw [goFurther_eq hd]
  rw [hx] at goes
  have w' : d.loop.WF events d.running := running ▸ w
  obtain ⟨⟨_, role⟩, _⟩ := w.runs rfl
  have idle : d.loop.stackOf q = [] := Loop.stackOf_of_role? role
  have known : q < d.loop.promises.size := Loop.lt_size_of_role? role
  -- Unless the task waits, all that is left to do stays with its turn; otherwise the task puts it down.
  cases goes with
  | fault f => exact ⟨w', running, rfl, rfl, .refl _⟩
  | done v => exact ⟨w', running, rfl, rfl, .refl _⟩
  | become b => exact ⟨w', running, rfl, rfl, .refl _⟩
  | call b k => exact ⟨w', running, rfl, rfl, .refl _⟩
  | ready k ho => exact ⟨w', running, rfl, rfl, .refl _⟩
  | yield k =>
    obtain ⟨m, w'', _, put⟩ := Loop.pause_spec (A := fun _ => False) w k rest
    exact ⟨w'', rfl, rfl, rfl, (List.Perm.of_eq (activities_between _)).trans
      (Loop.activities_of_putDown m known idle (Loop.stackOf_of_role? put))⟩
  | wait k ho =>
    rename_i source
    obtain ⟨m, w'', _, put⟩ := Loop.suspend_spec (A := fun _ => False) w k rest source
    exact ⟨w'', rfl, rfl, rfl, (List.Perm.of_eq (activities_between _)).trans
      (Loop.activities_of_putDown m known idle (Loop.stackOf_of_role? put))⟩

/-- What is exchanged among things that stay. -/
theorem perm_exchange {α : Type} {old fresh left gone : List α} (h : (old ++ fresh).Perm (left ++ gone))
    (before behind : List α) : (before ++ (old ++ behind) ++ fresh).Perm (before ++ (left ++ behind) ++ gone) := by
  simp only [← Multiset.coe_eq_coe, ← Multiset.coe_add] at h ⊢
  calc (before + (old + behind) + fresh : Multiset α)
      = before + behind + (old + fresh) := by abel
    _ = before + behind + (left + gone) := by rw [h]
    _ = before + (left + behind) + gone := by abel

/-- The innermost activity of the running task goes on. -/
theorem IsCollecting.further {q : PromiseId} {a : Activity} {rest : List Activity} {o : Outcome}
    (h : IsCollecting i ⟨c, some ⟨q, a :: rest, o⟩⟩) :
    IsCollecting i (goFurther E q a rest o c) ∧ ∃ batches posts dropped,
      c.Handles i a o batches posts dropped (does E (goOn a o) c).1 (does E (goOn a o) c).2 ∧
      Accounts i ⟨[], batches, posts⟩ dropped ⟨c, some ⟨q, a :: rest, o⟩⟩ (goFurther E q a rest o c) := by
  obtain ⟨p, hp⟩ := h.poster
  have running : c.running = some q := h.running
  have others : ∀ b ∈ c.loop.activities ++ a :: rest, b.collects = true := h.collects
  obtain ⟨batches, posts, dropped, handles⟩ := handles_goOn (E := E) hp h.wf (others a (by simp)) o
  have books := handles.books
  have runs : (does E (goOn a o) c).2.running = some q := books.running.trans running
  have left : Leaves (does E (goOn a o) c).2 (framesOf (does E (goOn a o) c).1 ++ rest) (goFurther E q a rest o c) :=
    leaves_goFurther rfl (runs ▸ books.wf) runs
  have tasks : (does E (goOn a o) c).2.loop.activities = c.loop.activities :=
    books.loop.activities.trans (List.append_nil _)
  have after := tasks ▸ left.tasks
  have poster : ∀ {p}, (does E (goOn a o) c).2.sink.HasPoster i p →
      (goFurther E q a rest o c).client.sink.HasPoster i p :=
    fun hp => by rwa [left.sink]
  refine ⟨⟨left.wf, left.running, ?_, fun b hb => ?_⟩, batches, posts, dropped, handles, fun p hp => ?_, ?_, ?_⟩
  · obtain ⟨p', hp', _⟩ := books.poster p hp
    exact ⟨p', poster hp'⟩
  · rcases List.mem_append.1 (after.mem_iff.1 hb) with hb | hb
    · exact others b (List.mem_append_left _ hb)
    · rcases List.mem_append.1 hb with hb | hb
      · exact handles.frames b hb
      · exact others b (List.mem_append_right _ (List.mem_cons_of_mem a hb))
  · obtain ⟨p', hp', kept⟩ := books.poster p hp
    exact ⟨p', poster hp', kept⟩
  · -- What the activity has in hand moves, and what other tasks and the activities behind it have stays.
    have before : waiting i ⟨c, some ⟨q, a :: rest, o⟩⟩ =
        c.loop.activities.filterMap (Activity.batch? i) ++
        ((a.batch? i).toList ++ rest.filterMap (Activity.batch? i)) := by
      show (c.loop.activities ++ a :: rest).filterMap _ = _
      rw [List.filterMap_append, List.filterMap_cons]
      cases a.batch? i <;> rfl
    have later : (waiting i (goFurther E q a rest o c)).Perm (c.loop.activities.filterMap (Activity.batch? i) ++
        ((framesOf (does E (goOn a o) c).1).filterMap (Activity.batch? i) ++ rest.filterMap (Activity.batch? i))) := by
      rw [← List.filterMap_append, ← List.filterMap_append]
      exact after.filterMap _
    rw [before]
    exact (perm_exchange handles.hands _ _).trans (later.symm.append_right _)
  · rw [left.bodies]
    exact books.seen

/-! ## Undisturbed moments -/

/-- A task takes up what it has put down, or puts down what does not have a batch in hand. -/
theorem IsPrompt.after {q : PromiseId} (h : IsPrompt i l) (kept : ∀ p, p ≠ q → l'.stackOf p = l.stackOf p)
    (begins : ∀ p a, p ≠ q → l.Begins p a → l'.Begins p a) {stack : List Activity} (put : l'.stackOf q = stack)
    (idle : ∀ b ∈ stack, b.batch? i = none) : IsPrompt i l' := by
  rintro p ⟨a, ha, hand⟩
  by_cases same : p = q
  · rw [same, put] at ha
    exact absurd (idle a ha) hand
  · rw [kept p same] at ha
    exact (h p ⟨a, ha, hand⟩).imp fun b => begins p b same

theorem isUndisturbed_running {q : PromiseId} {stack : List Activity} {o : Outcome} (h : IsPrompt i c.loop)
    (calm : c.loop.role? q = some (.task [] none false)) (behind : ∀ b ∈ stack.tail, b.batch? i = none)
    (goes : (∃ a ∈ stack, a.batch? i ≠ none) → ∃ v, o = .ok v) : IsUndisturbed i ⟨c, some ⟨q, stack, o⟩⟩ := by
  refine ⟨h, ?_, ?_, ?_⟩ <;> rintro t ⟨⟩
  · exact calm
  · exact behind
  · exact goes

/-- The first turn of a task that was not interrupted. -/
theorem begins_turn {job : Job Event} {running : Option PromiseId} {q : PromiseId} {a : Activity} {o : Outcome}
    (begins : c.loop.Begins q a) (next : c.loop.next? = some (job, l)) (due : l.IsDue events running job)
    (runs : job.RunsOn l q o) : (l.resume q).1 = [a] ∧ (l.resume q).2.1 = false ∧ o = .ok .null := by
  have role : l.role? q = some (.task [a] none false) := (Loop.role?_next? next q).trans begins.1
  rw [Loop.resume_eq role]
  refine ⟨rfl, rfl, ?_⟩
  rcases Job.drives_iff.1 (RunsOn.drives runs) with rfl | ⟨awaited, rfl⟩
  · exact runs.2
  · obtain ⟨_, _, _, _, waits⟩ := due
    rw [role] at waits
    cases waits

/-- Other tasks are left alone when one begins a turn. -/
theorem begins_resume {job : Job Event} {p q : PromiseId} {a : Activity} {o : Outcome} (other : p ≠ q)
    (begins : c.loop.Begins p a) (next : c.loop.next? = some (job, l)) (runs : job.RunsOn l q o) :
    (l.resume q).2.2.Begins p a := by
  refine (begins.next? next fun e => other ?_).resume other
  have drives := RunsOn.drives runs
  rw [e] at drives
  simpa [Job.drives] using drives

/-- A task that begins has not been interrupted, and comes to post what it has in hand. -/
theorem IsUndisturbed.begin (h : IsCollecting i ⟨c, none⟩) (calm : IsUndisturbed i ⟨c, none⟩) {job : Job Event}
    {q : PromiseId} {o : Outcome} (next : c.loop.next? = some (job, l)) (runs : job.RunsOn l q o) :
    IsUndisturbed i ⟨c.driving (l.resume q).2.2 (some q),
      some ⟨q, (l.resume q).1, if (l.resume q).2.1 then .error .cancelled else o⟩⟩ := by
  have wf : c.loop.WF events c.running := h.wf
  obtain ⟨_, promises, due, _⟩ := wf.next? next
  have same : ∀ p, l.stackOf p = c.loop.stackOf p := fun p => Loop.stackOf_congr (Loop.role?_next? next p)
  obtain ⟨a, stack, source, interrupted, role⟩ := due.role?_of_drives (RunsOn.drives runs)
  have resumed := Loop.resume_eq role
  have taken : (l.resume q).2.2.role? q = some (.task [] none false) := by
    rw [resumed]
    exact Loop.role?_setRole_self role _
  have kept : ∀ p, p ≠ q → (l.resume q).2.2.stackOf p = c.loop.stackOf p := fun p other => by
    rw [resumed]
    exact (Loop.stackOf_setRole_of_ne l other _).trans (same p)
  have prompt : IsPrompt i (l.resume q).2.2 :=
    calm.prompt.after kept (fun p a other b => begins_resume other b next runs) (Loop.stackOf_of_role? taken) nofun
  -- With a batch in hand, it is the first turn of the task.
  have first : (∃ b ∈ (l.resume q).1, b.batch? i ≠ none) →
      ∃ b, (l.resume q).1 = [b] ∧ (l.resume q).2.1 = false ∧ o = .ok .null := fun hand => by
    rw [resumed, ← Loop.stackOf_of_role? role, same] at hand
    exact (calm.prompt q hand).imp fun b begins => begins_turn begins next due runs
  refine isUndisturbed_running prompt taken (fun b hb => ?_) fun hand => ?_
  · by_contra hand
    obtain ⟨d, only, _⟩ := first ⟨b, List.mem_of_mem_tail hb, hand⟩
    rw [only] at hb
    cases hb
  · obtain ⟨_, _, calm, rfl⟩ := first hand
    exact ⟨.null, by rw [calm]; rfl⟩

theorem IsUndisturbed.finish {q : PromiseId} {o : Outcome} (h : IsCollecting i ⟨c, some ⟨q, [], o⟩⟩)
    (calm : IsUndisturbed i ⟨c, some ⟨q, [], o⟩⟩) : IsUndisturbed i ⟨c.driving (c.loop.finish q o) none, none⟩ := by
  have running : c.running = some q := h.running
  have wf : c.loop.WF events (some q) := running ▸ h.wf
  obtain ⟨m, w, _⟩ := Loop.finish_spec (A := fun _ => False) wf o
  exact isUndisturbed_between (calm.prompt.grows (Loop.grows_of_moves m w (Loop.spares_finish c.loop q o)))

/-- The innermost activity goes on, and leaves a batch to do only as the next thing. -/
theorem IsUndisturbed.further {q : PromiseId} {a : Activity} {rest : List Activity} {o : Outcome}
    {r : Except Fault Next} {d : Client} (calm : IsUndisturbed i ⟨c, some ⟨q, a :: rest, o⟩⟩)
    (hx : does E (goOn a o) c = (r, d)) (w : d.loop.WF events (some q)) (grows : c.loop.Grows events (some q) [] d.loop)
    (next : ∀ {next}, r = .ok next → (∃ b, next = .become b) ∨ ∀ b ∈ next.frames, b.batch? i = none) :
    IsUndisturbed i (goFurther E q a rest o c) := by
  obtain ⟨t, d', hd, goes⟩ := does_runActivity (E := E) q a rest o c
  rw [goFurther_eq hd]
  rw [hx] at goes
  have prompt : IsPrompt i d.loop := calm.prompt.grows grows
  have role : d.loop.role? q = some (.task [] none false) := grows.spares.task (calm.calm _ rfl)
  have behind : ∀ b ∈ rest, b.batch? i = none := calm.behind _ rfl
  -- A turn with nothing in hand may go on with any outcome.
  have idle : ∀ {d' : Client} {stack : List Activity} (o' : Outcome), d'.loop = d.loop →
      (∀ b ∈ stack, b.batch? i = none) → IsUndisturbed i ⟨d', some ⟨q, stack, o'⟩⟩ := fun o' e none => by
    refine isUndisturbed_running (e ▸ prompt) (e ▸ role) (fun b hb => none b (List.mem_of_mem_tail hb)) ?_
    rintro ⟨b, hb, hand⟩
    exact absurd (none b hb) hand
  have frames : ∀ {next : Next}, r = .ok next → (¬ ∃ b, next = .become b) → ∀ b ∈ next.frames, b.batch? i = none :=
    fun e other => (next e).resolve_left other
  cases goes with
  | fault f => exact idle _ rfl behind
  | done v => exact idle _ rfl behind
  | become b => exact isUndisturbed_running prompt role behind fun _ => ⟨.null, rfl⟩
  | call b k =>
    have none := frames rfl (by simp)
    exact idle _ rfl (List.forall_mem_cons.2 ⟨none b (by simp [Next.frames]),
      List.forall_mem_cons.2 ⟨none k (by simp [Next.frames]), behind⟩⟩)
  | ready k ho => exact idle _ rfl (List.forall_mem_cons.2 ⟨frames rfl (by simp) k (by simp [Next.frames]), behind⟩)
  | yield k =>
    obtain ⟨m, _, _, put⟩ := Loop.pause_spec (A := fun _ => False) w k rest
    refine isUndisturbed_between (prompt.after (fun p other => ?_) (fun p a other b => b.pause other _)
      (Loop.stackOf_of_role? put) (List.forall_mem_cons.2 ⟨frames rfl (by simp) k (by simp [Next.frames]), behind⟩))
    exact Loop.stackOf_of_moves m fun e => other (Option.some.inj e).symm
  | wait k ho =>
    rename_i source
    obtain ⟨m, _, _, put⟩ := Loop.suspend_spec (A := fun _ => False) w k rest source
    refine isUndisturbed_between (prompt.after (fun p other => ?_) (fun p a other b => b.suspend other role _ _)
      (Loop.stackOf_of_role? put) (List.forall_mem_cons.2 ⟨frames rfl (by simp) k (by simp [Next.frames]), behind⟩))
    exact Loop.stackOf_of_moves m fun e => other (Option.some.inj e).symm

/-- A task that is about to begin does, or stays so when another job is taken up. -/
theorem begins_takeUp {q : PromiseId} {a : Activity} (h : IsCollecting i ⟨c, none⟩) (begins : c.loop.Begins q a) :
    (takeUp E c).client.loop.Begins q a ∨ (takeUp E c).turn = some ⟨q, [a], .ok .null⟩ := by
  unfold takeUp
  cases next : c.loop.next? with
  | none => exact .inl begins
  | some x =>
    obtain ⟨job, l⟩ := x
    dsimp only
    cases runs : runsOn? l job with
    | none =>
      have idle : ∀ p o, ¬ job.RunsOn l p o := fun p o r => by cases runs.symm.trans (runsOn_iff.1 r)
      have quiet : c.Quiet i (does E (runJob job) { c with loop := l }).2 := quiet_work h next idle
      exact .inl (quiet.loop.spares.begins begins)
    | some y =>
      obtain ⟨p, o⟩ := y
      have runs := runsOn_iff.2 runs
      by_cases here : q = p
      · subst here
        have wf : c.loop.WF events c.running := h.wf
        obtain ⟨_, _, due, _⟩ := wf.next? next
        obtain ⟨stack, calm, rfl⟩ := begins_turn begins next due runs
        right
        dsimp only
        rw [stack, calm]
        rfl
      · exact .inl (begins_resume here begins next runs)

theorem begins_goFurther {p q : PromiseId} {a b : Activity} {rest : List Activity} {o : Outcome} {r : Except Fault Next}
    {d : Client} (hx : does E (goOn b o) c = (r, d)) (calm : d.loop.role? p = some (.task [] none false))
    (begins : d.loop.Begins q a) : (goFurther E p b rest o c).client.loop.Begins q a := by
  have other : q ≠ p := by
    rintro rfl
    cases calm.symm.trans begins.1
  obtain ⟨t, d', hd, goes⟩ := does_runActivity (E := E) p b rest o c
  rw [goFurther_eq hd]
  rw [hx] at goes
  cases goes with
  | yield k => exact begins.pause other _
  | wait k ho => exact begins.suspend other calm _ _
  | _ => exact begins

end Moment

end LspClient
