/-
What happens in a client from the moment at which a task is made that closes the transport of a process. The task is
ready until its first turn, and nothing else takes a turn for it; then it waits, asks the process to terminate and waits
again, or kills it; and at last it is over. Each stage is kept by whatever happens, and left in a turn of the task only.
-/
import LspClient.Proofs.Process.Patience

namespace LspClient

open Client

/-! ## Definitions -/

/-- What a task has asked of processes, and when. -/
def asksOf (p : PromiseId) (moves : List Move) : List (String × Float) :=
  moves.flatMap (Move.asks p)

/-- What happens in a client from the moment at which a task is made that closes a transport; nobody cancels the
task. -/
inductive Course (E : Executor) (t : TransportId) (p : PromiseId) : List Move → Client → Prop
  | asked {c : Client} (name : String) (h : Reached E c) (known : t < c.transports.size)
    (new : p = c.loop.promises.size) :
    Course E t p [] (does E (spawnNamed name (.closeTransport t)) c).2
  | next {moves : List Move} {c c' : Client} {job : Option (Job Event)} (h : Course E t p moves c)
    (happens : Happens E (some p) c job c') : Course E t p (moves ++ [⟨c, job, c'⟩]) c'

/-- At some moment up to a time, a process had not exited though the time that it had to exit was over; or it had
none. -/
def Late (i : ChildId) (limit : Number) (since upto : Float) (moves : List Move) : Prop :=
  limit.le (.int 0) = true ∨ ∃ s, limit.widen = .ok s ∧ ∃ m ∈ moves, ¬ m.source.HasExited i ∧
    Loop.isDue m.source.loop.now (since + s) = true ∧ Loop.isDue upto m.source.loop.now = true

/-- What a task may have asked of a process that it closes since some time, and when. -/
inductive Escalates (i : ChildId) (limit : Number) (since : Float) (moves : List Move) : List (String × Float) → Prop
  | closed {before : List (String × Float)} (first : before = [] ∨ before = [("close", since)]) :
    Escalates i limit since moves before
  | terminated {before : List (String × Float)} (first : before = [] ∨ before = [("close", since)]) (time : Float)
    (late : Late i limit since time moves) : Escalates i limit since moves (before ++ [("terminate", time)])
  | killed {before : List (String × Float)} (first : before = [] ∨ before = [("close", since)]) (time time' : Float)
    (late : Late i limit since time moves) (late' : Late i limit time time' moves) :
    Escalates i limit since moves (before ++ [("terminate", time)] ++ [("kill", time')])

/-- The times that a task has to measure which closes a process: the time that the process has to exit, and how long the
process takes for that. -/
def timesOf (i : ChildId) (limit : Number) (moves : List Move) : List Number :=
  limit :: moves.map fun m => m.source.exitDelay i

/-- How far a task is that closes a process. -/
inductive Stage (p : PromiseId) (i : ChildId) (n : Nat) (t : TransportId) (limit : Number) (since : Float)
    (moves : List Move) (c : Client) : Prop
  | closed (first : asksOf p moves = [] ∨ asksOf p moves = [("close", since)])
    (waiting : Waiting p i n limit since (.closeAwaited t i) moves c)
  | terminated (before : List (String × Float)) (first : before = [] ∨ before = [("close", since)]) (time : Float)
    (late : Late i limit since time moves) (asks : asksOf p moves = before ++ [("terminate", time)])
    (waiting : Waiting p i n limit time (.closeTerminated t i) moves c)
  | finished (finished : Over p i n (timesOf i limit moves) c) (asks : Escalates i limit since moves (asksOf p moves))

/-- What is shown of a task that is about to close a transport. -/
structure View.IsReady (t : TransportId) (p : PromiseId) (v : View) : Prop where
  begun : ∃ observers, v.promise p = some ⟨none, observers, .task [.closeTransport t] none false⟩
  ready : v.ready = [(none, .step p)]
  timers : v.timers = []
  waiters : v.waiters = []

/-- A task is about to close a transport. -/
def Client.Ready (t : TransportId) (p : PromiseId) (n : Nat) (c : Client) : Prop :=
  ∀ i, ∃ v, c.Presents (.only p i n) v ∧ v.IsReady t p

variable {E : Executor} {S : Share} {c c' d : Client} {v : View} {p : PromiseId} {i : ChildId} {n : Nat}
  {t : TransportId} {limit : Number} {since upto : Float} {moves : List Move} {m : Move} {job : Option (Job Event)}
  {l : Loop Activity Event} {asks : List (String × Float)} {times : List Number} {launch : Launch}

/-! ## What is asked -/

theorem asksOf_append (p : PromiseId) (moves : List Move) (m : Move) :
    asksOf p (moves ++ [m]) = asksOf p moves ++ m.asks p := by
  unfold asksOf
  rw [List.flatMap_append, List.flatMap_singleton]

theorem asksOf_silent (silent : m.asks p = []) (moves : List Move) : asksOf p (moves ++ [m]) = asksOf p moves := by
  rw [asksOf_append, silent, List.append_nil]

theorem Late.mono (h : Late i limit since upto moves) (m : Move) : Late i limit since upto (moves ++ [m]) :=
  h.imp id fun ⟨s, widen, m', mem, late⟩ => ⟨s, widen, m', List.mem_append_left _ mem, late⟩

theorem Expired.late (h : Expired i limit since moves) (times : ∀ m ∈ moves, Loop.isDue upto m.source.loop.now = true) :
    Late i limit since upto moves :=
  h.imp id fun ⟨s, widen, m, mem, alive, come⟩ => ⟨s, widen, m, mem, alive, come, times m mem⟩

theorem Escalates.mono (h : Escalates i limit since moves asks)
    (m : Move) : Escalates i limit since (moves ++ [m]) asks := by
  cases h with
  | closed first => exact .closed first
  | terminated first time late => exact .terminated first time (late.mono m)
  | killed first time time' late late' => exact .killed first time time' (late.mono m) (late'.mono m)

theorem timesOf_subset (i : ChildId) (limit : Number) (moves : List Move) (m : Move) :
    timesOf i limit moves ⊆ timesOf i limit (moves ++ [m]) :=
  List.cons_subset_cons _ (List.map_subset _ (List.subset_append_left ..))

theorem last_subset_timesOf (i : ChildId) (limit : Number) (moves : List Move) (m : Move) :
    [limit, m.source.exitDelay i] ⊆ timesOf i limit (moves ++ [m]) := by
  unfold timesOf
  rw [List.map_append]
  exact List.cons_subset_cons _ (List.subset_append_right ..)

/-! ## Until the first turn -/

/-- A round begins, and no timer of the share rings. -/
theorem Client.Presents.begins (h : c.Presents S v) (none : v.timers = []) (begins : c.loop.BeginsRound S l) :
    Client.Presents { c with loop := l } S v := by
  refine ⟨h.apart.replace begins.apart (Nat.le_of_eq (by rw [begins.promises])), ?_⟩
  have rings := view_begins begins
  rw [h.view] at rings
  generalize Client.view S { c with loop := l } = v' at rings
  obtain ⟨come, left, timers, -⟩ := rings
  obtain ⟨rfl, rfl⟩ := List.append_eq_nil_iff.1 (timers.symm.trans none)
  exact View.ext rfl (List.append_nil _) none.symm rfl rfl rfl

/-- The task of the share is given a name. -/
theorem Client.Presents.label (h : c.Presents S v) (name : String) (mine : S.task ∈ S.own) :
    Client.Presents { c with tasks := label name S.task c.tasks } S v := by
  refine ⟨⟨h.apart.loop, h.apart.pipes, h.apart.count, h.apart.transports, h.apart.links, h.apart.children,
    fun mem => ?_⟩, h.view⟩
  rcases mem_label mem with rfl | mem
  · exact ⟨h.apart.loop.own _ mine, fun _ => rfl⟩
  · exact h.apart.tasks mem

/-- A task is made that closes a transport. -/
theorem Client.Free.ready (free : c.Free n) (name : String) (t : TransportId) :
    (does E (spawnNamed name (.closeTransport t)) c).2.Ready t c.loop.promises.size n := by
  intro i
  have made :=
    (((free c.loop.promises.size i).shows.spawnOwn rfl (.closeTransport t)).label name (List.mem_cons_self ..))
  have named := made.observe (View.promise_set_self ..)
    (Job.fits_notify (e := .taskEnded name c.loop.promises.size) rfl)
  have nothing : ∀ {α : Type} {f : α → Job Event} (xs : List α),
      (xs.filter fun x => (f x).concerns []) = [] := fun xs =>
    List.filter_eq_nil_iff.2 fun x _ mine => by
      obtain ⟨r, -, mine⟩ := Job.concerns_iff.1 mine
      cases mine
  refine ⟨_, named, ⟨_, View.promise_set_self ..⟩, ?_, nothing c.loop.timers, ?_⟩
  · exact congrArg (· ++ [(none, .step c.loop.promises.size)]) (nothing c.loop.ready)
  · exact List.filter_eq_nil_iff.2 fun r _ mine => by cases mine

/-- Whatever happens, the task stays ready until its first turn. -/
theorem Client.Ready.next (h : c.Ready t p n) (happens : Happens E (some p) c job c')
    (others : job.any (·.drives p) = false) :
    c'.Ready t p n := by
  intro i
  obtain ⟨v, shows, begun, ready, timers, waiters⟩ := h i
  cases happens.affects shows.apart (.inr rfl) with
  | aside b => exact ⟨_, shows.beside b waiters, begun, ready, timers, waiters⟩
  | clock now _ =>
    refine ⟨{ v with now }, ⟨shows.apart.replace (shows.apart.loop.setNow now) (Nat.le_refl _), ?_⟩, begun, ready,
      timers, waiters⟩
    rw [view_setNow, shows.view]
  | other begins b _ => exact ⟨_, (shows.begins timers begins).beside b waiters, begun, ready, timers, waiters⟩
  | @own job m l begins pops mine =>
    obtain ⟨-, k, first⟩ | ⟨other, -⟩ := view_pops (c := { c with loop := m }) pops
    · rw [(shows.begins timers begins).view] at first
      have e : [(none, .step p)] = (k, job) :: _ := ready.symm.trans (congrArg View.ready first)
      obtain rfl : .step p = job := congrArg Prod.snd (List.cons.inj e).1
      cases others.symm.trans (beq_self_eq_true p)
    · cases mine.symm.trans other

/-! ## The first turn -/

/-- A process to which a transport is linked was launched. -/
theorem Client.Apart.launched (h : c.Apart S) {pipe : PipeId} (link : (c.transportAt t).link = some ⟨pipe, some i⟩) :
    i < c.children.size := by
  unfold Client.transportAt at link
  cases known : c.transports[t]? with
  | none =>
    rw [known] at link
    cases link
  | some x =>
    rw [known] at link
    exact h.links known link rfl

/-- The first turn of the task is taken up: it has nothing to itself but itself. -/
theorem Client.Ready.begins (h : c.Ready t p n) (free : c.Free n) {job : Job Event}
    (happens : Happens E (some p) c (some job) c') (turn : job.drives p = true) : ∃ l, l.now = c.loop.now ∧
    c' = (does E (runTask p (.ok .null)) { c with loop := l }).2 ∧
      l.role? p = some (.task [.closeTransport t] none false) ∧
      (∀ i, (Client.resumed { c with loop := l } p).Alone p i n) ∧ (Client.resumed { c with loop := l } p).Free n := by
  cases happens with
  | @job _ l next =>
    have first : ∀ i, job = .step p ∧ l.now = c.loop.now ∧ l.role? p = some (.task [.closeTransport t] none false) ∧
        (Client.resumed { c with loop := l } p).Alone p i n := fun i => by
      obtain ⟨v, shows, ⟨observers, begun⟩, ready, timers, waiters⟩ := h i
      obtain ⟨m, begins, pops⟩ := shows.apart.loop.next? next
      have begun' := shows.begins timers begins
      have apart := begun'.apart.replace pops.apart (Nat.le_of_eq (by rw [pops.promises]))
      obtain ⟨-, k, before⟩ | ⟨other, -⟩ := view_pops (c := { c with loop := m }) pops
      · rw [begun'.view] at before
        subst before
        obtain ⟨e, nothing⟩ := List.cons.inj ready
        have popped :
          Client.Presents { c with loop := l } (.only p i n) (Client.view (.only p i n) { c with loop := l }) :=
          apart.shows
        refine ⟨congrArg Prod.snd e, pops.now.trans begins.now, popped.role begun, _, popped.resumed begun,
          ⟨observers, View.promise_set_self ..⟩, fun r x hx => ?_, nothing, timers, waiters⟩
        exact List.mem_singleton.1 ((popped.resumed begun).promise hx).1
      · have mine : job.concerns [p] = true := by
          rcases Job.drives_iff.1 turn with
            rfl | ⟨q, rfl⟩ <;> exact Job.concerns_iff.2 ⟨p, rfl, List.mem_singleton_self p⟩
        cases mine.symm.trans other
    have step := (first 0).1
    subst step
    refine ⟨l, (first 0).2.1, rfl, (first 0).2.2.1, fun i => (first i).2.2.2, fun q i => ?_⟩
    obtain ⟨m, begins, pops⟩ := (free q i).loop.next? next
    have set := pops.apart.setRole p (.task [] none false) fun _ => ⟨nofun, nofun⟩
    have size : c.loop.promises.size ≤ (l.setRole p (.task [] none false)).promises.size := by
      rw [Loop.size_setRole, pops.promises, begins.promises]
    exact (((free q i).replace set size).running (some p)).apart

/-- In its first turn, the task closes the input of the process and begins to wait; its transport is linked to nothing,
or to a process that is launched later. -/
theorem Client.Ready.closes (h : c.Ready t p n) (free : c.Free n) (known : t < n) {job : Job Event}
    (happens : Happens E (some p) c (some job) c') (turn : job.drives p = true)
    (carrier : (c.transportAt t).carrier = .process launch) {pipe : PipeId}
    (link : (c.transportAt t).link = some ⟨pipe, some i⟩) :
    ∃ texts, (texts = [] ∨ texts = ["close"]) ∧ c'.asked = c.asked ++ texts ∧
      (Stays p i n launch.closeTimeout c.loop.now (.closeAwaited t i) c' ∨
        Over p i n [launch.closeTimeout, c.exitDelay i] c') ∧
      ∀ link, (c'.transportAt t).link = some link → ∃ j, link.child = some j ∧ c.children.size ≤ j := by
  obtain ⟨l, now, rfl, role, alone, free'⟩ := h.begins free happens turn
  obtain ⟨d, m, texts, one, short, goes, asked, left, beside⟩ :=
    (alone i).closes (E := E) carrier link ((free 0 0).launched link)
  obtain ⟨v, shows, begun⟩ := alone i
  obtain ⟨observers, begun⟩ := begun.begun
  have task : Loop.Known (.nothing 0 0 n) (Client.unlinked (Client.resumed { c with loop := l } p) t).loop p :=
    ⟨shows.lt_size begun, List.not_mem_nil⟩
  have after := beside _ (beside_unlinked (free' 0 0) t).apart task known
  rw [goes.does_runTask (o := .ok .null) role (by unfold taskFuel; omega)]
  refine ⟨texts, one, asked, ?_, fun link hl => ?_⟩
  · rw [← now]
    exact left
  · rcases after.elsewhere.links t link hl with old | new
    · cases (link_unlinked _ t).symm.trans old
    · exact new

/-! ## The stages -/

/-- A task asks nothing more, whatever happens. -/
theorem Over.happens (h : Over p i n times c) (happens : Happens E (some p) c job c') :
    Over p i n times c' ∧ Move.asks p ⟨c, job, c'⟩ = [] := by
  cases happens.affects h.apart (.inr rfl) with
  | aside b => exact ⟨h.beside b, Move.asks_of_not rfl⟩
  | clock now _ => exact ⟨h.withLoop (h.apart.loop.setNow now) rfl, Move.asks_of_not rfl⟩
  | other begins b others =>
    exact ⟨(h.withLoop begins.apart begins.promises).beside b,
      Move.asks_of_not (Job.drives_of_concerns (List.mem_singleton_self p) others)⟩
  | own begins pops mine =>
    obtain ⟨finished, asked⟩ := (h.withLoop pops.apart (pops.promises.trans begins.promises)).runJob (E := E) mine
    exact ⟨finished, Move.asks_of_asked asked⟩

/-- Whatever happens, a task that closes a process stays where it is, or goes on to the next stage. -/
theorem Stage.happens (stage : Stage p i n t launch.closeTimeout since moves c) (happens : Happens E (some p) c job c')
    (known : t < n) (carrier : (c.transportAt t).carrier = .process launch) (launched : i < c.children.size)
    (times : ∀ m ∈ moves, Loop.isDue c.loop.now m.source.loop.now = true) :
    Stage p i n t launch.closeTimeout since (moves ++ [⟨c, job, c'⟩]) c' := by
  have times' : ∀ m ∈ moves ++ [⟨c, job, c'⟩], Loop.isDue c.loop.now m.source.loop.now = true :=
    List.forall_mem_append.2 ⟨times, List.forall_mem_singleton.2 (isDue_refl rfl)⟩
  -- The process has exited: whatever the task has asked until then, it asks nothing more.
  have ends : ∀ {k : Activity} {c₁ : Client}, (∀ {c}, does E (goOn k (.ok .null)) c = does E (awaitDrain t i) c) →
      c₁.Alone p i n → c₁.HasExited i → c₁.asked = c.asked →
      (∀ {j d}, j ≤ 5 → Advances E p j [k] (.ok .null) c₁ d → c' = d.atRest) →
      Escalates i launch.closeTimeout since (moves ++ [⟨c, job, c'⟩]) (asksOf p moves) →
      Stage p i n t launch.closeTimeout since (moves ++ [⟨c, job, c'⟩]) c' :=
        fun drain alone exited asked goes escalates => by
    obtain ⟨d, j, le, drains, finished, same⟩ := alone.runs.drains (E := E) known exited drain
    obtain rfl := goes (by omega) drains
    exact .finished (finished.mono (List.nil_subset _))
      (asksOf_silent (Move.asks_of_asked (m := ⟨c, job, d.atRest⟩) (same.trans asked)) moves ▸ escalates)
  cases stage with
  | closed first waiting =>
    cases waiting.happens happens with
    | still waiting silent => exact .closed (asksOf_silent silent moves ▸ first) waiting
    | returns c₁ alone exited _ asked goes => exact ends rfl alone exited asked goes (.closed first)
    | expires l now alone turn past goes =>
      obtain ⟨d, j, le, terminates, asks, left⟩ := alone.terminates (E := E) carrier launched
      obtain rfl := goes le terminates
      have late := past.late times'
      have asked : asksOf p (moves ++ [⟨c, job, d.atRest⟩]) = asksOf p moves ++ [("terminate", c.loop.now)] := by
        rw [asksOf_append, Move.asks_of_append turn asks]
        rfl
      rcases left with stays | finished
      · exact .terminated _ first c.loop.now late asked (now ▸ stays.waiting _)
      · exact .finished (finished.mono (last_subset_timesOf i _ moves ⟨c, job, d.atRest⟩))
          (asked ▸ .terminated first c.loop.now late)
  | terminated before first time late asks waiting =>
    cases waiting.happens happens with
    | still waiting silent =>
      exact .terminated before first time (late.mono _) ((asksOf_silent silent moves).trans asks) waiting
    | returns c₁ alone exited _ asked goes =>
      exact ends rfl alone exited asked goes (asks ▸ .terminated first time (late.mono _))
    | expires l now alone turn past goes =>
      obtain ⟨d, j, le, kills, asks', finished⟩ := alone.kills (E := E) known launched
      obtain rfl := goes le kills
      refine .finished (finished.mono (List.nil_subset _)) ?_
      rw [asksOf_append, asks, Move.asks_of_append turn asks']
      exact .killed first time c.loop.now (late.mono _) (past.late times')
  | finished finished asks =>
    obtain ⟨finished, silent⟩ := finished.happens happens
    exact .finished (finished.mono (timesOf_subset i _ moves _)) (asksOf_silent silent moves ▸ asks.mono _)

/-! ## The whole course -/

/-- What is true in the course of closing a transport, before the first turn of the task and since. -/
structure Underway (t : TransportId) (p : PromiseId) (n : Nat) (moves : List Move) (c : Client) : Prop where
  known : t < n
  free : c.Free n
  times : ∀ m ∈ moves, Loop.isDue c.loop.now m.source.loop.now = true
  ready : moves.find? (·.isOf p) = none → c.Ready t p n ∧ asksOf p moves = []
  stage : ∀ {m launch pipe i}, moves.find? (·.isOf p) = some m → (m.source.transportAt t).carrier = .process launch →
    (m.source.transportAt t).link = some ⟨pipe, some i⟩ →
    (c.transportAt t).carrier = .process launch ∧ i < c.children.size ∧ m.source.children.size ≤ c.children.size ∧
      (∀ link, (c.transportAt t).link = some link → ∃ j, link.child = some j ∧ m.source.children.size ≤ j) ∧
      Stage p i n t launch.closeTimeout m.source.loop.now moves c

theorem Underway.next (h : Underway t p n moves c) (happens : Happens E (some p) c job c') :
    Underway t p n (moves ++ [⟨c, job, c'⟩]) c' := by
  have continues := happens.continues h.free
  have times : ∀ m ∈ moves ++ [⟨c, job, c'⟩], Loop.isDue c'.loop.now m.source.loop.now = true :=
    List.forall_mem_append.2 ⟨fun m mem => Loop.isDue_trans (h.times m mem) (continues 0).later,
      List.forall_mem_singleton.2 (continues 0).later⟩
  refine ⟨h.known, happens.free h.free, times, fun none => ?_, fun {m launch pipe i} first carrier link => ?_⟩
  · rw [List.find?_append, Option.or_eq_none_iff] at none
    have others : Move.isOf p ⟨c, job, c'⟩ = false := by simpa using none.2
    obtain ⟨ready, asks⟩ := h.ready none.1
    exact ⟨ready.next happens others, (asksOf_silent (Move.asks_of_not others) moves).trans asks⟩
  · rw [List.find?_append, Option.or_eq_some_iff] at first
    rcases first with first | ⟨none, first⟩
    · obtain ⟨carrier, launched, before, links, stage⟩ := h.stage first carrier link
      refine ⟨((continues i).carriers t).trans carrier, Nat.lt_of_lt_of_le launched (continues i).launched,
        Nat.le_trans before (continues i).launched, fun link hl => ?_,
        stage.happens happens h.known carrier launched h.times⟩
      rcases (continues i).links t link hl with old | ⟨j, e, new⟩
      · exact links link old
      · exact ⟨j, e, Nat.le_trans before new⟩
    · obtain ⟨turn, rfl⟩ : Move.isOf p ⟨c, job, c'⟩ = true ∧ ⟨c, job, c'⟩ = m := by
        cases turn : Move.isOf p ⟨c, job, c'⟩ <;> simp [turn] at first
        exact ⟨rfl, first⟩
      cases job with
      | none => cases turn
      | some job =>
        obtain ⟨ready, asks⟩ := h.ready none
        obtain ⟨texts, one, asked, left, links⟩ := ready.closes h.free h.known happens turn carrier link
        have asked : asksOf p (moves ++ [⟨c, some job, c'⟩]) = [] ∨
            asksOf p (moves ++ [⟨c, some job, c'⟩]) = [("close", c.loop.now)] := by
          rw [asksOf_append, asks, Move.asks_of_append turn asked]
          rcases one with rfl | rfl
          · exact .inl rfl
          · exact .inr rfl
        refine ⟨((continues i).carriers t).trans carrier,
          Nat.lt_of_lt_of_le ((h.free 0 0).launched link) (continues i).launched, (continues i).launched, links, ?_⟩
        rcases left with stays | finished
        · exact .closed asked (stays.waiting _)
        · exact .finished (finished.mono (last_subset_timesOf i _ moves ⟨c, some job, c'⟩)) (.closed asked)

theorem Course.underway (h : Course E t p moves c) : ∃ n, Underway t p n moves c := by
  induction h with
  | @asked c name reached known new =>
    subst new
    have free : Client.Free c.transports.size (does E (spawnNamed name (.closeTransport t)) c).2 := fun q i =>
      ((aside_spawnNamed (S := .nothing q i c.transports.size) name (a := .closeTransport t) known).keeps
        (reached.free q i)).1.apart
    exact ⟨c.transports.size, known, free, List.forall_mem_nil _, fun _ => ⟨reached.free.ready name t, rfl⟩,
      fun first => by cases first⟩
  | next _ happens ih =>
    obtain ⟨n, h⟩ := ih
    exact ⟨n, h.next happens⟩

end LspClient
