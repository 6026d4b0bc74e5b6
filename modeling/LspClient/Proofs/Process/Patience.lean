/-
A task that waits for the exit of a process, for as long as it may take, while anything else happens in the client. It
waits on until the process has exited, or until its time is over: if the time is over although it had begun with some,
there was a moment at which the time had come and the process had not exited.
-/
import LspClient.Proofs.Process.World

namespace LspClient

open Client

/-! ## Definitions -/

/-- Something that has happened: the client before and after it, and the job that was taken up for it. -/
structure Move where
  source : Client
  job : Option (Job Event)
  target : Client

/-- Whether a task has taken a turn. -/
def Move.isOf (p : PromiseId) (m : Move) : Bool :=
  m.job.any (·.drives p)

/-- What a task has asked of processes, and when. -/
def Move.asks (p : PromiseId) (m : Move) : List (String × Float) :=
  if m.isOf p then (m.target.asked.drop m.source.asked.length).map fun what => (what, m.source.loop.now) else []

/-- At some moment, a time had come and a process had not exited. -/
def Overdue (i : ChildId) (due : Float) (moves : List Move) : Prop :=
  ∃ m ∈ moves, ¬ m.source.HasExited i ∧ Loop.isDue m.source.loop.now due = true

/-- The time that a process has to exit was over before it did, or it had none. -/
def Expired (i : ChildId) (limit : Number) (since : Float) (moves : List Move) : Prop :=
  limit.le (.int 0) = true ∨ ∃ s, limit.widen = .ok s ∧ Overdue i (since + s) moves

/-- A task waits for a process to exit since some time, for as long as it may take; or its time is over, and it waits
for the end of a task that it has cancelled. -/
inductive Waiting (p : PromiseId) (i : ChildId) (n : Nat) (limit : Number) (since : Float) (k : Activity)
    (moves : List Move) (c : Client) : Prop
  | watches (w : Watch) (own : List PromiseId) (holds : w.Holds n (Overdue i w.due moves) own c) (task : w.task = p)
    (child : w.child = i) (next : w.next = k) (s : Float) (positive : limit.le (.int 0) = false)
    (widen : limit.widen = .ok s) (due : w.due = since + s)
  | halts (h : Halt) (own : List PromiseId) (holds : h.Holds n own c) (task : h.task = p) (child : h.child = i)
    (next : h.next = k) (past : Expired i limit since moves)

/-- What has become of a task that waited when something happens. -/
inductive Waited (E : Executor) (p : PromiseId) (i : ChildId) (n : Nat) (limit : Number) (since : Float) (k : Activity)
    (moves : List Move) (m : Move) : Prop
  | still (waiting : Waiting p i n limit since k (moves ++ [m]) m.target) (silent : m.asks p = [])
  | returns (c : Client) (alone : c.Alone p i n) (exited : c.HasExited i) (turn : m.isOf p = true)
    (asked : c.asked = m.source.asked)
    (goes : ∀ {j d}, j ≤ 5 → Advances E p j [k] (.ok .null) c d → m.target = d.atRest)
  | expires (l : Loop Activity Event) (now : l.now = m.source.loop.now)
    (alone : Client.Alone p i n { m.source with loop := l, running := some p }) (turn : m.isOf p = true)
    (past : Expired i limit since (moves ++ [m]))
    (goes : ∀ {j d}, j ≤ 5 → Advances E p j [k] (.error .timedOut) { m.source with loop := l, running := some p } d →
      m.target = d.atRest)

variable {E : Executor} {c c' d : Client} {p : PromiseId} {i : ChildId} {n : Nat} {limit : Number} {since due : Float}
  {k : Activity} {moves : List Move} {m : Move} {job : Option (Job Event)}

/-! ## Moves -/

theorem Overdue.mono (h : Overdue i due moves) (m : Move) : Overdue i due (moves ++ [m]) :=
  have ⟨m', mem, h⟩ := h
  ⟨m', List.mem_append_left _ mem, h⟩

theorem Overdue.last (alive : ¬ m.source.HasExited i) (come : Loop.isDue m.source.loop.now due = true) :
    Overdue i due (moves ++ [m]) :=
  ⟨m, List.mem_append_right _ (List.mem_singleton_self m), alive, come⟩

theorem Expired.mono (h : Expired i limit since moves) (m : Move) : Expired i limit since (moves ++ [m]) :=
  h.imp id fun ⟨s, widen, overdue⟩ => ⟨s, widen, overdue.mono m⟩

/-- What is asked in a turn that appends to what was asked before. -/
theorem Move.asks_of_append (turn : m.isOf p = true) {texts : List String}
    (asked : m.target.asked = m.source.asked ++ texts) :
    m.asks p = texts.map fun what => (what, m.source.loop.now) := by
  unfold asks
  rw [if_pos turn, asked, List.drop_left]

theorem Move.asks_of_not (others : m.isOf p = false) : m.asks p = [] := by
  unfold asks
  rw [if_neg (by rw [others]; nofun)]

theorem Move.asks_of_asked (asked : m.target.asked = m.source.asked) : m.asks p = [] := by
  cases turn : m.isOf p with
  | false => exact asks_of_not turn
  | true =>
    exact asks_of_append turn (show m.target.asked = m.source.asked ++ [] from asked.trans (List.append_nil _).symm)

/-- A job that lets a task run on does something to it. -/
theorem Job.drives_of_concerns {own : List PromiseId} {job : Job Event} (mine : p ∈ own)
    (others : job.concerns own = false) :
    job.drives p = false := by
  refine Bool.eq_false_iff.2 fun drives => ?_
  rcases Job.drives_iff.1 drives with rfl | ⟨q, rfl⟩ <;> exact Job.concerns_eq_false.1 others p rfl mine

/-- A task has begun to wait. -/
theorem Stays.waiting (h : Stays p i n limit since k c) (moves : List Move) : Waiting p i n limit since k moves c := by
  cases h with
  | waits w own holds task child next s positive widen due =>
    exact .watches w own (holds _) task child next s positive widen due
  | halts h own holds task child next nothing => exact .halts h own holds task child next (.inl nothing)

/-! ## The task is called -/

theorem does_runJob_wake {q : PromiseId} {o : Outcome} (settled : c.loop.outcome? q = some o) (p : PromiseId) :
    does E (runJob (.wake p q)) c = does E (runTask p o) c := by
  unfold runJob
  rw [does_bind_of_ok (does_get c), settled]

/-- A task that waits for the exit is called. -/
theorem Watch.Called.waited {w : Watch} {own : List PromiseId} {l : Loop Activity Event}
    (called : w.Called n (Overdue i w.due (moves ++ [m])) own { m.source with loop := l })
    (child : w.child = i) {s : Float} (widen : limit.widen = .ok s) (due : w.due = since + s)
    (job : m.job = some w.call) (target : m.target = (does E (runJob w.call) { m.source with loop := l }).2) :
    Waited E w.task i n limit since w.next moves m := by
  obtain ⟨observers, closing⟩ := called.fits.closing
  have turn : m.isOf w.task = true := by
    unfold Move.isOf
    rw [job]
    exact beq_self_eq_true w.task
  have runs : ∀ {j d}, j ≤ taskFuel → Advances E w.task j [.withinAwaited w.inner w.bell w.timer, w.next] (.ok .null)
      (Client.resumed { m.source with loop := l } w.task) d → m.target = d.atRest := fun le goes => by
    have run := goes.does_runTask (o := .ok .null) (role_of_view closing) le
    rw [target, show w.call = .wake w.task w.bell from rfl, does_runJob_wake (outcome_of_view called.rung), run]
  have past : Overdue i w.due (moves ++ [m]) → Expired i limit since (moves ++ [m]) :=
    fun late => .inr ⟨s, widen, due ▸ late⟩
  have gives : ∀ {source}, w.Unfinished (Client.view (w.share n own) { m.source with loop := l }) source →
      Expired i limit since (moves ++ [m]) → Waited E w.task i n limit since w.next moves m := fun unfinished past => by
    obtain ⟨h, own', d, holds, task, child', next, notes, goes⟩ := called.gives_up (E := E) unfinished
    have left := runs (by unfold taskFuel; omega) goes
    refine .still (.halts h own' ?_ task (child'.trans child) next past) (Move.asks_of_asked ?_)
    · rw [left]
      exact holds
    · rw [left]
      exact asked_congr notes
  cases called.found with
  | waits exit inner late core => exact gives (.waits exit inner core rfl) (past late)
  | woken exit inner late core => exact gives (.woken exit inner core rfl) (past late)
  | ended ended nothing =>
    obtain ⟨d, alone, exited, notes, goes⟩ := called.goes_on (E := E) ended nothing
    exact .returns d (child ▸ alone) (child ▸ exited) turn (asked_congr notes)
      fun le on => runs (by unfold taskFuel; omega) (goes on)

/-- A task that waits for the end of a cancelled one is called. -/
theorem Halt.Called.waited {h : Halt} {own : List PromiseId} {l : Loop Activity Event}
    (called : h.Called n own { m.source with loop := l }) (child : h.child = i) (now : l.now = m.source.loop.now)
    (past : Expired i limit since (moves ++ [m])) (job : m.job = some h.call)
    (target : m.target = (does E (runJob h.call) { m.source with loop := l }).2) :
    Waited E h.task i n limit since h.next moves m := by
  obtain ⟨observers, closing⟩ := called.fits.closing
  have turn : m.isOf h.task = true := by
    unfold Move.isOf
    rw [job]
    exact beq_self_eq_true h.task
  obtain ⟨l', alone, now', goes⟩ := called.goes_on (E := E)
  refine .expires l' (now'.trans now) (child ▸ alone) turn past fun le on => ?_
  have run := (goes on).does_runTask (o := .ok .null) (role_of_view closing) (by unfold taskFuel; omega)
  rw [target, show h.call = .wake h.task h.waiter from rfl, does_runJob_wake (outcome_of_view called.rung), run]

/-! ## Whatever happens -/

/-- Whatever happens, a task that waits waits on, or goes on because the process has exited, or because its time is
over. -/
theorem Waiting.happens (h : Waiting p i n limit since k moves c) (happens : Happens E (some p) c job c') :
    Waited E p i n limit since k moves ⟨c, job, c'⟩ := by
  cases h with
  | watches w own holds task child next s positive widen due =>
    subst task child next
    have still : ∀ {own}, w.Holds n (Overdue w.child w.due (moves ++ [⟨c, job, c'⟩])) own c' →
        Waiting w.task w.child n limit since w.next (moves ++ [⟨c, job, c'⟩]) c' := fun holds =>
      .watches w _ holds rfl rfl rfl s positive widen due
    have late : ¬ c.HasExited w.child → Loop.isDue c.loop.now w.due = true →
        Overdue w.child w.due (moves ++ [⟨c, job, c'⟩]) := Overdue.last (m := ⟨c, job, c'⟩)
    have older : Overdue w.child w.due moves → Overdue w.child w.due (moves ++ [⟨c, job, c'⟩]) := fun h => h.mono _
    cases happens.affects holds.apart (.inr rfl) with
    | aside b => exact .still (still (holds.elsewhere b late older)) (Move.asks_of_not rfl)
    | clock now later =>
      exact .still (still ((holds.elsewhere holds.apart.beside late older).setNow later)) (Move.asks_of_not rfl)
    | other begins b others =>
      have begun := holds.begins begins
      refine .still (still (begun.elsewhere b (fun alive come => late alive ?_) older)) (Move.asks_of_not ?_)
      · exact begins.now ▸ come
      · exact Job.drives_of_concerns holds.task others
    | @own job m l begins pops mine =>
      have late' : ¬ c.HasExited w.child → Loop.isDue m.now w.due = true →
          Overdue w.child w.due (moves ++ [⟨c, some job, _⟩]) := fun alive come => late alive (begins.now ▸ come)
      rcases (holds.begins begins).take (E := E) pops mine late' older with ⟨others, own', holds⟩ | ⟨rfl, called⟩
      · exact .still (still holds) (Move.asks_of_not others)
      · exact called.waited rfl widen due rfl rfl
  | halts h own holds task child next past =>
    subst task child next
    have still : ∀ {own}, h.Holds n own c' → Waiting h.task h.child n limit since h.next (moves ++ [⟨c, job, c'⟩]) c' :=
      fun holds => .halts h _ holds rfl rfl rfl (past.mono _)
    have mine : h.task ∈ own := (promise_of_view holds.shape.fits.closing.choose_spec).1
    cases happens.affects holds.apart (.inr rfl) with
    | aside b => exact .still (still (holds.elsewhere b)) (Move.asks_of_not rfl)
    | clock now later => exact .still (still (holds.setNow now)) (Move.asks_of_not rfl)
    | other begins b others =>
      exact .still (still ((holds.begins begins).elsewhere b)) (Move.asks_of_not (Job.drives_of_concerns mine others))
    | @own job m l begins pops mine =>
      rcases (holds.begins begins).take (E := E) pops mine with ⟨others, holds⟩ | ⟨rfl, called⟩
      · exact .still (still holds) (Move.asks_of_not others)
      · exact called.waited rfl (pops.now.trans begins.now) (past.mono _) rfl rfl

end LspClient
