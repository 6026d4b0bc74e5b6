/-
The process of a transport never survives the transport's being closed. The task that closes it ends only once the
process has exited; it asks the process to terminate if its time is over, and kills it if its time is over again. From
the first turn on the transport is not open, unless it is opened again with another process, and closing it again does
nothing.
-/
import LspClient.Proofs.Process.Course

namespace LspClient

open Client

/-! ## Definitions -/

/-- The time that a process has to exit since some time is over, or it has none. -/
def IsOver (limit : Number) (since now : Float) : Prop :=
  limit.le (.int 0) = true ∨ ∃ s, limit.widen = .ok s ∧ Loop.isDue now (since + s) = true

/-- A task has failed because one of some times could not be measured. -/
def Client.Fails (p : PromiseId) (times : List Number) (c : Client) : Prop :=
  ∃ o, c.loop.outcome? p = some o ∧ o.IsUnmeasured times

/-- What is true since a task began to close a transport, whatever has happened since. -/
structure Closes (E : Executor) (t : TransportId) (p : PromiseId) (i : ChildId) (limit : Number) (start : Client)
    (moves : List Move) (c : Client) : Prop where
  /-- The task ends only once the process has exited, unless a time cannot be measured. -/
  returns : ∀ o, c.loop.outcome? p = some o → c.HasExited i ∨ o.IsUnmeasured (timesOf i limit moves)
  /-- What the task has asked of the process, in which order, and that the process was late when it was asked. -/
  asks : Escalates i limit start.loop.now moves (asksOf p moves)
  /-- Where nothing is left to run and the time is over, the process has exited or was asked to terminate. -/
  terminates : c.loop.next? = none → IsOver limit start.loop.now c.loop.now →
    c.HasExited i ∨ c.Fails p (timesOf i limit moves) ∨ ∃ time, ("terminate", time) ∈ asksOf p moves
  /-- Where nothing is left to run and the time since then is over, the process has exited; if it did not so by itself,
  it was killed. -/
  kills : c.loop.next? = none → ∀ time, ("terminate", time) ∈ asksOf p moves → IsOver limit time c.loop.now →
    c.HasExited i ∨ c.Fails p (timesOf i limit moves)
  /-- The transport is open only if it was opened again since, with another process. -/
  shut : (c.transportAt t).canWrite = true →
    ∃ link j, (c.transportAt t).link = some link ∧ link.child = some j ∧ start.children.size ≤ j
  /-- A transport that is not open refuses to be written on. -/
  refuses : (c.transportAt t).canWrite = false → ∀ text, does E (write t text) c = (.error Transport.notOpen, c)
  /-- Closing a transport that is not open does nothing. -/
  again : (c.transportAt t).canWrite = false → does E (closeTransport t) c = (.ok (.done .null), c)

variable {E : Executor} {c : Client} {p : PromiseId} {i : ChildId} {n : Nat} {t : TransportId} {limit : Number}
  {since : Float} {k : Activity} {moves : List Move} {m : Move} {launch : Launch} {pipe : PipeId}

/-! ## What is not open -/

/-- A task that waits has not ended. -/
theorem Waiting.outcome (h : Waiting p i n limit since k moves c) : c.loop.outcome? p = none := by
  cases h with
  | watches w own holds task =>
    obtain ⟨observers, closing⟩ := holds.shape.fits.closing
    exact task ▸ outcome_of_view closing
  | halts h own holds task =>
    obtain ⟨observers, closing⟩ := holds.shape.fits.closing
    exact task ▸ outcome_of_view closing

/-- Where nothing is left to run, a task waits for a process that has not exited yet, and the time is not over. -/
theorem Waiting.rests (h : Waiting p i n limit since k moves c) (nothing : c.loop.next? = none) :
    ¬ IsOver limit since c.loop.now := by
  cases h with
  | watches w own holds task child next s positive widen due =>
    rintro (finished | ⟨s', widen', come⟩)
    · cases positive.symm.trans finished
    · obtain rfl := Except.ok.inj (widen.symm.trans widen')
      have early := (holds.idle nothing).2
      rw [due] at early
      cases early.symm.trans come
  | halts h own holds => exact absurd nothing holds.ne_idle

theorem Stage.returns (stage : Stage p i n t limit since moves c) {o : Outcome} (ended : c.loop.outcome? p = some o) :
    c.HasExited i ∨ o.IsUnmeasured (timesOf i limit moves) := by
  cases stage with
  | closed _ waiting => cases waiting.outcome.symm.trans ended
  | terminated _ _ _ _ _ waiting => cases waiting.outcome.symm.trans ended
  | finished finished =>
    refine finished.exited.imp_right fun ⟨o', ended', unmeasured⟩ => ?_
    obtain rfl := Option.some.inj (ended'.symm.trans ended)
    exact unmeasured

theorem Stage.escalates (stage : Stage p i n t limit since moves c) :
    Escalates i limit since moves (asksOf p moves) := by
  cases stage with
  | closed first _ => exact .closed first
  | terminated before first time late asks _ => exact asks ▸ .terminated first time late
  | finished _ asks => exact asks

theorem Stage.terminates (stage : Stage p i n t limit since moves c) (nothing : c.loop.next? = none)
    (finished : IsOver limit since c.loop.now) :
    c.HasExited i ∨ c.Fails p (timesOf i limit moves) ∨ ∃ time, ("terminate", time) ∈ asksOf p moves := by
  cases stage with
  | closed _ waiting => exact absurd finished (waiting.rests nothing)
  | terminated before _ time _ asks _ =>
    refine .inr (.inr ⟨time, ?_⟩)
    rw [asks]
    exact List.mem_append_right _ (List.mem_singleton_self _)
  | finished finished _ => exact finished.exited.imp_right .inl

/-- Nothing but closing comes before a process is asked to terminate. -/
theorem not_mem_first {before : List (String × Float)} (first : before = [] ∨ before = [("close", since)])
    (time : Float) :
    ("terminate", time) ∉ before := by
  rcases first with rfl | rfl
  · exact List.not_mem_nil
  · have ne : "terminate" ≠ "close" := by decide
    exact fun mem => ne (congrArg Prod.fst (List.mem_singleton.1 mem))

theorem Stage.kills (stage : Stage p i n t limit since moves c) (nothing : c.loop.next? = none) {time : Float}
    (asked : ("terminate", time) ∈ asksOf p moves) (finished : IsOver limit time c.loop.now) :
    c.HasExited i ∨ c.Fails p (timesOf i limit moves) := by
  cases stage with
  | closed first _ => exact absurd asked (not_mem_first first time)
  | terminated before first time' _ asks waiting =>
    rw [asks] at asked
    rcases List.mem_append.1 asked with asked | asked
    · exact absurd asked (not_mem_first first time)
    · obtain rfl : time = time' := congrArg Prod.snd (List.mem_singleton.1 asked)
      exact absurd finished (waiting.rests nothing)
  | finished finished _ => exact finished.exited

/-! ## Closing a transport -/

/-- The first job that is ready is taken up, if any is. -/
def onward (E : Executor) (s : List Move × Client) : List Move × Client :=
  match s.2.loop.next? with
  | none => s
  | some (job, loop) =>
    let target := (does E (runJob job) { s.2 with loop }).2
    (s.1 ++ [⟨s.2, some job, target⟩], target)

theorem Client.Reached.onward {s : List Move × Client} (h : Reached E s.2) (n : Nat) :
    Reached E (n.repeat (LspClient.onward E) s).2 := by
  induction n with
  | zero => exact h
  | succ n ih =>
    show Reached E (LspClient.onward E (n.repeat (LspClient.onward E) s)).2
    unfold LspClient.onward
    split
    · exact ih
    · next next => exact ih.next (.job next)

theorem Course.onward {s : List Move × Client} (h : Course E t p s.1 s.2) (n : Nat) :
    Course E t p (n.repeat (LspClient.onward E) s).1 (n.repeat (LspClient.onward E) s).2 := by
  induction n with
  | zero => exact h
  | succ n ih =>
    show Course E t p (LspClient.onward E (n.repeat (LspClient.onward E) s)).1
      (LspClient.onward E (n.repeat (LspClient.onward E) s)).2
    unfold LspClient.onward
    split
    · exact ih
    · next next => exact ih.next (.job next)

end LspClient
