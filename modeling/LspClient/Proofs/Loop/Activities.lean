/-
What all tasks of a loop are in the middle of, taken together. Only a new task adds to it; a turn takes up what
its task has put down, and whatever else a loop does leaves it alone.
-/
import LspClient.Proofs.Loop.Turns
import Mathlib.Data.List.Basic

namespace LspClient.Loop

variable {φ ω : Type} {N : Notices ω} {running : Option PromiseId} {l l' l'' : Loop φ ω} {p q : PromiseId}
  {as bs : List φ}

/-! ## Definitions -/

/-- What all tasks have put down. -/
def activities (l : Loop φ ω) : List φ :=
  (List.range l.promises.size).flatMap l.stackOf

/-- A task that begins with an activity when its turn comes. -/
def Begins (l : Loop φ ω) (p : PromiseId) (a : φ) : Prop :=
  l.role? p = some (.task [a] none false) ∧ (none, .step p) ∈ l.ready

/-- Nothing is interrupted, and the tasks that are ready stay so. -/
structure Spares (l l' : Loop φ ω) : Prop where
  task : ∀ {p stack source}, l.role? p = some (.task stack source false) → l'.role? p = some (.task stack source false)
  ready : ∀ {p}, (none, .step p) ∈ l.ready → (none, .step p) ∈ l'.ready

/-- A loop goes on: tasks keep what they have put down, and new tasks are about to begin with some activities. -/
structure Grows (N : Notices ω) (running : Option PromiseId) (as : List φ) (l l' : Loop φ ω) : Prop where
  wf : WF N running l'
  size : l.promises.size ≤ l'.promises.size
  kept : ∀ p < l.promises.size, l'.stackOf p = l.stackOf p
  new : ∀ p, l.promises.size ≤ p → l'.stackOf p = [] ∨ ∃ a, l'.Begins p a
  activities : l'.activities = l.activities ++ as
  spares : l.Spares l'

theorem mem_activities {a : φ} (h : a ∈ l.stackOf p) : a ∈ l.activities := by
  refine List.mem_flatMap.2 ⟨p, List.mem_range.2 (Nat.lt_of_not_le fun hp => ?_), h⟩
  rw [stackOf_of_size_le hp] at h
  cases h

/-! ## Lists of lists -/

theorem flatMap_range_le {f g : Nat → List φ} {m n : Nat} (le : m ≤ n) (same : ∀ p < m, g p = f p)
    (new : ∀ p, m ≤ p → g p = []) : (List.range n).flatMap g = (List.range m).flatMap f := by
  obtain ⟨k, rfl⟩ := Nat.exists_eq_add_of_le le
  induction k with
  | zero =>
    rw [Nat.add_zero]
    exact List.flatMap_congr fun p hp => same p (List.mem_range.1 hp)
  | succ k ih =>
    rw [← Nat.add_assoc, List.range_succ, List.flatMap_append, ih (Nat.le_add_right m k), List.flatMap_singleton,
      new _ (Nat.le_add_right m k), List.append_nil]

/-- Lists that differ in one of several places. -/
theorem flatMap_range_swap {f g : Nat → List φ} {n : Nat} (hp : p < n) (same : ∀ q < n, q ≠ p → g q = f q) :
    ((List.range n).flatMap f ++ g p).Perm ((List.range n).flatMap g ++ f p) := by
  -- The place is the last one of the range, or one of those before it.
  induction n with
  | zero => cases hp
  | succ n ih =>
    rw [List.range_succ, List.flatMap_append, List.flatMap_append, List.flatMap_singleton, List.flatMap_singleton]
    by_cases last : p = n
    · have others : (List.range n).flatMap g = (List.range n).flatMap f :=
        List.flatMap_congr fun q hq => by
          have before := List.mem_range.1 hq
          exact same q (Nat.lt_succ_of_lt before) (last ▸ Nat.ne_of_lt before)
      rw [others, last, List.append_assoc, List.append_assoc]
      exact List.perm_append_comm.append_left _
    · have before : p < n := Nat.lt_of_le_of_ne (Nat.le_of_lt_succ hp) last
      have inner := ih before fun q hq => same q (Nat.lt_succ_of_lt hq)
      rw [same n (Nat.lt_succ_self n) (Ne.symm last), List.append_assoc, List.append_assoc]
      refine (List.perm_append_comm.append_left _).trans ?_
      rw [← List.append_assoc]
      refine (inner.append_right _).trans ?_
      rw [List.append_assoc]
      exact List.perm_append_comm.append_left _

/-! ## Sparing tasks -/

theorem Spares.refl (l : Loop φ ω) : l.Spares l :=
  ⟨id, id⟩

theorem Spares.trans (h : l.Spares l') (h' : l'.Spares l'') : l.Spares l'' :=
  ⟨fun hr => h'.task (h.task hr), fun hj => h'.ready (h.ready hj)⟩

theorem Spares.begins {a : φ} (h : l.Spares l') (b : l.Begins p a) : l'.Begins p a :=
  ⟨h.task b.1, h.ready b.2⟩

theorem spares_newPromise (l : Loop φ ω) (role : Role φ) : l.Spares (l.newPromise role).2 :=
  ⟨fun h => role?_newPromise_of_some h role, id⟩

theorem spares_schedule (l : Loop φ ω) (job : Job ω) : l.Spares (l.schedule job) :=
  ⟨id, fun h => List.mem_append_left _ h⟩

theorem spares_complete (l : Loop φ ω) (p : PromiseId) (o : Outcome) : l.Spares (l.complete p o) := by
  refine ⟨fun h => by rwa [role?_complete], fun h => ?_⟩
  unfold complete
  split
  · exact List.mem_append_left _ h
  · exact h

theorem spares_settle (l : Loop φ ω) (p : PromiseId) (o : Outcome) : l.Spares (l.settle p o) := by
  unfold settle
  split
  · exact spares_complete l p o
  · exact .refl l

theorem spares_observe (l : Loop φ ω) (p : PromiseId) (job : Job ω) : l.Spares (l.observe p job) := by
  refine ⟨fun h => by rwa [role?_observe], fun h => ?_⟩
  unfold observe
  split
  · exact List.mem_append_left _ h
  · exact h

theorem spares_gather (l : Loop φ ω) (members : List PromiseId) : l.Spares (l.gather members).2 := by
  have observed : ∀ (g : PromiseId) (ms : List PromiseId) (l : Loop φ ω),
      l.Spares (ms.foldl (fun l m => l.observe m (.member g m)) l) := by
    intro g ms
    induction ms with
    | nil => exact fun l => .refl l
    | cons m ms ih => exact fun l => (spares_observe l m _).trans (ih _)
  exact (spares_newPromise l _).trans (observed _ members _)

theorem spares_memberSettled (l : Loop φ ω) (g : PromiseId) : l.Spares (l.memberSettled g) := by
  unfold memberSettled
  split
  · next members left i h =>
    have counted : l.Spares (l.setRole g (.group members (left - 1) i)) :=
      ⟨fun hr => by rwa [role?_setRole_of_ne fun e => by rw [e, h] at hr; cases hr], id⟩
    dsimp only
    split
    · exact counted.trans (spares_complete _ g _)
    · exact counted
  · exact .refl l

theorem spares_callLater (l : Loop φ ω) (seconds : Float) (job : Job ω) : l.Spares (l.callLater seconds job).2 :=
  ⟨id, id⟩

/-- A task does not come from a timer. -/
theorem spares_cancelTimer (l : Loop φ ω) (timer : TimerId) : l.Spares (l.cancelTimer timer) := by
  refine ⟨id, fun h => List.mem_map.2 ⟨_, h, ?_⟩⟩
  exact if_neg nofun

theorem spares_beginRound (l : Loop φ ω) : l.Spares l.beginRound :=
  ⟨id, fun h => List.mem_append_left _ h⟩

/-- The next job is taken, and no other one. -/
theorem mem_ready_next? {job : Job ω} (next : l.next? = some (job, l')) (ready : (none, .step p) ∈ l.ready)
    (other : job ≠ .step p) : (none, .step p) ∈ l'.ready := by
  obtain ⟨m, hm, timer, rest, hr, rfl⟩ := next?_eq next
  have still : (none, .step p) ∈ m.ready := by
    rcases hm with rfl | rfl
    · exact ready
    · exact (spares_beginRound l).ready ready
  rw [hr] at still
  rcases List.mem_cons.1 still with e | still
  · exact absurd (Prod.mk.inj e).2.symm other
  · exact still

theorem role?_next? {job : Job ω} (next : l.next? = some (job, l')) (p : PromiseId) : l'.role? p = l.role? p := by
  obtain ⟨m, hm, timer, rest, _, rfl⟩ := next?_eq next
  rcases hm with rfl | rfl
  · rfl
  · rfl

theorem Begins.next? {job : Job ω} {a : φ} (b : l.Begins p a) (next : l.next? = some (job, l'))
    (other : job ≠ .step p) :
    l'.Begins p a :=
  ⟨(role?_next? next p).trans b.1, mem_ready_next? next b.2 other⟩

theorem spares_next? {job : Job ω} (next : l.next? = some (job, l')) (idle : ∀ p, job ≠ .step p) : l.Spares l' :=
  ⟨fun h => (role?_next? next _).trans h, fun h => mem_ready_next? next h (idle _)⟩

/-- Where nothing comes next, no task is about to begin. -/
theorem not_begins_of_next? (rest : l.next? = none) (p : PromiseId) (a : φ) : ¬ l.Begins p a := by
  rintro ⟨_, ready⟩
  unfold Loop.next? at rest
  by_cases hb : l.budget = 0
  · have still := (spares_beginRound l).ready ready
    simp only [hb, if_true] at rest
    split at rest
    · next nothing => rw [nothing] at still; cases still
    · cases rest
  · simp only [hb, if_false] at rest
    split at rest
    · next nothing => rw [nothing] at ready; cases ready
    · cases rest

/-! ## Going on -/

theorem Grows.refl (w : WF N running l) : Grows N running [] l l :=
  ⟨w, Nat.le_refl _, fun _ _ => rfl, fun _ hp => .inl (stackOf_of_size_le hp), (List.append_nil _).symm, .refl l⟩

theorem Grows.trans (h : Grows N running as l l') (h' : Grows N running bs l' l'') :
    Grows N running (as ++ bs) l l'' where
  wf := h'.wf
  size := Nat.le_trans h.size h'.size
  kept p hp := (h'.kept p (Nat.lt_of_lt_of_le hp h.size)).trans (h.kept p hp)
  new p hp := by
    by_cases old : p < l'.promises.size
    · rw [h'.kept p old]
      exact (h.new p hp).imp_right fun ⟨a, b⟩ => ⟨a, h'.spares.begins b⟩
    · exact h'.new p (Nat.le_of_not_lt old)
  activities := by rw [h'.activities, h.activities, List.append_assoc]
  spares := h.spares.trans h'.spares

/-- Where no task is made, tasks keep what they have put down. -/
theorem stackOf_of_moves {but : Option PromiseId} (m : Moves (fun _ => False) but l l') (other : but ≠ some p) :
    l'.stackOf p = l.stackOf p := by
  rcases m.stackOf other with same | ⟨_, _, never, _⟩
  · exact same
  · exact never.elim

theorem activities_of_moves (m : Moves (fun _ => False) none l l') : l'.activities = l.activities := by
  have kept : ∀ p, l'.stackOf p = l.stackOf p := fun p => stackOf_of_moves m nofun
  exact flatMap_range_le m.size (fun p _ => kept p) fun p hp => (kept p).trans (stackOf_of_size_le hp)

/-- Where tasks keep what they have put down and none is made, there is nothing new. -/
theorem grows_of_moves (m : Moves (fun _ => False) none l l') (w : WF N running l') (s : l.Spares l') :
    Grows N running [] l l' := by
  have kept : ∀ p, l'.stackOf p = l.stackOf p := fun p => stackOf_of_moves m nofun
  refine ⟨w, m.size, fun p _ => kept p, fun p hp => .inl ((kept p).trans (stackOf_of_size_le hp)), ?_, s⟩
  rw [List.append_nil]
  exact activities_of_moves m

/-- A new task is about to begin. -/
theorem begins_spawn (l : Loop φ ω) (a : φ) : (l.spawn a).2.Begins l.promises.size a :=
  ⟨(role?_newPromise ..).trans (if_pos rfl), List.mem_append_right _ (List.mem_singleton.2 rfl)⟩

theorem grows_spawn (w : WF N running l) (a : φ) : Grows N running [a] l (l.spawn a).2 := by
  have begins := begins_spawn l a
  have size : (l.spawn a).2.promises.size = l.promises.size + 1 := size_newPromise ..
  have kept : ∀ p < l.promises.size, (l.spawn a).2.stackOf p = l.stackOf p := fun p hp =>
    stackOf_congr ((role?_newPromise ..).trans (if_neg (Nat.ne_of_lt hp)))
  refine ⟨w.spawn a, by omega, kept, fun p hp => ?_, ?_, (spares_newPromise l _).trans (spares_schedule _ _)⟩
  · by_cases here : p = l.promises.size
    · rw [here]
      exact .inr ⟨a, begins⟩
    · exact .inl (stackOf_of_size_le (by omega))
  · unfold activities
    rw [size, List.range_succ, List.flatMap_append, List.flatMap_singleton, stackOf_of_role? begins.1,
      List.flatMap_congr fun p hp => kept p (List.mem_range.1 hp)]

/-! ## Turns -/

/-- A turn takes up what its task has put down. -/
theorem activities_resume (l : Loop φ ω) (p : PromiseId) :
    l.activities.Perm ((l.resume p).2.2.activities ++ (l.resume p).1) := by
  unfold resume
  split
  · next stack source i hr =>
    have taken : (l.setRole p (.task [] none false)).stackOf p = [] := stackOf_of_role? (role?_setRole_self hr _)
    have swapped := flatMap_range_swap (lt_size_of_role? hr) fun q _ hq =>
      stackOf_setRole_of_ne l hq (.task [] none false)
    rw [taken, stackOf_of_role? hr, List.append_nil] at swapped
    unfold activities
    rwa [size_setRole]
  · rw [List.append_nil]

/-- Other tasks begin when their turn comes. -/
theorem Begins.resume {a : φ} (b : l.Begins q a) (other : q ≠ p) : (l.resume p).2.2.Begins q a := by
  unfold Loop.resume
  split
  · exact ⟨(role?_setRole_of_ne other _).trans b.1, b.2⟩
  · exact b

theorem Begins.pause {a : φ} (b : l.Begins q a) (other : q ≠ p) (stack : List φ) : (l.pause p stack).Begins q a :=
  ⟨(role?_setRole_of_ne other _).trans b.1, List.mem_append_left _ b.2⟩

/-- A task that was not interrupted waits, and nothing is cancelled in its place. -/
theorem Begins.suspend {a : φ} (b : l.Begins q a) (other : q ≠ p) (calm : l.role? p = some (.task [] none false))
    (stack : List φ) (source : PromiseId) : (l.suspend p stack source).Begins q a := by
  have observed := (spares_observe l source (.wake p source)).begins b
  -- Only a task that was interrupted while it ran asks for what it waits for to be cancelled.
  have same : l.suspend p stack source =
      (l.observe source (.wake p source)).setRole p (.task stack (some source) false) := by
    unfold Loop.suspend
    rw [calm]
    exact if_neg Bool.false_ne_true
  rw [same]
  exact ⟨(role?_setRole_of_ne other _).trans observed.1, observed.2⟩

theorem spares_finish (l : Loop φ ω) (p : PromiseId) (o : Outcome) : l.Spares (l.finish p o) := by
  unfold finish
  split
  · exact spares_complete l p _
  · exact spares_complete l p _

/-- A turn puts down what is left to do. -/
theorem activities_of_putDown (m : Moves (fun _ => False) (some p) l l') (known : p < l.promises.size)
    (running : l.stackOf p = []) {stack : List φ} (put : l'.stackOf p = stack) :
    l'.activities.Perm (l.activities ++ stack) := by
  have others : ∀ q, q ≠ p → l'.stackOf q = l.stackOf q := fun q hq =>
    stackOf_of_moves m fun e => hq (Option.some.inj e).symm
  -- New promises have nothing put down, so that only the old ones count.
  have old : l'.activities = (List.range l.promises.size).flatMap l'.stackOf :=
    flatMap_range_le m.size (fun _ _ => rfl) fun q hq => by
      rw [others q (Nat.ne_of_gt (Nat.lt_of_lt_of_le known hq))]
      exact stackOf_of_size_le hq
  have swapped := flatMap_range_swap known fun q _ hq => others q hq
  rw [put, running, List.append_nil] at swapped
  rw [old]
  exact swapped.symm

end LspClient.Loop
