/-
Turns of the tasks of a share, activity by activity, and what they change of what is shown of the share.
-/
import LspClient.Proofs.Process.Presents

namespace LspClient

open Client

variable {E : Executor} {S : Share} {c c' d : Client} {p q r : PromiseId} {a : Activity} {rest stack : List Activity}
  {o : Outcome} {n : Nat}

/-! ## Turns -/

/-- A turn of a task of at most so many activities, from an outcome with which the innermost activity goes on, to the
client that is left when the task waits or has ended. -/
inductive Advances (E : Executor) (p : PromiseId) : Nat → List Activity → Outcome → Client → Client → Prop
  | ends {n : Nat} {o : Outcome} {c : Client} : Advances E p (n + 1) [] o c { c with loop := c.loop.finish p o }
  | step {n : Nat} {a : Activity} {rest stack : List Activity} {o o' : Outcome} {c c' d : Client}
    (goes : Moment.GoesTo p rest (does E (goOn a o) c) (some (stack, o'), c')) (next : Advances E p n stack o' c' d) :
    Advances E p (n + 1) (a :: rest) o c d
  | waits {n : Nat} {a : Activity} {rest : List Activity} {o : Outcome} {c d : Client}
    (goes : Moment.GoesTo p rest (does E (goOn a o) c) (none, d)) : Advances E p (n + 1) (a :: rest) o c d

/-- An activity leaves one thing to do. -/
theorem goesTo_unique {x : Except Fault Next × Client} {y z : Option (List Activity × Outcome) × Client}
    (h : Moment.GoesTo p rest x y) (h' : Moment.GoesTo p rest x z) : y = z := by
  cases h with
  | ready k ho =>
    cases h' with
    | ready _ ho' => rw [Option.some.inj (ho.symm.trans ho')]
    | wait _ ho' => rw [ho] at ho'; cases ho'
  | wait k ho =>
    cases h' with
    | ready _ ho' => rw [ho] at ho'; cases ho'
    | wait => rfl
  | _ => cases h'; rfl

theorem does_runActivity_of {t : Option (List Activity × Outcome)}
    (goes : Moment.GoesTo p rest (does E (goOn a o) c) (t, d)) : does E (runActivity p a rest o) c = (.ok t, d) := by
  obtain ⟨t', d', h, goes'⟩ := Moment.does_runActivity (E := E) p a rest o c
  cases goesTo_unique goes goes'
  exact h

theorem Advances.does_runStack (h : Advances E p n stack o c d) {fuel : Nat} (le : n ≤ fuel) :
    does E (runStack p fuel stack o) c = (.ok (), d) := by
  induction h generalizing fuel with
  | ends =>
    obtain ⟨fuel, rfl⟩ := Nat.exists_eq_add_of_le' (Nat.one_le_of_lt le)
    rfl
  | step goes next ih =>
    obtain ⟨fuel, rfl⟩ := Nat.exists_eq_add_of_le' (Nat.one_le_of_lt le)
    exact (does_bind_of_ok (does_runActivity_of goes) _).trans (ih (Nat.le_of_succ_le_succ le))
  | waits goes =>
    obtain ⟨fuel, rfl⟩ := Nat.exists_eq_add_of_le' (Nat.one_le_of_lt le)
    exact does_bind_of_ok (does_runActivity_of goes) _

/-- A task that takes up what it is in the middle of. -/
def Client.resumed (c : Client) (p : PromiseId) : Client :=
  { c with loop := c.loop.setRole p (.task [] none false), running := some p }

/-- A client in which no task runs. -/
def Client.atRest (c : Client) : Client :=
  { c with running := none }

theorem Advances.does_runTask {source : Option PromiseId} {i : Bool}
    (role : c.loop.role? p = some (.task stack source i))
    (goes : Advances E p n stack (if i then .error .cancelled else o) (c.resumed p) d) (le : n ≤ taskFuel) :
    does E (runTask p o) c = (.ok (), d.atRest) := by
  have first : does E (runTask p o) c = does E (do
      runStack p taskFuel (c.loop.resume p).1 (if (c.loop.resume p).2.1 then .error .cancelled else o)
      modify fun c => { c with running := none }) { c with loop := (c.loop.resume p).2.2, running := some p } := rfl
  rw [first, Loop.resume_eq role]
  exact does_bind_of_ok (goes.does_runStack le) _

/-! ## What belongs to the share changes -/

namespace View

variable {v : View} {x y : Promise Activity Event}

@[simp] theorem set_set (v : View) (r : PromiseId) (x y : Promise Activity Event) :
    (v.set r x).set r y = v.set r y := by
  refine View.ext (funext fun q => ?_) rfl rfl rfl rfl rfl
  show (if q = r then _ else if q = r then _ else _) = if q = r then _ else _
  split <;> rfl

theorem set_comm (h : q ≠ r) (v : View) (x y : Promise Activity Event) : (v.set q x).set r y = (v.set r y).set q x := by
  refine View.ext (funext fun s => ?_) rfl rfl rfl rfl rfl
  show (if s = r then _ else if s = q then _ else _) = if s = q then _ else if s = r then _ else _
  by_cases e : s = r
  · rw [if_pos e, if_neg (e ▸ h.symm), if_pos e]
  · rw [if_neg e, if_neg e]

/-- A promise is made and changed while another one is changed and changed back. -/
theorem set_around (h : q ≠ r) (v : View) (x x' y y' : Promise Activity Event) :
    (((v.set q x).set r y).set r y').set q x' = (v.set q x').set r y' := by
  rw [set_set, set_comm h.symm, set_set]

@[simp] theorem promise_set_self (v : View) (r : PromiseId) (x : Promise Activity Event) :
    (v.set r x).promise r = some x :=
  if_pos rfl

theorem promise_set_of_ne (h : q ≠ r) (v : View) (x : Promise Activity Event) : (v.set r x).promise q = v.promise q :=
  if_neg h

end View

namespace Client

variable {v : View}

/-- What is left of a task of the share when it ends at once. -/
def endsWith (c : Client) (r : PromiseId) (o : Outcome) : Client :=
  { c with loop := (c.loop.setRole r (.task [] none false)).complete r o, running := none }

theorem Presents.endsWith (h : c.Presents S v) {observers : List (Job Event)} {role : Role Activity}
    (known : v.promise r = some ⟨none, observers, role⟩) (all : ∀ job ∈ observers, job.concerns S.heard = true)
    (o : Outcome) :
    (c.endsWith r o).Presents S ((v.set r ⟨some o, [], .task [] none false⟩).adds observers) := by
  have ended := ((h.setRole known (.task [] none false)).complete (View.promise_set_self ..) all o).running none
  rw [View.set_set] at ended
  exact ended

theorem Presents.resumed (h : c.Presents S v) {x : Promise Activity Event} (known : v.promise p = some x) :
    (c.resumed p).Presents S (v.set p { x with role := .task [] none false }) :=
  (h.setRole known _).running (some p)

/-- A running task of the share begins to wait for a promise of the share. -/
theorem Presents.suspend (h : c.Presents S v) {observers waiting : List (Job Event)} {role : Role Activity}
    (known : v.promise p = some ⟨none, observers, .task [] none false⟩)
    (source : v.promise q = some ⟨none, waiting, role⟩) (ne : p ≠ q) (stack : List Activity) :
    Client.Presents { c with loop := c.loop.suspend p stack q } S
      ((v.set q ⟨none, waiting ++ [.wake p q], role⟩).set p ⟨none, observers, .task stack (some q) false⟩) := by
  have observed := h.observe source
    (Job.fits_of_target? (show Job.target? (.wake p q : Job Event) = some p from rfl) (h.lt_size known))
  have suspended : c.loop.suspend p stack q =
      (c.loop.observe q (.wake p q)).setRole p (.task stack (some q) false) := by
    unfold Loop.suspend
    rw [h.role known]
    rfl
  rw [suspended]
  exact observed.setRole ((View.promise_set_of_ne ne ..).trans known) _

end Client

/-! ## Turns that are short -/

/-- The process has exited. -/
theorem goOn_awaitExit_done {i : ChildId} (exited : c.HasExited i) :
    does E (goOn (.awaitExit i) (.ok .null)) c = (.ok (.done .null), c) := by
  have first : does E (child i) c = (.ok (c.childAt i), c) := rfl
  show does E (awaitExit i) c = _
  unfold awaitExit
  unfold HasExited at exited
  rw [does_bind_of_ok first, if_pos exited]
  rfl

/-- The process runs: whoever waits for its exit is noted. -/
theorem goOn_awaitExit_waits {i : ChildId} (running : ¬ c.HasExited i) :
    does E (goOn (.awaitExit i) (.ok .null)) c = (.ok (.await c.loop.promises.size .relay), { c with
      loop := (c.loop.newPromise .plain).2
      children := c.children.modify i fun x => { x with waiters := x.waiters ++ [c.loop.promises.size] } }) := by
  have first : does E (child i) c = (.ok (c.childAt i), c) := rfl
  show does E (awaitExit i) c = _
  unfold awaitExit
  unfold HasExited at running
  rw [does_bind_of_ok first, if_neg running]
  rfl

theorem Loop.outcome?_new (l : Loop Activity Event) (role : Role Activity) :
    (l.newPromise role).2.outcome? l.promises.size = none :=
  (outcome?_newPromise ..).trans (outcome?_eq_none (Nat.le_refl _))

theorem finish_of_role {l : Loop Activity Event} {p : PromiseId} (role : l.role? p = some (.task [] none false)) :
    l.finish p o = l.complete p o := by
  unfold Loop.finish
  rw [role]

/-- A task ends within one activity. -/
theorem does_runTask_ends {p : PromiseId} {a : Activity} {source : Option PromiseId} {i : Bool} {r : Outcome}
    (role : c.loop.role? p = some (.task [a] source i))
    (goes : Moment.GoesTo p [] (does E (goOn a (if i then .error .cancelled else o)) (c.resumed p)) (some ([], r),
      c.resumed p)) :
    does E (runTask p o) c = (.ok (), c.endsWith p r) := by
  have ends : Advances E p 2 [a] (if i then .error .cancelled else o) (c.resumed p) _ := .step goes .ends
  rw [ends.does_runTask role (by unfold taskFuel; omega)]
  unfold Client.atRest Client.resumed
  dsimp only
  rw [finish_of_role (Loop.role?_setRole_self role _)]
  rfl

end LspClient
