/-
Dispatching while handlers use the router themselves. A handler, the hook for failing handlers and whoever else uses a
router may do anything with it, in any order and depending on all that happened before: subscribe and take back, clear,
ask, dispatch again, and fail. What a dispatch does is the dispatch that sessions run, with handlers and a hook that do
such things. One call of a handler keeps a history lawful if the dispatches inside it do, so a whole dispatch does, by
induction on its handlers; and dispatches inside dispatches do, by induction on how deep they may be nested.
-/
import LspClient.Client.Handlers
import LspClient.Proofs.Client.Does
import LspClient.Proofs.Router.Laws

namespace LspClient.Router

/-! ## Definitions -/

variable {η : Type}

/-- What is done with a router. What follows an operation depends on its answer. -/
inductive Code (η : Type) where
  | done
  | raise (f : Fault)
  | subscribe (method : String) (handler : η) (next : Except Fault Nat → Code η)
  | unsubscribe (method : String) (id : Nat) (next : Code η)
  | clear (next : Code η)
  | handlers (method : String) (next : List η → Code η)
  | methods (next : List String → Code η)
  | dispatch (method : String) (params : Value) (next : Except Fault Nat → Code η)
  /-- Looks back at everything that happened. -/
  | remember (next : List (Event η) → Code η)

/-- What the handlers of a router do, and its hook for failing handlers, if it has one. -/
structure Users (η : Type) where
  handler : η → Value → Code η
  hook : Option (String → Fault → Code η) := none

/-- Calls the handlers of a method, and a hook for each that fails. The hook may fail itself. -/
def dispatchGuarded {m : Type → Type} [Monad m] [MonadExcept Fault m] (r : Router η) (method : String)
    (call : η → m Unit) (failed hook hookFailed : Fault → m Unit) : m Nat :=
  r.dispatch method call fun f => do
    failed f
    tryCatch (hook f) fun g => if g.isCancellation then throw g else hookFailed g

/-- An operation on a router that may fail. -/
abbrev TrackedM (η : Type) := ExceptT Fault (StateM (Tracked η))

/-- Runs an operation and answers how it came out. -/
def outcomeOf {α : Type} (op : TrackedM η α) : TrackedM η (Except Fault α) :=
  tryCatch (do return .ok (← op)) fun f => return .error f

/-- Something else happens. -/
def note (e : Event η) : TrackedM η Unit :=
  modify fun t => t.note e

/-- Runs an operation, and notes how it came out. -/
def noting {α : Type} (op : TrackedM η α) (e : Except Fault α → Event η) : TrackedM η α := do
  let outcome ← outcomeOf op
  note (e outcome)
  MonadExcept.ofExcept outcome

/-- Does what is to be done with a router, with a way to dispatch. -/
def Code.run (dispatch : String → Value → TrackedM η Nat) : Code η → TrackedM η Unit
  | .done => pure ()
  | .raise f => throw f
  | .subscribe method handler next => do
    let t ← get
    match t.router.subscribe method handler with
    | .ok (id, r) =>
      set (⟨r, t.history ++ [.subscribed method id handler]⟩ : Tracked η)
      run dispatch (next (.ok id))
    | .error f => run dispatch (next (.error f))
  | .unsubscribe method id next => do
    modify fun t => ⟨t.router.unsubscribe method id, t.history ++ [.unsubscribed method id]⟩
    run dispatch next
  | .clear next => do
    modify fun t => ⟨t.router.clear, t.history ++ [.cleared]⟩
    run dispatch next
  | .handlers method next => do
    let hs := (← get).router.handlers method
    note (.listed method hs)
    run dispatch (next hs)
  | .methods next => do
    let ms := (← get).router.methodNames
    note (.named ms)
    run dispatch (next ms)
  | .dispatch method params next => do
    let outcome ← outcomeOf (dispatch method params)
    run dispatch (next outcome)
  | .remember next => do
    let t ← get
    run dispatch (next t.history)

namespace Users

/-- Calls a handler as part of a dispatch. -/
def call (u : Users η) (inner : String → Value → TrackedM η Nat) (d : Nat) (params : Value) (h : η) :
    TrackedM η Unit := do
  note (.called d h params)
  noting ((u.handler h params).run inner) (.returned d h)

/-- Tells the hook about a fault. -/
def tell (u : Users η) (inner : String → Value → TrackedM η Nat) (d : Nat) (method : String) (f : Fault) :
    TrackedM η Unit := do
  match u.hook with
  | none => pure ()
  | some hook =>
    note (.told d method f)
    noting ((hook method f).run inner) (.heard d)

/-- A dispatch whose handlers have a way to dispatch. -/
def dispatchWith (u : Users η) (inner : String → Value → TrackedM η Nat) (method : String) (params : Value) :
    TrackedM η Nat := do
  let t ← get
  let d := t.history.length
  note (.began method params)
  noting (t.router.dispatchGuarded method (u.call inner d params) (fun _ => pure ()) (u.tell inner d method)
    fun _ => pure ()) (.ended d)

/-- A dispatch. Those that are nested too deep are refused, as a stack refuses to grow. -/
def dispatch (u : Users η) : Nat → String → Value → TrackedM η Nat
  | 0, _, _ => throw (.other "RecursionError" "maximum recursion depth exceeded")
  | depth + 1, method, params => u.dispatchWith (u.dispatch depth) method params

end Users

variable {α : Type} {u : Users η} {inner : String → Value → TrackedM η Nat} {t t' : Tracked η} {hooked : Bool}
  {method : String} {params : Value} {handlers : List η} {events : List (Event η)} {n : Nat}

/-! ## Single operations -/

theorem exec_note (e : Event η) (t : Tracked η) : exec (note e) t = (.ok (), t.note e) := rfl

theorem exec_outcomeOf (op : TrackedM η α) (t : Tracked η) :
    exec (outcomeOf op) t = (.ok (exec op t).1, (exec op t).2) := by
  unfold outcomeOf
  rw [exec_tryCatch, exec_bind]
  rcases exec op t with ⟨f | a, t'⟩
  · rfl
  · rfl

theorem exec_noting (op : TrackedM η α) (e : Except Fault α → Event η) (t : Tracked η) :
    exec (noting op e) t = ((exec op t).1, (exec op t).2.note (e (exec op t).1)) := by
  unfold noting
  rw [exec_bind_of_ok (exec_outcomeOf op t), exec_bind_of_ok (exec_note _ _)]
  cases (exec op t).1 with
  | ok a => rfl
  | error f => rfl

/-- Calls that keep the law: what follows them is lawful, and leaves the dispatches alone that had begun. -/
def Keeps (hooked : Bool) (op : TrackedM η α) : Prop :=
  ∀ t : Tracked η, t.Sound → Lawful hooked t.history → Follows hooked t (exec op t).2

theorem Keeps.outcomeOf {op : TrackedM η α} (h : Keeps hooked op) : Keeps hooked (outcomeOf op) := by
  intro t s l
  rw [exec_outcomeOf]
  exact h t s l

theorem Keeps.bind {β : Type} {op : TrackedM η α} {f : α → TrackedM η β} (h : Keeps hooked op)
    (next : ∀ a, Keeps hooked (f a)) : Keeps hooked (op >>= f) := by
  intro t s l
  have first := h t s l
  rw [exec_bind]
  rcases same : exec op t with ⟨e | a, t'⟩
  · rw [same] at first
    exact first
  · rw [same] at first
    exact first.trans (next a t' first.sound first.lawful)

/-- Whatever is done with a router keeps the law, if the dispatches in it do. -/
theorem keeps_run (h : ∀ method params, Keeps hooked (inner method params)) (code : Code η) :
    Keeps hooked (code.run inner) := by
  induction code with
  | done | raise => exact fun t s l => .refl s l
  | subscribe method handler next ih =>
    intro t s l
    unfold Code.run
    rw [exec_bind_of_ok (exec_get t)]
    cases subscribed : t.router.subscribe method handler with
    | ok r =>
      obtain ⟨id, r⟩ := r
      have step : Follows hooked t ⟨r, t.history ++ [.subscribed method id handler]⟩ :=
        follows_of_step (s.subscribe subscribed) l (s.new subscribed) rfl nofun
      exact step.trans (ih (.ok id) _ step.sound step.lawful)
    | error f => exact ih (.error f) t s l
  | unsubscribe method id next ih =>
    intro t s l
    have step : Follows hooked t ⟨t.router.unsubscribe method id, t.history ++ [.unsubscribed method id]⟩ :=
      follows_of_step (s.unsubscribe method id) l trivial rfl nofun
    exact step.trans (ih _ step.sound step.lawful)
  | clear next ih =>
    intro t s l
    have step : Follows hooked t ⟨t.router.clear, t.history ++ [.cleared]⟩ :=
      follows_of_step s.clear l trivial rfl nofun
    exact step.trans (ih _ step.sound step.lawful)
  | handlers method next ih =>
    intro t s l
    have step : Follows hooked t (t.note (.listed method (t.router.handlers method))) :=
      follows_of_step (s.note rfl) l (s.handlers method) rfl nofun
    exact step.trans (ih _ _ step.sound step.lawful)
  | methods next ih =>
    intro t s l
    have step : Follows hooked t (t.note (.named t.router.methodNames)) :=
      follows_of_step (s.note rfl) l ⟨s.wf.distinct, s.mem_methodNames⟩ rfl nofun
    exact step.trans (ih _ _ step.sound step.lawful)
  | dispatch method params next ih => exact (h method params).outcomeOf.bind ih
  | remember next ih =>
    intro t s l
    exact ih t.history t s l

/-! ## Calls of handlers -/

/-- A handler is called and comes back. -/
theorem underWay_call (keeps : ∀ method params, Keeps hooked (inner method params))
    (w : UnderWay hooked t method params events t') (h : η) :
    ∃ outcome t'', exec (u.call inner t.history.length params h) t' = (outcome, t'') ∧
      UnderWay hooked t method params
        (events ++ [.called t.history.length h params] ++ [.returned t.history.length h outcome]) t'' := by
  have called := w.note (e := .called t.history.length h params) rfl id rfl rfl
  have inside := called.follows (keeps_run keeps (u.handler h params) _ called.sound called.lawful)
  rcases ran : exec ((u.handler h params).run inner) (t'.note (.called t.history.length h params)) with ⟨outcome, t₁⟩
  rw [ran] at inside
  refine ⟨outcome, t₁.note (.returned t.history.length h outcome), ?_, inside.note rfl id rfl rfl⟩
  unfold Users.call
  rw [exec_bind_of_ok (exec_note _ _), exec_noting, ran]

/-- The hook is called and comes back. -/
theorem underWay_tell {hook : String → Fault → Code η} (has : u.hook = some hook)
    (keeps : ∀ method params, Keeps hooked (inner method params)) (w : UnderWay hooked t method params events t')
    (f : Fault) :
    ∃ outcome t'', exec (u.tell inner t.history.length method f) t' = (outcome, t'') ∧
      UnderWay hooked t method params
        (events ++ [.told t.history.length method f] ++ [.heard t.history.length outcome]) t'' := by
  have told := w.note (e := .told t.history.length method f) rfl id rfl rfl
  have inside := told.follows (keeps_run keeps (hook method f) _ told.sound told.lawful)
  rcases ran : exec ((hook method f).run inner) (t'.note (.told t.history.length method f)) with ⟨outcome, t₁⟩
  rw [ran] at inside
  refine ⟨outcome, t₁.note (.heard t.history.length outcome), ?_, inside.note rfl id rfl rfl⟩
  unfold Users.tell
  simp only [has]
  rw [exec_bind_of_ok (exec_note _ _), exec_noting, ran]

/-! ## Dispatches -/

/-- What a dispatch does about one handler, with the number of those before it that did not fail. -/
def Users.turn (u : Users η) (inner : String → Value → TrackedM η Nat) (d : Nat) (method : String) (params : Value)
    (n : Nat) (h : η) : TrackedM η Nat :=
  tryCatch (do u.call inner d params h; return n + 1) fun f =>
    if f.isCancellation then throw f
    else do
      tryCatch (u.tell inner d method f) fun g => if g.isCancellation then throw g else pure ()
      return n

/-- How it comes out that some handlers are called in a dispatch: either all are, or a cancellation passes through. -/
def Comes (hooked : Bool) (t : Tracked η) (method : String) (params : Value) (handlers : List η)
    (result : Except Fault Nat × Tracked η) : Prop :=
  ∃ events, UnderWay hooked t method params events result.2 ∧
    match result.1 with
    | .ok n => Completed hooked method params handlers events n
    | .error f => Passed f events

theorem comes_turn (keeps : ∀ method params, Keeps u.hook.isSome (inner method params))
    (w : UnderWay u.hook.isSome t method params events t')
    (c : Completed u.hook.isSome method params handlers events n) (h : η) :
    Comes u.hook.isSome t method params (handlers ++ [h])
      (exec (u.turn inner t.history.length method params n h) t') := by
  obtain ⟨outcome, t₁, called, w₁⟩ := underWay_call keeps w h
  unfold Users.turn
  rw [exec_tryCatch, exec_bind, called]
  cases outcome with
  | ok a => exact ⟨_, w₁, c.succeed t.history.length h⟩
  | error f =>
    show Comes _ _ _ _ _ (exec (if f.isCancellation then throw f else _) t₁)
    cases cancels : f.isCancellation with
    | true => exact ⟨_, w₁, cancels, .inl (by simp [raised])⟩
    | false =>
      rw [if_neg Bool.false_ne_true, exec_bind, exec_tryCatch]
      cases hooked : u.hook with
      | none =>
        rw [hooked] at w₁ c
        have quiet : exec (u.tell inner t.history.length method f) t₁ = (.ok (), t₁) := by
          unfold Users.tell
          simp only [hooked]
          rfl
        rw [quiet]
        exact ⟨_, w₁, c.fail t.history.length h f⟩
      | some hook =>
        obtain ⟨heard, t₂, told, w₂⟩ := underWay_tell hooked keeps w₁ f
        rw [hooked] at w₂ c
        rw [told]
        cases heard with
        | ok a => exact ⟨_, w₂, c.failHooked t.history.length h f (.ok a)⟩
        | error g =>
          cases cancels : g.isCancellation with
          | true =>
            simp only [cancels, if_true]
            exact ⟨_, w₂, cancels, .inr (by simp [hookFaults])⟩
          | false =>
            simp only [cancels, Bool.false_eq_true, if_false]
            exact ⟨_, w₂, c.failHooked t.history.length h f (.error g)⟩

/-- The handlers that are left are called one after the other, whatever they change meanwhile. -/
theorem comes_turns (keeps : ∀ method params, Keeps u.hook.isSome (inner method params)) (more : List η)
    (w : UnderWay u.hook.isSome t method params events t')
    (c : Completed u.hook.isSome method params handlers events n) :
    Comes u.hook.isSome t method params (handlers ++ more)
      (exec (more.foldlM (u.turn inner t.history.length method params) n) t') := by
  induction more generalizing handlers events n t' with
  | nil =>
    rw [List.append_nil]
    exact ⟨events, w, c⟩
  | cons h more ih =>
    obtain ⟨events₁, w₁, came⟩ := comes_turn keeps w c h
    rw [List.foldlM_cons, exec_bind]
    rcases same : exec (u.turn inner t.history.length method params n h) t' with ⟨f | n₁, t₁⟩
    · rw [same] at w₁ came
      exact ⟨events₁, w₁, came⟩
    · rw [same] at w₁ came
      have rest := ih w₁ came
      rwa [List.append_assoc, List.singleton_append] at rest

/-- A guarded dispatch takes the turns of the handlers that are there when it begins. -/
theorem dispatchGuarded_eq (u : Users η) (inner : String → Value → TrackedM η Nat) (r : Router η) (d : Nat)
    (method : String) (params : Value) :
    r.dispatchGuarded method (u.call inner d params) (fun _ => pure ()) (u.tell inner d method) (fun _ => pure ()) =
      (r.handlers method).foldlM (u.turn inner d method params) 0 := rfl

theorem keeps_dispatchWith (keeps : ∀ method params, Keeps u.hook.isSome (inner method params)) (method : String)
    (params : Value) : Keeps u.hook.isSome (u.dispatchWith inner method params) := by
  intro t s l
  obtain ⟨events, w, came⟩ := comes_turns keeps (t.router.handlers method) (.began s l method params)
    (.none u.hook.isSome method params)
  unfold Users.dispatchWith
  rw [exec_bind_of_ok (exec_get t), exec_bind_of_ok (exec_note _ t), exec_noting, dispatchGuarded_eq]
  rcases ran : exec ((t.router.handlers method).foldlM (u.turn inner t.history.length method params) 0)
    (t.note (.began method params)) with ⟨outcome, t'⟩
  rw [ran] at w came
  refine w.ended fun isOpen => ?_
  cases outcome with
  | error f => exact ⟨isOpen, w.own.symm ▸ came⟩
  | ok n =>
    refine ⟨isOpen, fun m p there => ?_⟩
    obtain ⟨rfl, rfl⟩ : method = m ∧ params = p := by simpa using w.getElem?.symm.trans there
    have before : t'.history.take t.history.length = t.history := by
      obtain ⟨news, grown, -⟩ := w.grows
      rw [grown, List.take_left]
    rw [before, w.own, ← s.handlers]
    exact came

theorem keeps_dispatch (u : Users η) (depth : Nat) (method : String) (params : Value) :
    Keeps u.hook.isSome (u.dispatch depth method params) := by
  induction depth generalizing method params with
  | zero => exact fun t s l => .refl s l
  | succ depth ih => exact keeps_dispatchWith ih method params

/-- Whatever is done with a router, and whatever its handlers and its hook do with it while they are called, every
answer is accounted for by what happened before it. -/
theorem reentrant_dispatch (u : Users η) (depth : Nat) (code : Code η) :
    Accounted u.hook.isSome (exec (code.run (u.dispatch depth)) {}).2.history := by
  have whole := keeps_run (keeps_dispatch u depth) code {} Tracked.sound_empty lawful_nil
  exact whole.lawful.accounted fun d => whole.closed d (Nat.zero_le d)

/-- A handler that takes the second one back and dispatches again: both are called for the outer dispatch, and only the
first for the dispatch inside it. -/
example :
    let u : Users Nat := {
      handler := fun h _ => match h with
        | 0 => .unsubscribe "m" 1 (.dispatch "m" .null fun _ => .done)
        | _ => .raise (.invalid "no")
      hook := some fun _ _ => .raise (.invalid "neither") }
    let code : Code Nat := .subscribe "m" 0 fun _ => .subscribe "m" 1 fun _ => .dispatch "m" .null fun _ => .done
    let history := (exec (code.run (u.dispatch 2)) {}).2.history
    (calls (own 2 history)).map Prod.fst = [0, 1] ∧ (calls (own 5 history)).map Prod.fst = [0] := by
  decide

end LspClient.Router

namespace LspClient.Client

/-- The dispatches of sessions, and of a router that stands alone, are guarded ones; they log what fails. -/
theorem dispatchIn_eq (r : Router Handler) (name method : String) (argument : Display) (report : Fault → ClientM Unit) :
    dispatchIn r name method argument report =
      r.dispatchGuarded method (callHandler argument)
        (fun f => log .error .router (name ++ " handler for " ++ Text.quoted method ++ " failed") [] (some f)) report
        fun f => log .error .router (name ++ " error hook failed for " ++ Text.quoted method) [] (some f) := by
  unfold dispatchIn Router.dispatchGuarded
  congr 1
  funext f
  congr 1
  funext _
  refine does_ext fun E c => ?_
  unfold attempt
  rw [does_bind, does_tryCatch, does_tryCatch, does_bind]
  rcases does E (report f) c with ⟨g | a, c'⟩
  · cases cancels : g.isCancellation with
    | true => simp [cancels]
    | false => simp [cancels]
  · rfl

end LspClient.Client
