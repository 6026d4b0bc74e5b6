/-
Clean clients: nothing in them is, or leads to, a breach, which is one of the faults with which a session
does not move to a state that may not follow. Which of these faults count is left open: it may be all of
them, or some that users do not raise. What is put together from clean operations is clean, and so are the
changes of the parts of a client. Whether sessions move only to states that may follow is a matter of its own.
-/
import LspClient.Proofs.Client.Calm
import LspClient.Proofs.Keeps
import LspClient.Proofs.Loop.Contents

namespace LspClient

theorem mem_modify {β : Type} {xs : Array β} {i : Nat} {f : β → β} {y : β} (h : y ∈ xs.modify i f) :
    ∃ x ∈ xs, y = x ∨ y = f x := by
  obtain ⟨j, hj⟩ := Array.mem_iff_getElem?.1 h
  rw [Array.getElem?_modify] at hj
  split at hj
  · obtain ⟨x, hx, rfl⟩ := Option.map_eq_some_iff.1 hj
    exact ⟨x, Array.mem_of_getElem? hx, .inr rfl⟩
  · exact ⟨y, Array.mem_of_getElem? hj, .inl rfl⟩

/-! ## Clean steps -/

/-- The faults with which a session does not move to a state that may not follow, as far as they count. -/
class Breaches where
  counts (message : String) (details : Details) : Bool

variable [Breaches]

/-- Whether a session was to move to a state that may not follow, with a fault that counts. -/
def Fault.isBreach : Fault → Bool
  | .lifecycle message details => Breaches.counts message details
  | _ => false

/-- Whether a handler does not raise a breach of its own. -/
def Ending.isClean : Ending → Bool
  | .returns _ => true
  | .raises f => !f.isBreach

mutual

/-- Whether a step is tame, and neither handlers nor broken connections raise a breach of their own. -/
def Step.isClean : Step → Bool
  | .batch steps => Step.areClean steps
  | .on _ _ r => r.isClean
  | .readFault f _ | .errorStreamFault f => !f.isBreach
  | step => step.isTame

/-- Whether all steps are clean. -/
def Step.areClean : List Step → Bool
  | [] => true
  | step :: steps => step.isClean && Step.areClean steps

/-- Whether a reaction takes clean steps, and raises no breach of its own. -/
def Reaction.isClean : Reaction → Bool
  | .mk _ steps _ ending => Step.areClean steps && ending.isClean

end

theorem Step.areClean_iff {steps : List Step} : Step.areClean steps = true ↔ ∀ step ∈ steps, step.isClean = true := by
  induction steps with
  | nil => simp [Step.areClean]
  | cons step steps ih => simp [Step.areClean, ih]

theorem Reaction.isClean_iff {r : Reaction} :
    r.isClean = true ↔ Step.areClean r.steps = true ∧ r.ending.isClean = true := by
  cases r
  simp [Reaction.isClean, Reaction.steps, Reaction.ending]

/-- A handler that raises no breach of its own. -/
def Handler.IsClean : Handler → Prop
  | .script r => r.isClean = true
  | _ => True

/-! ## What clean clients hold -/

namespace Activity

/-- The state that a session moves to at once when an activity begins, without a look at the state it is in. -/
def hastens : Activity → Option (SessionId × SessionState)
  | .attempt s => some (s, .starting)
  | .fail s _ => some (s, .failed)
  | _ => none

/-- Whether an activity belongs to no host, and keeps no breach to raise later. -/
def isClean : Activity → Bool
  | .react r _ | .reacted r => r.isClean
  | .within inner _ => inner.isClean && inner.hastens.isNone
  | .abandoned _ f | .stopReleased _ _ (some f) => !f.isBreach
  | .flush .. | .closeBackend .. | .closeSink .. | .closeSinkOne .. | .activate .. | .activated .. | .deactivate ..
  | .deactivateOne .. | .runHost .. | .runActivated .. | .runGivenUp | .runDeactivated .. => false
  | _ => true

/-- A clean activity that a task may put down: it looks at its session before it moves it. -/
def IsParked (a : Activity) : Prop :=
  a.isClean = true ∧ a.hastens = none

/-- A clean activity that may begin now: where it moves its session to another state at once, that state may follow. -/
def IsReady (c : Client) (a : Activity) : Prop :=
  a.isClean = true ∧ ∀ s target, a.hastens = some (s, target) → (c.sessionAt s).state.mayBecome target = true

theorem IsParked.isReady {a : Activity} (h : a.IsParked) (c : Client) : a.IsReady c := by
  refine ⟨h.1, fun s target hastens => ?_⟩
  rw [h.2] at hastens
  cases hastens

end Activity

namespace Next

/-- What is left to do may be put down. -/
def Parks (next : Next) : Prop :=
  ∀ a ∈ next.frames, a.IsParked

/-- What is left to do may be put down, but for what is called next, which is ready. -/
def IsClean (next : Next) (c : Client) : Prop :=
  match next with
  | .call b k => b.IsReady c ∧ k.IsParked
  | next => next.Parks

theorem Parks.isClean {next : Next} (h : next.Parks) (c : Client) : next.IsClean c := by
  cases next with
  | call b k => exact ⟨(h b (by simp [frames])).isReady c, h k (by simp [frames])⟩
  | _ => exact h

end Next

/-- What a clean loop holds. -/
def cleanly : Contents Activity Event where
  activity := Activity.IsParked
  event
    | .handleSettled _ _ steps => Step.areClean steps = true
    | _ => True
  fault f := f.isBreach = false
  cancelled := rfl

/-- Something in a queue that is no breach. -/
def Delivery.IsClean : Delivery → Prop
  | .fault f => f.isBreach = false
  | _ => True

/-- A stream that is not broken by a breach. -/
def Stream.IsClean (s : Stream) : Prop :=
  ∀ f, s.fault = some f → f.isBreach = false

/-- A transport with no breach in its queue. -/
def Transport.IsClean (x : Transport) : Prop :=
  ∀ d ∈ x.inbox, d.IsClean

/-- A session whose handlers raise no breach of their own. -/
def Session.IsClean (x : Session) : Prop :=
  ∀ topic, ∀ h ∈ (x.router topic).all, h.IsClean

theorem Session.IsClean.of_router {x x' : Session} (h : x.IsClean) (same : ∀ topic, x'.router topic = x.router topic) :
    x'.IsClean := by
  intro topic
  rw [same]
  exact h topic

/-- A client in which nothing is a breach, or raises one of its own. -/
structure Client.Clean (c : Client) : Prop where
  loop : c.loop.Holds cleanly
  sessions : ∀ s, (c.sessionAt s).IsClean
  transports : ∀ x ∈ c.transports, x.IsClean
  pipes : ∀ x ∈ c.pipes, x.stream.IsClean

/-- A result that is no breach. -/
abbrev Fault.Spares {α : Type} (r : Except Fault α) : Prop :=
  Fault.Only cleanly.fault r

/-- An operation that keeps a client clean and raises no breach. -/
def CleanAt (E : Executor) {α : Type} (op : ClientM α) (Q : α → Client → Prop) (c : Client) : Prop :=
  KeepsAt Client.Clean cleanly.fault Q (op E) c

/-- An operation that keeps all clean clients clean and raises no breach. -/
structure IsClean (E : Executor) {α : Type} (op : ClientM α) (Q : α → Prop := fun _ => True) : Prop where
  cleanAt : ∀ c, c.Clean → CleanAt E op (fun a _ => Q a) c

/-- An executor of clean steps that keeps clients clean. -/
def Executor.IsClean (E : Executor) : Prop :=
  ∀ step : Step, step.isClean = true → LspClient.IsClean E (Client.execute step)

/-! ## Putting operations together -/

section

variable {E : Executor} {α β : Type} {Q : α → Prop} {R : β → Prop} {S : β → Client → Prop} {c : Client}

theorem CleanAt.bind {x : ClientM α} {f : α → ClientM β} {P : α → Client → Prop} (h : CleanAt E x P c)
    (hf : ∀ a c', P a c' → c'.Clean → CleanAt E (f a) S c') : CleanAt E (x >>= f) S c :=
  KeepsAt.bind h hf

/-- What is only looked at changes nothing. -/
theorem cleanAt_bind_of_ok {x : ClientM α} {f : α → ClientM β} {a : α} {c' : Client} (hx : does E x c = (.ok a, c'))
    (hf : CleanAt E (f a) S c') : CleanAt E (x >>= f) S c := by
  have same : exec ((x >>= f) E) c = exec (f a E) c' := does_bind_of_ok hx f
  exact ⟨by rw [same]; exact hf.state, by rw [same]; exact hf.fault, by rw [same]; exact hf.answer⟩

theorem cleanAt_pure (hc : c.Clean) {b : β} (hb : S b c) : CleanAt E (pure b) S c :=
  keepsAt_pure hc hb

theorem cleanAt_throw (hc : c.Clean) {f : Fault} (hf : f.isBreach = false) : CleanAt E (throw f) S c :=
  keepsAt_throw hc hf

/-- What follows may need what the first operation answers. -/
theorem IsClean.bindAt {x : ClientM α} {f : α → ClientM β} (h : IsClean E x Q) (hc : c.Clean)
    (hf : ∀ a c', Q a → c'.Clean → CleanAt E (f a) S c') : CleanAt E (x >>= f) S c :=
  (h.cleanAt c hc).bind hf

theorem IsClean.bindWith {x : ClientM α} {f : α → ClientM β} (h : IsClean E x Q) (hf : ∀ a, Q a → IsClean E (f a) R) :
    IsClean E (x >>= f) R :=
  ⟨fun _ hc => h.bindAt hc fun a c' ha hc' => (hf a ha).cleanAt c' hc'⟩

theorem IsClean.bind {x : ClientM α} {f : α → ClientM β} (h : IsClean E x Q) (hf : ∀ a, IsClean E (f a) R) :
    IsClean E (x >>= f) R :=
  h.bindWith fun a _ => hf a

theorem isClean_pure {a : α} (ha : Q a) : IsClean E (pure a) Q :=
  ⟨fun _ hc => cleanAt_pure hc ha⟩

theorem isClean_return (a : α) : IsClean E (pure a) :=
  isClean_pure trivial

theorem isClean_throw {f : Fault} (hf : f.isBreach = false) : IsClean E (throw f) Q :=
  ⟨fun _ hc => cleanAt_throw hc hf⟩

/-- What would follow a failure is not done. -/
theorem isClean_throw_bind {f : Fault} (hf : f.isBreach = false) (next : α → ClientM β) :
    IsClean E (throw f >>= next) R := by
  have throws : IsClean E (throw f : ClientM α) fun _ => False := isClean_throw hf
  exact throws.bindWith fun _ never => never.elim

theorem isClean_get : IsClean E get Client.Clean :=
  ⟨fun c hc => KeepsAt.of_ok (does_get c) hc hc⟩

theorem IsClean.map {x : ClientM α} (h : IsClean E x Q) (f : α → β) : IsClean E (f <$> x) := by
  rw [← bind_pure_comp]
  exact h.bind fun _ => isClean_pure trivial

theorem IsClean.tryCatch {x : ClientM α} {f : Fault → ClientM α} (h : IsClean E x Q)
    (hf : ∀ e, e.isBreach = false → IsClean E (f e) Q) : IsClean E (tryCatch x f) Q :=
  ⟨fun c hc => KeepsAt.tryCatch (h.cleanAt c hc) fun e c' he hc' => (hf e he).cleanAt c' hc'⟩

theorem IsClean.attempt {x : ClientM α} (h : IsClean E x Q) : IsClean E (Client.attempt x) Fault.Spares := by
  refine (h.bind fun a => isClean_pure (Fault.only_ok a)).tryCatch fun e he => ?_
  split
  · exact isClean_throw he
  · exact isClean_pure (Fault.only_error he)

theorem IsClean.catchTransport {x : ClientM Unit} {f : Fault → ClientM Unit} (h : IsClean E x)
    (hf : ∀ e, e.isBreach = false → IsClean E (f e)) : IsClean E (Client.catchTransport x f) := by
  refine h.tryCatch fun e he => ?_
  split
  · exact hf e he
  · exact isClean_throw he

theorem IsClean.forM {f : α → ClientM Unit} {as : List α} (h : ∀ a ∈ as, IsClean E (f a)) : IsClean E (as.forM f) := by
  induction as with
  | nil => exact isClean_pure trivial
  | cons a as ih =>
    show IsClean E (f a >>= fun _ => as.forM f)
    exact (h a (List.mem_cons_self ..)).bind fun _ => ih fun b hb => h b (List.mem_cons_of_mem _ hb)

theorem IsClean.mapM {f : α → ClientM β} {as : List α} (h : ∀ a ∈ as, IsClean E (f a)) : IsClean E (as.mapM f) := by
  induction as with
  | nil => exact isClean_pure trivial
  | cons a as ih =>
    rw [List.mapM_cons]
    exact (h a (List.mem_cons_self ..)).bind fun _ =>
      (ih fun b hb => h b (List.mem_cons_of_mem _ hb)).bind fun _ => isClean_pure trivial

theorem IsClean.foldlM {f : β → α → ClientM β} {as : List α} (h : ∀ b, ∀ a ∈ as, IsClean E (f b a)) (b : β) :
    IsClean E (as.foldlM f b) := by
  induction as generalizing b with
  | nil => exact isClean_pure trivial
  | cons a as ih =>
    rw [List.foldlM_cons]
    exact (h b a (List.mem_cons_self ..)).bind fun b => ih (fun b a ha => h b a (List.mem_cons_of_mem _ ha)) b

theorem IsClean.forIn {f : α → β → ClientM (ForInStep β)} {as : List α} (h : ∀ a ∈ as, ∀ b, IsClean E (f a b))
    (b : β) : IsClean E (forIn as b f) := by
  induction as generalizing b with
  | nil => exact isClean_pure trivial
  | cons a as ih =>
    rw [List.forIn_cons]
    refine (h a (List.mem_cons_self ..) b).bind fun r => ?_
    split
    · exact isClean_pure trivial
    · exact ih (fun a ha => h a (List.mem_cons_of_mem _ ha)) _

end

/-! ## Changes of parts of a client -/

namespace Client

variable {E : Executor} {α : Type} {c c' : Client}

/-- A change of what may hold no breach. -/
theorem Clean.of_eq (h : c.Clean) (loop : c'.loop = c.loop) (sessions : c'.sessions = c.sessions)
    (transports : c'.transports = c.transports) (pipes : c'.pipes = c.pipes) : c'.Clean := by
  refine ⟨by rw [loop]; exact h.loop, fun s => ?_, by rw [transports]; exact h.transports, by rw [pipes]; exact h.pipes⟩
  have same : c'.sessionAt s = c.sessionAt s := by rw [sessionAt, sessionAt, sessions]
  rw [same]
  exact h.sessions s

theorem isClean_modify {f : Client → Client}
    (h : ∀ c, (f c).loop = c.loop ∧ (f c).sessions = c.sessions ∧ (f c).transports = c.transports ∧
      (f c).pipes = c.pipes) : IsClean E (modify f) := by
  refine ⟨fun c hc => .of_ok (exec_modify f c) ?_ trivial⟩
  obtain ⟨loop, sessions, transports, pipes⟩ := h c
  exact hc.of_eq loop sessions transports pipes

theorem isClean_set (h : c.Clean) : IsClean E (set c) :=
  ⟨fun c' _ => .of_ok (exec_set c' c) h trivial⟩

theorem isClean_modifyGet {f : Client → α × Client} (h : ∀ c : Client, c.Clean → (f c).2.Clean) :
    IsClean E (modifyGet f) :=
  ⟨fun c hc => .of_ok (exec_modifyGet f c) (h c hc) trivial⟩

/-! ### The loop -/

theorem Clean.withLoop (h : c.Clean) {l : Loop Activity Event} (hl : l.Holds cleanly) : Clean { c with loop := l } :=
  ⟨hl, h.sessions, h.transports, h.pipes⟩

theorem isClean_withLoop {f : Loop Activity Event → α × Loop Activity Event}
    (h : ∀ l : Loop Activity Event, l.Holds cleanly → (f l).2.Holds cleanly) : IsClean E (Client.withLoop f) :=
  ⟨fun c hc => .of_ok (exec_modifyGet _ c) (hc.withLoop (h c.loop hc.loop)) trivial⟩

theorem isClean_onLoop {f : Loop Activity Event → Loop Activity Event}
    (h : ∀ l : Loop Activity Event, l.Holds cleanly → (f l).Holds cleanly) : IsClean E (onLoop f) :=
  ⟨fun c hc => .of_ok (exec_modify _ c) (hc.withLoop (h c.loop hc.loop)) trivial⟩

theorem isClean_newPromise : IsClean E newPromise :=
  isClean_withLoop fun _ h => h.newPromise .plain trivial

theorem isClean_spawn {a : Activity} (ha : a.IsParked) : IsClean E (spawn a) :=
  isClean_withLoop fun _ h => h.spawn ha

theorem isClean_settle (p : PromiseId) {o : Outcome} (ho : Fault.Spares o) : IsClean E (onLoop fun l => l.settle p o) :=
  isClean_onLoop fun _ h => h.settle p ho

theorem isClean_cancelPromise (p : PromiseId) : IsClean E (cancelPromise p) :=
  isClean_withLoop fun _ h => h.cancel p

theorem isClean_cancelTimer (timer : TimerId) : IsClean E (onLoop fun l => l.cancelTimer timer) :=
  isClean_onLoop fun _ h => h.cancelTimer timer

theorem isClean_unobserve (p target : PromiseId) : IsClean E (onLoop fun l => l.unobserve p target) :=
  isClean_onLoop fun _ h => h.unobserve p target

theorem isClean_observe (p : PromiseId) {job : Job Event} (hj : job.Holds cleanly) :
    IsClean E (onLoop fun l => l.observe p job) :=
  isClean_onLoop fun _ h => h.observe p hj

theorem isClean_isSettled (p : PromiseId) : IsClean E (isSettled p) :=
  isClean_get.bind fun _ => isClean_pure trivial

theorem isClean_callLater (delay : Number) {job : Job Event} (hj : job.Holds cleanly) :
    IsClean E (callLater delay job) := by
  refine IsClean.bind (Q := fun _ => True) ?_ fun seconds => isClean_withLoop fun _ h => h.callLater seconds hj
  unfold seconds
  split
  · exact isClean_pure trivial
  · exact isClean_throw rfl

/-! ### Sessions -/

/-- A change of a session by which only clean handlers come in. -/
theorem Clean.onSession (h : c.Clean) {s : SessionId} {f : Session → Session} (hf : (f (c.sessionAt s)).IsClean) :
    Clean { c with sessions := c.sessions.modify s f } := by
  refine ⟨h.loop, fun x => ?_, h.transports, h.pipes⟩
  rcases sessionAt_modify c s x f with e | ⟨rfl, _, e⟩
  · rw [e]
    exact h.sessions x
  · rw [e]
    exact hf

theorem isClean_onSession {s : SessionId} {f : Session → Session}
    (routers : ∀ x topic, (f x).router topic = x.router topic) : IsClean E (onSession s f) :=
  ⟨fun c hc => .of_ok (exec_modify _ c) (hc.onSession ((hc.sessions s).of_router (routers _))) trivial⟩

theorem isClean_session (s : SessionId) : IsClean E (session s) Session.IsClean :=
  ⟨fun c hc => .of_ok (does_session s c) hc (hc.sessions s)⟩

theorem isClean_lastSession : IsClean E lastSession :=
  isClean_get.bind fun _ => isClean_pure trivial

/-! ### Transports -/

/-- A change of a transport by which no breach comes into its queue. -/
theorem isClean_onTransport (t : TransportId) {f : Transport → Transport}
    (h : ∀ x : Transport, x.IsClean → (f x).IsClean) : IsClean E (onTransport t f) := by
  refine ⟨fun c hc => .of_ok (exec_modify _ c) ⟨hc.loop, hc.sessions, fun y hy => ?_, hc.pipes⟩ trivial⟩
  obtain ⟨x, hx, rfl | rfl⟩ := mem_modify hy
  · exact hc.transports _ hx
  · exact h x (hc.transports x hx)

theorem isClean_newTransport {t : Transport} (ht : t.IsClean) : IsClean E (newTransport t) := by
  refine isClean_modifyGet fun c hc => ⟨hc.loop, hc.sessions, fun y hy => ?_, hc.pipes⟩
  rcases Array.mem_push.1 hy with hy | rfl
  · exact hc.transports y hy
  · exact ht

theorem isClean_transport (t : TransportId) : IsClean E (transport t) Transport.IsClean := by
  refine isClean_get.bindWith fun c hc => isClean_pure ?_
  cases h : c.transports[t]? with
  | none => exact fun d hd => by cases hd
  | some x => exact hc.transports x (Array.mem_of_getElem? h)

/-! ### Pipes -/

/-- A change of a pipe that does not break it with a breach. -/
theorem isClean_onPipe (p : PipeId) {f : Pipe → Pipe} (h : ∀ x : Pipe, x.stream.IsClean → (f x).stream.IsClean) :
    IsClean E (onPipe p f) := by
  refine ⟨fun c hc => .of_ok (exec_modify _ c) ⟨hc.loop, hc.sessions, hc.transports, fun y hy => ?_⟩ trivial⟩
  obtain ⟨x, hx, rfl | rfl⟩ := mem_modify hy
  · exact hc.pipes _ hx
  · exact h x (hc.pipes x hx)

theorem isClean_newPipe (lineLimit : Nat) : IsClean E (newPipe lineLimit) := by
  refine isClean_modifyGet fun c hc => ⟨hc.loop, hc.sessions, hc.transports, fun y hy => ?_⟩
  rcases Array.mem_push.1 hy with hy | rfl
  · exact hc.pipes y hy
  · exact fun f hf => by cases hf

theorem isClean_pipe (p : PipeId) : IsClean E (pipe p) fun x => x.stream.IsClean := by
  refine isClean_get.bindWith fun c hc => isClean_pure ?_
  cases h : c.pipes[p]? with
  | none => exact fun f hf => by cases hf
  | some x => exact hc.pipes x (Array.mem_of_getElem? h)

end Client

end LspClient
