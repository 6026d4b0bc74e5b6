/-
A session that runs is attended to: a task reads the messages of its server from its transport, and if the connection is
lost, the session fails. It is left alone only if its reader stops while it starts, or because of a fault that is no
loss, or if an attempt to start goes on although others have overtaken it.
-/
import LspClient.Proofs.Client.Answers
import LspClient.Proofs.Client.Reader
import LspClient.Proofs.Loop.Activities

namespace LspClient

open Client

/-! ## Definitions -/

/-- What a reader of a session does when it goes on: it reads on, a fault stops it, or the connection is lost. Then the
session fails next, if it runs. -/
inductive Client.Listens (s : SessionId) (t : TransportId) (c : Client) : Except Fault Next → Prop
  | on {r : Except Fault Next} {b : Activity} (left : b ∈ framesOf r) (reads : b.reads = some (s, t)) : Listens s t c r
  | stops {f : Fault} : Listens s t c (.error f)
  | fails {f : Fault} (running : (c.sessionAt s).state = .running) :
    Listens s t c (.ok (.call (.fail s f) (.lostFailed s f)))
  | ends (idle : (c.sessionAt s).state ≠ .running) : Listens s t c (.ok (.done .null))

/-- What a reader has received is the end of the stream, or a fault of the connection. -/
def Client.IsLoss : Outcome → Prop
  | .ok (.bytes _) => False
  | .ok _ => True
  | .error f => f.isProtocol = false ∧ f.isTransport = true

namespace Moment

/-- What goes on leaves a session without a reader of its transport, or lets it run without one. -/
inductive Neglects (E : Executor) (s : SessionId) (m : Moment) : Prop
  /-- A fault that is no loss stops the reader. -/
  | stops {p : PromiseId} {a : Activity} {rest : List Activity} {o : Outcome} {t : TransportId} {f : Fault} {c : Client}
    (turn : m.turn = some ⟨p, a :: rest, o⟩) (reads : a.reads = some (s, t))
    (connected : (m.client.sessionAt s).transport = some t) (stopped : does E (goOn a o) m.client = (.error f, c))
  /-- The connection is lost while the session starts. -/
  | lost {p : PromiseId} {a : Activity} {rest : List Activity} {o : Outcome} {t : TransportId} {v : Value} {c : Client}
    (turn : m.turn = some ⟨p, a :: rest, o⟩) (reads : a.reads = some (s, t))
    (connected : (m.client.sessionAt s).transport = some t) (starting : (m.client.sessionAt s).state = .starting)
    (ended : does E (goOn a o) m.client = (.ok (.done v), c))
  /-- An attempt to start connects the session although it does not start any more. -/
  | late {p : PromiseId} {rest : List Activity} {v : Value}
    (turn : m.turn = some ⟨p, .attemptReleased s :: rest, .ok v⟩) (gone : (m.client.sessionAt s).state ≠ .starting)
  /-- An attempt to start lets the session run on the transport of another one. -/
  | overtaken {p : PromiseId} {rest : List Activity} {t : TransportId} {v : Value}
    (turn : m.turn = some ⟨p, .attemptAnswered s t :: rest, .ok v⟩) (other : (m.client.sessionAt s).transport ≠ some t)

/-- A session fails next. -/
def IsFailing (s : SessionId) (m : Moment) : Prop :=
  ∃ p f rest v, m.turn = some ⟨p, .fail s f :: rest, .ok v⟩

/-- A session that runs is read from, or fails next. One that starts is read from while an attempt waits for the answer
to its first request, and it gives up its transport only if it does not run. -/
structure Attended (s : SessionId) (m : Moment) : Prop where
  running : (m.client.sessionAt s).state = .running →
    ∃ t, (m.client.sessionAt s).transport = some t ∧ ((∃ p, m.Reads s t p) ∨ m.IsFailing s)
  waiting : ∀ {p t}, .attemptAnswered s t ∈ m.stack p → (m.client.sessionAt s).transport = some t →
    (m.client.sessionAt s).state = .starting → (∃ q, m.Reads s t q) ∨ ∃ q, .release s ∈ m.stack q
  made : ∀ {p t}, .attemptAnswered s t ∈ m.stack p → t < m.client.transports.size
  releasing : ∀ {p}, .release s ∈ m.stack p → (m.client.sessionAt s).state ≠ .running

end Moment

variable {E : Executor} {P : Moment → Prop} {s : SessionId} {t : TransportId} {a b : Activity} {o : Outcome}
  {r : Except Fault Next} {c c' : Client} {m m' : Moment} {p : PromiseId} {acts : List LspClient.Step} {α : Type}

/-! ## Readers -/

namespace Client

/-- A session that loses its connection while it runs fails next. -/
theorem does_connectionLost_of_running (connected : (c.sessionAt s).transport = some t)
    (running : (c.sessionAt s).state = .running) (f : Fault) :
    ∃ c', does E (connectionLost s t f) c = (.ok (.call (.fail s f) (.lostFailed s f)), c') := by
  obtain ⟨d, logged⟩ := does_logSession (E := E) s .warning
    ("Session " ++ (c.sessionAt s).name ++ " lost its connection: " ++ f.message) [] none c
  refine ⟨d, ?_⟩
  unfold connectionLost
  rw [does_bind_of_ok (does_session s c), if_neg (by simp [connected]), running]
  dsimp only
  rw [does_bind_of_ok logged, does_pure]

/-- A session that loses its connection while it starts gives up its requests. -/
theorem does_connectionLost_of_starting (hc : c.Sound) (connected : (c.sessionAt s).transport = some t)
    (starting : (c.sessionAt s).state = .starting) (f : Fault) :
    ∃ c', does E (connectionLost s t f) c = (.ok (.done .null), c') ∧ c.GivesUp s c' ∧
      (c'.sessionAt s).registry.pending = [] := by
  obtain ⟨n, c', hx, _, _, none, settled⟩ :=
    does_rejectAll (E := E) hc s (.termination ("Connection lost: " ++ f.message))
  refine ⟨c', ?_, ⟨_, settled⟩, none⟩
  unfold connectionLost
  rw [does_bind_of_ok (does_session s c), if_neg (by simp [connected]), starting]
  dsimp only
  rw [does_bind_of_ok hx, does_pure]

/-- A reader that has lost the connection of its session lets it fail, if it runs. -/
theorem listens_connectionLost (hc : c.Sound) (connected : (c.sessionAt s).transport = some t) (f : Fault) :
    Listens s t c (does E (connectionLost s t f) c).1 := by
  cases state : (c.sessionAt s).state with
  | running =>
    obtain ⟨d, goes⟩ := does_connectionLost_of_running (E := E) connected state f
    rw [goes]
    exact .fails state
  | starting =>
    obtain ⟨d, goes, _⟩ := does_connectionLost_of_starting (E := E) hc connected state f
    rw [goes]
    exact .ends (by simp [state])
  | _ =>
    unfold connectionLost
    rw [does_bind_of_ok (does_session s c), if_neg (by simp [connected]), state]
    exact .ends (by simp [state])

/-- Whatever reads from the transport of its session reads on, or stops to. -/
theorem listens_goOn (hE : E.IsTame) (hc : c.Sound) (reads : a.reads = some (s, t))
    (connected : (c.sessionAt s).transport = some t) (o : Outcome) : Listens s t c (does E (goOn a o) c).1 := by
  cases a with
  | readLoop x u =>
    cases reads
    cases o with
    | error f => exact .stops
    | ok v =>
      exact .on (b := .readLoopReceived s t) (List.mem_cons_of_mem (Activity.receive t) (List.mem_singleton.2 rfl)) rfl
  | readLoopReceived x u =>
    cases reads
    have again : ∀ {op : ClientM Next} {d : Client}, does E op c = (.ok (.become (.readLoop s t)), d) →
        Listens s t c (does E op c).1 := fun goes => by
      rw [goes]
      exact .on (b := .readLoop s t) (List.mem_singleton.2 rfl) rfl
    have stops : ∀ {op : ClientM Next} {f : Fault} {d : Client}, does E op c = (.error f, d) →
        Listens s t c (does E op c).1 :=
      fun goes => by
        rw [goes]
        exact .stops
    cases o with
    | ok v =>
      cases v with
      | bytes body =>
        rcases reads_on hE hc s t body with ⟨d, goes⟩ | ⟨f, d, _, goes⟩
        · exact again goes
        · exact stops goes
      | _ => exact listens_connectionLost hc connected _
    | error f =>
      cases malformed : f.isProtocol with
      | true =>
        rcases reads_on_of_malformed hE hc s t malformed with ⟨d, goes⟩ | ⟨f', d, _, goes⟩
        · exact again goes
        · exact stops goes
      | false =>
        have first : does E (goOn (.readLoopReceived s t) (.error f)) c =
            does E (if f.isTransport then connectionLost s t f else throw f) c := by
          show does E (readLoopReceived s t (.error f)) c = _
          unfold readLoopReceived
          simp only [malformed, Bool.false_eq_true, if_false]
        rw [first]
        split
        · exact listens_connectionLost hc connected f
        · exact .stops
  | _ => cases reads

/-- A reader that has received the end of the stream, or a fault of the connection, has lost the connection. -/
theorem exists_connectionLost (loss : IsLoss o) :
    ∃ f, ∀ c, does E (goOn (.readLoopReceived s t) o) c = does E (connectionLost s t f) c := by
  cases o with
  | ok v =>
    cases v with
    | bytes body => exact loss.elim
    | _ => exact ⟨_, fun _ => rfl⟩
  | error f =>
    obtain ⟨other, transport⟩ := loss
    refine ⟨f, fun c => ?_⟩
    show does E (readLoopReceived s t (.error f)) c = _
    unfold readLoopReceived
    simp only [other, transport, Bool.false_eq_true, if_false, if_true]

/-! ## Who waits for the answer to a first request -/

/-- An operation that does not leave something to do. -/
def LeavesOut (E : Executor) (b : Activity) (op : ClientM Next) : Prop :=
  ∀ c, b ∉ framesOf (does E op c).1

theorem LeavesOut.bind {x : ClientM α} {f : α → ClientM Next} (h : ∀ r, LeavesOut E b (f r)) :
    LeavesOut E b (x >>= f) := by
  intro c
  rcases hx : does E x c with ⟨e | r, d⟩
  · rw [does_bind_of_error hx]
    exact List.not_mem_nil
  · rw [does_bind_of_ok hx]
    exact h r d

theorem leavesOut_done (v : Value) : LeavesOut E b (pure (.done v)) :=
  fun _ => List.not_mem_nil

theorem leavesOut_throw (f : Fault) : LeavesOut E b (throw f) :=
  fun _ => List.not_mem_nil

theorem leavesOut_call {x k : Activity} (call : b ≠ x) (after : b ≠ k) : LeavesOut E b (pure (.call x k)) :=
  fun _ left => (mem_framesOf_call left).elim call after

theorem leavesOut_beginning {op : ClientM Next} (h : LeavesOut E b op) : LeavesOut E b (beginning o op) :=
  LeavesOut.bind fun _ => h

theorem leavesOut_attemptFault (x : SessionId) (f : Fault) (call : b ≠ .fail x f) (after : b ≠ .attemptFailed x f) :
    LeavesOut E b (attemptFault x f) := by
  have fails : LeavesOut E b (do
      let y ← session x
      if y.state ≠ .starting then throw y.interruptedFault
      return .call (.fail x f) (.attemptFailed x f)) := by
    refine LeavesOut.bind fun y => ?_
    split
    · exact LeavesOut.bind fun _ => leavesOut_call call after
    · exact leavesOut_call call after
  unfold attemptFault
  split
  · exact LeavesOut.bind fun _ => fails
  · exact fails

theorem leavesOut_connectionLost (x : SessionId) (u : TransportId) (f : Fault) (call : b ≠ .fail x f)
    (after : b ≠ .lostFailed x f) : LeavesOut E b (connectionLost x u f) := by
  refine LeavesOut.bind fun y => ?_
  split
  · exact leavesOut_done _
  · split
    · exact LeavesOut.bind fun _ => leavesOut_done _
    · exact LeavesOut.bind fun _ => leavesOut_call call after
    · exact leavesOut_done _

/-- Only an attempt that has opened its transport leaves something to do that waits for the answer to a first
request. -/
theorem leavesOut_goOn (other : ∀ x u, a ≠ .attemptOpened x u) (stirs : a.rouses ≠ none ∨ a.reads ≠ none)
    (o : Outcome) :
    LeavesOut E (.attemptAnswered s t) (goOn a o) := by
  cases a with
  | start x =>
    refine leavesOut_beginning (LeavesOut.bind fun _ => ?_)
    split
    · exact LeavesOut.bind fun _ => leavesOut_done _
    · exact LeavesOut.bind fun _ => leavesOut_done _
    · exact leavesOut_throw _
    · exact LeavesOut.bind fun _ => leavesOut_call nofun nofun
  | started x =>
    show LeavesOut E _ (started x o)
    unfold started
    split
    · exact LeavesOut.bind fun _ => LeavesOut.bind fun _ => leavesOut_done _
    · split
      · exact LeavesOut.bind fun _ => leavesOut_done _
      · split
        · exact LeavesOut.bind fun _ => LeavesOut.bind fun _ => leavesOut_throw _
        · exact leavesOut_throw _
  | attempt x => exact leavesOut_beginning (LeavesOut.bind fun _ => leavesOut_call nofun nofun)
  | attemptReleased x =>
    refine LeavesOut.bind fun _ => LeavesOut.bind fun _ => LeavesOut.bind fun _ => LeavesOut.bind fun made => ?_
    cases made with
    | error f => exact leavesOut_attemptFault x f nofun nofun
    | ok u => exact LeavesOut.bind fun _ => leavesOut_call nofun nofun
  | attemptOpened x u => exact absurd rfl (other x u)
  | attemptAbandoned x =>
    show LeavesOut E _ (attemptAbandoned x o)
    unfold attemptAbandoned
    split
    · exact leavesOut_attemptFault x _ nofun nofun
    · exact LeavesOut.bind fun _ => leavesOut_attemptFault x _ nofun nofun
  | attemptAnswered x u =>
    show LeavesOut E _ (attemptAnswered x o)
    unfold attemptAnswered
    split
    · exact leavesOut_attemptFault x _ nofun nofun
    · refine LeavesOut.bind fun told => ?_
      cases told with
      | error f => exact leavesOut_attemptFault x f nofun nofun
      | ok _ =>
        refine LeavesOut.bind fun _ => ?_
        split
        · exact leavesOut_throw _
        · exact LeavesOut.bind fun _ => LeavesOut.bind fun _ => LeavesOut.bind fun _ => LeavesOut.bind fun _ =>
            LeavesOut.bind fun _ => LeavesOut.bind fun _ => leavesOut_done _
  | attemptFailed x f => exact LeavesOut.bind fun _ => LeavesOut.bind fun _ => leavesOut_throw _
  | fail x f =>
    exact leavesOut_beginning (LeavesOut.bind fun _ => LeavesOut.bind fun _ => LeavesOut.bind fun _ =>
      leavesOut_call nofun nofun)
  | failReleased x f => exact LeavesOut.bind fun _ => LeavesOut.bind fun _ => leavesOut_done _
  | lostFailed x f => exact LeavesOut.bind fun _ => LeavesOut.bind fun _ => leavesOut_done _
  | restart x delay => exact leavesOut_beginning (leavesOut_call nofun nofun)
  | restartSlept x =>
    refine LeavesOut.bind fun _ => LeavesOut.bind fun _ => ?_
    split
    · exact leavesOut_call nofun nofun
    · exact leavesOut_done _
  | restartTried x =>
    show LeavesOut E _ (restartTried x o)
    unfold restartTried
    split
    · exact leavesOut_done _
    · split
      · exact leavesOut_done _
      · split
        · refine LeavesOut.bind fun _ => ?_
          split
          · exact LeavesOut.bind fun _ => leavesOut_done _
          · exact leavesOut_done _
        · exact leavesOut_throw _
  | readLoop x u => exact leavesOut_beginning (leavesOut_call nofun nofun)
  | readLoopReceived x u =>
    have again : LeavesOut E (.attemptAnswered s t) (pure (.become (.readLoop x u))) :=
      fun _ left => nomatch List.mem_singleton.1 left
    show LeavesOut E _ (readLoopReceived x u o)
    unfold readLoopReceived
    split
    · refine LeavesOut.bind fun handled => ?_
      cases handled with
      | ok _ => exact again
      | error f =>
        simp only [bodyHandled]
        split
        · exact leavesOut_connectionLost x u f nofun nofun
        · exact leavesOut_throw f
    · exact leavesOut_connectionLost x u _ nofun nofun
    · split
      · exact LeavesOut.bind fun _ => again
      · split
        · exact leavesOut_connectionLost x u _ nofun nofun
        · exact leavesOut_throw _
  | _ => rcases stirs with never | never <;> exact absurd rfl never

/-- An attempt that waits for the answer to its first request has let a new task read from the transport of its
session. -/
theorem reader_of_attemptOpened (hE : E.IsTame) (hc : c.Sound) {x : SessionId} {u : TransportId}
    (hx : does E (goOn (.attemptOpened x u) o) c = (r, c')) (left : .attemptAnswered s t ∈ framesOf r) :
    x = s ∧ u = t ∧ (c.sessionAt s).transport = some t ∧ c.loop.promises.size < c'.loop.promises.size ∧
      c'.loop.stackOf c.loop.promises.size = [.readLoop s t] := by
  cases o with
  | error f =>
    have none := leavesOut_attemptFault (E := E) (b := .attemptAnswered s t) x f nofun nofun c
    have goes : does E (attemptFault x f) c = (r, c') := hx
    rw [goes] at none
    exact absurd left none
  | ok v =>
    have goes : does E (attemptOpened x u (.ok v)) c = (r, c') := hx
    unfold attemptOpened at goes
    dsimp only at goes
    rw [does_bind_of_ok (does_session x c)] at goes
    by_cases connected : (c.sessionAt x).transport = some u
    · rw [if_neg (by simp [connected])] at goes
      -- The reader begins first, and what follows leaves it alone.
      obtain ⟨c₁, spawned, loop⟩ : ∃ c₁, does E (spawn (.readLoop x u)) c = (.ok c.loop.promises.size, c₁) ∧
          c₁.loop = (c.loop.spawn (.readLoop x u)).2 := ⟨_, rfl, rfl⟩
      have size : c₁.loop.promises.size = c.loop.promises.size + 1 := by rw [loop]; exact Loop.size_newPromise ..
      have begins : c₁.loop.stackOf c.loop.promises.size = [.readLoop x u] := by
        rw [loop]
        exact Loop.stackOf_of_role? (Loop.begins_spawn c.loop (.readLoop x u)).1
      have hc₁ : c₁.Sound := by
        have still : StillAt E (c.Begins (.attemptOpened x u)) none (spawn (.readLoop x u)) c :=
          stillAt_spawn hc (.reader connected)
        have sound := still.2
        rwa [spawned] at sound
      rw [does_bind_of_ok spawned, does_bind_of_ok (does_onSession x _ c₁)] at goes
      have hc₂ : (c₁.alter x fun y => { y with reader := some c.loop.promises.size }).Sound :=
        hc₁.alter x (fun _ topic => by cases topic <;> rfl) (fun _ => rfl) fun _ => rfl
      obtain ⟨r', d, hy, still, _, _⟩ := (steadyAt_greeting hE hc₂ x u (c.sessionAt x).settings.initializeParams
        (c.sessionAt x).settings.initializeTimeout).parts
      have same := goes.symm.trans hy
      cases same
      have mine : Activity.attemptAnswered s t = .attemptAnswered x u := by
        refine Classical.byContradiction fun other => ?_
        have sent : ∀ sent, LeavesOut E (.attemptAnswered s t) (attemptSent x u sent) := fun sent => by
          cases sent with
          | error f => exact leavesOut_attemptFault x f nofun nofun
          | ok handle => exact fun _ here => other (List.mem_singleton.1 here)
        have none := LeavesOut.bind (x := attempt (sendUnchecked x .handshake Session.initializeMethod
          (c.sessionAt x).settings.initializeParams (c.sessionAt x).settings.initializeTimeout)) sent
          (c₁.alter x fun y => { y with reader := some c.loop.promises.size })
        rw [hy] at none
        exact none left
      cases mine
      have more : c.loop.promises.size < c₁.loop.promises.size := size ▸ Nat.lt_succ_self _
      refine ⟨rfl, rfl, connected, Nat.lt_of_lt_of_le more still.loop.size, ?_⟩
      rcases still.loop.stackOf (p := c.loop.promises.size) nofun with kept | ⟨new, _⟩
      · exact kept.trans begins
      · exact absurd more (Nat.not_lt_of_le new)
    · rw [if_pos connected] at goes
      cases goes
      rcases mem_framesOf_call left with never | never <;> cases never

/-! ## Giving up a transport -/

/-- No activity lets a session that runs give up its transport. -/
theorem not_running_of_releases (h : c.Proceeds a o r c') (hx : does E (goOn a o) c = (r, c'))
    (left : .release s ∈ framesOf r) (stopping : a.stops = some s → (c.sessionAt s).state = .stopping) :
    (c'.sessionAt s).state ≠ .running := by
  have never : ∀ {of : Option SessionId} {state : Prop}, Activity.IsFree of (.release s) → state :=
    fun free => Bool.noConfusion free.not_isBrief
  have ended : ∀ {state : Prop}, framesOf r = [] → state := fun ends => by
    rw [ends] at left
    cases left
  cases h with
  | steady still free kept => exact never (free _ left)
  | @attempt x _ _ starts =>
    rcases mem_framesOf_call left with e | e
    · cases e
      rcases starts with starts | still
      · rw [starts.session.state]
        decide
      · -- A session that runs may not start.
        rw [(still.stays s).state]
        intro running
        cases o with
        | error f => cases hx
        | ok v =>
          have goes : does E (beginAttempt s) c = (.ok (.call (.release s) (.attemptReleased s)), c') := hx
          unfold beginAttempt at goes
          rcases does_transition (E := E) s .starting c with ⟨_, f, hy⟩ | ⟨l, hl, _⟩
          · rw [does_bind_of_error hy] at goes
            cases goes
          · have may := (enters_of_transition hl).may
            rw [running] at may
            cases may
    · cases e
  | connect _ _ _ _ => rcases mem_framesOf_call left with e | e <;> cases e
  | greet _ _ free => exact never (free _ left)
  | run _ ends => exact ended ends
  | fail _ fails =>
    rcases mem_framesOf_call left with e | e
    · cases e
      rw [fails.session.1.state]
      decide
    · cases e
  | stop stops =>
    rcases stops with ⟨rfl, _⟩ | ⟨rfl, stops⟩
    · rcases mem_framesOf_call left with e | e <;> cases e
    · rcases mem_framesOf_call left with e | e
      · cases e
        rw [stops.session.1.state]
        decide
      · cases e
  | count _ _ ends _ => exact ended ends
  | leave _ next =>
    rcases next with ends | waits
    · exact ended ends
    · rw [waits] at left
      cases List.mem_singleton.1 left
  | announced still _ _ =>
    rcases mem_framesOf_call left with e | e
    · cases e
      rw [(still.stays s).state, stopping rfl]
      decide
    · cases e
  | stopped _ ends => exact ended ends
  | release _ next =>
    rw [next] at left
    cases List.mem_singleton.1 left
  | silence _ next =>
    rw [next] at left
    cases List.mem_singleton.1 left
  | read _ _ next _ =>
    rcases next _ left with free | reads
    · exact never free
    · cases reads
  | answer _ answers =>
    cases answers with
    | waits _ calls again =>
      rcases mem_framesOf_call left with e | e
      · have free : Activity.IsFree none (.release s) := e ▸ calls.free none
        exact never free
      · rw [← e] at again
        cases again
    | replies _ ends => exact ended ends
    | drops _ ends _ => exact ended ends

end Client

/-! ## Steps -/

namespace Moment

variable {rest : List Activity} {q : PromiseId}

/-- A session that gives up its transport has none then. -/
theorem Proceeds.transport_of_releases (sound : m.Sound) (hp : m.Proceeds m' p (.release s) rest o r c) :
    (c.sessionAt s).transport = none := by
  obtain ⟨_, v, turn, _⟩ := sound.front hp.turn hp.mem_before rfl
  cases turn
  have proceeds := hp.proceeds
  cases proceeds with
  | steady _ _ kept => exact absurd (.inl ⟨s, v, rfl, rfl⟩) kept
  | release releases _ => exact releases.session.2.1
  | count never _ _ _ => cases never
  | read never _ _ _ => cases never
  | answer never _ => cases never

/-- A session that fails next does not run then. -/
theorem Proceeds.not_running_of_fails (sound : m.Sound) (hp : m.Proceeds m' p a rest o r c)
    (hx : does E (goOn a o) m.client = (r, c)) (fails : m.IsFailing s) : (c.sessionAt s).state ≠ .running := by
  obtain ⟨q, f, rest', v, turn⟩ := fails
  have same := hp.turn
  rw [turn] at same
  cases same
  rcases does_fail (E := E) sound.client s f with ⟨never, e, hy⟩ | ⟨c', hy, _, _, fails⟩
  · have goes := hx.symm.trans hy
    cases goes
    intro running
    rw [running] at never
    cases never
  · have goes := hx.symm.trans hy
    cases goes
    rw [fails.session.1.state]
    decide

/-- A session whose attempt to start waits for the answer to its first request from now on is read from. -/
theorem Proceeds.reads_of_waits (hE : E.IsTame) (sound : m.Sound) (hp : m.Proceeds m' p a rest o r c)
    (hx : does E (goOn a o) m.client = (r, c)) (left : .attemptAnswered s t ∈ framesOf r) :
    (m.client.sessionAt s).transport = some t ∧ ∃ q, m'.Reads s t q := by
  by_cases opens : ∃ x u, a = .attemptOpened x u
  · obtain ⟨x, u, rfl⟩ := opens
    obtain ⟨rfl, rfl, connected, made, reads⟩ := reader_of_attemptOpened hE sound.client hx left
    refine ⟨connected, m.client.loop.promises.size, .readLoop x u, ?_, rfl⟩
    -- The reader is a new task, so another one than the one that runs.
    have old := (sound.unfinished hp.mem_before).1
    rcases hp.tasks m.client.loop.promises.size (Nat.ne_of_gt old) with same | ⟨new, _⟩
    · rw [same, reads]
      exact List.mem_singleton.2 rfl
    · exact absurd made (Nat.not_lt_of_le new)
  · have other : ∀ x u, a ≠ .attemptOpened x u := fun x u e => opens ⟨x, u, e⟩
    have stirs : a.rouses ≠ none ∨ a.reads ≠ none := by
      rcases (leaves_of_proceeds hp.proceeds left).of_stirs rfl with rouses | ⟨u, reads, _⟩
      · exact .inl (by simp [rouses])
      · exact .inr (by simp [reads])
    have none := leavesOut_goOn (E := E) (s := s) (t := t) other stirs o m.client
    rw [hx] at none
    exact absurd left none

/-- A task reads from the transport of a session as before, or the session fails next, unless the session is
neglected. -/
theorem Proceeds.reads_or_fails (hE : E.IsTame) (sound : m.Sound) (cared : ¬ m.Neglects E s)
    (hp : m.Proceeds m' p a rest o r c) (hx : does E (goOn a o) m.client = (r, c))
    (connected : (m.client.sessionAt s).transport = some t) (reads : m.Reads s t q) :
    (∃ q, m'.Reads s t q) ∨ (m.client.sessionAt s).state = .running ∧ m'.IsFailing s ∨
      (m.client.sessionAt s).state ≠ .running ∧ (m.client.sessionAt s).state ≠ .starting := by
  obtain ⟨b, hb, reads⟩ := reads
  rcases hp.mem_or_goes sound hb with still | ⟨rfl, rfl⟩
  · exact .inl ⟨q, b, still, reads⟩
  · have listens := listens_goOn hE sound.client reads connected o
    rw [hx] at listens
    cases listens with
    | on left again => exact .inl ⟨q, _, hp.mem_stack left, again⟩
    | stops => exact absurd (.stops hp.turn reads connected hx) cared
    | fails running => exact .inr (.inl ⟨running, q, _, _, _, hp.calls _ _ rfl⟩)
    | ends idle => exact .inr (.inr ⟨idle, fun starting => cared (.lost hp.turn reads connected starting hx)⟩)

/-- A session that does not fail is left with the same transport, unless it gives it up or an attempt connects it. -/
theorem Proceeds.transport_or_connects (hp : m.Proceeds m' p a rest o r c) :
    (c.sessionAt s).transport = (m.client.sessionAt s).transport ∨ a = .release s ∨
      ∃ t, m.client.transports.size ≤ t ∧ (c.sessionAt s).transport = some t ∧ m.Connects s t m' := by
  rcases (alters_of_proceeds hp.proceeds).transport s with same | changed
  · exact .inl same
  · cases changed with
    | released _ _ => exact .inr (.inl rfl)
    | connected new made here =>
      rcases here with there | same
      · exact .inr (.inr ⟨_, new, there, hp.connects⟩)
      · exact .inl same

/-- A session that runs is read from whatever goes on, or fails next. -/
theorem Proceeds.attended_of_running (hE : E.IsTame) (sound : m.Sound) (cared : ¬ m.Neglects E s)
    (hp : m.Proceeds m' p a rest o r c) (hx : does E (goOn a o) m.client = (r, c)) (h : m.Attended s)
    (before : (m.client.sessionAt s).state = .running) (running : (c.sessionAt s).state = .running) :
    ∃ t, (c.sessionAt s).transport = some t ∧ ((∃ p, m'.Reads s t p) ∨ m'.IsFailing s) := by
  obtain ⟨t, connected, ⟨q, reads⟩ | fails⟩ := h.running before
  · have same : (c.sessionAt s).transport = some t := by
      rcases hp.transport_or_connects (s := s) with same | rfl | ⟨u, _, _, connects⟩
      · rw [same, connected]
      · exact absurd before (h.releasing hp.mem_before)
      · obtain ⟨_, _, _, turn⟩ := connects.before
        exact absurd (.late turn (by rw [before]; decide)) cared
    refine ⟨t, same, ?_⟩
    rcases hp.reads_or_fails hE sound cared hx connected reads with reads | ⟨_, fails⟩ | ⟨idle, _⟩
    · exact .inl reads
    · exact .inr fails
    · exact absurd before idle
  · exact absurd running (hp.not_running_of_fails sound hx fails)

/-- A session that begins to run is read from. -/
theorem Proceeds.attended_of_runs (sound : m.Sound) (cared : ¬ m.Neglects E s)
    (hp : m.Proceeds m' p a rest o r c) (hx : does E (goOn a o) m.client = (r, c)) (h : m.Attended s)
    (before : (m.client.sessionAt s).state ≠ .running) (running : (c.sessionAt s).state = .running) :
    ∃ t, (c.sessionAt s).transport = some t ∧ ∃ p, m'.Reads s t p := by
  have leads := (alters_of_proceeds hp.proceeds).leadsTo (s := s) (by rw [running]; exact before.symm)
  rw [running] at leads
  cases a with
  | attemptAnswered x t =>
    cases leads
    obtain ⟨v, rfl⟩ : ∃ v, o = .ok v := by
      cases o with
      | ok v => exact ⟨v, rfl⟩
      | error f =>
        -- An attempt that hears of a fault leaves the session in its state.
        have steady : SteadyAt E none (some s) (attemptFault s f) m.client :=
          (isCalm_attemptFault s f).steady sound.client
        have goes : does E (attemptFault s f) m.client = (r, c) := hx
        have stays := steady.still.1.stays s
        rw [goes] at stays
        exact absurd (stays.state.symm.trans running) before
    have connected : (m.client.sessionAt s).transport = some t :=
      Classical.byContradiction fun other => cared (.overtaken hp.turn other)
    have runs : (m.client.sessionAt s).Runs (c.sessionAt s) := by
      have proceeds := hp.proceeds
      cases proceeds with
      | steady still _ _ => exact absurd ((still.stays s).state.symm.trans running) before
      | run runs _ => exact runs.session
      | count never _ _ _ => cases never
      | read never _ _ _ => cases never
      | answer never _ => cases never
    refine ⟨t, by rw [runs.1.transport, connected], ?_⟩
    rcases h.waiting hp.mem_before connected runs.1.starting with ⟨q, b, hb, reads⟩ | ⟨q, releasing⟩
    · rcases hp.mem_or_goes sound hb with still | ⟨_, rfl⟩
      · exact ⟨q, b, still, reads⟩
      · cases reads
    · obtain ⟨_, _, e, _⟩ := sound.front hp.turn releasing rfl
      cases e
  | _ => cases leads

/-- A session that starts is read from while an attempt waits for the answer to its first request. -/
theorem Proceeds.attended_of_waits (hE : E.IsTame) (sound : m.Sound) (cared : ¬ m.Neglects E s)
    (hp : m.Proceeds m' p a rest o r c) (hx : does E (goOn a o) m.client = (r, c)) (h : m.Attended s)
    (waits : .attemptAnswered s t ∈ m.stack q) (connected : (c.sessionAt s).transport = some t)
    (starting : (c.sessionAt s).state = .starting) : (∃ q, m'.Reads s t q) ∨ ∃ q, .release s ∈ m'.stack q := by
  by_cases before : (m.client.sessionAt s).state = .starting
  · -- What gives up the transport leaves none, and one that is new is not waited on.
    have other : a ≠ .release s := by
      rintro rfl
      rw [hp.transport_of_releases sound] at connected
      cases connected
    have same : (m.client.sessionAt s).transport = some t := by
      rcases hp.transport_or_connects (s := s) with same | gives | ⟨u, new, there, _⟩
      · rw [← same, connected]
      · exact absurd gives other
      · rw [connected] at there
        cases there
        exact absurd (h.made waits) (Nat.not_lt_of_le new)
    rcases h.waiting waits same before with ⟨q, reads⟩ | ⟨q, releasing⟩
    · rcases hp.reads_or_fails hE sound cared hx same reads with reads | ⟨running, _⟩ | ⟨_, gone⟩
      · exact .inl reads
      · rw [before] at running
        cases running
      · exact absurd before gone
    · obtain ⟨_, _, e, _⟩ := sound.front hp.turn releasing rfl
      cases e
      exact absurd rfl other
  · -- A session that begins to start gives up its transport first.
    have leads := (alters_of_proceeds hp.proceeds).leadsTo (s := s) (by rw [starting]; exact Ne.symm before)
    rw [starting] at leads
    cases a with
    | attempt x =>
      cases leads
      have proceeds := hp.proceeds
      cases proceeds with
      | attempt _ => exact .inr ⟨p, hp.mem_stack (List.mem_cons_self ..)⟩
      | steady still _ _ => exact absurd ((still.stays s).state.symm.trans starting) before
      | count never _ _ _ => cases never
      | read never _ _ _ => cases never
      | answer never _ => cases never
    | _ => cases leads

theorem Proceeds.attended (hE : E.IsTame) (sound : m.Sound) (tidy : m.Tidy) (halting : m.Halting s)
    (cared : ¬ m.Neglects E s) (hp : m.Proceeds m' p a rest o r c) (hx : does E (goOn a o) m.client = (r, c))
    (h : m.Attended s) : m'.Attended s := by
  constructor
  · rw [hp.sessions]
    intro running
    by_cases before : (m.client.sessionAt s).state = .running
    · exact hp.attended_of_running hE sound cared hx h before running
    · obtain ⟨t, connected, reads⟩ := hp.attended_of_runs sound cared hx h before running
      exact ⟨t, connected, .inl reads⟩
  · intro q u waits
    rw [hp.sessions]
    intro connected starting
    rcases hp.mem_or_new waits with before | ⟨rfl, left⟩ | ⟨_, begins⟩
    · exact hp.attended_of_waits hE sound cared hx h before connected starting
    · exact .inl (hp.reads_of_waits hE sound hx left).2
    · obtain ⟨_, _, _, never, _⟩ := begins.of_stirs rfl
      cases never
  · intro q u waits
    have grows : m.client.transports.size ≤ m'.client.transports.size := by
      rw [hp.transports]
      exact (alters_of_proceeds hp.proceeds).goes.grows
    rcases hp.mem_or_new waits with before | ⟨rfl, left⟩ | ⟨_, begins⟩
    · exact Nat.lt_of_lt_of_le (h.made before) grows
    · exact Nat.lt_of_lt_of_le (tidy.made s u (hp.reads_of_waits hE sound hx left).1) grows
    · obtain ⟨_, _, _, never, _⟩ := begins.of_stirs rfl
      cases never
  · intro q releasing
    rw [hp.sessions]
    obtain ⟨_, left⟩ := sound.mem_frames_of_brief hp rfl releasing
    exact not_running_of_releases hp.proceeds hx left fun stops => halting.stopping_of_mem hp.mem_before stops

/-- A session is attended to while nothing goes on. -/
theorem Passes.attended (passes : m.Passes m') (sound : m.Sound) (after : m.After m') (h : m.Attended s) :
    m'.Attended s := by
  have stays := passes.stays s
  have before : ∀ {p b}, b ∈ m'.stack p → b.stirs ≠ none ∨ b.isBrief = true → b ∈ m.stack p := by
    intro p b hb other
    rcases (passes.tasks p).mem hb with old | root
    · exact old
    · have free := root.free none
      rcases other with stirs | brief
      · exact absurd (free.stirs.elim id id) stirs
      · rw [free.not_isBrief] at brief
        cases brief
  have still : ∀ {t p}, m.Reads s t p → m'.Reads s t p := fun ⟨b, hb, reads⟩ => ⟨b, passes.mem_stack sound hb, reads⟩
  constructor
  · rw [stays.state, stays.transport]
    intro running
    obtain ⟨t, connected, ⟨q, reads⟩ | ⟨_, _, _, _, turn⟩⟩ := h.running running
    · exact ⟨t, connected, .inl ⟨q, still reads⟩⟩
    · cases passes.idle _ turn
  · intro p t waits
    rw [stays.state, stays.transport]
    intro connected starting
    rcases h.waiting (before waits (.inl nofun)) connected starting with ⟨q, reads⟩ | ⟨q, releasing⟩
    · exact .inl ⟨q, still reads⟩
    · exact .inr ⟨q, passes.mem_stack sound releasing⟩
  · exact fun waits => Nat.lt_of_lt_of_le (h.made (before waits (.inl nofun))) after.grows
  · intro p releasing
    rw [stays.state]
    exact h.releasing (before releasing (.inr rfl))

theorem Step.attended (hE : E.IsTame) (sound : m.Sound) (tidy : m.Tidy) (halting : m.Halting s)
    (cared : ¬ m.Neglects E s) (next : Step E acts m m') (h : m.Attended s) : m'.Attended s := by
  obtain ⟨_, after, passes | ⟨p, a, rest, o, r, c, hx, hp⟩⟩ := next.spec hE sound
  · exact passes.attended sound after h
  · exact hp.attended hE sound tidy halting cared hx h

/-! ## Whole runs -/

theorem attended_of_isNew (new : c.IsNew) : Attended s ⟨c, none⟩ := by
  have none : ∀ {p b}, b ∉ stack ⟨c, none⟩ p := fun hb => by
    rw [stack_of_isNew new] at hb
    cases hb
  refine ⟨fun running => ?_, fun waits => absurd waits none, fun waits => absurd waits none,
    fun releasing => absurd releasing none⟩
  rw [(sessionAt_of_isNew new s).1] at running
  cases running

/-- A session is attended to in every run in which it is not neglected. -/
theorem Run.attended (hE : E.IsTame) (new : c.IsNew) (run : Run E (fun m => ¬ m.Neglects E s) ⟨c, none⟩ acts m) :
    m.Attended s := by
  suffices all : m.Halting s ∧ m.Attended s from all.2
  have sound := sound_of_isNew new
  induction run with
  | refl => exact ⟨halting_of_isNew new s, attended_of_isNew new⟩
  | step run cared next ih =>
    have sound' := (run.spec hE sound).1
    have tidy := run.tidy hE sound (tidy_of_isNew new)
    exact ⟨next.halting hE sound' ih.1, next.attended hE sound' tidy ih.1 cared ih.2⟩

/-- A loss of the connection is not passed over: a session that runs fails next, and one that starts gives up its
requests, so that whoever waits for one hears of it. -/
theorem Step.heeds_loss (hE : E.IsTame) (sound : m.Sound) (next : Step E acts m m') (loss : IsLoss o)
    (turn : m.turn = some ⟨p, .readLoopReceived s t :: rest, o⟩)
    (connected : (m.client.sessionAt s).transport = some t) :
    ((m.client.sessionAt s).state = .running → m'.IsFailing s) ∧
      ((m.client.sessionAt s).state = .starting → m.GivesUp s m' ∧ (m'.client.sessionAt s).registry.pending = []) := by
  obtain ⟨_, _, passes | ⟨q, a, rest', o', r, c, hx, hp⟩⟩ := next.spec hE sound
  · cases passes.idle _ turn
  · have same := hp.turn
    rw [turn] at same
    cases same
    obtain ⟨f, goes⟩ := exists_connectionLost (E := E) (s := s) (t := t) loss
    rw [goes] at hx
    constructor
    · intro running
      obtain ⟨c', hy⟩ := does_connectionLost_of_running (E := E) connected running f
      have same := hx.symm.trans hy
      cases same
      exact ⟨p, f, _, _, hp.calls _ _ rfl⟩
    · intro starting
      obtain ⟨c', hy, gives, none⟩ := does_connectionLost_of_starting (E := E) sound.client connected starting f
      have same := hx.symm.trans hy
      cases same
      exact ⟨hp.givesUp gives, by rw [hp.sessions, none]⟩

/-- Whatever is played to a new client, a task that has not ended reads the messages of the server of a session that
runs from its transport, unless a task goes on for too long or the session is neglected on the way. -/
theorem attended_of_played (new : c.IsNew) {steps : List LspClient.Step} (h : ∀ step ∈ steps, IsPlayable step)
    (running : ((playedBy c steps).sessionAt s).state = .running) :
    (∃ t p, ((playedBy c steps).sessionAt s).transport = some t ∧
      (∃ a ∈ (playedBy c steps).loop.stackOf p, a.reads = some (s, t)) ∧ (playedBy c steps).loop.outcome? p = none) ∨
      Overlong (executor nesting) ⟨c, none⟩ (steps.flatMap actsOf) ∨
      Strays (executor nesting) (fun m => ¬ m.Neglects (executor nesting) s) ⟨c, none⟩ (steps.flatMap actsOf)
        ⟨playedBy c steps, none⟩ := by
  rcases leads_playedBy h c with run | overlong
  · rcases run.keeps_or_strays fun m => ¬ m.Neglects (executor nesting) s with cared | neglected
    · left
      have tame := isTame_executor nesting
      obtain ⟨t, connected, ⟨p, a, ha, reads⟩ | ⟨_, _, _, _, never⟩⟩ :=
        ((cared.mono fun _ here => here.2).attended tame new).running running
      · exact ⟨t, p, connected, ⟨a, ha, reads⟩, ((run.spec tame (sound_of_isNew new)).1.unfinished ha).2⟩
      · cases never
    · exact .inr (.inr neglected)
  · exact .inr (.inl overlong)

end Moment

end LspClient
