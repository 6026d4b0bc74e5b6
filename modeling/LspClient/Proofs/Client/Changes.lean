/-
Changes of a client in the lives of its sessions. `Goes` says what every change keeps, `Changes` what
happens to one session while the others go on in their states, and `Still` that all of them do.
-/
import LspClient.Proofs.Client.Lifecycle

namespace LspClient

open Activity (IsRoot)

/-! ## Definitions -/

namespace Session

/-- A session that has gone on for some time: its states have followed each other as they may, from the first
one on, and the requests that it has begun meanwhile have new ids. -/
structure Ages (x x' : Session) : Prop where
  path : Lifecycle.IsPath x.lifecycle.path → Lifecycle.IsPath x'.lifecycle.path
  origin : x'.lifecycle.path.head? = x.lifecycle.path.head?
  nextId : x.nextId ≤ x'.nextId
  fresh : ∀ p ∈ x'.registry.pending, p ∈ x.registry.pending ∨ ∃ n : Nat, x.nextId ≤ n ∧ p.id = .int n

/-- A session that has moved to a state, with the same transport. Unless it runs now, it knows of the same
failures. -/
structure Enters (target : SessionState) (x x' : Session) : Prop where
  may : x.state.mayBecome target = true
  state : x'.state = target
  transport : x'.transport = x.transport
  streak : target ≠ .running → x'.streak = x.streak

/-- A session that begins to run: its failures are forgotten. -/
def Runs (x x' : Session) : Prop :=
  x.Enters .running x' ∧ x'.streak = (x.policy.reset, false)

/-- A session that has moved to a state, and has no pending request. -/
def EntersQuiet (target : SessionState) (x x' : Session) : Prop :=
  x.Enters target x' ∧ x'.registry.pending = []

/-- A session that has stopped, with nothing new. -/
def Halts (x x' : Session) : Prop :=
  x.Enters .stopped x' ∧ x'.registry.pending ⊆ x.registry.pending

/-- A session that goes on in the same state and counts no failure, whatever its transport is. -/
def Remains (x x' : Session) : Prop :=
  x'.state = x.state ∧ x'.streak = x.streak

/-- A session that has given up its transport. Only one that runs may have begun requests meanwhile. -/
def Disconnects (x x' : Session) : Prop :=
  x.Remains x' ∧ x'.transport = none ∧ (x.state ≠ .running → x'.registry.pending ⊆ x.registry.pending)

end Session

namespace Client

/-- The answers to requests of the server that sessions have tried to write on a transport. -/
def answersOn (c : Client) (t : TransportId) : List String :=
  ((c.attemptsOn t).filter fun m => m.1 = .answer).map (·.2)

/-- A client that has gone on for some time: no request is lost, what is settled stays settled, and
what tasks are in the middle of is kept. New tasks begin with certain activities only. -/
structure Goes (A : Activity → Prop) (c c' : Client) : Prop where
  loop : c.loop.Moves A none c'.loop
  running : c'.running = c.running
  count : c'.sessions.size = c.sessions.size
  grows : c.transports.size ≤ c'.transports.size
  ages : ∀ x, (c.sessionAt x).Ages (c'.sessionAt x)
  endures : ∀ x, Registry.Endures (c.sessionAt x).registry c.loop (c'.sessionAt x).registry c'.loop

/-- A client that goes on with its sessions in the same states: what tasks are in the middle of is
kept, no request is lost, and none of the server is answered. New tasks begin with certain activities
only. One session may begin requests although it does not run. -/
structure Still (A : Activity → Prop) (but : Option SessionId) (c c' : Client) : Prop where
  loop : c.loop.Moves A none c'.loop
  running : c'.running = c.running
  count : c'.sessions.size = c.sessions.size
  grows : c.transports.size ≤ c'.transports.size
  stays : ∀ s, (c.sessionAt s).Stays (but = some s) (c'.sessionAt s)
  endures : ∀ s, Registry.Endures (c.sessionAt s).registry c.loop (c'.sessionAt s).registry c'.loop
  answers : ∀ t, c'.answersOn t = c.answersOn t

/-- A client in which one session has changed in some way; the others go on in their states. -/
structure Changes (s : SessionId) (R : Session → Session → Prop) (c c' : Client) : Prop extends Goes IsRoot c c' where
  session : R (c.sessionAt s) (c'.sessionAt s)
  others : ∀ x, x ≠ s → (c.sessionAt x).Stays False (c'.sessionAt x)
  answers : ∀ t, c'.answersOn t = c.answersOn t

end Client

/-- The activities that are left to do, the innermost one first. -/
def framesOf : Except Fault Next → List Activity
  | .ok next => next.frames
  | .error _ => []

/-- An operation that leaves the states of sessions alone. One session may begin requests. -/
def StillAt (E : Executor) {α : Type} (A : Activity → Prop) (but : Option SessionId) (op : ClientM α)
    (c : Client) : Prop :=
  c.Still A but (does E op c).2 ∧ (does E op c).2.Sound

/-- An activity that leaves the states of sessions alone, and leaves to do what stirs one session at most. -/
structure SteadyAt (E : Executor) (but of : Option SessionId) (op : ClientM Next) (c : Client) : Prop where
  still : StillAt E IsRoot but op c
  free : ∀ b ∈ framesOf (does E op c).1, b.IsFree of

/-! ## Going on -/

namespace Session

variable {free : Prop} {x x' x'' : Session}

theorem Stays.ages (h : x.Stays free x') : x.Ages x' := by
  refine ⟨?_, by rw [h.lifecycle], h.nextId, ?_⟩
  · rw [h.lifecycle]
    exact id
  · intro p hp
    rcases h.pending p hp with hp | ⟨_, new⟩
    · exact .inl hp
    · exact .inr new

theorem Ages.refl (x : Session) : x.Ages x :=
  ⟨id, rfl, Nat.le_refl _, fun _ hp => .inl hp⟩

theorem Ages.trans (h : x.Ages x') (h' : x'.Ages x'') : x.Ages x'' := by
  refine ⟨fun path => h'.path (h.path path), h'.origin.trans h.origin, Nat.le_trans h.nextId h'.nextId, ?_⟩
  intro p hp
  rcases h'.fresh p hp with hp | ⟨n, hn, e⟩
  · exact h.fresh p hp
  · exact .inr ⟨n, Nat.le_trans h.nextId hn, e⟩

/-- Only a session that starts runs next. -/
theorem Enters.starting (h : x.Enters .running x') : x.state = .starting := by
  have may := h.may
  cases hs : x.state <;> rw [hs] at may <;> first | rfl | cases may

/-- A stopping session does nothing but stop. -/
theorem Enters.not_stopping {target : SessionState} (h : x.Enters target x') (other : target ≠ .stopped) :
    x.state ≠ .stopping := by
  intro stopping
  have may := h.may
  rw [stopping] at may
  cases target <;> first | exact other rfl | cases may

/-- A session that goes on after it has moved to a state. -/
theorem Enters.stays {target : SessionState} (h : x.Enters target x') (stays : x'.Stays free x'') :
    x.Enters target x'' :=
  ⟨h.may, by rw [stays.state, h.state], by rw [stays.transport, h.transport],
    fun other => by rw [stays.streak, h.streak other]⟩

/-- A session that goes on before it moves to a state. -/
theorem Stays.enters {target : SessionState} (stays : x.Stays free x') (h : x'.Enters target x'') :
    x.Enters target x'' :=
  ⟨by rw [← stays.state]; exact h.may, h.state, by rw [h.transport, stays.transport],
    fun other => by rw [h.streak other, stays.streak]⟩

/-- A session that goes on before it runs. -/
theorem Stays.runs (stays : x.Stays free x') (h : x'.Runs x'') : x.Runs x'' := by
  refine ⟨stays.enters h.1, ?_⟩
  have same : x'.policy = x.policy := congrArg Prod.fst stays.streak
  rw [h.2, same]

theorem Stays.remains (h : x.Stays free x') : x.Remains x' :=
  ⟨h.state, h.streak⟩

theorem Remains.trans (h : x.Remains x') (h' : x'.Remains x'') : x.Remains x'' :=
  ⟨h'.1.trans h.1, h'.2.trans h.2⟩

/-- A session that goes on without being free to begin requests keeps those that it has, at most,
unless it runs. -/
theorem Stays.pending_subset (h : x.Stays False x') (idle : x.state ≠ .running) :
    x'.registry.pending ⊆ x.registry.pending := by
  intro p hp
  rcases h.pending p hp with hp | ⟨may, _⟩
  · exact hp
  · rcases may with never | running
    · exact never.elim
    · exact absurd running idle

end Session

namespace Client

variable {A B : Activity → Prop} {s : SessionId} {R R' R'' : Session → Session → Prop} {but : Option SessionId}
  {c c' c'' : Client}

/-! ### Answers -/

/-- Messages of users are no answers. -/
theorem Near.answersOn (h : c.Near but c') (t : TransportId) : c'.answersOn t = c.answersOn t := by
  obtain ⟨us, e, hus⟩ := h.attempts t
  have none : us.filter (fun m => m.1 = .answer) = [] := by
    refine List.filter_eq_nil_iff.2 fun m hm => ?_
    obtain ⟨user, _⟩ := hus m hm
    intro answer
    rw [of_decide_eq_true answer] at user
    cases user
  unfold Client.answersOn
  rw [e, List.filter_append, none, List.append_nil]

/-- What is written for another purpose is no answer. -/
theorem answersOn_record_of_purpose (c : Client) (t u : TransportId) {m : Purpose × String} (h : m.1 ≠ .answer) :
    (c.record t m).answersOn u = c.answersOn u := by
  unfold Client.answersOn
  by_cases hu : u = t ∧ t < c.transports.size
  · obtain ⟨rfl, inside⟩ := hu
    rw [attemptsOn_record_self c inside, List.filter_append, List.filter_cons_of_neg (by simpa using h),
      List.filter_nil, List.append_nil]
  · by_cases same : u = t
    · have beyond : c.transports.size ≤ u := Nat.le_of_not_lt fun inside => hu ⟨same, same ▸ inside⟩
      rw [attemptsOn_of_size_le c beyond, attemptsOn_of_size_le]
      exact Nat.le_trans (Nat.le_of_eq Array.size_modify) beyond
    · rw [attemptsOn_record_of_ne c same]

theorem answersOn_record_of_ne (c : Client) {t u : TransportId} (h : u ≠ t) (m : Purpose × String) :
    (c.record t m).answersOn u = c.answersOn u := by
  unfold Client.answersOn
  rw [attemptsOn_record_of_ne c h]

theorem answersOn_record_self (c : Client) {t : TransportId} (h : t < c.transports.size) (text : String) :
    (c.record t (.answer, text)).answersOn t = c.answersOn t ++ [text] := by
  unfold Client.answersOn
  rw [attemptsOn_record_self c h]
  simp

/-! ### Kinds of changes -/

theorem Near.still (h : c.Near but c') : c.Still IsRoot but c' :=
  ⟨h.loop, h.running, h.count, Nat.le_of_eq h.transports.symm, fun s => (h.sessions s).toStays, h.endures, h.answersOn⟩

theorem Still.refl (but : Option SessionId) (c : Client) : c.Still A but c :=
  ⟨Loop.Moves.refl _, rfl, rfl, Nat.le_refl _, fun _ => Session.Stays.refl _, fun _ => .refl _ _, fun _ => rfl⟩

theorem Still.trans (h : c.Still A but c') (h' : c'.Still A but c'') : c.Still A but c'' where
  loop := h.loop.trans h'.loop
  running := h'.running.trans h.running
  count := h'.count.trans h.count
  grows := Nat.le_trans h.grows h'.grows
  stays s := (h.stays s).trans (h'.stays s)
  endures s := (h.endures s).trans (h'.endures s) fun _ _ => h'.loop.outcome
  answers t := (h'.answers t).trans (h.answers t)

theorem Still.goes (h : c.Still A but c') : c.Goes A c' :=
  ⟨h.loop, h.running, h.count, h.grows, fun x => (h.stays x).ages, h.endures⟩

theorem Still.weaken (h : c.Still A none c') (but : Option SessionId) : c.Still A but c' :=
  { h with stays := fun s => (h.stays s).weaken fun e => absurd e (by simp) }

theorem Still.mono (h : c.Still A but c') (w : ∀ a, A a → B a) : c.Still B but c' :=
  { h with loop := h.loop.mono w }

theorem Still.stays_false (h : c.Still A none c') (s : SessionId) : (c.sessionAt s).Stays False (c'.sessionAt s) :=
  (h.stays s).weaken fun e => absurd e (by simp)

theorem Still.stays_of_ne (h : c.Still A (some s) c') {x : SessionId} (hx : x ≠ s) :
    (c.sessionAt x).Stays False (c'.sessionAt x) :=
  (h.stays x).weaken fun e => hx (Option.some.inj e).symm

theorem Still.changes (h : c.Still IsRoot none c') (s : SessionId) : c.Changes s (Session.Stays False) c' :=
  { h.goes with session := h.stays_false s, others := fun x _ => h.stays_false x, answers := h.answers }

theorem Goes.trans (h : c.Goes A c') (h' : c'.Goes A c'') : c.Goes A c'' where
  loop := h.loop.trans h'.loop
  running := h'.running.trans h.running
  count := h'.count.trans h.count
  grows := Nat.le_trans h.grows h'.grows
  ages x := (h.ages x).trans (h'.ages x)
  endures x := (h.endures x).trans (h'.endures x) fun _ _ => h'.loop.outcome

theorem Goes.mono (h : c.Goes A c') (w : ∀ a, A a → B a) : c.Goes B c' :=
  { h with loop := h.loop.mono w }

theorem Changes.trans (h : c.Changes s R c') (h' : c'.Changes s R' c'') (both : ∀ x y z, R x y → R' y z → R'' x z) :
    c.Changes s R'' c'' :=
  { h.toGoes.trans h'.toGoes with
    session := both _ _ _ h.session h'.session
    others := fun x hx => (h.others x hx).trans (h'.others x hx)
    answers := fun t => (h'.answers t).trans (h.answers t) }

theorem Changes.weaken (h : c.Changes s R c') (w : ∀ x y, R x y → R' x y) : c.Changes s R' c' :=
  { h with session := w _ _ h.session }

end Client

/-! ## Putting operations together -/

section

variable {E : Executor} {α β : Type} {A B : Activity → Prop} {but of : Option SessionId} {c : Client}

theorem MinorAt.still {op : ClientM α} (h : MinorAt E op c) (but : Option SessionId) : StillAt E IsRoot but op c :=
  ⟨(h.1.near but).still, h.2⟩

theorem StillAt.mono {op : ClientM α} (h : StillAt E A but op c) (w : ∀ a, A a → B a) : StillAt E B but op c :=
  ⟨h.1.mono w, h.2⟩

theorem StillAt.bind {x : ClientM α} {f : α → ClientM β} (h : StillAt E A but x c)
    (hf : ∀ a c', does E x c = (.ok a, c') → c'.Sound → StillAt E A but (f a) c') : StillAt E A but (x >>= f) c := by
  obtain ⟨m, s⟩ := h
  unfold StillAt
  rw [does_bind]
  rcases hx : does E x c with ⟨e | a, c'⟩
  · rw [hx] at m s
    exact ⟨m, s⟩
  · rw [hx] at m s
    obtain ⟨m', s'⟩ := hf a c' hx s
    exact ⟨m.trans m', s'⟩

theorem StillAt.tryCatch {x : ClientM α} {f : Fault → ClientM α} (h : StillAt E A but x c)
    (hf : ∀ e c', c'.Sound → StillAt E A but (f e) c') : StillAt E A but (tryCatch x f) c := by
  obtain ⟨m, s⟩ := h
  unfold StillAt
  rw [does_tryCatch]
  rcases hx : does E x c with ⟨e | a, c'⟩
  · rw [hx] at m s
    obtain ⟨m', s'⟩ := hf e c' s
    exact ⟨m.trans m', s'⟩
  · rw [hx] at m s
    exact ⟨m, s⟩

theorem stillAt_pure (s : c.Sound) (a : α) : StillAt E A but (pure a) c :=
  ⟨Client.Still.refl but c, s⟩

theorem stillAt_throw (s : c.Sound) (f : Fault) : StillAt E A but (throw f : ClientM α) c :=
  ⟨Client.Still.refl but c, s⟩

theorem StillAt.attempt {x : ClientM α} (h : StillAt E A but x c) : StillAt E A but (Client.attempt x) c := by
  refine (h.bind fun a c' _ s => stillAt_pure s _).tryCatch fun e c' s => ?_
  split
  · exact stillAt_throw s e
  · exact stillAt_pure s _

theorem StillAt.catchTransport {x : ClientM Unit} {f : Fault → ClientM Unit} (h : StillAt E IsRoot but x c)
    (hf : ∀ e, IsMinor E (f e)) : StillAt E IsRoot but (Client.catchTransport x f) c := by
  refine h.tryCatch fun e c' s => ?_
  split
  · exact ((hf e).minorAt c' s).still but
  · exact stillAt_throw s e

theorem SteadyAt.parts {op : ClientM Next} (h : SteadyAt E but of op c) :
    ∃ r c', does E op c = (r, c') ∧ c.Still IsRoot but c' ∧ c'.Sound ∧ ∀ b ∈ framesOf r, b.IsFree of :=
  ⟨_, _, rfl, h.still.1, h.still.2, h.free⟩

theorem SteadyAt.of_eq {op op' : ClientM Next} (h : SteadyAt E but of op c) (e : does E op' c = does E op c) :
    SteadyAt E but of op' c := by
  refine ⟨?_, ?_⟩
  · unfold StillAt
    rw [e]
    exact h.still
  · rw [e]
    exact h.free

theorem steadyAt_pure (s : c.Sound) {next : Next} (h : next.IsFree of c) : SteadyAt E but of (pure next) c :=
  ⟨stillAt_pure s next, h⟩

theorem steadyAt_throw (s : c.Sound) (f : Fault) : SteadyAt E but of (throw f : ClientM Next) c :=
  ⟨stillAt_throw s f, fun _ hb => by cases hb⟩

theorem CalmAt.free {op : ClientM Next} (h : CalmAt E (Next.IsFree of) op c) :
    ∀ b ∈ framesOf (does E op c).1, b.IsFree of := by
  intro b hb
  rcases hx : does E op c with ⟨f | next, c'⟩
  · rw [hx] at hb
    cases hb
  · rw [hx] at hb
    exact h.answers hx b hb

theorem CalmAt.ends {op : ClientM Next} (h : CalmAt E Next.Ends op c) : framesOf (does E op c).1 = [] := by
  rcases hx : does E op c with ⟨f | next, c'⟩
  · rfl
  · exact h.answers hx

theorem CalmAt.steady {op : ClientM Next} (h : CalmAt E (Next.IsFree of) op c) : SteadyAt E but of op c :=
  ⟨h.minor.still but, h.free⟩

theorem IsCalm.steady {op : ClientM Next} (h : IsCalm E (Next.IsFree of) op) (hc : c.Sound) : SteadyAt E but of op c :=
  (h.calmAt c hc).steady

theorem StillAt.steady_bind {x : ClientM α} {f : α → ClientM Next} (h : StillAt E IsRoot but x c)
    (hf : ∀ a c', does E x c = (.ok a, c') → c'.Sound → SteadyAt E but of (f a) c') :
    SteadyAt E but of (x >>= f) c := by
  refine ⟨h.bind fun a c' hx s => (hf a c' hx s).still, ?_⟩
  rw [does_bind]
  obtain ⟨_, s⟩ := h
  rcases hy : does E x c with ⟨e | a, d⟩
  · intro b hb
    cases hb
  · rw [hy] at s
    exact (hf a d hy s).free

/-- What is only looked at makes no change. -/
theorem steadyAt_bind_of_ok {x : ClientM α} {a : α} (hx : does E x c = (.ok a, c)) {f : α → ClientM Next}
    (h : SteadyAt E but of (f a) c) : SteadyAt E but of (x >>= f) c :=
  h.of_eq (does_bind_of_ok hx f)

theorem IsMinor.steady_bind {x : ClientM α} {f : α → ClientM Next} (h : IsMinor E x) (hc : c.Sound)
    (hf : ∀ a c', c'.Sound → SteadyAt E but of (f a) c') : SteadyAt E but of (x >>= f) c :=
  ((h.minorAt c hc).still but).steady_bind fun a c' _ s => hf a c' s

end

namespace Client

variable {E : Executor} {A : Activity → Prop} {but : Option SessionId} {c : Client}

/-! ## Changes of a session -/

/-- A client with a changed session. -/
def alter (c : Client) (s : SessionId) (f : Session → Session) : Client :=
  { c with sessions := c.sessions.modify s f }

theorem does_onSession (s : SessionId) (f : Session → Session) (c : Client) :
    does E (onSession s f) c = (.ok ⟨⟩, c.alter s f) := rfl

theorem sessionAt_alter (c : Client) (s x : SessionId) (f : Session → Session) :
    (c.alter s f).sessionAt x = c.sessionAt x ∨
      x = s ∧ x < c.sessions.size ∧ (c.alter s f).sessionAt x = f (c.sessionAt x) :=
  sessionAt_modify c s x f

theorem sessionAt_alter_of_ne (c : Client) {s x : SessionId} (h : x ≠ s) (f : Session → Session) :
    (c.alter s f).sessionAt x = c.sessionAt x := by
  rcases sessionAt_alter c s x f with e | ⟨e, _⟩
  · exact e
  · exact absurd e h

theorem sessionAt_alter_self (c : Client) {s : SessionId} (h : s < c.sessions.size) (f : Session → Session) :
    (c.alter s f).sessionAt s = f (c.sessionAt s) :=
  sessionAt_modify_self c h f

/-- There is no session beyond the last one. -/
theorem alter_of_size_le (c : Client) {s : SessionId} (h : c.sessions.size ≤ s) (f : Session → Session) :
    c.alter s f = c := by
  have same : c.sessions.modify s f = c.sessions := by
    refine Array.ext (Array.size_modify) ?_
    intro i hi hi'
    rw [Array.getElem_modify, if_neg (by omega)]
  unfold alter
  rw [same]

/-- A session that has not stopped has been made. -/
theorem lt_size_of_state {s : SessionId} (h : (c.sessionAt s).state ≠ .stopped) : s < c.sessions.size := by
  refine Nat.lt_of_not_le fun beyond => h ?_
  unfold sessionAt
  rw [Array.getElem?_eq_none beyond]
  rfl

/-- A session keeps its handlers and its requests when its life changes. -/
theorem Sound.alter (hc : c.Sound) (s : SessionId) {f : Session → Session}
    (routers : ∀ y topic, (f y).router topic = y.router topic) (registry : ∀ y, (f y).registry = y.registry)
    (nextId : ∀ y, (f y).nextId = y.nextId) : (c.alter s f).Sound := by
  refine ⟨hc.wf, fun x => ?_, hc.alone, fun x => ?_⟩
  · rcases sessionAt_alter c s x f with e | ⟨_, _, e⟩
    · rw [e]
      exact hc.sessions x
    · rw [e]
      refine ⟨fun topic g hg => ?_, fun p hp => ?_⟩
      · rw [routers] at hg
        exact (hc.sessions x).tame topic g hg
      · rw [registry] at hp
        rw [nextId]
        exact (hc.sessions x).ids p hp
  · rcases sessionAt_alter c s x f with e | ⟨_, _, e⟩
    · rw [e]
      exact hc.registries x
    · rw [e, registry]
      exact hc.registries x

/-- A change of one session that keeps its requests. -/
theorem changes_alter {s : SessionId} (inside : s < c.sessions.size) {f : Session → Session}
    {R : Session → Session → Prop} (ages : (c.sessionAt s).Ages (f (c.sessionAt s)))
    (registry : (f (c.sessionAt s)).registry = (c.sessionAt s).registry) (h : R (c.sessionAt s) (f (c.sessionAt s))) :
    c.Changes s R (c.alter s f) := by
  refine ⟨⟨Loop.Moves.refl _, rfl, Array.size_modify, Nat.le_refl _, ?_, ?_⟩, ?_, ?_, fun _ => rfl⟩
  · intro x
    rcases sessionAt_alter c s x f with e | ⟨rfl, _, e⟩
    · rw [e]
      exact Session.Ages.refl _
    · rw [e]
      exact ages
  · intro x
    rcases sessionAt_alter c s x f with e | ⟨rfl, _, e⟩
    · rw [e]
      exact .refl _ _
    · rw [e, registry]
      exact .refl _ _
  · rw [sessionAt_alter_self c inside]
    exact h
  · intro x hx
    rw [sessionAt_alter_of_ne c hx]
    exact Session.Stays.refl _

/-- A change of one session besides its state, its transport and its requests. -/
theorem still_alter (s : SessionId) {f : Session → Session} (stays : (c.sessionAt s).Stays False (f (c.sessionAt s)))
    (registry : (f (c.sessionAt s)).registry = (c.sessionAt s).registry) : c.Still A none (c.alter s f) := by
  refine ⟨Loop.Moves.refl _, rfl, Array.size_modify, Nat.le_refl _, ?_, ?_, fun _ => rfl⟩
  · intro x
    rcases sessionAt_alter c s x f with e | ⟨rfl, _, e⟩
    · rw [e]
      exact Session.Stays.refl _
    · rw [e]
      exact stays.weaken False.elim
  · intro x
    rcases sessionAt_alter c s x f with e | ⟨rfl, _, e⟩
    · rw [e]
      exact .refl _ _
    · rw [e, registry]
      exact .refl _ _

/-- A new task, which may be one that serves the server of a session. -/
theorem stillAt_spawn (hc : c.Sound) {a : Activity} (h : A a) : StillAt E A but (spawn a) c := by
  have moves : ∀ {B : Activity → Prop}, B a → c.loop.Moves B none (c.loop.spawn a).2 :=
    fun h => Loop.moves_spawn c.loop h
  refine ⟨⟨moves h, rfl, rfl, Nat.le_refl _, fun _ => Session.Stays.refl _,
    fun _ => .elsewhere _ fun _ _ => (moves h).outcome, fun _ => rfl⟩, ?_⟩
  exact ⟨hc.wf.spawn a, hc.sessions, hc.alone.moves (moves h), fun x => (hc.registries x).moves (moves h)⟩

/-- What is written leaves sessions alone, unless it answers a request of the server. -/
theorem still_record (c : Client) (t : TransportId) {m : Purpose × String} (h : m.1 ≠ .answer) :
    c.Still A but (c.record t m) :=
  ⟨Loop.Moves.refl _, rfl, rfl, Nat.le_of_eq Array.size_modify.symm, fun _ => Session.Stays.refl _, fun _ => .refl _ _,
    fun u => answersOn_record_of_purpose c t u h⟩

/-! ## Transitions -/

/-- A session with a state. -/
def enter (l : Lifecycle) (x : Session) : Session :=
  { x with lifecycle := l }

theorem Sound.enter (hc : c.Sound) (s : SessionId) (l : Lifecycle) : (c.alter s (enter l)).Sound :=
  hc.alter s (fun _ topic => by cases topic <;> rfl) (fun _ => rfl) fun _ => rfl

/-- A transition changes the state if the new one may follow, and fails otherwise. -/
theorem does_transition (s : SessionId) (target : SessionState) (c : Client) :
    ((c.sessionAt s).state.mayBecome target = false ∧ ∃ f, does E (transition s target) c = (.error f, c)) ∨
      ∃ l, (c.sessionAt s).lifecycle.transition target = .ok l ∧
        does E (transition s target) c = (.ok (), c.alter s (enter l)) := by
  unfold transition
  rw [does_bind_of_ok (does_session s c)]
  cases h : (c.sessionAt s).lifecycle.transition target with
  | ok l => exact .inr ⟨l, rfl, rfl⟩
  | error f =>
    refine .inl ⟨?_, f, rfl⟩
    unfold Lifecycle.transition at h
    split at h
    · cases h
    · next never => exact Bool.eq_false_iff.2 never

theorem enters_of_transition {x : Session} {target : SessionState} {l : Lifecycle}
    (h : x.lifecycle.transition target = .ok l) : x.Enters target (enter l x) := by
  unfold Lifecycle.transition at h
  split at h
  · next may =>
    cases h
    exact ⟨may, rfl, rfl, fun _ => rfl⟩
  · cases h

/-- Only sessions that have been made go further than to start. -/
theorem lt_size_of_transition {s : SessionId} {target : SessionState} {l : Lifecycle}
    (h : (c.sessionAt s).lifecycle.transition target = .ok l) (later : target ≠ .starting) : s < c.sessions.size := by
  refine lt_size_of_state fun stopped => later ?_
  have may := (enters_of_transition h).may
  rw [stopped] at may
  cases target with
  | starting => rfl
  | stopped => cases may
  | running => cases may
  | stopping => cases may
  | failed => cases may

/-- A session that moves to a state, and goes on in it. -/
theorem changes_enter {s : SessionId} (inside : s < c.sessions.size) {target : SessionState} {l : Lifecycle}
    (h : (c.sessionAt s).lifecycle.transition target = .ok l) {c' : Client}
    (m : (c.alter s (enter l)).Still IsRoot none c') : c.Changes s (Session.Enters target) c' := by
  have ages : (c.sessionAt s).Ages (enter l (c.sessionAt s)) :=
    ⟨fun path => Lifecycle.isPath_transition path h, Lifecycle.head?_transition h, Nat.le_refl _, fun _ hp => .inl hp⟩
  have first : c.Changes s (Session.Enters target) (c.alter s (enter l)) :=
    changes_alter inside ages rfl (enters_of_transition h)
  exact first.trans (m.changes s) fun _ _ _ enters stays => enters.stays stays

end Client

end LspClient
