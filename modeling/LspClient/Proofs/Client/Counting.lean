/-
Counting the failures of a session. The policy decides what follows from a failure: the session is started again after
some time, if nobody waits for it to start, or it is given up.
-/
import LspClient.Proofs.Client.Vital
import LspClient.Proofs.Keeps
import LspClient.Proofs.Loop.Turns

namespace LspClient

open Activity (IsRoot)

variable {E : Executor} {α β : Type} {s : SessionId} {a : Activity} {c c' c₀ : Client}

/-! ## Definitions -/

namespace Session

/-- A session that knows of other failures. -/
def remember (x : Session) (k : RestartPolicy × Bool) : Session :=
  { x with policy := k.1, failureNotified := k.2 }

/-- A session that goes on in the same state, with the same transport, whatever it learns of its failures. -/
structure Learns (x x' : Session) : Prop where
  stays : (x.remember x'.streak).Stays False x'
  told : x.failureNotified = true → x'.failureNotified = true

end Session

namespace Client

/-- A failure of a session is counted; all sessions go on in their states, and new tasks begin with certain activities
only. -/
structure Counts (A : Activity → Prop) (s : SessionId) (c c' : Client) : Prop extends Goes A c c' where
  session : (c.sessionAt s).Learns (c'.sessionAt s)
  policy : s < c.sessions.size → (c'.sessionAt s).policy = (c.sessionAt s).policy.countFailure
  others : ∀ x, x ≠ s → (c.sessionAt x).Stays False (c'.sessionAt x)
  answers : ∀ t, c'.answersOn t = c.answersOn t

/-- A session with a task that is going to start it again. -/
def expect (task : PromiseId) (x : Session) : Session :=
  { x with restarting := some task }

/-- A client in which a session is going to be started again: a new task is about to wait for some time, and then
starts it. -/
def restarted (c : Client) (s : SessionId) (delay : Number) : Client :=
  ({ c with loop := (c.loop.spawn (.restart s delay)).2 } : Client).alter s (expect c.loop.promises.size)

/-- A failure of a session is counted, the user knows of it, and then the session is going to be started again after a
delay. -/
def Schedules (s : SessionId) (delay : Number) (c c' : Client) : Prop :=
  ∃ c₁, c.Counts IsRoot s c₁ ∧ c₁.Sound ∧ (s < c.sessions.size → (c₁.sessionAt s).failureNotified = true) ∧
    c' = c₁.restarted s delay

/-- What an activity does that counts a failure of a session: nothing else, or it lets the session be started again. -/
inductive Counted (a : Activity) (s : SessionId) (c c' : Client) : Prop
  | alone (counts : c.Counts IsRoot s c')
  | again {delay : Number} (begins : c.Begins a (.restart s delay)) (schedules : c.Schedules s delay c')

/-- What follows from a failure of a session that has been counted: the policy has decided, and the session is going
to be started again if it has decided so and nobody waits for the session to start. -/
def Decides (s : SessionId) (autoRestart : Bool) (c c' : Client) : Prop :=
  s < c.sessions.size → ∃ d : FailureDecision, (c.sessionAt s).policy.countFailure.decide = .ok d ∧
    (d.restart = true → autoRestart = true → c.Schedules s d.delay c')

end Client

/-- What an operation does on the way after a failure has been counted, with a property of what it answers. -/
abbrev CountsAt (E : Executor) (a : Activity) (s : SessionId) (c₀ : Client) (op : ClientM α) (Q : α → Client → Prop)
    (c : Client) : Prop :=
  KeepsAt (fun d => c₀.Counted a s d ∧ d.Sound) (fun _ => True) Q (op E) c

namespace Session

variable {x x' x'' : Session}

theorem Learns.state (h : x.Learns x') : x'.state = x.state :=
  h.stays.state

theorem Learns.transport (h : x.Learns x') : x'.transport = x.transport :=
  h.stays.transport

/-- A session that learns nothing. -/
theorem Stays.known (h : x.Stays False x') : x.Learns x' := by
  refine ⟨?_, fun told => ?_⟩
  · rw [h.streak]
    exact h
  · rw [← told]
    exact congrArg Prod.snd h.streak

/-- A session that counts no failure later. -/
theorem Learns.trans_stays (h : x.Learns x') (stays : x'.Stays False x'') : x.Learns x'' := by
  have same := stays.streak
  refine ⟨?_, fun told => ?_⟩
  · rw [same]
    exact h.stays.trans stays
  · rw [show x''.failureNotified = x'.failureNotified from congrArg Prod.snd same]
    exact h.told told

/-- A session that goes on before it learns of a failure. -/
theorem Stays.learns (stays : x.Stays False x') (h : x'.Learns x'') : x.Learns x'' := by
  have first : (x.remember x''.streak).Stays False (x'.remember x''.streak) :=
    ⟨stays.lifecycle, stays.transport, rfl, stays.nextId, stays.pending⟩
  refine ⟨first.trans h.stays, fun told => h.told ?_⟩
  rw [← told]
  exact congrArg Prod.snd stays.streak

/-- A session that remembers something else later. -/
theorem Learns.remember (h : x.Learns x') {k : RestartPolicy × Bool} (told : x'.failureNotified = true → k.2 = true) :
    x.Learns (x'.remember k) :=
  ⟨⟨h.stays.lifecycle, h.stays.transport, rfl, h.stays.nextId, h.stays.pending⟩, fun was => told (h.told was)⟩

theorem Learns.ages (h : x.Learns x') : x.Ages x' :=
  ⟨h.stays.ages.path, h.stays.ages.origin, h.stays.ages.nextId, h.stays.ages.fresh⟩

theorem Learns.pending_subset (h : x.Learns x') (idle : x.state ≠ .running) :
    x'.registry.pending ⊆ x.registry.pending :=
  h.stays.pending_subset idle

end Session

namespace Client

/-! ## Going on after a failure is counted -/

section

variable {A B : Activity → Prop}

theorem Counts.mono (h : c.Counts A s c') (w : ∀ b, A b → B b) : c.Counts B s c' :=
  { h with toGoes := h.toGoes.mono w }

theorem Counts.trans_still (h : c₀.Counts A s c) (still : c.Still A none c') : c₀.Counts A s c' where
  toGoes := h.toGoes.trans still.goes
  session := h.session.trans_stays (still.stays_false s)
  policy inside := by
    rw [show (c'.sessionAt s).policy = (c.sessionAt s).policy from congrArg Prod.fst (still.stays s).streak]
    exact h.policy inside
  others x hx := (h.others x hx).trans (still.stays_false x)
  answers t := (still.answers t).trans (h.answers t)

/-- What happens before a failure is counted. -/
theorem Counts.of_still (still : c₀.Still A none c) (h : c.Counts A s c') : c₀.Counts A s c' where
  toGoes := still.goes.trans h.toGoes
  session := (still.stays_false s).learns h.session
  policy inside := by
    rw [h.policy (by rw [still.count]; exact inside)]
    exact congrArg (·.1.countFailure) (still.stays s).streak
  others x hx := (still.stays_false x).trans (h.others x hx)
  answers t := (h.answers t).trans (still.answers t)

theorem Counts.state (h : c.Counts A s c') (x : SessionId) : (c'.sessionAt x).state = (c.sessionAt x).state := by
  by_cases hx : x = s
  · rw [hx]
    exact h.session.state
  · exact (h.others x hx).state

theorem Counts.transport (h : c.Counts A s c') (x : SessionId) :
    (c'.sessionAt x).transport = (c.sessionAt x).transport := by
  by_cases hx : x = s
  · rw [hx]
    exact h.session.transport
  · exact (h.others x hx).transport

theorem Counts.pending_subset (h : c.Counts A s c') {x : SessionId} (idle : (c.sessionAt x).state ≠ .running) :
    (c'.sessionAt x).registry.pending ⊆ (c.sessionAt x).registry.pending := by
  by_cases hx : x = s
  · rw [hx] at idle ⊢
    exact h.session.pending_subset idle
  · exact (h.others x hx).pending_subset idle

end

/-! ## Restarts -/

/-- The loop has one more task, with the restart in front of it. -/
theorem stackOf_restarted (c : Client) (s : SessionId) (delay : Number) (p : PromiseId) :
    (c.restarted s delay).loop.stackOf p =
    if p = c.loop.promises.size then [.restart s delay] else c.loop.stackOf p := by
  have role : (c.restarted s delay).loop.role? p =
    if p = c.loop.promises.size then some (.task [.restart s delay] none false)
      else c.loop.role? p := Loop.role?_newPromise c.loop _ p
  split at role
  · next new =>
    rw [if_pos new]
    exact Loop.stackOf_of_role? role
  · next old =>
    rw [if_neg old]
    exact Loop.stackOf_congr role

theorem restarting_restarted (inside : s < c.sessions.size) (delay : Number) :
    ((c.restarted s delay).sessionAt s).restarting = some c.loop.promises.size := by
  unfold restarted
  rw [sessionAt_alter_self _ (by exact inside)]
  rfl

/-- All sessions go on in their states when one is going to be started again. -/
theorem still_restarted {A : Activity → Prop} (hc : c.Sound) {delay : Number} (begins : A (.restart s delay)) :
    c.Still A none (c.restarted s delay) ∧ (c.restarted s delay).Sound := by
  have spawned : StillAt (fun _ => throw .cancelled) A none (spawn (.restart s delay)) c := stillAt_spawn hc begins
  obtain ⟨still, hc₁⟩ := spawned
  refine ⟨still.trans (still_alter s ?_ rfl),
    hc₁.alter s (fun _ topic => by cases topic <;> rfl) (fun _ => rfl) fun _ => rfl⟩
  exact ⟨rfl, rfl, rfl, Nat.le_refl _, fun _ hp => .inl hp⟩

theorem Schedules.counts {A : Activity → Prop} {delay : Number} (h : c.Schedules s delay c')
    (root : ∀ b, IsRoot b → A b) (begins : A (.restart s delay)) : c.Counts A s c' := by
  obtain ⟨c₁, counts, sound, _, rfl⟩ := h
  exact (counts.mono root).trans_still (still_restarted sound begins).1

theorem Counted.counts (h : c.Counted a s c') : c.Counts (c.Begins a) s c' := by
  cases h with
  | alone counts => exact counts.mono fun _ root => .root root
  | again begins schedules => exact schedules.counts (fun _ root => .root root) begins

/-- What happens before a user's attempt to start a session is counted as a failure. -/
theorem Counted.of_still (still : c.Still IsRoot none c') {c'' : Client} (h : c'.Counted (.started s) s c'') :
    c.Counted (.started s) s c'' := by
  cases h with
  | alone counts => exact .alone (.of_still still counts)
  | again begins _ =>
    obtain ⟨_, never, _⟩ := begins.of_stirs rfl
    exact absurd rfl never

/-! ## Counting -/

/-- A session that has counted one more failure. -/
def count (x : Session) : Session :=
  { x with policy := x.policy.countFailure }

/-- A session whose failure the user was told of. -/
def notify (x : Session) : Session :=
  { x with failureNotified := true }

theorem Sound.count (hc : c.Sound) (s : SessionId) : (c.alter s count).Sound :=
  hc.alter s (fun _ topic => by cases topic <;> rfl) (fun _ => rfl) fun _ => rfl

theorem Sound.notify (hc : c.Sound) (s : SessionId) : (c.alter s notify).Sound :=
  hc.alter s (fun _ topic => by cases topic <;> rfl) (fun _ => rfl) fun _ => rfl

theorem counts_count (s : SessionId) (c : Client) : c.Counts IsRoot s (c.alter s count) := by
  by_cases inside : s < c.sessions.size
  · have counted : c.Changes s (fun x x' => x' = count x) (c.alter s count) :=
      changes_alter inside ⟨id, rfl, Nat.le_refl _, fun _ hp => .inl hp⟩ rfl rfl
    refine ⟨counted.toGoes, ?_, fun _ => ?_, counted.others, counted.answers⟩
    · rw [counted.session]
      exact ⟨⟨rfl, rfl, rfl, Nat.le_refl _, fun _ hp => .inl hp⟩, id⟩
    · rw [counted.session]
      rfl
  · -- There is no such session, and nothing to count.
    rw [alter_of_size_le c (Nat.le_of_not_lt inside)]
    exact ⟨(Still.refl none c).goes, ⟨Session.Stays.refl _, id⟩, fun there => absurd there inside,
      fun _ _ => Session.Stays.refl _, fun _ => rfl⟩

theorem Counts.notify (h : c₀.Counts IsRoot s c) : c₀.Counts IsRoot s (c.alter s notify) := by
  by_cases inside : s < c.sessions.size
  · have told : c.Changes s (fun x x' => x' = Client.notify x) (c.alter s Client.notify) :=
      changes_alter inside ⟨id, rfl, Nat.le_refl _, fun _ hp => .inl hp⟩ rfl rfl
    refine ⟨h.toGoes.trans told.toGoes, ?_, fun there => ?_,
      fun x hx => (h.others x hx).trans (told.others x hx), fun t => (told.answers t).trans (h.answers t)⟩
    · rw [told.session]
      exact h.session.remember (k := ((c.sessionAt s).policy, true)) fun _ => rfl
    · rw [told.session]
      exact h.policy there
  · rw [alter_of_size_le c (Nat.le_of_not_lt inside)]
    exact h

end Client

/-! ## Counting a failure -/

theorem CountsAt.bind {x : ClientM α} {f : α → ClientM β} {Q : α → Client → Prop} {R : β → Client → Prop}
    (h : CountsAt E a s c₀ x Q c) (hf : ∀ r d, Q r d → c₀.Counted a s d → d.Sound → CountsAt E a s c₀ (f r) R d) :
    CountsAt E a s c₀ (x >>= f) R c :=
  KeepsAt.bind h fun r d answer kept => hf r d answer kept.1 kept.2

theorem countsAt_pure (counted : c₀.Counted a s c) (hc : c.Sound) {x : α} {Q : α → Client → Prop} (answer : Q x c) :
    CountsAt E a s c₀ (pure x) Q c :=
  keepsAt_pure ⟨counted, hc⟩ answer

theorem countsAt_throw (counted : c₀.Counted a s c) (hc : c.Sound) (f : Fault) {Q : α → Client → Prop} :
    CountsAt E a s c₀ (throw f) Q c :=
  keepsAt_throw ⟨counted, hc⟩ trivial

/-- What follows something that makes minor changes. -/
theorem IsMinor.countsAt_bind {op : ClientM α} {f : α → ClientM β} {Q : β → Client → Prop} (h : IsMinor E op)
    (counts : c₀.Counts IsRoot s c) (hc : c.Sound)
    (hf : ∀ x d, c.Minor d → c₀.Counts IsRoot s d → d.Sound → CountsAt E a s c₀ (f x) Q d) :
    CountsAt E a s c₀ (op >>= f) Q c := by
  obtain ⟨m, hd⟩ := h.minorAt c hc
  have first : CountsAt E a s c₀ op (fun _ d => c.Minor d ∧ c₀.Counts IsRoot s d ∧ d.Sound) c :=
    ⟨⟨.alone (counts.trans_still m.still), hd⟩, fun _ _ => trivial, fun _ _ => ⟨m, counts.trans_still m.still, hd⟩⟩
  exact first.bind fun x d ⟨m, counts, hd⟩ _ _ => hf x d m counts hd

/-- What follows a look at the session. -/
theorem countsAt_session_bind {f : Session → ClientM β} {Q : β → Client → Prop}
    (h : CountsAt E a s c₀ (f (c.sessionAt s)) Q c) : CountsAt E a s c₀ (Client.session s >>= f) Q c := by
  have same : exec ((Client.session s >>= f) E) c = exec (f (c.sessionAt s) E) c :=
    does_bind_of_ok (Client.does_session s c) f
  exact ⟨by rw [same]; exact h.state, by rw [same]; exact h.fault, by rw [same]; exact h.answer⟩

namespace Client

/-- The session is going to be started again, in a new task. -/
theorem countsAt_schedule (counts : c₀.Counts IsRoot s c) (hc : c.Sound)
    (told : s < c₀.sessions.size → (c.sessionAt s).failureNotified = true) {delay : Number}
    (begins : c₀.Begins a (.restart s delay)) :
    CountsAt E a s c₀ (do
      let task ← spawn (.restart s delay)
      onSession s fun x => { x with restarting := some task }) (fun _ c' => c₀.Schedules s delay c') c := by
  have schedules : c₀.Schedules s delay (c.restarted s delay) := ⟨c, counts, hc, told, rfl⟩
  obtain ⟨c₁, hx, hc₁⟩ : ∃ c₁, does E (spawn (.restart s delay)) c = (.ok c.loop.promises.size, c₁) ∧
      c₁.alter s (expect c.loop.promises.size) = c.restarted s delay := ⟨_, rfl, rfl⟩
  have goes : does E (do
      let task ← spawn (.restart s delay)
      onSession s fun x => { x with restarting := some task }) c = (.ok (), c.restarted s delay) := by
    rw [← hc₁]
    exact (does_bind_of_ok hx _).trans (does_onSession s (expect c.loop.promises.size) c₁)
  exact .of_ok goes ⟨.again begins schedules, (still_restarted hc begins).2⟩ schedules

/-- The user is told, unless that was done before, and the session is going to be started again. -/
theorem countsAt_again (counts : c₀.Counts IsRoot s c) (hc : c.Sound) {delay : Number}
    (begins : c₀.Begins a (.restart s delay)) (message text : String) :
    CountsAt E a s c₀ (do
      if !(← session s).failureNotified then
        onSession s fun x => { x with failureNotified := true }
        tell s message
      logSession s .info text
      let task ← spawn (.restart s delay)
      onSession s fun x => { x with restarting := some task }) (fun _ c' => c₀.Schedules s delay c') c := by
  refine countsAt_session_bind ?_
  extract_lets restarts
  have hrestarts : ∀ {d : Client}, c₀.Counts IsRoot s d → d.Sound →
      (s < c₀.sessions.size → (d.sessionAt s).failureNotified = true) →
      CountsAt E a s c₀ (restarts ⟨⟩) (fun _ c' => c₀.Schedules s delay c') d := by
    intro d counts hd told
    refine (isMinor_logSession s _ _ _ _).countsAt_bind counts hd fun _ d' m counts' hd' => ?_
    refine countsAt_schedule counts' hd' (fun inside => ?_) begins
    rw [← told inside]
    exact congrArg Prod.snd (m.sessions s).streak
  -- Whether or not the user is told now, the user knows of the failure before the restart is scheduled.
  split
  · have notified : CountsAt E a s c₀ (onSession s notify) (fun _ d => d = c.alter s notify) c :=
      .of_ok (does_onSession s notify c) ⟨.alone counts.notify, hc.notify s⟩ rfl
    refine notified.bind fun _ d e _ _ => ?_
    rw [e]
    refine (isMinor_tell s message).countsAt_bind counts.notify (hc.notify s) fun _ d' m counts' hd' => ?_
    refine hrestarts counts' hd' fun inside => ?_
    have told : ((c.alter s notify).sessionAt s).failureNotified = true := by
      rw [sessionAt_alter_self c (by rw [counts.count]; exact inside)]
      rfl
    rw [← told]
    exact congrArg Prod.snd (m.sessions s).streak
  · next told => exact hrestarts counts hc fun _ => by simpa using told

/-- What follows once the policy has decided. -/
theorem countsAt_decided (hE : E.IsTame) (counts : c₀.Counts IsRoot s c) (hc : c.Sound) {autoRestart : Bool}
    {d : FailureDecision} (known : s < c₀.sessions.size → (c₀.sessionAt s).policy.countFailure.decide = .ok d)
    (begins : d.restart = true → autoRestart = true → c₀.Begins a (.restart s d.delay)) (x : Session) (f : Fault) :
    CountsAt E a s c₀ (do
      emitTelemetry s (← recordOf Telemetry.transportFailureEvent
        [("session", .str x.name), ("errorType", .str "TransportError"),
          ("attempt", .int d.attempt), ("error", .str f.message)])
      if d.restart then
        if !autoRestart then return
        if !(← session s).failureNotified then
          onSession s fun x => { x with failureNotified := true }
          tell s x.crashMessage
        logSession s .info ("Restarting session " ++ x.name ++ " in "
          ++ Decimal.fixed 1 d.delay.toFloat ++ "s (failure " ++ toString d.attempt
          ++ " of " ++ d.threshold.wholeText ++ ")")
        let task ← spawn (.restart s d.delay)
        onSession s fun x => { x with restarting := some task }
      else
        logSession s .error ("Session " ++ x.name ++ " failed " ++ toString d.attempt
          ++ " consecutive times, giving up")
        emitTelemetry s (← recordOf Telemetry.restartThresholdEvent
          [("session", .str x.name), ("attempts", .int d.attempt),
            ("threshold", d.threshold.toValue), ("error", .str f.message)])
        tell s (x.givenUpMessage d.attempt)
        dispatchEvent s Session.fatalEvent (.fault f)) (fun _ c' => c₀.Decides s autoRestart c') c := by
  refine (isMinor_recordOf _ _).countsAt_bind counts hc fun _ c₁ _ counts₁ hc₁ =>
    (isMinor_emitTelemetry hE s _).countsAt_bind counts₁ hc₁ fun _ c₂ _ counts₂ hc₂ => ?_
  split
  · next again =>
    split
    · next waited =>
      refine countsAt_pure (.alone counts₂) hc₂ fun inside => ⟨d, known inside, fun _ alone => ?_⟩
      simp [alone] at waited
    · next alone =>
      exact (countsAt_again counts₂ hc₂ (begins again (by simpa using alone)) _ _).mono fun _ _ schedules inside =>
        ⟨d, known inside, fun _ _ => schedules⟩
  · next spent =>
    -- The session is given up: nothing is begun.
    refine (isMinor_logSession s _ _ _ _).countsAt_bind counts₂ hc₂ fun _ c₃ _ counts₃ hc₃ =>
      (isMinor_recordOf _ _).countsAt_bind counts₃ hc₃ fun _ c₄ _ counts₄ hc₄ =>
      (isMinor_emitTelemetry hE s _).countsAt_bind counts₄ hc₄ fun _ c₅ _ counts₅ hc₅ =>
      (isMinor_tell s _).countsAt_bind counts₅ hc₅ fun _ c₆ _ counts₆ hc₆ => ?_
    obtain ⟨m, hc₇⟩ := (isMinor_dispatchEvent hE s Session.fatalEvent (.fault f)).minorAt c₆ hc₆
    exact ⟨⟨.alone (counts₆.trans_still m.still), hc₇⟩, fun _ _ => trivial,
      fun _ _ inside => ⟨d, known inside, fun again => absurd again spent⟩⟩

/-- A failure is counted, and what the policy decides on follows. -/
theorem countsAt_applyPolicy (hE : E.IsTame) (hc : c.Sound) (counts : a.counts = some s) (f : Fault)
    {autoRestart : Bool} (automatic : autoRestart = true → a ≠ .started s) :
    CountsAt E a s c (applyPolicy s f autoRestart) (fun _ c' => c.Decides s autoRestart c') c := by
  have counted : CountsAt E a s c (onSession s count) (fun _ d => d = c.alter s count) c :=
    .of_ok (does_onSession s count c) ⟨.alone (counts_count s c), hc.count s⟩ rfl
  refine counted.bind fun _ d e _ _ => ?_
  rw [e]
  refine countsAt_session_bind ?_
  have counts₁ : c.Counts IsRoot s (c.alter s count) := counts_count s c
  extract_lets follows
  cases decided : ((c.alter s count).sessionAt s).policy.decide with
  | error f => exact countsAt_throw (.alone counts₁) (hc.count s) f
  | ok decision =>
    have known : s < c.sessions.size → (c.sessionAt s).policy.countFailure.decide = .ok decision := fun inside => by
      rw [← counts₁.policy inside]
      exact decided
    have answered :
        CountsAt E a s c (pure decision) (fun x d' => x = decision ∧ d' = c.alter s count) (c.alter s count) :=
      countsAt_pure (.alone counts₁) (hc.count s) ⟨rfl, rfl⟩
    refine answered.bind (f := follows) fun _ _ answer _ _ => ?_
    obtain ⟨rfl, rfl⟩ := answer
    exact countsAt_decided hE counts₁ (hc.count s) known
      (fun again alone => .restart counts (automatic alone) fun inside => ⟨known inside, again⟩) _ f

/-! ## Activities that count failures -/

/-- An activity that counts a failure and ends. It has not failed itself, if what the policy has decided on follows. -/
def EndsCounting (E : Executor) (a : Activity) (s : SessionId) (op : ClientM Next) (c : Client) : Prop :=
  ∃ r c', does E op c = (r, c') ∧ c'.Sound ∧ framesOf r = [] ∧ c.Counted a s c' ∧
    ∀ next, r = .ok next → c.Decides s true c'

theorem endsCounting_of_countsAt {op : ClientM Next}
    (h : CountsAt E a s c op (fun next c' => next.frames = [] ∧ c.Decides s true c') c) : EndsCounting E a s op c := by
  rcases h.cases with ⟨next, c', hx, ⟨counts, hc'⟩, ends, decides⟩ | ⟨f, c', hx, ⟨counts, hc'⟩, _⟩
  · exact ⟨.ok next, c', hx, hc', ends, counts, fun _ _ => decides⟩
  · exact ⟨.error f, c', hx, hc', rfl, counts, nofun⟩

/-- A failure is counted by what may start the session again, and that is all. -/
theorem endsCounting_applyPolicy (hE : E.IsTame) (hc : c.Sound) (counts : a.counts = some s)
    (automatic : a ≠ .started s) (f : Fault) :
    EndsCounting E a s (do applyPolicy s f true; return .done .null) c :=
  endsCounting_of_countsAt ((countsAt_applyPolicy hE hc counts f fun _ => automatic).bind fun _ _ decides counted hd =>
    countsAt_pure counted hd ⟨rfl, decides⟩)

/-- A session that lost its connection has failed: that is counted, unless the release of its transport was cut
short. -/
theorem does_lostFailed (hE : E.IsTame) (hc : c.Sound) (s : SessionId) (f : Fault) (o : Outcome) :
    SteadyAt E none none (lostFailed s f o) c ∨ EndsCounting E (.lostFailed s f) s (lostFailed s f o) c := by
  cases o with
  | error e => exact .inl (steadyAt_throw hc e)
  | ok v => exact .inr (endsCounting_applyPolicy hE hc rfl (by simp) f)

/-- A restart after which its session is in some other state than failed counts nothing. -/
theorem steadyAt_restartTried (hc : c.Sound) (idle : (c.sessionAt s).state ≠ .failed) (o : Outcome) :
    SteadyAt E none none (restartTried s o) c := by
  have done : SteadyAt E none none (pure (.done .null)) c := steadyAt_pure hc nofun
  unfold restartTried
  cases o with
  | ok v => exact done
  | error f =>
    dsimp only
    split
    · exact done
    · split
      · refine steadyAt_bind_of_ok (does_session s c) ?_
        rw [if_neg idle]
        exact done
      · exact steadyAt_throw hc f

/-- A session was started again, or not: another failure is counted if it has failed. -/
theorem does_restartTried (hE : E.IsTame) (hc : c.Sound) (s : SessionId) (o : Outcome) :
    SteadyAt E none none (restartTried s o) c ∨ EndsCounting E (.restartTried s) s (restartTried s o) c := by
  by_cases failed : (c.sessionAt s).state = .failed
  · have done : SteadyAt E none none (pure (.done .null)) c := steadyAt_pure hc nofun
    unfold restartTried
    cases o with
    | ok v => exact .inl done
    | error f =>
      dsimp only
      split
      · exact .inl done
      · split
        · right
          obtain ⟨r, c', hx, spec⟩ := endsCounting_applyPolicy (a := .restartTried s) hE hc rfl (by simp) f
          refine ⟨r, c', ?_, spec⟩
          rw [does_bind_of_ok (does_session s c), if_pos failed]
          exact hx
        · exact .inl (steadyAt_throw hc f)
  · exact .inl (steadyAt_restartTried hc failed o)

/-- An attempt to start a session that ended without the fault of a connection counts nothing. -/
theorem steadyAt_started (hc : c.Sound) (s : SessionId) {o : Outcome}
    (mild : ∀ f, o = .error f → f.isTransport = false) :
    SteadyAt E none none (started s o) c := by
  unfold started
  cases o with
  | ok v => exact (((isMinor_sendStartup s _ _).calm fun _ => isCalm_done_stateName s).free none).steady hc
  | error f =>
    dsimp only
    split
    · exact ((isCalm_done_stateName s).free none).steady hc
    · rw [if_neg (by simp [mild f rfl])]
      exact steadyAt_throw hc f

/-- An attempt to start a session has ended: a failure is counted, but nothing starts the session again. -/
theorem does_started (hE : E.IsTame) (hc : c.Sound) (s : SessionId) (o : Outcome) :
    SteadyAt E none none (started s o) c ∨ EndsCounting E (.started s) s (started s o) c := by
  by_cases mild : ∀ f, o = .error f → f.isTransport = false
  · exact .inl (steadyAt_started hc s mild)
  · obtain ⟨f, failed⟩ := Classical.not_forall.1 mild
    obtain ⟨rfl, lost⟩ := Classical.not_imp.1 failed
    have transport : f.isTransport = true := by simpa using lost
    have other : f.isTermination = false := by cases f <;> first | rfl | cases transport
    have minor := (isMinor_sendStartup (E := E) s false [("error", .str f.message)]).minorAt c hc
    unfold started
    dsimp only
    rw [if_neg (by simp [other]), if_pos transport]
    -- Telemetry hears of the attempt first; only if that works out the failure is counted.
    rcases hx : does E (sendStartup s false [("error", .str f.message)]) c with ⟨e | _, c₁⟩
    · left
      refine (minor.still none).steady_bind fun _ _ hy _ => ?_
      rw [hx] at hy
      cases hy
    · right
      obtain ⟨m, hc₁⟩ := minor
      rw [hx] at m hc₁
      have counted :
          CountsAt E (.started s) s c₁ (do applyPolicy s f false; (throw f : ClientM Next)) (fun _ _ => False) c₁ :=
        (countsAt_applyPolicy hE hc₁ rfl f (by simp)).bind fun _ _ _ counted hd => countsAt_throw counted hd f
      rcases counted.cases with ⟨_, _, _, _, never⟩ | ⟨e, c', hy, ⟨counts, hc'⟩, _⟩
      · exact never.elim
      · exact ⟨.error e, c', (does_bind_of_ok hx _).trans hy, hc', rfl, .of_still m.still counts, nofun⟩

end Client

end LspClient
