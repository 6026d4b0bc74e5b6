/-
No transport is lost from sight: a session that has connected to one holds it, as its own or in the hands of a task
that opens it or gives it up, until it is closed. Only an attempt to start takes hold of a transport. What lets go of
one that is still open is that opening it, or giving it up, is cut short, or that an attempt connects its session to
another one.
-/
import LspClient.Proofs.Client.Closing
import LspClient.Proofs.Client.Idle

namespace LspClient.Moment

open Client

variable {E : Executor} {P : Moment → Prop} {m m' : Moment} {s : SessionId} {t u : TransportId}
  {acts acts' : List LspClient.Step}

/-! ## Definitions -/

/-- A session holds a transport: it is connected to it, or a task has it in hand. -/
inductive Holds (s : SessionId) (t : TransportId) (m : Moment) : Prop
  | connected (here : (m.client.sessionAt s).transport = some t)
  | inHand {p : PromiseId} {a : Activity} (busy : a ∈ m.stack p) (handles : a.handles = some (s, t))

/-- What goes on parts a session from a transport. -/
inductive Parts (s : SessionId) (t : TransportId) (m : Moment) : Prop
  | closes {p : PromiseId} {rest : List Activity} {v : Value}
    (turn : m.turn = some ⟨p, .closeTransport t :: rest, .ok v⟩)
  /-- Opening the transport, or giving it up, is cut short. -/
  | cut {p : PromiseId} {a : Activity} {rest : List Activity} {f : Fault}
    (turn : m.turn = some ⟨p, a :: rest, .error f⟩) (handles : a.handles = some (s, t))
  /-- An attempt to start goes on, and connects the session to another transport. -/
  | replaced {p : PromiseId} {rest : List Activity} {v : Value}
    (turn : m.turn = some ⟨p, .attemptReleased s :: rest, .ok v⟩)
    (connected : (m.client.sessionAt s).transport = some t)

/-- An attempt to start connects its session to a transport, and opens that next. -/
structure Connects (s : SessionId) (t : TransportId) (m m' : Moment) : Prop where
  new : m.client.transports.size ≤ t
  before : ∃ p rest v, m.turn = some ⟨p, .attemptReleased s :: rest, .ok v⟩
  after : ∃ p rest v, m'.turn = some ⟨p, .openTransport t :: .attemptOpened s t :: rest, .ok v⟩

/-- Attempts to start connect a session only if it holds no transport. -/
def Parted (s : SessionId) (m : Moment) : Prop :=
  ∀ p rest v, m.turn = some ⟨p, .attemptReleased s :: rest, .ok v⟩ → ∀ t, ¬ m.Holds s t

/-! ## Holding on -/

section

variable {p : PromiseId} {a : Activity} {rest : List Activity} {o : Outcome} {r : Except Fault Next} {c : Client}

/-- A transport that a session is connected to is given up by a task, or replaced, or the session stays connected. -/
theorem Proceeds.holds_of_connected (hp : m.Proceeds m' p a rest o r c)
    (here : (m.client.sessionAt s).transport = some t) : m'.Holds s t ∨ m.Parts s t := by
  have stays : (c.sessionAt s).transport = (m.client.sessionAt s).transport → m'.Holds s t ∨ m.Parts s t := by
    intro same
    refine .inl (.connected ?_)
    rw [hp.sessions, same, here]
  rcases (alters_of_proceeds hp.proceeds).transport s with same | changed
  · exact stays same
  · cases changed with
    | released none next =>
      rw [here] at next
      exact .inl (.inHand (hp.mem_stack (b := .releaseReader s (some t)) (by simp [next])) rfl)
    | connected new made there =>
      have proceeds := hp.proceeds
      cases proceeds with
      | connect => exact .inr (.replaced hp.turn here)
      | steady still _ _ => exact stays (still.stays s).transport
      | count never _ _ _ => cases never
      | read never _ _ _ => cases never
      | answer never _ => cases never

/-- What has a transport in hand keeps it or closes it next, if nothing goes wrong, unless the session is still
connected to it. -/
theorem Proceeds.holds_of_handles (sound : m.Sound) (hp : m.Proceeds m' p a rest o r c)
    (hx : does E (goOn a o) m.client = (r, c)) (handles : a.handles = some (s, t))
    (other : (m.client.sessionAt s).transport ≠ some t) :
    m'.Holds s t ∨ m.Parts s t ∨ m'.Parts s t := by
  have closes : ∀ k, r = .ok (.call (.closeTransport t) k) → m'.Holds s t ∨ m.Parts s t ∨ m'.Parts s t :=
    fun k called => .inr (.inr (.closes (hp.calls _ k called)))
  cases o with
  | error f => exact .inr (.inl (.cut hp.turn handles))
  | ok v =>
    cases a with
    | attemptOpened x u =>
      cases handles
      have abandons : does E (goOn (.attemptOpened s t) (.ok v)) m.client =
          (.ok (.call (.closeTransport t) (.attemptAbandoned s)), m.client) := by
        refine (does_bind_of_ok (does_session s m.client) _).trans ?_
        rw [if_pos other, does_pure]
      rw [hx] at abandons
      exact closes _ (congrArg Prod.fst abandons)
    | releaseReader x u =>
      cases u with
      | none => cases handles
      | some u =>
        cases handles
        obtain ⟨r', c', hy, _, _, next⟩ := does_releaseReader (E := E) sound.client s (some t) v
        have same := congrArg Prod.fst (hx.symm.trans hy)
        cases same
        exact .inl (.inHand (hp.mem_stack (b := .releaseAnswers s (some t)) (by simp [next])) rfl)
    | releaseAnswers x u =>
      cases u with
      | none => cases handles
      | some u =>
        cases handles
        have goes : does E (goOn (.releaseAnswers s (some t)) (.ok v)) m.client =
            (.ok (.call (.closeTransport t) (.releaseClosed s)), m.client) :=
          (does_bind_of_ok (does_valueOf_ok v m.client) _).trans (does_pure _ _)
        rw [hx] at goes
        exact closes _ (congrArg Prod.fst goes)
    | _ => cases handles

end

/-- A session holds on to a transport until it is parted from it. -/
theorem Step.holds (hE : E.IsTame) (sound : m.Sound) (next : Step E acts m m') (h : m.Holds s t) :
    m'.Holds s t ∨ m.Parts s t ∨ m'.Parts s t := by
  obtain ⟨_, _, passes | ⟨p, a, rest, o, r, c, hx, hp⟩⟩ := next.spec hE sound
  · left
    cases h with
    | connected here =>
      refine .connected ?_
      rw [(passes.stays s).transport, here]
    | inHand busy handles => exact .inHand (passes.mem_stack sound busy) handles
  · by_cases here : (m.client.sessionAt s).transport = some t
    · rcases hp.holds_of_connected here with holds | parts
      · exact .inl holds
      · exact .inr (.inl parts)
    · cases h with
      | connected there => exact absurd there here
      | inHand busy handles =>
        rcases hp.mem_or_goes sound busy with still | ⟨_, rfl⟩
        · exact .inl (.inHand still handles)
        · exact hp.holds_of_handles sound hx handles here

theorem Run.holds (hE : E.IsTame) (sound : m.Sound) (run : Run E (fun m => ¬ m.Parts s t) m acts m') (h : m.Holds s t)
    (apart : ¬ m'.Parts s t) : m'.Holds s t := by
  induction run with
  | refl => exact h
  | step run here next ih =>
    rcases next.holds hE (run.spec hE sound).1 (ih here) with holds | before | after
    · exact holds
    · exact absurd before here
    · exact absurd after apart

/-- Whatever happens, a session holds on to a transport, or it is parted from it on the way. -/
theorem Run.holds_or_parts (hE : E.IsTame) (sound : m.Sound) (run : Run E P m acts m') (h : m.Holds s t) :
    m'.Holds s t ∨ Strays E (fun m => ¬ m.Parts s t) m acts m' := by
  rcases run.keeps_or_strays fun m => ¬ m.Parts s t with kept | strays
  · have apart := kept.mono fun _ here => here.2
    by_cases parts : m'.Parts s t
    · exact .inr (apart.strays (not_not_intro parts))
    · exact .inl (apart.holds hE sound h parts)
  · exact .inr strays

/-- A session that is parted from a transport because it is closed leaves one behind that cannot be written on. -/
theorem Step.isSealed_of_closes (hE : E.IsTame) (sound : m.Sound) (next : Step E acts m m') {p : PromiseId}
    {rest : List Activity} {v : Value} (turn : m.turn = some ⟨p, .closeTransport t :: rest, .ok v⟩) :
    m'.client.IsSealed t := by
  obtain ⟨_, _, passes | ⟨q, a, rest', o, r, c, hx, hp⟩⟩ := next.spec hE sound
  · cases passes.idle _ turn
  · have same := hp.turn
    rw [turn] at same
    cases same
    have closed := isSealed_closeTransport (E := E) t m.client
    have goes : does E (closeTransport t) m.client = (r, c) := hx
    rw [goes] at closed
    unfold IsSealed transportAt at closed ⊢
    rw [hp.transports]
    exact closed

/-- A session that has stopped or failed holds no transport but those that a task which has not ended has in hand. -/
theorem inHand_of_rests (hE : E.IsTame) {c : Client} (new : c.IsNew) (run : Run E Timely ⟨c, none⟩ acts m)
    (rests : (m.client.sessionAt s).state = .stopped ∨ (m.client.sessionAt s).state = .failed) (between : m.turn = none)
    (h : m.Holds s t) :
    ∃ p a, a ∈ m.client.loop.stackOf p ∧ a.handles = some (s, t) ∧ m.client.loop.outcome? p = none := by
  have sound := (run.spec hE (sound_of_isNew new)).1
  cases h with
  | connected here =>
    rw [(pending_eq_nil_of_rests hE new run rests).2 between] at here
    cases here
  | @inHand p a busy handles =>
    refine ⟨p, a, ?_, handles, (sound.unfinished busy).2⟩
    rw [← stack_of_idle between]
    exact busy

/-- Once a session has stopped or failed, a transport that it held is in the hands of a task which has not ended, or
the session was parted from it. -/
theorem inHand_or_parts_of_rests (hE : E.IsTame) {c : Client} (new : c.IsNew) (run : Run E Timely ⟨c, none⟩ acts m)
    (h : m.Holds s t) (run' : Run E Timely m acts' m')
    (rests : (m'.client.sessionAt s).state = .stopped ∨ (m'.client.sessionAt s).state = .failed)
    (between : m'.turn = none) :
    (∃ p a, a ∈ m'.client.loop.stackOf p ∧ a.handles = some (s, t) ∧ m'.client.loop.outcome? p = none) ∨
      Strays E (fun m => ¬ m.Parts s t) m acts' m' := by
  rcases run'.holds_or_parts hE (run.spec hE (sound_of_isNew new)).1 h with holds | parts
  · exact .inl (inHand_of_rests hE new (run.trans run') rests between holds)
  · exact .inr parts

/-! ## Taking hold -/

/-- An attempt that goes on to open a transport has connected its session to it. -/
theorem Proceeds.connects {p : PromiseId} {rest : List Activity} {o : Outcome} {c : Client}
    (hp : m.Proceeds m' p (.attemptReleased s) rest o (.ok (.call (.openTransport t) (.attemptOpened s t))) c) :
    m.Connects s t m' := by
  have proceeds := hp.proceeds
  cases proceeds with
  | connect _ new => exact ⟨new, ⟨p, rest, _, hp.turn⟩, ⟨p, rest, _, hp.calls _ _ rfl⟩⟩
  | steady _ free _ => cases (free (.attemptOpened s t) (by simp [framesOf, Next.frames])).not_handles
  | count never _ _ _ => cases never
  | read never _ _ _ => cases never
  | answer never _ => cases never

/-- A session stays connected to its transport, gives it up, or is connected to another one by an attempt to start. -/
theorem Step.reconnects (hE : E.IsTame) (sound : m.Sound) (next : Step E acts m m') (s : SessionId) :
    (m'.client.sessionAt s).transport = (m.client.sessionAt s).transport ∨ (m'.client.sessionAt s).transport = none ∨
      ∃ t, (m'.client.sessionAt s).transport = some t ∧ m.Connects s t m' := by
  obtain ⟨_, _, passes | ⟨p, a, rest, o, r, c, _, hp⟩⟩ := next.spec hE sound
  · exact .inl (passes.stays s).transport
  · rw [hp.sessions]
    rcases (alters_of_proceeds hp.proceeds).transport s with same | changed
    · exact .inl same
    · cases changed with
      | released none _ => exact .inr (.inl none)
      | connected _ _ here =>
        rcases here with there | same
        · exact .inr (.inr ⟨_, there, hp.connects⟩)
        · exact .inl same

/-- A session takes hold of a transport only when an attempt to start connects it. -/
theorem Step.holds_or_connects (hE : E.IsTame) (sound : m.Sound) (next : Step E acts m m') (h : m'.Holds s t) :
    m.Holds s t ∨ m.Connects s t m' := by
  cases h with
  | connected here =>
    rcases next.reconnects hE sound s with same | none | ⟨u, there, connects⟩
    · rw [same] at here
      exact .inl (.connected here)
    · rw [none] at here
      cases here
    · rw [here] at there
      cases there
      exact .inr connects
  | @inHand q b busy handles =>
    obtain ⟨_, _, passes | ⟨p, a, rest, o, r, c, _, hp⟩⟩ := next.spec hE sound
    · rcases (passes.tasks q).mem busy with before | root
      · exact .inl (.inHand before handles)
      · rw [(root.free none).not_handles] at handles
        cases handles
    · rcases hp.mem_or_new busy with before | ⟨_, left⟩ | ⟨_, begins⟩
      · exact .inl (.inHand before handles)
      · rcases (leaves_of_proceeds hp.proceeds left).of_handles handles with ⟨rfl, rfl⟩ | ⟨rfl, here⟩ | before
        · exact .inr hp.connects
        · exact .inl (.connected here)
        · exact .inl (.inHand hp.mem_before before)
      · rw [(Activity.isInner_eq_false.1 begins.not_isInner).2.1] at handles
        cases handles

theorem not_holds_of_isNew {c : Client} (new : c.IsNew) : ¬ Holds s t ⟨c, none⟩ := by
  intro h
  cases h with
  | connected here =>
    have none := (sessionAt_of_isNew new s).2.2.1
    rw [none] at here
    cases here
  | inHand busy _ =>
    rw [stack_of_isNew new] at busy
    cases busy

/-- If attempts to start connect a session only when it holds no transport, then it holds one at a time. -/
theorem eq_of_holds (hE : E.IsTame) {c : Client} (new : c.IsNew) (run : Run E (Parted s) ⟨c, none⟩ acts m)
    (h : m.Holds s t) (h' : m.Holds s u) : t = u := by
  induction run with
  | refl => exact absurd h (not_holds_of_isNew new)
  | @step _ _ m₁ m₂ run here next ih =>
    have sound := (run.spec hE (sound_of_isNew new)).1
    have apart : ∀ {x y}, m₁.Connects s x m₂ → ¬ m₁.Holds s y := by
      intro x y connects
      obtain ⟨p, rest, v, turn⟩ := connects.before
      exact here p rest v turn y
    rcases next.holds_or_connects hE sound h with old | connects
    · rcases next.holds_or_connects hE sound h' with old' | connects
      · exact ih old old'
      · exact absurd old (apart connects)
    · rcases next.holds_or_connects hE sound h' with old' | connects'
      · exact absurd old' (apart connects)
      · obtain ⟨_, _, _, turn⟩ := connects.after
        obtain ⟨_, _, _, turn'⟩ := connects'.after
        rw [turn] at turn'
        cases turn'
        rfl

/-- Whatever is played to a new client, a session holds one transport at most, unless a task goes on for too long or an
attempt to start connects it while it holds one. -/
theorem eq_of_played {c : Client} (new : c.IsNew) {steps : List LspClient.Step} (h : ∀ step ∈ steps, IsPlayable step)
    (holds : Holds s t ⟨playedBy c steps, none⟩) (holds' : Holds s u ⟨playedBy c steps, none⟩) :
    t = u ∨ Overlong (executor nesting) ⟨c, none⟩ (steps.flatMap actsOf) ∨
      Strays (executor nesting) (Parted s) ⟨c, none⟩ (steps.flatMap actsOf) ⟨playedBy c steps, none⟩ := by
  rcases leads_playedBy h c with run | overlong
  · rcases run.keeps_or_strays (Parted s) with parted | strays
    · exact .inl (eq_of_holds (isTame_executor nesting) new (parted.mono fun _ here => here.2) holds holds')
    · exact .inr (.inr strays)
  · exact .inr (.inl overlong)

end LspClient.Moment
