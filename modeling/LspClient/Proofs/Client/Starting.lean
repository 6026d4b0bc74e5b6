/-
No session is left starting: as long as it starts, the task that began the attempt is in the middle of it, so that
whoever waits for the start still waits. An attempt that ends has moved its session on, unless it was cut short by a
fault that is none of sessions, such as a cancellation, or while the old transport was released.
-/
import LspClient.Proofs.Client.Runs

namespace LspClient

open Client

/-! ## Definitions -/

/-- The session that an activity is there to start, once the session has begun to. -/
def Activity.tries : Activity → Option SessionId
  | .attemptReleased s | .attemptOpened s _ | .attemptAbandoned s | .attemptAnswered s _ => some s
  | _ => none

/-- How an attempt to start a session goes on: there is more to do, the session fails next, it does not
start any more, or a fault that is none of sessions cuts the attempt short. -/
inductive Client.Tries (s : SessionId) : Except Fault Next → Client → Prop
  | on {r : Except Fault Next} {c : Client} {b : Activity} (next : b ∈ framesOf r)
    (tries : b.tries = some s) : Tries s r c
  | fails {f : Fault} {c : Client} : Tries s (.ok (.call (.fail s f) (.attemptFailed s f))) c
  | leaves {r : Except Fault Next} {c : Client} (gone : (c.sessionAt s).state ≠ .starting) : Tries s r c
  | breaks {f : Fault} {c : Client} (alien : f.isSession = false) : Tries s (.error f) c

/-- An operation that goes on with an attempt to start a session. -/
def TriesAt (E : Executor) (s : SessionId) (op : ClientM Next) (c : Client) : Prop :=
  Tries s (does E op c).1 (does E op c).2

namespace Moment

/-- A task is in the middle of an attempt to start a session, or lets the session fail next. -/
def Underway (s : SessionId) (p : PromiseId) (m : Moment) : Prop :=
  (∃ a ∈ m.stack p, a.tries = some s) ∨ ∃ f rest v, m.turn = some ⟨p, .fail s f :: rest, .ok v⟩

/-- What goes on does not cut an attempt to start a session short. -/
structure Unbroken (E : Executor) (s : SessionId) (m : Moment) : Prop where
  released : ∀ {p rest o}, m.turn = some ⟨p, .attemptReleased s :: rest, o⟩ → ∃ v, o = .ok v
  fault : ∀ {p a rest o f c}, m.turn = some ⟨p, a :: rest, o⟩ → a.tries = some s →
    does E (goOn a o) m.client = (.error f, c) → f.isSession = true

end Moment

/-! ## Going on with an attempt -/

section

variable {E : Executor} {s : SessionId} {c : Client} {α : Type}

theorem triesAt_of_eq {op op' : ClientM Next} {d : Client} (same : does E op c = does E op' d) (h : TriesAt E s op' d) :
    TriesAt E s op c := by
  unfold TriesAt
  rw [same]
  exact h

/-- An attempt goes on with what follows, unless it is cancelled before that. -/
theorem triesAt_attempt_bind {op : ClientM α} {f : Except Fault α → ClientM Next}
    (hf : ∀ r d, does E (attempt op) c = (.ok r, d) → TriesAt E s (f r) d) : TriesAt E s (attempt op >>= f) c := by
  rcases hx : does E op c with ⟨e | a, d⟩
  · cases cancels : e.isCancellation with
    | true =>
      have alien : e.isSession = false := by cases e <;> first | rfl | cases cancels
      unfold TriesAt
      rw [does_bind_of_error (does_attempt_of_cancelled hx cancels)]
      exact .breaks alien
    | false =>
      have caught := does_attempt_of_error hx cancels
      exact triesAt_of_eq (does_bind_of_ok caught f) (hf _ d caught)
  · have done := does_attempt_of_ok hx
    exact triesAt_of_eq (does_bind_of_ok done f) (hf _ d done)

/-- What goes wrong in an attempt lets the session fail, if it still starts. -/
theorem triesAt_attemptFault (f : Fault) : TriesAt E s (attemptFault s f) c := by
  unfold attemptFault
  cases alien : f.isSession with
  | false => exact .breaks alien
  | true =>
    refine triesAt_of_eq (does_bind_of_ok (does_session s c) _) ?_
    by_cases starting : (c.sessionAt s).state = .starting
    · rw [if_neg (by simp [starting])]
      exact .fails
    · rw [if_pos starting]
      exact .leaves starting

theorem triesAt_attemptReleased (v : Value) : TriesAt E s (attemptReleased s (.ok v)) c := by
  obtain ⟨d, logged⟩ := does_logSession (E := E) s .info ("Starting session " ++ (c.sessionAt s).name) [] none c
  have first : does E (attemptReleased s (.ok v)) c = does E (attempt makeTransport >>= attemptMade s) d := by
    unfold attemptReleased
    rw [does_bind_of_ok (does_valueOf_ok v c), does_bind_of_ok (does_session s c), does_bind_of_ok logged]
  refine triesAt_of_eq first (triesAt_attempt_bind fun r d' _ => ?_)
  cases r with
  | error f => exact triesAt_attemptFault f
  | ok t => exact .on (b := .attemptOpened s t) (List.mem_cons_of_mem _ (List.mem_singleton.2 rfl)) rfl

theorem triesAt_attemptOpened (t : TransportId) (o : Outcome) : TriesAt E s (attemptOpened s t o) c := by
  cases o with
  | error f => exact triesAt_attemptFault f
  | ok v =>
    refine triesAt_of_eq (does_bind_of_ok (does_session s c) _) ?_
    by_cases connected : (c.sessionAt s).transport = some t
    · -- The reader begins, and then the first request is sent.
      rw [if_neg (by simp [connected])]
      obtain ⟨reader, d, spawned⟩ : ∃ reader d, does E (spawn (.readLoop s t)) c = (.ok reader, d) := ⟨_, _, rfl⟩
      have reads := does_onSession (E := E) s (fun x => { x with reader := some reader }) d
      refine triesAt_of_eq ((does_bind_of_ok spawned _).trans (does_bind_of_ok reads _)) ?_
      refine triesAt_attempt_bind fun r d' _ => ?_
      cases r with
      | error f => exact triesAt_attemptFault f
      | ok handle => exact .on (b := .attemptAnswered s t) (List.mem_singleton.2 rfl) rfl
    · rw [if_pos connected]
      exact .on (b := .attemptAbandoned s) (List.mem_cons_of_mem _ (List.mem_singleton.2 rfl)) rfl

theorem triesAt_attemptAbandoned (o : Outcome) : TriesAt E s (attemptAbandoned s o) c := by
  cases o with
  | error f => exact triesAt_attemptFault f
  | ok v => exact triesAt_of_eq (does_bind_of_ok (does_session s c) _) (triesAt_attemptFault _)

theorem triesAt_attemptAnswered (hE : E.IsTame) (hc : c.Sound) (o : Outcome) : TriesAt E s (attemptAnswered s o) c := by
  cases o with
  | error f => exact triesAt_attemptFault f
  | ok v =>
    have writes : StillAt E Activity.IsRoot none (writeText s .initialized
        (Message.formatNotification Session.initializedMethod (.object []))) c :=
      stillAt_writeText hc none s (by decide) _
    have told := writes.attempt
    refine triesAt_attempt_bind fun r d hx => ?_
    obtain ⟨_, hd⟩ := told
    rw [hx] at hd
    cases r with
    | error f => exact triesAt_attemptFault f
    | ok u =>
      refine triesAt_of_eq (does_bind_of_ok (does_session s d) _) ?_
      by_cases starting : (d.sessionAt s).state = .starting
      · rw [if_neg (by simp [starting])]
        obtain ⟨r, c', runs, _, _, changes⟩ := does_beginRunning hE hd starting (capabilitiesOf v)
        unfold TriesAt
        rw [runs]
        refine .leaves ?_
        rw [changes.session.1.state]
        decide
      · rw [if_pos starting]
        exact .leaves starting

/-- An attempt goes on, lets its session fail, finds it in another state, or is cut short. -/
theorem triesAt_goOn (hE : E.IsTame) (hc : c.Sound) {a : Activity} (tries : a.tries = some s) (o : Outcome)
    (released : a = .attemptReleased s → ∃ v, o = .ok v) : TriesAt E s (goOn a o) c := by
  cases a with
  | attemptReleased x =>
    cases tries
    obtain ⟨v, rfl⟩ := released rfl
    exact triesAt_attemptReleased v
  | attemptOpened x t =>
    cases tries
    exact triesAt_attemptOpened t o
  | attemptAbandoned x =>
    cases tries
    exact triesAt_attemptAbandoned o
  | attemptAnswered x t =>
    cases tries
    exact triesAt_attemptAnswered hE hc o
  | _ => cases tries

end

/-! ## Attempts of tasks -/

namespace Moment

variable {E : Executor} {P : Moment → Prop} {m m' : Moment} {s : SessionId} {p : PromiseId} {acts : List LspClient.Step}

theorem underway_of_mem {a : Activity} (ha : a ∈ m.stack p) (tries : a.tries = some s) : m.Underway s p :=
  .inl ⟨a, ha, tries⟩

/-- An attempt is underway in a task that has not ended. -/
theorem Underway.unfinished (h : m.Underway s p) (sound : m.Sound) :
    p < m.client.loop.promises.size ∧ m.client.loop.outcome? p = none := by
  rcases h with ⟨a, ha, _⟩ | ⟨f, rest, v, turn⟩
  · exact sound.unfinished ha
  · refine sound.unfinished (a := .fail s f) ?_
    rw [stack_of_turn turn]
    exact List.mem_cons_self ..

/-- As long as its session starts, the task that tries to start it goes on to. -/
theorem Step.underway (hE : E.IsTame) (sound : m.Sound) (whole : Unbroken E s m) (next : Step E acts m m')
    (h : m.Underway s p) (starting : (m'.client.sessionAt s).state = .starting) : m'.Underway s p := by
  obtain ⟨_, _, passes | ⟨q, a, rest, o, r, c, hx, hp⟩⟩ := next.spec hE sound
  · rcases h with ⟨a, ha, tries⟩ | ⟨f, rest, v, turn⟩
    · exact underway_of_mem (passes.mem_stack sound ha) tries
    · cases passes.idle _ turn
  · rw [hp.sessions] at starting
    rcases h with ⟨b, hb, tries⟩ | ⟨f, rest', v, turn⟩
    · rcases hp.mem_or_goes sound hb with still | ⟨rfl, rfl⟩
      · exact underway_of_mem still tries
      · -- It is the attempt that goes on.
        have goes := triesAt_goOn hE sound.client tries o fun e => whole.released (e ▸ hp.turn)
        unfold TriesAt at goes
        rw [hx] at goes
        cases goes with
        | on left tries => exact underway_of_mem (hp.mem_stack left) tries
        | fails => exact .inr ⟨_, _, _, hp.calls _ _ rfl⟩
        | leaves gone => exact absurd starting gone
        | breaks alien =>
          rw [whole.fault hp.turn tries hx] at alien
          cases alien
    · -- The session fails, so it does not start any more.
      have same := hp.turn
      rw [turn] at same
      cases same
      rcases does_fail (E := E) sound.client s f with ⟨never, e, hy⟩ | ⟨c', hy, _, _, fails⟩
      · have goes := hx.symm.trans hy
        cases goes
        rw [starting] at never
        cases never
      · have goes := hx.symm.trans hy
        cases goes
        rw [fails.session.1.state] at starting
        cases starting

/-- A session that begins to start does so in a task that tries to. -/
theorem Step.begins_underway (hE : E.IsTame) (sound : m.Sound) (next : Step E acts m m')
    (before : (m.client.sessionAt s).state ≠ .starting) (starting : (m'.client.sessionAt s).state = .starting) :
    ∃ p, m'.Underway s p := by
  obtain ⟨_, _, passes | ⟨p, a, rest, o, r, c, _, hp⟩⟩ := next.spec hE sound
  · rw [(passes.stays s).state] at starting
    exact absurd starting before
  · rw [hp.sessions] at starting
    have leads := (alters_of_proceeds hp.proceeds).leadsTo (s := s) (by rw [starting]; exact before.symm)
    rw [starting] at leads
    have stack := hp.stack
    have proceeds := hp.proceeds
    cases a with
    | attempt x =>
      cases leads
      cases proceeds with
      | attempt starts =>
        refine ⟨p, underway_of_mem (a := .attemptReleased s) ?_ rfl⟩
        rw [stack]
        exact List.mem_cons_of_mem _ (List.mem_cons_self ..)
      | steady still _ _ =>
        rw [(still.stays s).state] at starting
        exact absurd starting before
      | count never _ _ _ => cases never
      | read never _ _ _ => cases never
      | answer never _ => cases never
    | _ => cases leads

/-! ## Whole runs -/

/-- As long as its session starts, an attempt that is underway remains so. -/
theorem Run.underway (hE : E.IsTame) (sound : m.Sound) (h : m.Underway s p)
    (run : Run E (fun m => Unbroken E s m ∧ (m.client.sessionAt s).state = .starting) m acts m')
    (starting : (m'.client.sessionAt s).state = .starting) : m'.Underway s p := by
  induction run with
  | refl => exact h
  | step run here next ih => exact next.underway hE (run.spec hE sound).1 here.1 (ih here.2) starting

/-- A task that has begun to start a session does not end before the session has left that state. -/
theorem Run.leaves_starting (hE : E.IsTame) (sound : m.Sound) (h : m.Underway s p)
    (run : Run E (Unbroken E s) m acts m') {o : Outcome} (ended : m'.client.loop.outcome? p = some o) :
    (m'.client.sessionAt s).state ≠ .starting ∨
      Strays E (fun m => (m.client.sessionAt s).state = .starting) m acts m' := by
  rcases run.keeps_or_strays fun m => (m.client.sessionAt s).state = .starting with run | strays
  · left
    intro starting
    have sound' := (run.spec hE sound).1
    obtain ⟨_, unsettled⟩ := (Run.underway hE sound h run starting).unfinished sound'
    rw [unsettled] at ended
    cases ended
  · exact .inr strays

/-- While a session starts, a task that has not ended is in the middle of an attempt to start it. -/
theorem underway_of_starting (hE : E.IsTame) {c : Client} (new : c.IsNew) (run : Run E (Unbroken E s) ⟨c, none⟩ acts m)
    (starting : (m.client.sessionAt s).state = .starting) : ∃ p, m.Underway s p ∧ m.client.loop.outcome? p = none := by
  have sound := sound_of_isNew new
  suffices tries : ∃ p, m.Underway s p by
    obtain ⟨p, h⟩ := tries
    exact ⟨p, h, (h.unfinished (run.spec hE sound).1).2⟩
  induction run with
  | refl =>
    -- A new session has not begun to start.
    rw [(sessionAt_of_isNew new s).1] at starting
    cases starting
  | @step _ _ m₁ _ run whole next ih =>
    have sound₁ := (run.spec hE sound).1
    by_cases before : (m₁.client.sessionAt s).state = .starting
    · obtain ⟨p, h⟩ := ih before
      exact ⟨p, next.underway hE sound₁ whole h starting⟩
    · exact next.begins_underway hE sound₁ before starting

/-- Whatever is played to a new client, a session that starts has a task that is in the middle of it, unless a task
goes on for too long or an attempt is cut short. -/
theorem underway_of_played {c : Client} (new : c.IsNew) {steps : List LspClient.Step}
    (h : ∀ step ∈ steps, IsPlayable step) (starting : ((playedBy c steps).sessionAt s).state = .starting) :
    (∃ p, (∃ a ∈ (playedBy c steps).loop.stackOf p, a.tries = some s) ∧ (playedBy c steps).loop.outcome? p = none) ∨
      Overlong (executor nesting) ⟨c, none⟩ (steps.flatMap actsOf) ∨
      Strays (executor nesting) (Unbroken (executor nesting) s) ⟨c, none⟩ (steps.flatMap actsOf)
        ⟨playedBy c steps, none⟩ := by
  rcases leads_playedBy h c with run | overlong
  · rcases run.keeps_or_strays (Unbroken (executor nesting) s) with whole | broken
    · left
      obtain ⟨p, ⟨a, ha, tries⟩ | ⟨_, _, _, never⟩, unsettled⟩ :=
        underway_of_starting (isTame_executor nesting) new (whole.mono fun _ here => here.2) starting
      · exact ⟨p, ⟨a, ha, tries⟩, unsettled⟩
      · cases never
    · exact .inr (.inr broken)
  · exact .inr (.inl overlong)

end Moment

end LspClient
