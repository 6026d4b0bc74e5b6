/-
Who may write the first messages on a transport, and the last ones. One attempt to start opens each transport and waits
for the answer to its first request, one task takes leave of the server of a session and is about to stop the session
right after that, and no two sessions share a transport.
-/
import LspClient.Proofs.Client.Attended

namespace LspClient

open Client
open Activity (IsRoot)

/-! ## Definitions -/

/-- The transport on which an attempt to start is about to send its first request, or waits for the answer. -/
def Activity.courts : Activity → Option TransportId
  | .attemptOpened _ t | .attemptAnswered _ t => some t
  | _ => none

/-- The session of whose server an activity takes leave. -/
def Activity.parts : Activity → Option SessionId
  | .shutDown s | .shutDownAnswered s => some s
  | _ => none

/-- Whatever takes leave of the server of a session is called by what stops the session. -/
def Escorted : List Activity → Prop
  | [] => True
  | a :: rest => (∀ s, a.parts = some s → ∃ clear rest', rest = .stopAnnounced s clear :: rest') ∧ Escorted rest

/-- Whether an activity courts on a transport. -/
def isCourtingOn (t : TransportId) (a : Activity) : Bool :=
  a.courts = some t

namespace Moment

/-- Tasks are in the middle of activities of a kind one at a time, and once. -/
structure Sole (f : Activity → Bool) (m : Moment) : Prop where
  once : ∀ p, (m.stack p).countP f ≤ 1
  alone : ∀ {p q}, 0 < (m.stack p).countP f → 0 < (m.stack q).countP f → p = q

/-- One attempt at a time courts on a transport, and on one that was made. Whatever takes leave of the server of a
session is called by what stops it, and sessions have their transports to themselves. -/
structure Mannered (m : Moment) : Prop where
  sole : ∀ t, m.Sole (isCourtingOn t)
  made : ∀ {p a t}, a ∈ m.stack p → a.courts = some t → t < m.client.transports.size
  escorted : ∀ p, Escorted (m.stack p)
  unshared : ∀ {s s' t}, (m.client.sessionAt s).transport = some t → (m.client.sessionAt s').transport = some t → s = s'

end Moment

variable {E : Executor} {P : Moment → Prop} {s : SessionId} {t : TransportId} {a b : Activity} {o : Outcome}
  {r : Except Fault Next} {c c' : Client} {m m' : Moment} {p q : PromiseId} {rest : List Activity}
  {acts : List LspClient.Step} {f : Activity → Bool}

/-! ## What activities leave to do -/

theorem Activity.IsFree.not_parts {of : Option SessionId} (h : a.IsFree of) : a.parts = none := by
  have brief := h.not_isBrief
  have leave := h.not_takesLeave
  cases a with
  | shutDown s => cases brief
  | shutDownAnswered s => cases leave
  | _ => rfl

namespace Client

/-- Only a session that begins to stop takes leave of its server next. -/
theorem stop_of_shutDown (h : c.Proceeds a o r c') (left : .shutDown s ∈ framesOf r) :
    ∃ clear, a = .stop s clear ∧ r = .ok (.call (.shutDown s) (.stopAnnounced s clear)) := by
  have called : ∃ k, r = .ok (.call (.shutDown s) k) := by
    cases leaves_of_proceeds h left with
    | free free => exact Bool.noConfusion free.not_isBrief
    | brief _ called _ => exact ⟨_, called⟩
    | stops stops => cases stops
    | reads _ again => cases again
    | loses _ free _ => exact Bool.noConfusion free.not_isBrief
    | waits _ _ _ again => cases again
  obtain ⟨k, rfl⟩ := called
  cases h with
  | steady _ free _ => exact Bool.noConfusion (free _ left).not_isBrief
  | greet _ _ free => exact Bool.noConfusion (free _ left).not_isBrief
  | run _ ends => cases ends
  | stop stops =>
    rcases stops with ⟨e, _⟩ | ⟨e, _⟩
    · cases e
      exact ⟨_, rfl, rfl⟩
    · cases e
  | count _ _ ends _ => cases ends
  | leave _ next => rcases next with e | e <;> cases e
  | stopped _ ends => cases ends
  | release _ next => cases next
  | silence _ next => cases next
  | read _ _ next _ =>
    rcases next _ left with free | reads
    · exact Bool.noConfusion free.not_isBrief
    · cases reads
  | answer _ answers =>
    cases answers with
    | waits _ calls again => exact Bool.noConfusion (calls.free none).not_isBrief
    | replies _ ends => cases ends
    | drops _ ends _ => cases ends

/-- Only what has taken leave of the server of a session waits for the answer. -/
theorem leave_of_shutDownAnswered (h : c.Proceeds a o r c') (left : .shutDownAnswered s ∈ framesOf r) :
    a = .shutDown s ∧ framesOf r = [.shutDownAnswered s] := by
  have leaves : a = .shutDown s := by
    cases leaves_of_proceeds h left with
    | free free => cases free.not_takesLeave
    | brief brief _ _ => cases brief
    | stops stops => cases stops
    | takesLeave leaves => exact leaves
    | reads _ again => cases again
    | loses _ free _ => cases free.not_takesLeave
    | waits _ _ _ again => cases again
  cases leaves
  refine ⟨rfl, ?_⟩
  cases h with
  | steady _ free _ => cases (free _ left).not_takesLeave
  | count never _ _ _ => cases never
  | leave _ next =>
    rcases next with nothing | waits
    · rw [nothing] at left
      cases left
    · exact waits
  | read never _ _ _ => cases never
  | answer never _ => cases never

/-- Only a session that runs takes leave of its server. -/
theorem running_of_shutDown (hc : c.Sound) (hx : does E (goOn a o) c = (r, c')) (h : c.Proceeds a o r c')
    (left : .shutDown s ∈ framesOf r) : (c.sessionAt s).state = .running := by
  obtain ⟨clear, rfl, rfl⟩ := stop_of_shutDown h left
  refine Classical.byContradiction fun other => ?_
  cases o with
  | error f => cases hx
  | ok v =>
    have goes : does E (stopFrom s clear (c.sessionAt s).state) c =
      (.ok (.call (.shutDown s) (.stopAnnounced s clear)), c') := hx
    have may : (c.sessionAt s).state.mayBecome .stopping = true → does E (do
        cancelRestart s
        transition s .stopping
        logSession s .info ("Stopping session " ++ (← session s).name)
        stopRelease s clear none) c ≠ (.ok (.call (.shutDown s) (.stopAnnounced s clear)), c') := by
      intro may whole
      obtain ⟨c₁, _, hc₁, stops⟩ := does_stopping (E := E) hc may (stopRelease s clear none)
      obtain ⟨d, releases, _⟩ := does_stopRelease (E := E) hc₁ s clear none
      rw [stops, releases] at whole
      cases whole
    cases state : (c.sessionAt s).state with
    | running => exact other state
    | starting =>
      rw [state] at goes may
      exact may rfl goes
    | failed =>
      rw [state] at goes may
      exact may rfl goes
    | stopping =>
      rw [state] at goes
      cases goes
    | stopped =>
      rw [state] at goes
      have calm : IsCalm E Next.GoesOn (stopFrom s clear .stopped) :=
        (isMinor_clearNotifications s clear).calm fun _ => isCalm_done_stateName s
      have root := (calm.calmAt c hc).answers goes (.shutDown s) (List.mem_cons_self ..)
      cases root.2

/-! ### Courting -/

/-- Only what has made a new transport is about to open it. -/
theorem connect_of_attemptOpened (h : c.Proceeds a o r c') (left : .attemptOpened s t ∈ framesOf r) :
    a = .attemptReleased s ∧ r = .ok (.call (.openTransport t) (.attemptOpened s t)) ∧
      c.transports.size ≤ t ∧ t < c'.transports.size := by
  have called : a = .attemptReleased s ∧ r = .ok (.call (.openTransport t) (.attemptOpened s t)) := by
    cases leaves_of_proceeds h left with
    | free free => cases free.not_handles
    | brief brief _ _ => cases brief
    | stops stops => cases stops
    | opens connects called => exact ⟨connects, called⟩
    | reads _ again => cases again
    | loses _ free _ => cases free.not_handles
    | waits _ _ _ again => cases again
  obtain ⟨rfl, rfl⟩ := called
  cases h with
  | steady _ free _ => cases (free _ left).not_handles
  | connect _ new made _ => exact ⟨rfl, rfl, new, made⟩
  | count never _ _ _ => cases never
  | read never _ _ _ => cases never
  | answer never _ => cases never

/-- Only an attempt whose transport was opened waits for the answer to its first request there. -/
theorem opened_of_attemptAnswered (hE : E.IsTame) (hc : c.Sound) (hx : does E (goOn a o) c = (r, c'))
    (h : c.Proceeds a o r c') (left : .attemptAnswered s t ∈ framesOf r) : a = .attemptOpened s t := by
  by_cases opens : ∃ x u, a = .attemptOpened x u
  · obtain ⟨x, u, rfl⟩ := opens
    obtain ⟨rfl, rfl, _⟩ := reader_of_attemptOpened hE hc hx left
    rfl
  · have stirs : a.rouses ≠ none ∨ a.reads ≠ none := by
      rcases (leaves_of_proceeds h left).of_stirs rfl with mine | ⟨u, mine, _⟩
      · exact .inl (by simp [mine])
      · exact .inr (by simp [mine])
    have gone := leavesOut_goOn (E := E) (s := s) (t := t) (fun x u e => opens ⟨x, u, e⟩) stirs o c
    rw [hx] at gone
    exact absurd left gone

/-- An operation that does not call something. -/
def CallsOut (E : Executor) (b : Activity) (op : ClientM Next) : Prop :=
  ∀ c k, (does E op c).1 ≠ .ok (.call b k)

theorem LeavesOut.callsOut {op : ClientM Next} (h : LeavesOut E b op) : CallsOut E b op := by
  intro c k called
  refine h c ?_
  rw [called]
  exact List.mem_cons_self ..

theorem CallsOut.bind {α : Type} {x : ClientM α} {f : α → ClientM Next} (h : ∀ v, CallsOut E b (f v)) :
    CallsOut E b (x >>= f) := by
  intro c k
  rcases hx : does E x c with ⟨e | v, d⟩
  · rw [does_bind_of_error hx]
    nofun
  · rw [does_bind_of_ok hx]
    exact h v d k

theorem callsOut_pure {next : Next} (other : ∀ k, next ≠ .call b k) : CallsOut E b (pure next) :=
  fun _ k called => other k (Except.ok.inj called)

/-- An attempt that waits for the answer to its first request does so at last. -/
theorem callsOut_attemptOpened (x : SessionId) (u : TransportId) (o : Outcome) :
    CallsOut E (.attemptAnswered s t) (attemptOpened x u o) := by
  have fails : ∀ f, CallsOut E (.attemptAnswered s t) (attemptFault x f) := fun f =>
    (leavesOut_attemptFault (b := .attemptAnswered s t) x f nofun nofun).callsOut
  unfold attemptOpened
  split
  · exact fails _
  · refine CallsOut.bind fun y => ?_
    split
    · exact callsOut_pure nofun
    · refine CallsOut.bind fun _ => CallsOut.bind fun _ => CallsOut.bind fun sent => ?_
      cases sent with
      | error f => exact fails f
      | ok handle => exact callsOut_pure nofun

/-- What is called courts on no transport, so one thing at most that is left to do does. -/
theorem countP_courts (hE : E.IsTame) (hc : c.Sound) (hx : does E (goOn a o) c = (r, c')) (h : c.Proceeds a o r c') :
    (framesOf r).countP (isCourtingOn t) ≤ 1 := by
  have called : ∀ b k, r = .ok (.call b k) → isCourtingOn t b = false := by
    rintro b k rfl
    have left : b ∈ framesOf (.ok (.call b k)) := List.mem_cons_self ..
    cases b with
    | attemptOpened s u => cases (connect_of_attemptOpened h left).2.1
    | attemptAnswered s u =>
      obtain rfl := opened_of_attemptAnswered hE hc hx h left
      have out := callsOut_attemptOpened (E := E) (s := s) (t := u) s u o c k
      rw [show does E (attemptOpened s u o) c = (.ok (.call (.attemptAnswered s u) k), c') from hx] at out
      exact absurd rfl out
    | _ => rfl
  cases r with
  | error f => exact Nat.zero_le 1
  | ok next =>
    cases next with
    | call b k =>
      show ([b, k] : List Activity).countP (isCourtingOn t) ≤ 1
      rw [List.countP_cons_of_neg (by simp [called b k rfl])]
      exact List.countP_le_length
    | done v => exact Nat.zero_le 1
    | await q k => exact List.countP_le_length
    | yield k => exact List.countP_le_length
    | become k => exact List.countP_le_length

end Client

/-! ## Tasks that take leave -/

theorem escorted_of_plain {frames : List Activity} (plain : ∀ b ∈ frames, b.parts = none) (behind : Escorted rest) :
    Escorted (frames ++ rest) := by
  induction frames with
  | nil => exact behind
  | cons x frames ih =>
    refine ⟨fun s parts => ?_, ih fun b hb => plain b (List.mem_cons_of_mem _ hb)⟩
    rw [plain x (List.mem_cons_self ..)] at parts
    cases parts

theorem escorted_singleton (plain : b.parts = none) : Escorted [b] :=
  escorted_of_plain (fun x hx => by rw [List.mem_singleton.1 hx, plain]) (show Escorted [] from trivial)

/-- Whatever takes leave of the server of a session is in a task that stops the session. -/
theorem Escorted.stops {stack : List Activity} (h : Escorted stack) (ha : a ∈ stack) (parts : a.parts = some s) :
    ∃ clear, .stopAnnounced s clear ∈ stack := by
  induction stack with
  | nil => cases ha
  | cons x rest ih =>
    rcases List.mem_cons.1 ha with rfl | ha
    · obtain ⟨clear, rest', rfl⟩ := h.1 s parts
      exact ⟨clear, by simp⟩
    · obtain ⟨clear, there⟩ := ih h.2 ha
      exact ⟨clear, List.mem_cons_of_mem _ there⟩

namespace Moment

/-! ## One at a time -/

/-- What goes on is the only one of its kind. -/
theorem Sole.behind (h : m.Sole f) (hp : m.Proceeds m' p a rest o r c) (mine : f a = true) :
    rest.countP f = 0 ∧ ∀ q, q ≠ p → (m.stack q).countP f = 0 := by
  have once := h.once p
  have here : 0 < (m.stack p).countP f := List.countP_pos_iff.2 ⟨a, hp.mem_before, mine⟩
  constructor
  · rw [hp.stack_before, List.countP_cons_of_pos mine] at once
    omega
  · intro q hq
    refine Nat.eq_zero_of_not_pos fun there => hq ?_
    exact h.alone there here

/-- Tasks that are in the middle of the same as before, or begin something of another kind. -/
theorem SameStack.countP_le {A : Activity → Prop} (same : m.SameStack A m' p) (plain : ∀ b, A b → f b = false) :
    (m'.stack p).countP f ≤ (m.stack p).countP f := by
  rcases same with e | ⟨_, b, begins, e⟩
  · rw [e]
  · rw [e, List.countP_cons_of_neg (by simp [plain b begins])]
    exact Nat.zero_le _

/-- Nothing new of the kind has come. -/
theorem Sole.carry (h : m.Sole f) (fewer : ∀ p, (m'.stack p).countP f ≤ (m.stack p).countP f) : m'.Sole f :=
  ⟨fun p => Nat.le_trans (fewer p) (h.once p), fun {p q} hp hq =>
    h.alone (Nat.lt_of_lt_of_le hp (fewer p)) (Nat.lt_of_lt_of_le hq (fewer q))⟩

/-- Something of the kind is left to do by something of the kind, or where there was nothing of it. -/
theorem Proceeds.sole (hp : m.Proceeds m' p a rest o r c) (h : m.Sole f)
    (plain : ∀ b, m.client.Begins a b → f b = false) (once : (framesOf r).countP f ≤ 1)
    (free : 0 < (framesOf r).countP f → f a = true ∨ ∀ q, (m.stack q).countP f = 0) : m'.Sole f := by
  have others : ∀ q, q ≠ p → (m'.stack q).countP f ≤ (m.stack q).countP f := fun q hq =>
    (hp.others q hq).countP_le plain
  have here : (m'.stack p).countP f = (framesOf r).countP f + rest.countP f := by rw [hp.stack, List.countP_append]
  have before : (m.stack p).countP f = rest.countP f + if f a then 1 else 0 := by
    rw [hp.stack_before, List.countP_cons]
  by_cases left : 0 < (framesOf r).countP f
  · -- Nothing else is of the kind.
    have none : rest.countP f = 0 ∧ ∀ q, q ≠ p → (m.stack q).countP f = 0 := by
      rcases free left with mine | none
      · exact h.behind hp mine
      · have all := none p
        exact ⟨by omega, fun q _ => none q⟩
    have zero : ∀ q, q ≠ p → (m'.stack q).countP f = 0 := fun q hq =>
      Nat.eq_zero_of_le_zero (Nat.le_trans (others q hq) (Nat.le_of_eq (none.2 q hq)))
    have only : ∀ q, 0 < (m'.stack q).countP f → q = p := fun q some =>
      Classical.byContradiction fun hq => absurd (zero q hq) (Nat.ne_of_gt some)
    refine ⟨fun q => ?_, fun some some' => (only _ some).trans (only _ some').symm⟩
    by_cases hq : q = p
    · rw [hq, here, none.1]
      exact once
    · rw [zero q hq]
      exact Nat.zero_le 1
  · refine h.carry fun q => ?_
    by_cases hq : q = p
    · rw [hq, here, before]
      omega
    · exact others q hq

/-! ## Taking leave -/

/-- A session takes leave of its server while it is stopping. -/
theorem Mannered.stopping (h : m.Mannered) (halting : m.Halting s) (ha : a ∈ m.stack p) (parts : a.parts = some s) :
    (m.client.sessionAt s).state = .stopping := by
  obtain ⟨clear, there⟩ := (h.escorted p).stops ha parts
  exact halting.stopping_of_mem there rfl

/-- What takes leave of the server of a session is the only activity that does. -/
theorem Mannered.parts_alone (h : m.Mannered) (halting : m.Halting s) (hp : m.Proceeds m' p a rest o r c)
    (mine : a.parts = some s) (other : b.parts = some s) : b ∉ rest ∧ ∀ q, q ≠ p → b ∉ m.stack q := by
  have escorted := h.escorted p
  rw [hp.stack_before] at escorted
  obtain ⟨clear, rest', rfl⟩ := escorted.1 s mine
  have here : .stopAnnounced s clear ∈ m.stack p := by
    rw [hp.stack_before]
    simp
  constructor
  · intro hb
    -- It would be called by something else that stops the session.
    have later : b ∈ rest' := by
      rcases List.mem_cons.1 hb with rfl | hb
      · cases other
      · exact hb
    obtain ⟨clear', there⟩ := escorted.2.2.stops later other
    have stops : ∀ {clear}, isStopOf s (.stopAnnounced s clear) = true := decide_eq_true rfl
    have second : 0 < rest'.countP (isStopOf s) := List.countP_pos_iff.2 ⟨_, there, stops⟩
    have once := halting.once p
    unfold stopsOf at once
    rw [hp.stack_before, ← List.countP_eq_length_filter, List.countP_cons, List.countP_cons_of_pos stops] at once
    omega
  · intro q hq hb
    obtain ⟨clear', there⟩ := (h.escorted q).stops hb other
    refine hq (halting.alone q p ?_ ?_)
    · exact List.ne_nil_of_mem (mem_stopsOf there rfl)
    · exact List.ne_nil_of_mem (mem_stopsOf here rfl)

/-! ## Steps -/

/-- Nothing that a new task begins with takes leave of a server, or courts on a transport. -/
theorem plain_of_begins (begins : c.Begins a b) : b.parts = none ∧ b.courts = none := by
  cases begins with
  | root root =>
    have free := root.free none
    refine ⟨free.not_parts, ?_⟩
    cases b with
    | attemptOpened s t => cases free.not_handles
    | attemptAnswered s t => rcases free.stirs with never | never <;> cases never
    | _ => rfl
  | reader _ => exact ⟨rfl, rfl⟩
  | answer => exact ⟨rfl, rfl⟩
  | restart _ _ _ => exact ⟨rfl, rfl⟩

theorem not_isCourtingOn (none : b.courts = none) : isCourtingOn t b = false := by
  simp [isCourtingOn, none]

/-- One attempt at a time courts on a transport, whatever goes on. -/
theorem Proceeds.sole_courts (hE : E.IsTame) (sound : m.Sound) (hp : m.Proceeds m' p a rest o r c)
    (hx : does E (goOn a o) m.client = (r, c)) (h : m.Mannered) (t : TransportId) : m'.Sole (isCourtingOn t) := by
  refine hp.sole (h.sole t) (fun b begins => not_isCourtingOn (plain_of_begins begins).2)
    (countP_courts hE sound.client hx hp.proceeds) fun some => ?_
  obtain ⟨b, left, courts⟩ := List.countP_pos_iff.1 some
  have mine : b.courts = .some t := by simpa [isCourtingOn] using courts
  cases b with
  | attemptOpened s u =>
    cases mine
    -- The transport is new.
    obtain ⟨_, _, new, _⟩ := connect_of_attemptOpened hp.proceeds left
    refine .inr fun q => List.countP_eq_zero.2 fun b hb there => ?_
    exact absurd (h.made hb (by simpa [isCourtingOn] using there)) (Nat.not_lt_of_le new)
  | attemptAnswered s u =>
    cases mine
    rw [opened_of_attemptAnswered hE sound.client hx hp.proceeds left]
    exact .inl (by simp [isCourtingOn, Activity.courts])
  | _ => cases mine

/-- What takes leave of the server of a session is called by what stops it, whatever goes on. -/
theorem Proceeds.escorted (hp : m.Proceeds m' p a rest o r c) (h : m.Mannered) (q : PromiseId) :
    Escorted (m'.stack q) := by
  by_cases hq : q = p
  · have before := h.escorted p
    rw [hp.stack_before] at before
    rw [hq, hp.stack]
    by_cases leaving : ∃ s, .shutDown s ∈ framesOf r
    · obtain ⟨s, left⟩ := leaving
      obtain ⟨clear, _, rfl⟩ := stop_of_shutDown hp.proceeds left
      refine ⟨fun x parts => ?_, fun x parts => ?_, before.2⟩
      · cases parts
        exact ⟨clear, rest, rfl⟩
      · cases parts
    · by_cases waiting : ∃ s, .shutDownAnswered s ∈ framesOf r
      · obtain ⟨s, left⟩ := waiting
        obtain ⟨rfl, frames⟩ := leave_of_shutDownAnswered hp.proceeds left
        rw [frames]
        exact ⟨fun x parts => before.1 x parts, before.2⟩
      · refine escorted_of_plain (fun b hb => ?_) before.2
        cases b with
        | shutDown s => exact absurd ⟨s, hb⟩ leaving
        | shutDownAnswered s => exact absurd ⟨s, hb⟩ waiting
        | _ => rfl
  · rcases hp.others q hq with same | ⟨_, b, begins, only⟩
    · rw [same]
      exact h.escorted q
    · rw [only]
      exact escorted_singleton (plain_of_begins begins).1

/-- A session that has a transport had it before and does not give it up, or an attempt to start connects it. -/
theorem Proceeds.connected_or_connects (sound : m.Sound) (hp : m.Proceeds m' p a rest o r c)
    (connected : (m'.client.sessionAt s).transport = some t) :
    (m.client.sessionAt s).transport = some t ∧ a ≠ .release s ∨ m.client.transports.size ≤ t ∧ m.Connects s t m' := by
  have given : a ≠ .release s := by
    rintro rfl
    rw [hp.sessions, hp.transport_of_releases sound] at connected
    cases connected
  rw [hp.sessions] at connected
  rcases hp.transport_or_connects (s := s) with same | gives | ⟨u, new, now, connects⟩
  · exact .inl ⟨same.symm.trans connected, given⟩
  · exact absurd gives given
  · rw [now] at connected
    cases connected
    exact .inr ⟨new, connects⟩

/-- A session that takes hold of a transport has it to itself. -/
theorem Proceeds.unshared (sound : m.Sound) (tidy : m.Tidy) (hp : m.Proceeds m' p a rest o r c) (h : m.Mannered)
    {s s' : SessionId} (here : (m'.client.sessionAt s).transport = some t)
    (there : (m'.client.sessionAt s').transport = some t) : s = s' := by
  rcases hp.connected_or_connects sound here with ⟨old, _⟩ | ⟨new, connects⟩ <;>
    rcases hp.connected_or_connects sound there with ⟨old', _⟩ | ⟨new', connects'⟩
  · exact h.unshared old old'
  · exact absurd (tidy.made s t old) (Nat.not_lt_of_le new')
  · exact absurd (tidy.made s' t old') (Nat.not_lt_of_le new)
  · obtain ⟨_, _, _, turn⟩ := connects.before
    obtain ⟨_, _, _, turn'⟩ := connects'.before
    rw [turn] at turn'
    cases turn'
    rfl

theorem Proceeds.mannered (hE : E.IsTame) (sound : m.Sound) (tidy : m.Tidy) (hp : m.Proceeds m' p a rest o r c)
    (hx : does E (goOn a o) m.client = (r, c)) (h : m.Mannered) : m'.Mannered where
  sole := hp.sole_courts hE sound hx h
  made {q b t} hb courts := by
    have grows : m.client.transports.size ≤ m'.client.transports.size := by
      rw [hp.transports]
      exact (alters_of_proceeds hp.proceeds).goes.grows
    rcases hp.mem_or_new hb with old | ⟨_, left⟩ | ⟨_, begins⟩
    · exact Nat.lt_of_lt_of_le (h.made old courts) grows
    · cases b with
      | attemptOpened s u =>
        cases courts
        rw [hp.transports]
        exact (connect_of_attemptOpened hp.proceeds left).2.2.2
      | attemptAnswered s u =>
        cases courts
        have opened := hp.mem_before
        rw [opened_of_attemptAnswered hE sound.client hx hp.proceeds left] at opened
        exact Nat.lt_of_lt_of_le (h.made opened rfl) grows
      | _ => cases courts
    · rw [(plain_of_begins begins).2] at courts
      cases courts
  escorted := hp.escorted h
  unshared := hp.unshared sound tidy h

theorem Passes.mannered (passes : m.Passes m') (after : m.After m') (h : m.Mannered) : m'.Mannered where
  sole t := (h.sole t).carry fun p => (passes.tasks p).countP_le fun b root =>
    not_isCourtingOn (plain_of_begins (c := m.client) (a := .relay) (.root root)).2
  made {q b t} hb courts := by
    rcases (passes.tasks q).mem hb with old | root
    · exact Nat.lt_of_lt_of_le (h.made old courts) after.grows
    · rw [(plain_of_begins (c := m.client) (a := .relay) (.root root)).2] at courts
      cases courts
  escorted q := by
    rcases passes.tasks q with same | ⟨_, b, root, only⟩
    · rw [same]
      exact h.escorted q
    · rw [only]
      exact escorted_singleton (root.free none).not_parts
  unshared {s s' t} here there :=
    h.unshared ((passes.stays s).transport.symm.trans here) ((passes.stays s').transport.symm.trans there)

theorem Step.mannered (hE : E.IsTame) (sound : m.Sound) (tidy : m.Tidy) (h : m.Mannered) (next : Step E acts m m') :
    m'.Mannered := by
  obtain ⟨_, after, passes | ⟨p, a, rest, o, r, c, hx, hp⟩⟩ := next.spec hE sound
  · exact passes.mannered after h
  · exact hp.mannered hE sound tidy hx h

theorem mannered_of_isNew (new : c.IsNew) : Mannered ⟨c, none⟩ where
  sole t := by
    have none : ∀ p, (stack ⟨c, none⟩ p).countP (isCourtingOn t) = 0 := fun p => by
      rw [stack_of_isNew new]
      rfl
    exact ⟨fun p => by rw [none]; exact Nat.zero_le 1, fun {p q} some => by rw [none] at some; cases some⟩
  made {p a t} ha := by
    rw [stack_of_isNew new] at ha
    cases ha
  escorted p := by
    rw [stack_of_isNew new]
    trivial
  unshared {s s' t} here := by
    rw [show ((⟨c, none⟩ : Moment).client.sessionAt s).transport = none from (sessionAt_of_isNew new s).2.2.1] at here
    cases here

end Moment

end LspClient
