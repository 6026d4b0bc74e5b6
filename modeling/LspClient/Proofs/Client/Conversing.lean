/-
What sessions write on their transports, one message after another: as much of a whole conversation as there was time
for. The first request comes first, users write between the first notification and the last request, and nothing follows
the last notification. That goes wrong only where an attempt to start goes on although others have overtaken it, or its
first request cannot be sent.
-/
import LspClient.Proofs.Client.Courting
import LspClient.Proofs.Client.Phases
import LspClient.Proofs.Client.Speaking
import LspClient.Proofs.Client.Waits

namespace LspClient

open Client
open Activity (IsRoot)

/-! ## Definitions -/

/-- The phase in which an activity finds the conversation on a transport, if that is the one of its session. -/
inductive Activity.Finds : Activity → SessionId → TransportId → Phase → Prop
  | opened {s : SessionId} {t : TransportId} : Finds (.attemptOpened s t) s t .fresh
  | answered {s : SessionId} {t : TransportId} : Finds (.attemptAnswered s t) s t .greeted
  | parts {s : SessionId} {t : TransportId} : Finds (.shutDown s) s t .inUse
  | takesLeave {s : SessionId} {t : TransportId} : Finds (.shutDownAnswered s) s t .leaving

namespace Client

/-- The phase that the conversation on a transport is in. -/
def phaseOn (c : Client) (t : TransportId) : Option Phase :=
  phaseOf ((c.attemptsOn t).map (·.1))

/-- The servers of sessions that run are in use. -/
def IsUsable (c : Client) : Prop :=
  ∀ s t, (c.sessionAt s).state = .running → (c.sessionAt s).transport = some t → c.phaseOn t = some .inUse

/-- How conversations go on when an activity does: not at all, or on one transport by the message that the activity
writes there. -/
inductive Converses (c : Client) (a : Activity) (o : Outcome) (c' : Client) : Prop
  | quiet (same : ∀ t, c'.phaseOn t = c.phaseOn t)
  | spoken {s : SessionId} {t : TransportId} {q : Purpose} {ph ph' : Phase} (may : a.MaySay o s t q)
    (connected : (c.sessionAt s).transport = some t) (here : c.phaseOn t = some ph) (next : ph.after q = some ph')
    (turns : a.Finds s t ph ∨ ph' = ph) (now : c'.phaseOn t = some ph')
    (elsewhere : ∀ u, u ≠ t → c'.phaseOn u = c.phaseOn u)

end Client

namespace Moment

/-- What goes on does not follow the rules of a conversation with the server of a session. -/
inductive Derails (s : SessionId) (m : Moment) : Prop
  /-- An attempt to start connects the session although it runs, or stops. -/
  | late {p : PromiseId} {rest : List Activity} {v : Value}
    (turn : m.turn = some ⟨p, .attemptReleased s :: rest, .ok v⟩)
    (busy : (m.client.sessionAt s).state = .running ∨ (m.client.sessionAt s).state = .stopping)
  /-- An attempt to start connects the session while something serves the server of another transport. -/
  | crowded {p : PromiseId} {rest : List Activity} {v : Value}
    (turn : m.turn = some ⟨p, .attemptReleased s :: rest, .ok v⟩)
    (served : (∃ t q, m.Reads s t q) ∨ ∃ id q, m.Serves s id q)
  /-- An attempt to start has heard from the server of another transport. -/
  | overtaken {p : PromiseId} {rest : List Activity} {t u : TransportId} {v : Value}
    (turn : m.turn = some ⟨p, .attemptAnswered s t :: rest, .ok v⟩)
    (connected : (m.client.sessionAt s).transport = some u) (other : u ≠ t)
  /-- The first request cannot be sent. -/
  | mute {p : PromiseId} {rest : List Activity} {t : TransportId} {v : Value}
    (turn : m.turn = some ⟨p, .attemptOpened s t :: rest, .ok v⟩)
    (connected : (m.client.sessionAt s).transport = some t) (cannot : (m.client.sessionAt s).CannotGreet)

/-- Conversations keep to the rules. The servers of sessions that run are in use, what is about to write finds the
conversation where it goes on from, a server is served only after the first request, and where the last notification is
written the transport is given up next. -/
structure WellSpoken (m : Moment) : Prop where
  usable : m.client.IsUsable
  spoken : ∀ {s t}, (m.client.sessionAt s).transport = some t → m.client.phaseOn t ≠ none
  finds : ∀ {p a s t ph}, a ∈ m.stack p → a.Finds s t ph → (m.client.sessionAt s).transport = some t →
    m.client.phaseOn t = some ph
  served : ∀ {s t}, (∃ u q, m.Reads s u q) ∨ (∃ id q, m.Serves s id q) → (m.client.sessionAt s).transport = some t →
    m.client.phaseOn t ≠ some .fresh
  left : ∀ {s t}, (m.client.sessionAt s).transport = some t → m.client.phaseOn t = some .left →
    ∃ p a rest o, m.turn = some ⟨p, a :: rest, o⟩ ∧ (a = .release s ∨ ∃ clear, a = .stopAnnounced s clear)

end Moment

variable {E : Executor} {P : Moment → Prop} {s : SessionId} {t : TransportId} {a b : Activity} {o : Outcome}
  {q : Purpose} {ph ph' : Phase} {r : Except Fault Next} {c c' : Client} {m m' : Moment} {p : PromiseId}
  {rest : List Activity} {acts : List LspClient.Step}

/-! ## Phases of conversations -/

/-- Where a conversation has come to, one activity goes on with it. -/
theorem Activity.Finds.eq (h : a.Finds s t ph) (h' : b.Finds s t ph) : a = b := by
  cases h <;> cases h' <;> rfl

namespace Client

theorem phaseOn_congr (same : c'.transports = c.transports) (t : TransportId) : c'.phaseOn t = c.phaseOn t := by
  unfold phaseOn attemptsOn
  rw [same]

theorem phaseOn_of_size_le (h : c.transports.size ≤ t) : c.phaseOn t = some .fresh := by
  unfold phaseOn
  rw [attemptsOn_of_size_le c h]
  rfl

theorem phaseOn_record_of_ne {u : TransportId} (h : u ≠ t) (x : Purpose × String) :
    (c.record t x).phaseOn u = c.phaseOn u := by
  unfold phaseOn
  rw [attemptsOn_record_of_ne c h]

theorem phaseOn_record_self (h : t < c.transports.size) (x : Purpose × String) :
    (c.record t x).phaseOn t = (c.phaseOn t).bind fun ph => ph.after x.1 := by
  unfold phaseOn
  rw [attemptsOn_record_self c h, List.map_append]
  exact phaseOf_concat _ x.1

/-- Users write where the server is in use, and leave it so. -/
theorem Chats.phaseOn (h : c.Chats c') (usable : c.IsUsable) (t : TransportId) : c'.phaseOn t = c.phaseOn t := by
  obtain ⟨us, e, uses⟩ := h.writes t
  unfold Client.phaseOn
  rw [e, List.map_append]
  cases us with
  | nil => rw [List.map_nil, List.append_nil]
  | cons x us =>
    obtain ⟨_, _, s, running, connected⟩ := uses x (List.mem_cons_self ..)
    have inUse := usable s t running connected
    refine (phaseOf_append_of_isUser inUse fun q hq => ?_).trans inUse.symm
    obtain ⟨y, hy, rfl⟩ := List.mem_map.1 hq
    exact (uses y hy).1

theorem Chats.usable (h : c.Chats c') (usable : c.IsUsable) : c'.IsUsable := by
  intro s t running connected
  rw [h.phaseOn usable]
  exact usable s t (by rw [← h.state, running]) (by rw [← h.transport, connected])

/-- Users write before sessions change and after that, where the servers are in use. -/
theorem ChatsOn.phaseOn (h : c.ChatsOn c') (usable : c.IsUsable)
    (later : ∀ s t, (c'.sessionAt s).state = .running → (c'.sessionAt s).transport = some t →
      c.phaseOn t = some .inUse) (t : TransportId) : c'.phaseOn t = c.phaseOn t := by
  obtain ⟨d, e, first, _, same, last⟩ := h
  have between : ∀ t, e.phaseOn t = c.phaseOn t := by
    intro t
    rw [← first.phaseOn usable]
    unfold Client.phaseOn
    rw [same]
  have usable' : e.IsUsable := fun s t running connected =>
    (between t).trans (later s t (by rw [last.state, running]) (by rw [last.transport, connected]))
  rw [last.phaseOn usable', between]

/-- A session writes a message that may be written, and users write where the servers are in use with it. -/
theorem Speaks.phaseOn (h : c.Speaks s q t c') (made : t < c.transports.size) (usable : c.IsUsable)
    (here : c.phaseOn t = some ph) (next : ph.after q = some ph')
    (now : ∀ x u, (c.sessionAt x).state = .running → (c.sessionAt x).transport = some u →
      (if u = t then some ph' else c.phaseOn u) = some .inUse)
    (later : ∀ x u, (c'.sessionAt x).state = .running → (c'.sessionAt x).transport = some u →
      (if u = t then some ph' else c.phaseOn u) = some .inUse) (u : TransportId) :
    c'.phaseOn u = if u = t then some ph' else c.phaseOn u := by
  obtain ⟨_, d, text, first, _, last⟩ := h
  have recorded : ∀ u, (d.record t (q, text)).phaseOn u = if u = t then some ph' else c.phaseOn u := by
    intro u
    split
    · next e =>
      rw [e, phaseOn_record_self (Nat.lt_of_lt_of_le made first.grows), first.phaseOn usable, here]
      exact next
    · next other => rw [phaseOn_record_of_ne other, first.phaseOn usable]
  have usable' : (d.record t (q, text)).IsUsable := fun x u running connected => by
    rw [recorded]
    exact now x u ((first.state x).symm.trans running) ((first.transport x).symm.trans connected)
  rw [← recorded]
  exact last.phaseOn usable' (fun x u running connected => (recorded u).trans (later x u running connected)) u

/-- No conversation begins again. -/
theorem Converses.fresh (h : c.Converses a o c') (fresh : c'.phaseOn t = some .fresh) : c.phaseOn t = some .fresh := by
  cases h with
  | quiet same => rw [← same, fresh]
  | @spoken _ u _ _ _ _ _ _ next _ now elsewhere =>
    by_cases e : t = u
    · rw [e, now] at fresh
      cases fresh
      exact absurd rfl (Phase.after_ne_fresh next)
    · rw [← elsewhere t e, fresh]

/-- Conversations that have kept to the rules go on to. -/
theorem Converses.ne_none (h : c.Converses a o c') (before : c.phaseOn t ≠ none) : c'.phaseOn t ≠ none := by
  cases h with
  | quiet same => rwa [same]
  | @spoken _ u _ _ _ _ _ _ _ _ now elsewhere =>
    by_cases e : t = u
    · rw [e, now]
      nofun
    · rwa [elsewhere t e]

/-- What may write nothing leaves conversations where they are. -/
theorem Converses.same (h : c.Converses a o c') (silent : ∀ s t q, ¬ a.MaySay o s t q) (t : TransportId) :
    c'.phaseOn t = c.phaseOn t := by
  cases h with
  | quiet same => exact same t
  | spoken may => exact absurd may (silent _ _ _)

end Client

namespace Moment

/-! ## What goes on -/

/-- What is about to stop a session releases its transport next. -/
theorem calls_of_stopAnnounced {clear : Bool} (h : c.Proceeds (.stopAnnounced s clear) o r c') :
    ∃ f, r = .ok (.call (.release s) (.stopReleased s clear f)) := by
  cases h with
  | steady _ _ kept => exact absurd (.inr (.inl ⟨s, clear, rfl⟩)) kept
  | announced => exact ⟨_, rfl⟩
  | count counts => cases counts
  | read reads => cases reads
  | answer request => cases request

/-- Where the conversation on its transport goes on, an activity finds it in a phase in which its message may be
written; only answers leave it there. -/
theorem WellSpoken.next_of_maySay (h : m.WellSpoken) (calm : ∀ s, ¬ m.Derails s)
    (turn : m.turn = some ⟨p, a :: rest, o⟩) (may : a.MaySay o s t q)
    (connected : (m.client.sessionAt s).transport = some t) :
    ∃ ph ph', m.client.phaseOn t = some ph ∧ ph.after q = some ph' ∧ (a.Finds s t ph ∨ ph' = ph) := by
  have here : a ∈ m.stack p := by
    rw [stack_of_turn turn]
    exact List.mem_cons_self ..
  cases may with
  | handshake => exact ⟨_, .greeted, h.finds here .opened connected, rfl, .inl .opened⟩
  | @initialized _ _ u v =>
    have same : t = u := Classical.byContradiction fun other => calm s (.overtaken turn connected other)
    rw [same] at connected ⊢
    exact ⟨_, .inUse, h.finds here .answered connected, rfl, .inl .answered⟩
  | shutdown => exact ⟨_, .leaving, h.finds here .parts connected, rfl, .inl .parts⟩
  | exit => exact ⟨_, .left, h.finds here .takesLeave connected, rfl, .inl .takesLeave⟩
  | @answer _ _ id _ _ request =>
    obtain ⟨ph, hph⟩ := Option.ne_none_iff_exists'.1 (h.spoken connected)
    refine ⟨ph, ph, hph, Phase.after_answer ?_ ?_, .inr rfl⟩
    · rintro rfl
      exact h.served (.inr ⟨id, p, a, here, request⟩) connected hph
    · rintro rfl
      obtain ⟨_, _, _, _, turn', gives⟩ := h.left connected hph
      rw [turn] at turn'
      cases turn'
      rcases gives with rfl | ⟨_, rfl⟩ <;> cases request

section

variable {x : SessionId} {u : TransportId}

/-- A session that runs on a transport did so before, or an answer to its first request lets it run. -/
theorem Proceeds.running_before (sound : m.Sound) (calm : ∀ s, ¬ m.Derails s) (hp : m.Proceeds m' p a rest o r c)
    (running : (m'.client.sessionAt x).state = .running) (connected : (m'.client.sessionAt x).transport = some u) :
    (m.client.sessionAt x).transport = some u ∧
      ((m.client.sessionAt x).state = .running ∨ ∃ t, a = .attemptAnswered x t) := by
  have began : (m.client.sessionAt x).state = .running ∨ ∃ t, a = .attemptAnswered x t := by
    refine Classical.or_iff_not_imp_left.2 fun idle => ?_
    rw [hp.sessions] at running
    have leads := (alters_of_proceeds hp.proceeds).leadsTo (s := x) (by rw [running]; exact Ne.symm idle)
    rw [running] at leads
    cases a with
    | attemptAnswered y t =>
      cases leads
      exact ⟨t, rfl⟩
    | _ => cases leads
  rcases hp.connected_or_connects sound connected with ⟨old, _⟩ | ⟨_, connects⟩
  · exact ⟨old, began⟩
  · -- Attempts connect no session that runs.
    obtain ⟨q, rest', v, turn⟩ := connects.before
    have busy := turn
    rw [hp.turn] at turn
    cases turn
    rcases began with running | ⟨t, never⟩
    · exact absurd (.late busy (.inl running)) (calm x)
    · cases never

/-- A message of a session is one that may be written, and users write where the servers are in use with it. Sessions
that run are in use then. -/
theorem Proceeds.phases_of_speaks (sound : m.Sound) (tidy : m.Tidy) (mannered : m.Mannered)
    (halting : ∀ s, m.Halting s) (calm : ∀ s, ¬ m.Derails s) (hp : m.Proceeds m' p a rest o r c) (h : m.WellSpoken)
    (may : a.MaySay o s t q) (speaks : m.client.Speaks s q t c) :
    ∃ ph ph', m.client.phaseOn t = some ph ∧ ph.after q = some ph' ∧ (a.Finds s t ph ∨ ph' = ph) ∧
      (∀ u, c.phaseOn u = if u = t then some ph' else m.client.phaseOn u) ∧ c.IsUsable := by
  have connected := speaks.1
  obtain ⟨ph, ph', here, next, turns⟩ := h.next_of_maySay calm hp.turn may connected
  -- Taking leave is for sessions that do not run any more.
  have now : ∀ x u, (m.client.sessionAt x).state = .running → (m.client.sessionAt x).transport = some u →
      (if u = t then some ph' else m.client.phaseOn u) = some .inUse := by
    intro x u running there
    split
    · next e =>
      rw [e] at there
      have inUse := h.usable x t running there
      rw [here] at inUse
      cases inUse
      rcases turns with finds | same
      · cases finds
        have stopping := mannered.stopping (halting s) hp.mem_before (a := .shutDown s) rfl
        rw [mannered.unshared there connected, stopping] at running
        cases running
      · rw [same]
    · exact h.usable x u running there
  have later : ∀ x u, (c.sessionAt x).state = .running → (c.sessionAt x).transport = some u →
      (if u = t then some ph' else m.client.phaseOn u) = some .inUse := by
    intro x u running there
    rw [← hp.sessions] at running there
    obtain ⟨before, runs | ⟨v, rfl⟩⟩ := hp.running_before sound calm running there
    · exact now x u runs before
    · -- The session runs on the transport on which the server is told so.
      cases may with
      | initialized =>
        rw [connected] at before
        cases before
        rw [if_pos rfl]
        rcases turns with finds | rfl
        · cases finds
          exact next.symm
        · cases ph' <;> cases next
      | answer never => cases never
  have phases := speaks.phaseOn (tidy.made s t connected) h.usable here next now later
  exact ⟨ph, ph', here, next, turns, phases, fun x u running there => (phases u).trans (later x u running there)⟩

/-- Whatever goes on, conversations go on by one message at most that is not one of users, and sessions that run are in
use. -/
theorem Proceeds.converses (hE : E.IsTame) (sound : m.Sound) (tidy : m.Tidy) (mannered : m.Mannered)
    (halting : ∀ s, m.Halting s) (calm : ∀ s, ¬ m.Derails s) (hp : m.Proceeds m' p a rest o r c)
    (hx : does E (goOn a o) m.client = (r, c)) (h : m.WellSpoken) : m.client.Converses a o c ∧ c.IsUsable := by
  have utters := utters_goOn hE sound.client (sound.tame_of_turn hp.turn) o
  rw [hx] at utters
  cases utters with
  | quiet chats still =>
    have usable : ∀ s t, (c.sessionAt s).state = .running → (c.sessionAt s).transport = some t →
        m.client.phaseOn t = some .inUse := by
      intro s t running connected
      have runs := still s running
      rw [← hp.sessions] at running connected
      exact h.usable s t runs (hp.running_before sound calm running connected).1
    have same := chats.phaseOn h.usable usable
    exact ⟨.quiet same, fun s t running connected => (same t).trans (usable s t running connected)⟩
  | @spoken s t q may speaks =>
    obtain ⟨ph, ph', here, next, turns, phases, usable⟩ :=
      hp.phases_of_speaks sound tidy mannered halting calm h may speaks
    refine ⟨.spoken may speaks.1 here next turns ?_ fun u other => ?_, usable⟩
    · rw [phases, if_pos rfl]
    · rw [phases, if_neg other]

end

/-! ## Keeping to the rules -/

section

variable {x : SessionId} {u : TransportId}

/-- What tasks are in the middle of is left to do by what has gone on, or they were in the middle of it besides that, or
they begin with it. -/
theorem Proceeds.origin (hp : m.Proceeds m' p a rest o r c) {q : PromiseId} (hb : b ∈ m'.stack q) :
    b ∈ framesOf r ∨ (b ∈ rest ∨ q ≠ p ∧ b ∈ m.stack q) ∨ m.client.Begins a b := by
  by_cases hq : q = p
  · rw [hq, hp.stack] at hb
    rcases List.mem_append.1 hb with left | behind
    · exact .inl left
    · exact .inr (.inl (.inl behind))
  · rcases hp.others q hq with same | ⟨_, d, begins, only⟩
    · rw [same] at hb
      exact .inr (.inl (.inr ⟨hq, hb⟩))
    · rw [only] at hb
      cases List.mem_singleton.1 hb
      exact .inr (.inr begins)

/-- What finds a conversation where it goes on from is the only activity that does. -/
theorem Mannered.finds_alone (h : m.Mannered) (halting : m.Halting s) (hp : m.Proceeds m' p a rest o r c)
    (finds : a.Finds s t ph) {q : PromiseId} (other : a ∈ rest ∨ q ≠ p ∧ a ∈ m.stack q) : False := by
  have courting : isCourtingOn t a = true → False := fun mine => by
    obtain ⟨behind, elsewhere⟩ := (h.sole t).behind hp mine
    rcases other with there | ⟨hq, there⟩
    · exact List.countP_eq_zero.1 behind a there mine
    · exact List.countP_eq_zero.1 (elsewhere q hq) a there mine
  have parting : a.parts = some s → False := fun mine => by
    obtain ⟨behind, elsewhere⟩ := h.parts_alone halting hp mine mine
    rcases other with there | ⟨hq, there⟩
    · exact behind there
    · exact elsewhere q hq there
  cases finds with
  | opened => exact courting (decide_eq_true rfl)
  | answered => exact courting (decide_eq_true rfl)
  | parts => exact parting rfl
  | takesLeave => exact parting rfl

/-- Nothing that a new task begins with goes on with a conversation. -/
theorem not_finds_of_begins (begins : c.Begins a b) : ¬ b.Finds s t ph := by
  intro finds
  obtain ⟨parts, courts⟩ := plain_of_begins begins
  cases finds with
  | opened => cases courts
  | answered => cases courts
  | parts => cases parts
  | takesLeave => cases parts

/-- What goes on with a conversation finds it in the right phase when an attempt connects its session to a new
transport. -/
theorem Proceeds.finds_of_connects (hE : E.IsTame) (sound : m.Sound) (mannered : m.Mannered) (halting : m.Halting s)
    (calm : ¬ m.Derails s) (hp : m.Proceeds m' p a rest o r c) (hx : does E (goOn a o) m.client = (r, c))
    (connects : m.Connects s t m') {q : PromiseId} (hb : b ∈ m'.stack q) (finds : b.Finds s t ph) : ph = .fresh := by
  obtain ⟨_, rest', v, turn⟩ := connects.before
  have late := turn
  rw [hp.turn] at turn
  cases turn
  -- Nothing else knows of the transport, and nobody takes leave.
  have known : b.courts = some t → b ∉ framesOf r → False := fun courts gone => by
    rcases hp.mem_or_new hb with old | ⟨_, left⟩ | ⟨_, begins⟩
    · exact absurd (mannered.made old courts) (Nat.not_lt_of_le connects.new)
    · exact gone left
    · exact not_finds_of_begins begins finds
  have leaving : b.parts = some s → b ∉ framesOf r → False := fun parts gone => by
    rcases hp.mem_or_new hb with old | ⟨_, left⟩ | ⟨_, begins⟩
    · exact calm (.late late (.inr (mannered.stopping halting old parts)))
    · exact gone left
    · exact not_finds_of_begins begins finds
  cases finds with
  | opened => rfl
  | answered =>
    refine (known rfl fun left => ?_).elim
    cases opened_of_attemptAnswered hE sound.client hx hp.proceeds left
  | parts =>
    refine (leaving rfl fun left => ?_).elim
    obtain ⟨_, never, _⟩ := stop_of_shutDown hp.proceeds left
    cases never
  | takesLeave =>
    refine (leaving rfl fun left => ?_).elim
    cases (leave_of_shutDownAnswered hp.proceeds left).1

/-- What is left to do finds the conversation where what went on has left it. -/
theorem Proceeds.finds_of_left (hE : E.IsTame) (sound : m.Sound) (tidy : m.Tidy) (mannered : m.Mannered)
    (halting : ∀ s, m.Halting s) (calm : ∀ s, ¬ m.Derails s) (hp : m.Proceeds m' p a rest o r c)
    (hx : does E (goOn a o) m.client = (r, c)) (h : m.WellSpoken) (left : b ∈ framesOf r) (finds : b.Finds s t ph)
    (connected : (m.client.sessionAt s).transport = some t) : c.phaseOn t = some ph := by
  have speaks : ∀ {q ph₀ ph₁}, a.MaySay o s t q → m.client.Speaks s q t c → m.client.phaseOn t = some ph₀ →
      ph₀.after q = some ph₁ → c.phaseOn t = some ph₁ := by
    intro q ph₀ ph₁ may spoken before next
    obtain ⟨ph, ph', here, next', _, phases, _⟩ :=
      hp.phases_of_speaks sound tidy mannered halting calm h may spoken
    rw [before] at here
    cases here
    rw [next] at next'
    cases next'
    rw [phases, if_pos rfl]
  cases finds with
  | opened =>
    obtain ⟨_, _, new, _⟩ := connect_of_attemptOpened hp.proceeds left
    exact absurd (tidy.made s t connected) (Nat.not_lt_of_le new)
  | answered =>
    obtain rfl := opened_of_attemptAnswered hE sound.client hx hp.proceeds left
    rcases speaks_attemptOpened hE sound.client s t o hx with ⟨⟨v, rfl⟩, spoken⟩ | ⟨gone, _⟩
    · exact speaks .handshake spoken (h.finds hp.mem_before .opened connected) rfl
    · exact absurd left gone
  | parts =>
    have running := running_of_shutDown sound.client hx hp.proceeds left
    obtain ⟨clear, rfl, _⟩ := stop_of_shutDown hp.proceeds left
    rw [(hp.converses hE sound tidy mannered halting calm hx h).1.same fun _ _ _ may => by
      cases may with
      | answer never => cases never]
    exact h.usable s t running connected
  | takesLeave =>
    obtain ⟨rfl, frames⟩ := leave_of_shutDownAnswered hp.proceeds left
    cases o with
    | error f =>
      cases hx
      cases left
    | ok v =>
      rcases speaks_shutDown hE sound.client s hx with ⟨_, nothing | none⟩ | ⟨u, spoken⟩
      · rw [nothing] at frames
        cases frames
      · rw [connected] at none
        cases none
      · have same := spoken.1
        rw [connected] at same
        cases same
        exact speaks .shutdown spoken (h.finds hp.mem_before .parts connected) rfl

/-- Whatever goes on, what goes on with a conversation finds it where it goes on from. -/
theorem Proceeds.finds (hE : E.IsTame) (sound : m.Sound) (tidy : m.Tidy) (mannered : m.Mannered)
    (halting : ∀ s, m.Halting s) (calm : ∀ s, ¬ m.Derails s) (hp : m.Proceeds m' p a rest o r c)
    (hx : does E (goOn a o) m.client = (r, c)) (h : m.WellSpoken) {q : PromiseId} (hb : b ∈ m'.stack q)
    (finds : b.Finds s t ph) (connected : (m'.client.sessionAt s).transport = some t) : c.phaseOn t = some ph := by
  have converses := (hp.converses hE sound tidy mannered halting calm hx h).1
  rcases hp.connected_or_connects sound connected with ⟨before, _⟩ | ⟨new, connects⟩
  · rcases hp.origin hb with left | old | begins
    · exact hp.finds_of_left hE sound tidy mannered halting calm hx h left finds before
    · have there : ∃ q, b ∈ m.stack q := by
        rcases old with behind | ⟨_, there⟩
        · exact ⟨p, by rw [hp.stack_before]; exact List.mem_cons_of_mem _ behind⟩
        · exact ⟨q, there⟩
      obtain ⟨q', there⟩ := there
      have phase := h.finds there finds before
      cases converses with
      | quiet same => rw [same, phase]
      | @spoken s' t' _ _ _ _ connected' here _ turns now elsewhere =>
        by_cases e : t = t'
        · -- The message was written on this transport, so it was written by what goes on with the conversation there.
          rw [← e] at connected' here turns now
          rw [phase] at here
          cases here
          rw [mannered.unshared connected' before] at turns
          rcases turns with mine | same
          · rw [finds.eq mine] at old
            exact (mannered.finds_alone (halting s) hp mine old).elim
          · rw [now, same]
        · rw [elsewhere t e, phase]
    · exact absurd finds (not_finds_of_begins begins)
  · rw [hp.finds_of_connects hE sound mannered (halting s) (calm s) hx connects hb finds]
    obtain ⟨_, _, _, turn⟩ := connects.before
    rw [hp.turn] at turn
    cases turn
    rw [converses.same fun _ _ _ may => by
      cases may with
      | answer never => cases never]
    exact phaseOn_of_size_le new

/-- A new reader of a transport comes with the first request there. -/
theorem Proceeds.phaseOn_of_begins (hE : E.IsTame) (sound : m.Sound) (tidy : m.Tidy) (mannered : m.Mannered)
    (halting : ∀ s, m.Halting s) (calm : ∀ s, ¬ m.Derails s) (hp : m.Proceeds m' p a rest o r c)
    (hx : does E (goOn a o) m.client = (r, c)) (h : m.WellSpoken) {q : PromiseId} (hb : b ∈ m'.stack q)
    (new : m.client.loop.promises.size ≤ q) (begins : m.client.Begins a b) (reads : b.reads = some (s, t)) :
    c.phaseOn t ≠ some .fresh := by
  obtain ⟨rfl, connected⟩ := begins.of_reads reads
  rcases speaks_attemptOpened hE sound.client s t o hx with ⟨⟨v, rfl⟩, spoken⟩ | ⟨_, minor | ⟨_, ⟨v, rfl⟩, _, cannot⟩⟩
  · obtain ⟨_, ph', _, next, _, phases, _⟩ :=
      hp.phases_of_speaks sound tidy mannered halting calm h .handshake spoken
    rw [phases, if_pos rfl]
    exact fun fresh => absurd (Option.some.inj fresh) (Phase.after_ne_fresh next)
  · -- No task reads from a transport to which nothing was to be written.
    have other : q ≠ p := fun e => by
      rw [e] at new
      exact absurd (sound.unfinished hp.mem_before).1 (Nat.not_lt_of_le new)
    have root : b.IsRoot := by
      rcases hp.tasks q other with same | ⟨_, x, root, only⟩
      · rcases minor.loop.stackOf (p := q) nofun with kept | ⟨_, x, root, only⟩
        · rw [same, kept, ← stack_of_ne hp.turn other] at hb
          exact absurd (sound.unfinished hb).1 (Nat.not_lt_of_le new)
        · rw [same, only] at hb
          cases List.mem_singleton.1 hb
          exact root
      · rw [only] at hb
        cases List.mem_singleton.1 hb
        exact root
    rw [(root.free none).not_serves.1] at reads
    cases reads
  · exact absurd (.mute hp.turn connected cannot) (calm s)

/-- A server is served only after the first request. -/
theorem Proceeds.served (hE : E.IsTame) (sound : m.Sound) (tidy : m.Tidy) (mannered : m.Mannered)
    (halting : ∀ s, m.Halting s) (calm : ∀ s, ¬ m.Derails s) (hp : m.Proceeds m' p a rest o r c)
    (hx : does E (goOn a o) m.client = (r, c)) (h : m.WellSpoken)
    (served : (∃ u q, m'.Reads s u q) ∨ (∃ id q, m'.Serves s id q))
    (connected : (m'.client.sessionAt s).transport = some t) : c.phaseOn t ≠ some .fresh := by
  have converses := (hp.converses hE sound tidy mannered halting calm hx h).1
  -- Unless a new reader begins, the server was served before.
  have before : ((∃ u q, m.Reads s u q) ∨ ∃ id q, m.Serves s id q) ∨ ∃ (u : TransportId) (q : PromiseId) (b : Activity),
      b ∈ m'.stack q ∧ b.reads = some (s, u) ∧ m.client.loop.promises.size ≤ q ∧ m.client.Begins a b := by
    rcases served with ⟨u, q, b, hb, reads⟩ | ⟨id, q, b, hb, request⟩
    · rcases hp.mem_or_new hb with old | ⟨_, left⟩ | ⟨new, begins⟩
      · exact .inl (.inl ⟨u, q, b, old, reads⟩)
      · exact .inl (.inl ⟨u, p, a, hp.mem_before, (leaves_of_proceeds hp.proceeds left).of_reads reads⟩)
      · exact .inr ⟨u, q, b, hb, reads, new, begins⟩
    · rcases hp.mem_or_new hb with old | ⟨_, left⟩ | ⟨_, begins⟩
      · exact .inl (.inr ⟨id, q, b, old, request⟩)
      · exact .inl (.inr ⟨id, p, a, hp.mem_before, ((leaves_of_proceeds hp.proceeds left).of_answers request).1⟩)
      · obtain ⟨u, rfl⟩ := begins.of_answers request
        exact .inl (.inl ⟨u, p, _, hp.mem_before, rfl⟩)
  rcases hp.connected_or_connects sound connected with ⟨old, _⟩ | ⟨_, connects⟩
  · rcases before with served | ⟨u, q, b, hb, reads, new, begins⟩
    · exact fun fresh => h.served served old (converses.fresh fresh)
    · have there := (begins.of_reads reads).2
      rw [old] at there
      cases there
      exact hp.phaseOn_of_begins hE sound tidy mannered halting calm hx h hb new begins reads
  · -- Attempts connect no session whose server is served.
    obtain ⟨_, _, _, turn⟩ := connects.before
    have crowded := turn
    rw [hp.turn] at turn
    cases turn
    rcases before with served | ⟨_, _, _, _, reads, _, begins⟩
    · exact absurd (.crowded crowded served) (calm s)
    · cases (begins.of_reads reads).1

/-- What takes leave of a server is done once it has heard of the answer. -/
theorem framesOf_shutDownAnswered (s : SessionId) (o : Outcome) (c : Client) :
    framesOf (does E (shutDownAnswered s o) c).1 = [] := by
  refine List.eq_nil_iff_forall_not_mem.2 fun b => ?_
  have nothing : LeavesOut E b (shutDownAnswered s o) := by
    refine LeavesOut.bind fun x => ?_
    cases o with
    | ok v => exact LeavesOut.bind fun _ => leavesOut_done _
    | error f =>
      dsimp only
      split
      · exact LeavesOut.bind fun _ => LeavesOut.bind fun _ => leavesOut_done _
      · exact LeavesOut.bind fun _ => LeavesOut.bind fun _ => leavesOut_done _
  exact nothing c

/-- Where the last notification is written the transport is given up next. -/
theorem Proceeds.left (hE : E.IsTame) (sound : m.Sound) (tidy : m.Tidy) (mannered : m.Mannered)
    (halting : ∀ s, m.Halting s) (calm : ∀ s, ¬ m.Derails s) (hp : m.Proceeds m' p a rest o r c)
    (hx : does E (goOn a o) m.client = (r, c)) (h : m.WellSpoken)
    (connected : (m'.client.sessionAt s).transport = some t) (left : c.phaseOn t = some .left) :
    ∃ p a rest o, m'.turn = some ⟨p, a :: rest, o⟩ ∧ (a = .release s ∨ ∃ clear, a = .stopAnnounced s clear) := by
  have converses := (hp.converses hE sound tidy mannered halting calm hx h).1
  rcases hp.connected_or_connects sound connected with ⟨before, kept⟩ | ⟨new, connects⟩
  · -- Where it was written before, what was to give the transport up goes on to release it.
    have gone : m.client.phaseOn t = some .left →
        ∃ p a rest o, m'.turn = some ⟨p, a :: rest, o⟩ ∧ (a = .release s ∨ ∃ clear, a = .stopAnnounced s clear) := by
      intro left
      obtain ⟨_, _, _, _, turn, gives⟩ := h.left before left
      rw [hp.turn] at turn
      cases turn
      rcases gives with rfl | ⟨clear, rfl⟩
      · exact absurd rfl kept
      · obtain ⟨f, rfl⟩ := calls_of_stopAnnounced hp.proceeds
        exact ⟨_, _, _, _, hp.calls _ _ rfl, .inl rfl⟩
    cases converses with
    | quiet same => exact gone (by rw [← same, left])
    | @spoken x u q ph ph' may connected' here next turns now elsewhere =>
      by_cases e : t = u
      · subst e
        cases mannered.unshared connected' before
        rcases turns with finds | same
        · rw [left] at now
          have last := Option.some.inj now
          rw [← last] at next
          cases finds with
          | takesLeave =>
            -- What stops the session has called it.
            obtain ⟨clear, rest', rfl⟩ : ∃ clear rest', rest = .stopAnnounced s clear :: rest' := by
              have escorted := mannered.escorted p
              rw [hp.stack_before] at escorted
              exact escorted.1 s rfl
            have nothing : framesOf (does E (goOn (.shutDownAnswered s) o) m.client).1 = [] :=
              framesOf_shutDownAnswered s o m.client
            rw [hx] at nothing
            rcases ends_of_framesOf nothing with ⟨f, rfl⟩ | ⟨v, rfl⟩
            · exact ⟨_, _, _, _, hp.fails f rfl, .inr ⟨clear, rfl⟩⟩
            · exact ⟨_, _, _, _, hp.ends v rfl, .inr ⟨clear, rfl⟩⟩
          | _ => cases q <;> cases next
        · exact gone (by rw [here, ← same, ← now, left])
      · exact gone (by rw [← elsewhere t e, left])
  · obtain ⟨_, _, _, turn⟩ := connects.before
    rw [hp.turn] at turn
    cases turn
    have same := converses.same (fun _ _ _ may => by
      cases may with
      | answer never => cases never) t
    rw [same, phaseOn_of_size_le new] at left
    cases left

/-- Whatever goes on, conversations keep to the rules. -/
theorem Proceeds.wellSpoken (hE : E.IsTame) (sound : m.Sound) (tidy : m.Tidy) (mannered : m.Mannered)
    (halting : ∀ s, m.Halting s) (calm : ∀ s, ¬ m.Derails s) (hp : m.Proceeds m' p a rest o r c)
    (hx : does E (goOn a o) m.client = (r, c)) (h : m.WellSpoken) : m'.WellSpoken := by
  obtain ⟨converses, usable⟩ := hp.converses hE sound tidy mannered halting calm hx h
  have phases : ∀ t, m'.client.phaseOn t = c.phaseOn t := phaseOn_congr hp.transports
  constructor
  case usable =>
    intro s t running connected
    rw [phases]
    rw [hp.sessions] at running connected
    exact usable s t running connected
  case spoken =>
    intro s t connected
    rw [phases]
    refine converses.ne_none ?_
    rcases hp.connected_or_connects sound connected with ⟨before, _⟩ | ⟨new, _⟩
    · exact h.spoken before
    · rw [phaseOn_of_size_le new]
      nofun
  case finds =>
    intro q b s t ph hb finds connected
    rw [phases]
    exact hp.finds hE sound tidy mannered halting calm hx h hb finds connected
  case served =>
    intro s t served connected
    rw [phases]
    exact hp.served hE sound tidy mannered halting calm hx h served connected
  case left =>
    intro s t connected left
    rw [phases] at left
    exact hp.left hE sound tidy mannered halting calm hx h connected left

end

/-! ## Steps -/

/-- While a job concerns no task, users write. -/
theorem chats_runJob (hE : E.IsTame) (hc : c.Sound) {job : Job Event} (due : c.loop.IsDue notices none job)
    (idle : ∀ p o, ¬ job.RunsOn c.loop p o) : c.Chats (does E (runJob job) c).2 := by
  by_cases ends : ∃ s q, job = .notify (.answerEnded s q)
  · obtain ⟨s, q, rfl⟩ := ends
    exact chats_alter c s (fun _ => rfl) fun _ => rfl
  · exact (minorAt_runJob hE hc due idle fun s q e => ends ⟨s, q, e⟩).1.chats

/-- While no activity goes on, users write. -/
theorem Step.chats (hE : E.IsTame) (sound : m.Sound) (idle : ∀ t, m.turn = some t → t.stack = [])
    (next : Step E acts m m') : m.client.Chats m'.client := by
  cases next with
  | act tame => exact ((isMinor_runStep hE tame).minorAt _ sound.client).1.chats
  | clock now => exact chats_of_eq (fun _ => rfl) (fun _ => rfl) (Nat.le_refl _) fun _ => rfl
  | begin next runs => exact chats_of_eq (fun _ => rfl) (fun _ => rfl) (Nat.le_refl _) fun _ => rfl
  | @work c job l next alone =>
    have running : c.running = none := sound.running
    have w : c.loop.WF notices none := by
      rw [← running]
      exact sound.client.wf
    obtain ⟨w', promises, due, _⟩ := w.next? next
    have moves : c.loop.Moves IsRoot none l := Loop.moves_of_promises promises
    have taken : c.Chats { c with loop := l } :=
      chats_of_eq (fun _ => rfl) (fun _ => rfl) (Nat.le_refl _) fun _ => rfl
    have sound' : Client.Sound { c with loop := l } :=
      ⟨by rw [running]; exact w', sound.client.sessions, sound.client.alone.moves moves,
        fun x => (sound.client.registries x).moves moves⟩
    exact taken.trans (chats_runJob hE sound' due alone)
  | go goes => cases idle _ rfl
  | wait goes => cases idle _ rfl
  | finish => exact chats_of_eq (fun _ => rfl) (fun _ => rfl) (Nat.le_refl _) fun _ => rfl

/-- Whatever is written fits its purpose, and it is written on the transport of a session. -/
theorem Step.writes (hE : E.IsTame) (sound : m.Sound) (next : Step E acts m m') : m.client.Writes m'.client := by
  obtain ⟨_, _, passes | ⟨p, a, rest, o, r, c, hx, hp⟩⟩ := next.spec hE sound
  · exact writes_of_chatsOn (Step.chats hE sound passes.idle next).chatsOn
  · have written := (utters_goOn hE sound.client (sound.tame_of_turn hp.turn) o).writes
    rw [hx] at written
    intro t
    obtain ⟨ms, e, fits⟩ := written t
    refine ⟨ms, ?_, fun x hx => ?_⟩
    · rw [← e]
      unfold attemptsOn
      rw [hp.transports]
    · simp only [hp.sessions]
      exact fits x hx

/-- While no activity goes on, conversations keep to the rules. -/
theorem Passes.wellSpoken (passes : m.Passes m') (chats : m.client.Chats m'.client) (h : m.WellSpoken) :
    m'.WellSpoken := by
  have phases := chats.phaseOn h.usable
  constructor
  case usable => exact chats.usable h.usable
  case spoken =>
    intro s t connected
    rw [phases]
    rw [chats.transport] at connected
    exact h.spoken connected
  case finds =>
    intro q b s t ph hb finds connected
    rw [phases]
    rw [chats.transport] at connected
    rcases (passes.tasks q).mem hb with old | root
    · exact h.finds old finds connected
    · exact absurd finds (not_finds_of_begins (c := m.client) (a := .relay) (.root root))
  case served =>
    intro s t served connected
    rw [phases]
    rw [chats.transport] at connected
    refine h.served ?_ connected
    rcases served with ⟨u, q, b, hb, reads⟩ | ⟨id, q, b, hb, request⟩
    · rcases (passes.tasks q).mem hb with old | root
      · exact .inl ⟨u, q, b, old, reads⟩
      · rw [(root.free none).not_serves.1] at reads
        cases reads
    · rcases (passes.tasks q).mem hb with old | root
      · exact .inr ⟨id, q, b, old, request⟩
      · rw [(root.free none).not_serves.2] at request
        cases request
  case left =>
    intro s t connected left
    rw [phases] at left
    rw [chats.transport] at connected
    obtain ⟨_, _, _, _, turn, _⟩ := h.left connected left
    cases passes.idle _ turn

/-- As long as nothing breaks the rules, conversations keep to them, and go on from where they are. -/
theorem Step.wellSpoken (hE : E.IsTame) (sound : m.Sound) (tidy : m.Tidy) (mannered : m.Mannered)
    (halting : ∀ s, m.Halting s) (calm : ∀ s, ¬ m.Derails s) (h : m.WellSpoken) (next : Step E acts m m') :
    m'.WellSpoken ∧ ∀ t, m.client.phaseOn t ≠ none → m'.client.phaseOn t ≠ none := by
  obtain ⟨_, _, passes | ⟨p, a, rest, o, r, c, hx, hp⟩⟩ := next.spec hE sound
  · have chats := Step.chats hE sound passes.idle next
    refine ⟨passes.wellSpoken chats h, fun t some => ?_⟩
    rw [chats.phaseOn h.usable]
    exact some
  · refine ⟨hp.wellSpoken hE sound tidy mannered halting calm hx h, fun t some => ?_⟩
    rw [phaseOn_congr hp.transports]
    exact (hp.converses hE sound tidy mannered halting calm hx h).1.ne_none some

/-! ## Whole runs -/

theorem wellSpoken_of_isNew (new : c.IsNew) : WellSpoken ⟨c, none⟩ := by
  have unconnected : ∀ s, ((⟨c, none⟩ : Moment).client.sessionAt s).transport = none :=
    fun s => (sessionAt_of_isNew new s).2.2.1
  constructor
  case usable =>
    intro s t _ connected
    rw [unconnected] at connected
    cases connected
  case spoken =>
    intro s t connected
    rw [unconnected] at connected
    cases connected
  case finds =>
    intro p a s t ph _ _ connected
    rw [unconnected] at connected
    cases connected
  case served =>
    intro s t _ connected
    rw [unconnected] at connected
    cases connected
  case left =>
    intro s t connected
    rw [unconnected] at connected
    cases connected

/-- As long as nothing breaks the rules, conversations keep to them. -/
theorem Run.wellSpoken (hE : E.IsTame) (new : c.IsNew) (fresh : c.phaseOn t ≠ none)
    (run : Run E (fun m => ∀ s, ¬ m.Derails s) ⟨c, none⟩ acts m) :
    (∀ s, m.Halting s) ∧ m.Mannered ∧ m.WellSpoken ∧ m.client.phaseOn t ≠ none := by
  have sound := sound_of_isNew new
  induction run with
  | refl => exact ⟨halting_of_isNew new, mannered_of_isNew new, wellSpoken_of_isNew new, fresh⟩
  | step run calm next ih =>
    obtain ⟨halting, mannered, spoken, goes⟩ := ih
    have sound' := (run.spec hE sound).1
    have tidy := run.tidy hE sound (tidy_of_isNew new)
    obtain ⟨spoken', kept⟩ := next.wellSpoken hE sound' tidy mannered halting calm spoken
    exact ⟨fun s => next.halting hE sound' (halting s), next.mannered hE sound' tidy mannered, spoken', kept t goes⟩

/-- Messages fit their purposes. -/
theorem Run.fits (hE : E.IsTame) (sound : m.Sound) (before : ∀ x ∈ m.client.attemptsOn t, x.1.Fits x.2)
    (run : Run E P m acts m') : ∀ x ∈ m'.client.attemptsOn t, x.1.Fits x.2 := by
  induction run with
  | refl => exact before
  | step run _ next ih =>
    obtain ⟨ms, e, written⟩ := next.writes hE (run.spec hE sound).1 t
    intro x hx
    rw [e] at hx
    rcases List.mem_append.1 hx with old | new
    · exact ih x old
    · exact (written x new).1

/-- Once no session is connected to a transport, none ever is again, and nothing is written on it any more. -/
theorem Run.attemptsOn_of_released (hE : E.IsTame) (sound : m.Sound) (made : t < m.client.transports.size)
    (released : ∀ s, (m.client.sessionAt s).transport ≠ some t) (run : Run E P m acts m') :
    (∀ s, (m'.client.sessionAt s).transport ≠ some t) ∧ m'.client.attemptsOn t = m.client.attemptsOn t := by
  induction run with
  | refl => exact ⟨released, rfl⟩
  | @step _ _ m₁ m₂ run _ next ih =>
    obtain ⟨released, same⟩ := ih
    obtain ⟨sound', after⟩ := run.spec hE sound
    have still : ∀ s, (m₂.client.sessionAt s).transport ≠ some t := by
      intro s connected
      rcases next.reconnects hE sound' s with kept | none | ⟨u, there, connects⟩
      · exact released s (kept ▸ connected)
      · rw [none] at connected
        cases connected
      · rw [connected] at there
        cases there
        exact absurd connects.new (Nat.not_le_of_lt (Nat.lt_of_lt_of_le made after.grows))
    obtain ⟨ms, e, written⟩ := next.writes hE sound' t
    cases ms with
    | nil => exact ⟨still, by rw [e, List.append_nil, same]⟩
    | cons x ms =>
      obtain ⟨_, s, before | now⟩ := written x (List.mem_cons_self ..)
      · exact absurd before (released s)
      · exact absurd now (still s)

/-- Whatever is played to a new client, the messages that are written on a transport are those of as much of a whole
conversation as there was time for, unless a task goes on for too long or something breaks the rules. -/
theorem converses_of_played (new : c.IsNew) {steps : List LspClient.Step} (h : ∀ step ∈ steps, IsPlayable step)
    (blank : c.attemptsOn t = []) :
    ((∀ x ∈ (playedBy c steps).attemptsOn t, x.1.Fits x.2) ∧
      ∃ whole, IsConversation whole ∧ ((playedBy c steps).attemptsOn t).map (·.1) <+: whole) ∨
      Overlong (executor nesting) ⟨c, none⟩ (steps.flatMap actsOf) ∨
      Strays (executor nesting) (fun m => ∀ s, ¬ m.Derails s) ⟨c, none⟩ (steps.flatMap actsOf)
        ⟨playedBy c steps, none⟩ := by
  rcases leads_playedBy h c with run | overlong
  · rcases run.keeps_or_strays fun m => ∀ s, ¬ m.Derails s with calm | derails
    · left
      have tame := isTame_executor nesting
      have nothing : ∀ x ∈ c.attemptsOn t, x.1.Fits x.2 := by
        rw [blank]
        nofun
      have fresh : c.phaseOn t ≠ none := by
        unfold phaseOn
        rw [blank]
        nofun
      obtain ⟨_, _, _, goes⟩ := (calm.mono fun _ here => here.2).wellSpoken tame new fresh
      obtain ⟨ph, hph⟩ := Option.ne_none_iff_exists'.1 goes
      exact ⟨run.fits tame (sound_of_isNew new) nothing, isPrefix_of_phaseOf hph⟩
    · exact .inr (.inr derails)
  · exact .inr (.inl overlong)

end Moment

end LspClient
