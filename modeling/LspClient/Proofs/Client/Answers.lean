/-
Requests of servers are answered once. A task of its own answers each; it does nothing after that, so it sends one
message at most, with the id of the request, on the transport that its session has then. It sends none only if the
session has no transport left or something goes wrong. The message goes to where the request came from, as long as a
session connects to another transport only when nothing serves the server of the old one any more.
-/
import LspClient.Proofs.Client.Custody

namespace LspClient

open Client

/-- What became of a request of a server: the task that was to answer it, and the text that it sent, if it did. -/
structure Verdict where
  task : PromiseId
  session : SessionId
  id : RequestId
  sent : Option (TransportId × String)

/-- The text that was sent on a transport. -/
def Verdict.textOn (t : TransportId) (v : Verdict) : Option String :=
  v.sent.bind fun x => if x.1 = t then some x.2 else none

namespace Moment

variable {E : Executor} {P : Moment → Prop} {m m' m'' : Moment} {s : SessionId} {id : RequestId} {p : PromiseId}
  {t : TransportId} {acts acts' : List LspClient.Step} {log : List Verdict}

/-! ## Definitions -/

/-- A task is there to answer a request of the server of a session. -/
def Serves (s : SessionId) (id : RequestId) (p : PromiseId) (m : Moment) : Prop :=
  ∃ a ∈ m.stack p, a.answers = some (s, id)

/-- Tasks that answer requests have nothing to do after that, and sessions use transports that have been made. -/
structure Tidy (m : Moment) : Prop where
  last : ∀ p, ∀ a ∈ (m.stack p).dropLast, a.answers = none
  made : ∀ s t, (m.client.sessionAt s).transport = some t → t < m.client.transports.size

/-- A task is about to be done with a request that it cannot answer: its session has no transport, or the task fails. -/
def Mute (E : Executor) (s : SessionId) (p : PromiseId) (m : Moment) : Prop :=
  ∃ k o, m.turn = some ⟨p, [k], o⟩ ∧
    ((m.client.sessionAt s).transport = none ∨ ∃ f c, does E (goOn k o) m.client = (.error f, c))

/-- What a task that is done with a request has sent: one text on the transport of the session, or nothing, if it
cannot. -/
inductive Sends (E : Executor) (s : SessionId) (id : RequestId) (p : PromiseId) (m m' : Moment) :
    Option (TransportId × String) → Prop
  | text {t : TransportId} {text : String} (transport : (m.client.sessionAt s).transport = some t)
    (fits : Message.Answers id text) (written : m'.client.answersOn t = m.client.answersOn t ++ [text])
    (elsewhere : ∀ u, u ≠ t → m'.client.answersOn u = m.client.answersOn u) : Sends E s id p m m' (some (t, text))
  | nothing (same : ∀ u, m'.client.answersOn u = m.client.answersOn u) (mute : m.Mute E s p) : Sends E s id p m m' none

/-- What becomes of requests of servers in a step: those that are served still are, but for one at most that a task is
done with. -/
inductive Judges (E : Executor) (m m' : Moment) : List Verdict → Prop
  | nothing (same : ∀ t, m'.client.answersOn t = m.client.answersOn t)
    (serving : ∀ {s id p}, m.Serves s id p → m'.Serves s id p) : Judges E m m' []
  | done {p : PromiseId} {k : Activity} {o : Outcome} {s : SessionId} {id : RequestId}
    {sent : Option (TransportId × String)} (turn : m.turn = some ⟨p, [k], o⟩) (request : k.answers = some (s, id))
    (ends : m'.stack p = []) (others : ∀ {s id q}, q ≠ p → m.Serves s id q → m'.Serves s id q)
    (sends : m.Sends E s id p m' sent) :
    Judges E m m' [⟨p, s, id, sent⟩]

/-- A run, with what became of the requests of servers on the way, the oldest first. -/
inductive Logs (E : Executor) (P : Moment → Prop) (m : Moment) : List LspClient.Step → List Verdict → Moment → Prop
  | refl : Logs E P m [] [] m
  | step {done acts : List LspClient.Step} {log vs : List Verdict} {m' m'' : Moment} (logs : Logs E P m done log m')
    (here : P m') (next : Step E acts m' m'') (judges : m'.Judges E m'' vs) : Logs E P m (done ++ acts) (log ++ vs) m''

/-! ## Tidy moments -/

theorem answersOn_congr {c c' : Client} (same : c'.transports = c.transports) (t : TransportId) :
    c'.answersOn t = c.answersOn t := by
  unfold Client.answersOn Client.attemptsOn
  rw [same]

/-- What answers a request goes on to answer it, whatever else it might do. -/
theorem answers_of_proceeds {c c' : Client} {a : Activity} {o : Outcome} {r : Except Fault Next}
    (h : c.Proceeds a o r c') (request : a.answers = some (s, id)) : c.Answers s id r c' := by
  cases h with
  | steady _ _ kept => exact absurd (.inr (.inr (by simp [request]))) kept
  | count fails _ _ _ =>
    have never : a.answers = none := by cases a <;> first | rfl | cases fails
    rw [never] at request
    cases request
  | read reads _ _ _ =>
    have never : a.answers = none := by cases a <;> first | rfl | cases reads
    rw [never] at request
    cases request
  | answer mine answers =>
    rw [request] at mine
    cases mine
    exact answers
  | _ => cases request

/-- A step leaves what is tidy tidy. -/
theorem Step.tidy (hE : E.IsTame) (sound : m.Sound) (h : m.Tidy) (next : Step E acts m m') : m'.Tidy := by
  obtain ⟨_, after, passes | ⟨p, a, rest, o, r, c, _, hp⟩⟩ := next.spec hE sound
  · constructor
    · intro q b hb
      rcases passes.tasks q with same | ⟨_, x, _, new⟩
      · rw [same] at hb
        exact h.last q b hb
      · rw [new] at hb
        cases hb
    · intro s t connected
      rw [(passes.stays s).transport] at connected
      exact Nat.lt_of_lt_of_le (h.made s t connected) after.grows
  · constructor
    · intro q b hb
      by_cases hq : q = p
      · -- Only what answers a request leaves something that does, and only at the end of its task.
        rw [hq, hp.stack] at hb
        refine Classical.byContradiction fun request => ?_
        obtain ⟨⟨s, id⟩, request⟩ := Option.ne_none_iff_exists'.1 request
        have before := h.last p
        rw [stack_of_turn hp.turn] at before
        cases rest with
        | nil =>
          rw [List.append_nil] at hb
          obtain ⟨_, x, rfl, plain⟩ := (leaves_of_proceeds hp.proceeds (List.dropLast_subset _ hb)).of_answers request
          cases List.mem_singleton.1 hb
          rw [plain] at request
          cases request
        | cons y ys =>
          rw [List.dropLast_append_of_ne_nil (by simp)] at hb
          rcases List.mem_append.1 hb with left | behind
          · obtain ⟨mine, _⟩ := (leaves_of_proceeds hp.proceeds left).of_answers request
            rw [before a (by simp)] at mine
            cases mine
          · rw [before b (List.mem_cons_of_mem _ behind)] at request
            cases request
      · rcases hp.others q hq with same | ⟨_, x, _, new⟩
        · rw [same] at hb
          exact h.last q b hb
        · rw [new] at hb
          cases hb
    · intro s t connected
      rw [hp.sessions] at connected
      rw [hp.transports]
      rcases (alters_of_proceeds hp.proceeds).transport s with same | changed
      · rw [same] at connected
        exact Nat.lt_of_lt_of_le (h.made s t connected) (alters_of_proceeds hp.proceeds).goes.grows
      · cases changed with
        | released none _ =>
          rw [none] at connected
          cases connected
        | connected new made here =>
          rcases here with there | same
          · rw [connected] at there
            cases there
            exact made
          · rw [same] at connected
            exact Nat.lt_of_lt_of_le (h.made s t connected) (alters_of_proceeds hp.proceeds).goes.grows

theorem Run.tidy (hE : E.IsTame) (sound : m.Sound) (h : m.Tidy) (run : Run E P m acts m') : m'.Tidy := by
  induction run with
  | refl => exact h
  | step run _ next ih => exact next.tidy hE (run.spec hE sound).1 ih

theorem tidy_of_isNew {c : Client} (new : c.IsNew) : Tidy ⟨c, none⟩ := by
  constructor
  · intro p a ha
    rw [stack_of_isNew new] at ha
    cases ha
  · intro s t connected
    have none := (sessionAt_of_isNew new s).2.2.1
    rw [none] at connected
    cases connected

/-! ## Steps -/

/-- What becomes of requests of servers while an activity goes on. -/
theorem Proceeds.judges (sound : m.Sound) (tidy : m.Tidy) {a : Activity} {rest : List Activity} {o : Outcome}
    {r : Except Fault Next} {c : Client} (hp : m.Proceeds m' p a rest o r c)
    (hx : does E (goOn a o) m.client = (r, c)) :
    ∃ vs, m.Judges E m' vs := by
  have written : ∀ t, m'.client.answersOn t = c.answersOn t := answersOn_congr hp.transports
  -- All that tasks are in the middle of they still are, but for what goes on.
  have others : ∀ {s id q}, (q = p → a.answers ≠ some (s, id)) → m.Serves s id q → m'.Serves s id q := by
    rintro s id q other ⟨b, hb, request⟩
    rcases hp.mem_or_goes sound hb with still | ⟨hq, rfl⟩
    · exact ⟨b, still, request⟩
    · exact absurd request (other hq)
  cases ha : a.answers with
  | none =>
    refine ⟨[], .nothing (fun t => ?_) (others fun _ => by simp [ha])⟩
    rw [written]
    rcases (alters_of_proceeds hp.proceeds).answersOn with same | ⟨_, s, id, t, text, mine, _⟩
    · exact same t
    · rw [ha] at mine
      cases mine
  | some x =>
    obtain ⟨s, id⟩ := x
    -- Nothing is left to do behind it.
    obtain rfl : rest = [] := by
      refine Classical.byContradiction fun more => ?_
      have before := tidy.last p a
      rw [stack_of_turn hp.turn, List.dropLast_cons_of_ne_nil more, ha] at before
      cases before (List.mem_cons_self ..)
    have ends : framesOf r = [] → m'.stack p = [] := by
      intro nothing
      rw [hp.stack, nothing]
      rfl
    cases answers_of_proceeds hp.proceeds ha with
    | @waits b k _ still calls again =>
      refine ⟨[], .nothing (fun t => (written t).trans (still.answers t)) ?_⟩
      intro s' id' q serves
      by_cases mine : q = p ∧ a.answers = some (s', id')
      · obtain ⟨rfl, mine⟩ := mine
        rw [ha] at mine
        cases mine
        exact ⟨k, hp.mem_stack (List.mem_cons_of_mem _ (List.mem_cons_self ..)), again⟩
      · exact others (fun hq request => mine ⟨hq, request⟩) serves
    | @replies _ t text _ writes nothing =>
      have sends : m.Sends E s id p m' (some (t, text)) := by
        refine .text writes.transport writes.fits ?_ fun u other => ?_
        · rw [written, writes.written (tidy.made s t writes.transport)]
        · rw [written, writes.elsewhere u other]
      exact ⟨_, .done hp.turn ha (ends nothing) (fun hq => others fun e => absurd e hq) sends⟩
    | drops still nothing why =>
      have mute : m.Mute E s p := by
        refine ⟨a, o, hp.turn, ?_⟩
        rcases why with none | ⟨f, rfl⟩
        · exact .inl none
        · exact .inr ⟨f, c, hx⟩
      have sends : m.Sends E s id p m' none := .nothing (fun t => (written t).trans (still.answers t)) mute
      exact ⟨_, .done hp.turn ha (ends nothing) (fun hq => others fun e => absurd e hq) sends⟩

theorem Step.judges (hE : E.IsTame) (sound : m.Sound) (tidy : m.Tidy) (next : Step E acts m m') :
    ∃ vs, m.Judges E m' vs := by
  obtain ⟨_, _, passes | ⟨p, a, rest, o, r, c, hx, hp⟩⟩ := next.spec hE sound
  · refine ⟨[], .nothing passes.answers ?_⟩
    rintro s id p ⟨a, ha, request⟩
    exact ⟨a, passes.mem_stack sound ha, request⟩
  · exact hp.judges sound tidy hx

/-- A task that has ended is not taken up again. -/
theorem Step.stack_eq_nil (hE : E.IsTame) (sound : m.Sound) (next : Step E acts m m')
    (old : p < m.client.loop.promises.size) (ended : m.stack p = []) : m'.stack p = [] := by
  obtain ⟨_, _, passes | ⟨q, a, rest, o, r, c, _, hp⟩⟩ := next.spec hE sound
  · rw [(passes.tasks p).of_lt_size old, ended]
  · by_cases hq : p = q
    · rw [hq, stack_of_turn hp.turn] at ended
      cases ended
    · rw [(hp.others p hq).of_lt_size old, ended]

/-! ## Whole runs -/

theorem Logs.run (logs : Logs E P m acts log m') : Run E P m acts m' := by
  induction logs with
  | refl => exact .refl
  | step _ here next _ ih => exact ih.step here next

/-- Every run has a log. -/
theorem Run.logs (hE : E.IsTame) (sound : m.Sound) (tidy : m.Tidy) (run : Run E P m acts m') :
    ∃ log, Logs E P m acts log m' := by
  induction run with
  | refl => exact ⟨[], .refl⟩
  | step run here next ih =>
    obtain ⟨log, logs⟩ := ih
    obtain ⟨vs, judges⟩ := next.judges hE (run.spec hE sound).1 (run.tidy hE sound tidy)
    exact ⟨log ++ vs, logs.step here next judges⟩

/-- What is written on a transport to answer requests is what the log says. -/
theorem Logs.written (logs : Logs E P m acts log m') (t : TransportId) :
    m'.client.answersOn t = m.client.answersOn t ++ log.filterMap (Verdict.textOn t) := by
  induction logs with
  | refl => simp
  | step _ _ _ judges ih =>
    rw [List.filterMap_append, ← List.append_assoc, ← ih]
    cases judges with
    | nothing same _ => simp [same t]
    | done _ _ _ _ sends =>
      cases sends with
      | nothing same _ => simp [same t, Verdict.textOn]
      | @text u text _ _ written elsewhere =>
        by_cases ht : t = u
        · rw [ht, written]
          simp [Verdict.textOn]
        · rw [elsewhere t ht]
          simp [Verdict.textOn, Ne.symm ht]

/-- A task that is done with a request has ended. -/
theorem Logs.ended (hE : E.IsTame) (sound : m.Sound) (logs : Logs E P m acts log m') :
    ∀ v ∈ log, v.task < m'.client.loop.promises.size ∧ m'.stack v.task = [] := by
  induction logs with
  | refl => simp
  | step logs _ next judges ih =>
    have sound' := (logs.run.spec hE sound).1
    have size := (next.spec hE sound').2.1.size
    intro v hv
    rcases List.mem_append.1 hv with old | new
    · obtain ⟨inside, ended⟩ := ih v old
      exact ⟨Nat.lt_of_lt_of_le inside size, next.stack_eq_nil hE sound' inside ended⟩
    · cases judges with
      | nothing => cases new
      | @done p k _ _ _ _ turn _ ends _ _ =>
        cases List.mem_singleton.1 new
        have busy := sound'.unfinished (p := p) (a := k) (by rw [stack_of_turn turn]; exact List.mem_cons_self ..)
        exact ⟨Nat.lt_of_lt_of_le busy.1 size, ends⟩

/-- No task is done with a request twice. -/
theorem Logs.once (hE : E.IsTame) (sound : m.Sound) (logs : Logs E P m acts log m') : (log.map (·.task)).Nodup := by
  induction logs with
  | refl => simp
  | step logs _ next judges ih =>
    cases judges with
    | nothing =>
      rw [List.append_nil]
      exact ih
    | @done p k _ _ _ _ turn _ _ _ _ =>
      rw [List.map_append]
      refine List.nodup_append.2 ⟨ih, by simp, ?_⟩
      rintro q hq _ hp rfl
      cases List.mem_singleton.1 hp
      obtain ⟨v, hv, rfl⟩ := List.mem_map.1 hq
      -- It would have ended before, but it runs.
      have never := (logs.ended hE sound v hv).2
      rw [stack_of_turn turn] at never
      cases never

/-- A request that is served still is, or its task is done with it. -/
theorem Logs.serves (logs : Logs E P m acts log m') (serves : m.Serves s id p) :
    m'.Serves s id p ∨ ∃ v ∈ log, v.task = p ∧ v.session = s ∧ v.id = id := by
  induction logs with
  | refl => exact .inl serves
  | step _ _ _ judges ih =>
    rcases ih with serves | ⟨v, hv, mine⟩
    · cases judges with
      | nothing _ serving => exact .inl (serving serves)
      | @done q k _ _ _ _ turn request _ others _ =>
        by_cases hq : p = q
        · obtain ⟨b, hb, mine⟩ := serves
          rw [hq, stack_of_turn turn] at hb
          cases List.mem_singleton.1 hb
          rw [request] at mine
          cases mine
          exact .inr ⟨_, List.mem_append_right _ (List.mem_singleton.2 rfl), hq.symm, rfl, rfl⟩
        · exact .inl (others hq serves)
    · exact .inr ⟨v, List.mem_append_left _ hv, mine⟩

/-- What is sent for a request answers it. -/
theorem Logs.fits (logs : Logs E P m acts log m') :
    ∀ v ∈ log, ∀ t text, v.sent = some (t, text) → Message.Answers v.id text := by
  induction logs with
  | refl => simp
  | step _ _ _ judges ih =>
    intro v hv t text sent
    rcases List.mem_append.1 hv with old | new
    · exact ih v old t text sent
    · cases judges with
      | nothing => cases new
      | done _ _ _ _ sends =>
        cases List.mem_singleton.1 new
        cases sends with
        | text _ fits _ _ =>
          cases sent
          exact fits
        | nothing => cases sent

/-- If nothing is sent for a request, then its task could not answer it. -/
theorem Logs.mute (logs : Logs E P m acts log m') :
    ∀ v ∈ log, v.sent = none → Strays E (fun m => ¬ m.Mute E v.session v.task) m acts m' := by
  induction logs with
  | refl => simp
  | step logs _ next judges ih =>
    intro v hv unsent
    rcases List.mem_append.1 hv with old | new
    · exact (ih v old unsent).step next
    · cases judges with
      | nothing => cases new
      | done _ _ _ _ sends =>
        cases List.mem_singleton.1 new
        cases sends with
        | text => cases unsent
        | nothing _ mute =>
          rcases logs.run.keeps_or_strays _ with kept | strays
          · exact ((kept.mono fun _ h => h.2).strays (not_not_intro mute)).step next
          · exact strays.step next

/-- Whatever is played to a new client, the messages that answer requests of servers are those of tasks that are done
with their requests, one for each of them at most, with the id of its request, unless a task goes on for too long. A
task that sends none cannot. -/
theorem answered_of_played {c : Client} (new : c.IsNew) {steps : List LspClient.Step}
    (h : ∀ step ∈ steps, IsPlayable step) :
    (∃ log : List Verdict, (log.map (·.task)).Nodup ∧
      (∀ t, (playedBy c steps).answersOn t = c.answersOn t ++ log.filterMap (Verdict.textOn t)) ∧
      ∀ v ∈ log, (playedBy c steps).loop.stackOf v.task = [] ∧
        (∀ t text, v.sent = some (t, text) → Message.Answers v.id text) ∧
        (v.sent = none → Strays (executor nesting) (fun m => ¬ m.Mute (executor nesting) v.session v.task) ⟨c, none⟩
          (steps.flatMap actsOf) ⟨playedBy c steps, none⟩)) ∨
      Overlong (executor nesting) ⟨c, none⟩ (steps.flatMap actsOf) := by
  rcases leads_playedBy h c with run | overlong
  · have tame := isTame_executor nesting
    have sound := sound_of_isNew new
    obtain ⟨log, logs⟩ := run.logs tame sound (tidy_of_isNew new)
    exact .inl ⟨log, logs.once tame sound, logs.written, fun v hv =>
      ⟨(logs.ended tame sound v hv).2, logs.fits v hv, logs.mute v hv⟩⟩
  · exact .inr overlong

/-! ## Where requests come from -/

/-- A task reads the messages of the server of a session from a transport. -/
def Reads (s : SessionId) (t : TransportId) (p : PromiseId) (m : Moment) : Prop :=
  ∃ a ∈ m.stack p, a.reads = some (s, t)

/-- The reader of a transport receives a request of the server of its session, and lets a new task answer it. -/
structure Receives (s : SessionId) (t : TransportId) (id : RequestId) (p : PromiseId) (m m' : Moment) : Prop where
  reader : ∃ q rest o, m.turn = some ⟨q, .readLoopReceived s t :: rest, o⟩
  new : m.client.loop.promises.size ≤ p
  serves : m'.Serves s id p

/-- Attempts to start connect a session only when nothing serves the server of its old transport any more. -/
def Deserted (s : SessionId) (m : Moment) : Prop :=
  ∀ p rest v, m.turn = some ⟨p, .attemptReleased s :: rest, .ok v⟩ → (∀ t q, ¬ m.Reads s t q) ∧
    ∀ id q, ¬ m.Serves s id q

/-- A session is connected to no other transport than one. -/
def Faithful (s : SessionId) (t : TransportId) (m : Moment) : Prop :=
  (m.client.sessionAt s).transport = some t ∨ (m.client.sessionAt s).transport = none

/-- A task that serves a request has done so before, or it begins to when the request is received. -/
theorem Step.serves_or_receives (hE : E.IsTame) (sound : m.Sound) (next : Step E acts m m') (h : m'.Serves s id p) :
    m.Serves s id p ∨ ∃ t, m.Receives s t id p m' := by
  obtain ⟨b, hb, request⟩ := h
  obtain ⟨_, _, passes | ⟨q, a, rest, o, r, c, _, hp⟩⟩ := next.spec hE sound
  · rcases (passes.tasks p).mem hb with before | root
    · exact .inl ⟨b, before, request⟩
    · rw [(root.free none).not_serves.2] at request
      cases request
  · rcases hp.mem_or_new hb with before | ⟨rfl, left⟩ | ⟨new, begins⟩
    · exact .inl ⟨b, before, request⟩
    · exact .inl ⟨a, hp.mem_before, ((leaves_of_proceeds hp.proceeds left).of_answers request).1⟩
    · obtain ⟨t, rfl⟩ := begins.of_answers request
      exact .inr ⟨t, ⟨q, rest, o, hp.turn⟩, new, b, hb, request⟩

/-- A task that reads from a transport has done so before, or its session is connected to it. -/
theorem Step.reads_or_connected (hE : E.IsTame) (sound : m.Sound) (next : Step E acts m m') (h : m'.Reads s t p) :
    m.Reads s t p ∨ (m'.client.sessionAt s).transport = some t := by
  obtain ⟨b, hb, reading⟩ := h
  obtain ⟨_, _, passes | ⟨q, a, rest, o, r, c, _, hp⟩⟩ := next.spec hE sound
  · rcases (passes.tasks p).mem hb with before | root
    · exact .inl ⟨b, before, reading⟩
    · rw [(root.free none).not_serves.1] at reading
      cases reading
  · rcases hp.mem_or_new hb with before | ⟨rfl, left⟩ | ⟨_, begins⟩
    · exact .inl ⟨b, before, reading⟩
    · exact .inl ⟨a, hp.mem_before, (leaves_of_proceeds hp.proceeds left).of_reads reading⟩
    · obtain ⟨rfl, connected⟩ := begins.of_reads reading
      right
      rw [hp.sessions]
      rcases (alters_of_proceeds hp.proceeds).transport s with same | changed
      · rw [same, connected]
      · cases changed

/-- As long as something serves its server, a session is connected to no other transport. -/
theorem Step.faithful (hE : E.IsTame) (sound : m.Sound) (deserted : m.Deserted s) (next : Step E acts m m')
    (served : (∃ t q, m.Reads s t q) ∨ ∃ id q, m.Serves s id q) (h : m.Faithful s t) : m'.Faithful s t := by
  rcases next.reconnects hE sound s with same | none | ⟨u, _, connects⟩
  · unfold Faithful
    rw [same]
    exact h
  · exact .inr none
  · obtain ⟨p, rest, v, turn⟩ := connects.before
    obtain ⟨unread, unserved⟩ := deserted p rest v turn
    rcases served with ⟨t, q, reads⟩ | ⟨id, q, serves⟩
    · exact absurd reads (unread t q)
    · exact absurd serves (unserved id q)

/-- The readers of a session read from no transport but its own. -/
theorem faithful_of_reads (hE : E.IsTame) {c : Client} (new : c.IsNew) (run : Run E (Deserted s) ⟨c, none⟩ acts m)
    (reads : m.Reads s t p) : m.Faithful s t := by
  induction run generalizing t p with
  | refl =>
    obtain ⟨a, ha, _⟩ := reads
    rw [stack_of_isNew new] at ha
    cases ha
  | step run here next ih =>
    have sound := (run.spec hE (sound_of_isNew new)).1
    rcases next.reads_or_connected hE sound reads with before | connected
    · exact next.faithful hE sound here (.inl ⟨t, p, before⟩) (ih before)
    · exact .inl connected

/-- While a request is served, its session is connected to no transport but the one on which it was received. -/
theorem faithful_of_received (hE : E.IsTame) {c : Client} (new : c.IsNew) (run : Run E (Deserted s) ⟨c, none⟩ acts m)
    (here : m.Deserted s) (next : Step E acts' m m') (received : m.Receives s t id p m') {later : List LspClient.Step}
    (run' : Run E (Deserted s) m' later m'') (serves : m''.Serves s id p) : m''.Faithful s t := by
  have sound := (run.spec hE (sound_of_isNew new)).1
  have sound' := (next.spec hE sound).1
  induction run' with
  | refl =>
    obtain ⟨q, rest, o, turn⟩ := received.reader
    have reads : m.Reads s t q := ⟨.readLoopReceived s t, by rw [stack_of_turn turn]; exact List.mem_cons_self .., rfl⟩
    exact next.faithful hE sound here (.inl ⟨t, q, reads⟩) (faithful_of_reads hE new run reads)
  | step run' here' next' ih =>
    obtain ⟨sound₁, after⟩ := run'.spec hE sound'
    rcases next'.serves_or_receives hE sound₁ serves with before | ⟨_, again⟩
    · exact next'.faithful hE sound₁ here' (.inr ⟨id, p, before⟩) (ih before)
    · -- The task is not a new one.
      obtain ⟨b, hb, _⟩ := received.serves
      exact absurd again.new (Nat.not_le_of_lt (Nat.lt_of_lt_of_le (sound'.unfinished hb).1 after.size))

/-- A request is answered on the transport on which it was received, if sessions connect to another one only when
nothing serves the server of the old one any more. -/
theorem eq_of_received (hE : E.IsTame) {c : Client} (new : c.IsNew) (run : Run E (Deserted s) ⟨c, none⟩ acts m)
    (here : m.Deserted s) (next : Step E acts' m m') (received : m.Receives s t id p m') {later : List LspClient.Step}
    (run' : Run E (Deserted s) m' later m'') {last : Moment} {u : TransportId} {text : String}
    (judges : m''.Judges E last [⟨p, s, id, some (u, text)⟩]) : u = t := by
  cases judges with
  | done turn request _ _ sends =>
    have serves : m''.Serves s id p := ⟨_, by rw [stack_of_turn turn]; exact List.mem_cons_self .., request⟩
    cases sends with
    | text connected _ _ _ =>
      rcases faithful_of_received hE new run here next received run' serves with same | none
      · rw [connected] at same
        exact Option.some.inj same
      · rw [connected] at none
        cases none

end Moment

end LspClient
