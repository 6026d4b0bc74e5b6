/-
Messages that cannot be used are kept apart. That one came is shown once, as a record of telemetry, and if it answers a
pending request, that is rejected with the very fault of the message. Nothing else changes: no other request, no
state, no transport, and the reader reads on.
-/
import LspClient.Proofs.Client.Runs
import LspClient.Proofs.Client.Shown

namespace LspClient

open Telemetry (Record)

variable {E : Executor} {c c' : Client} {s : SessionId} {f : Fault}

namespace Client

/-! ## Definitions -/

/-- What the record of a message that cannot be used tells besides its session and what is wrong. -/
def refusalDetails (f : Fault) : List (String × Value) :=
  (match f with
    | .protocol _ (some code) _ _ => [("code", .int code)]
    | _ => []) ++
  match f.requestId? with
  | some id => [("request_id", id.toValue)]
  | none => []

/-- The pending request of a session that a fault names. -/
def named? (c : Client) (s : SessionId) (f : Fault) : Option (Pending CancelHook) :=
  f.requestId?.bind (c.sessionAt s).registry.find?

/-- A message that cannot be used is told of, and the request that it answers is rejected. -/
structure Refuses (c : Client) (s : SessionId) (f : Fault) (c' : Client) : Prop where
  same : c' = { c with
    notes := c'.notes, sink := c'.sink, files := c'.files, sessions := c'.sessions, loop := c'.loop }
  now : c'.loop.now = c.loop.now
  enabled : c'.sink.enabled = c.sink.enabled
  kinds : c'.kinds = c.kinds
  records : c'.records = c.records ++ List.replicate (c.echoes s) (c.protocolRecord s f.message (refusalDetails f))
  sessions : ∀ x, c'.sessionAt x = { c.sessionAt x with registry := (c'.sessionAt x).registry }
  others : ∀ x, x ≠ s → (c'.sessionAt x).registry = (c.sessionAt x).registry
  pending : (c'.sessionAt s).registry.pending =
    (c.sessionAt s).registry.pending.filter fun p => f.requestId? ≠ some p.id
  rejected : ∀ p, c.named? s f = some p →
    c'.loop.outcome? p.promise = some ((c.loop.outcome? p.promise).getD (.error f))
  untouched : ∀ q, (∀ p, c.named? s f = some p → p.promise ≠ q) → c'.loop.outcome? q = c.loop.outcome? q

/-! ## Settling -/

/-- The session whose requests have changed has those, if there is such a session, and the others are the same. -/
theorem sessionAt_withRequests (c : Client) (s x : SessionId) (r : Registry CancelHook) (l : Loop Activity Event) :
    (c.withRequests s r l).sessionAt x = c.sessionAt x ∧ (x = s → c.sessionAt s = default) ∨
      x = s ∧ (c.withRequests s r l).sessionAt x = { c.sessionAt x with registry := r } := by
  by_cases inside : x < c.sessions.size
  · rcases sessionAt_modify c s x fun y => { y with registry := r } with same | ⟨here, _, changed⟩
    · by_cases here : x = s
      · rw [← here]
        exact .inr ⟨rfl, sessionAt_modify_self c inside _⟩
      · exact .inl ⟨same, fun e => absurd e here⟩
    · exact .inr ⟨here, changed⟩
  · have nobody : ∀ {d : Client}, d.sessions.size = c.sessions.size → d.sessionAt x = default := by
      intro d count
      have outside : d.sessions.size ≤ x := count ▸ Nat.le_of_not_lt inside
      unfold sessionAt
      rw [Array.getElem?_eq_none outside]
      rfl
    have before : c.sessionAt x = default := nobody rfl
    refine .inl ⟨(nobody Array.size_modify).trans before.symm, ?_⟩
    rintro rfl
    exact before

/-- Reporting how a request was settled shows no record, and tells whether it was pending. -/
theorem does_reportSettlement (id : RequestId) (b : Registry.Settlement) (c : Client) :
    ∃ c', does E (reportSettlement id b) c = (.ok (b == .settled), c') ∧ c.Shows [] c' := by
  have logged : ∀ message, ∃ c', does E (do
      log .debug .registry message
      return false) c = (.ok false, c') ∧ c.Shows [] c' := by
    intro message
    obtain ⟨_, c', hx, shows⟩ := showsAt_log (E := E) .debug .registry message [] none c
    exact ⟨c', does_bind_of_ok hx _, shows⟩
  cases b with
  | settled => exact ⟨c, rfl, .refl c⟩
  | late => exact logged _
  | unknown => exact logged _

/-- A session has the requests that it has. -/
theorem withRequests_self (c : Client) (s : SessionId) : c.withRequests s (c.sessionAt s).registry c.loop = c := by
  have same : (c.sessions.modify s fun x => { x with registry := (c.sessionAt s).registry }) = c.sessions := by
    refine Array.ext_getElem? fun i => ?_
    rw [Array.getElem?_modify]
    split
    · next here =>
      rw [← here, sessionAt]
      cases c.sessions[s]? <;> rfl
    · rfl
  unfold withRequests
  rw [same]

/-- A request that is not pending cannot be settled. -/
theorem does_settleRequest_unknown (hc : c.Sound) {id : RequestId} (unknown : (c.sessionAt s).registry.find? id = none)
    (o : Outcome) : ∃ c', does E (settleRequest (.session s) id o) c = (.ok false, c') ∧ c.Shows [] c' := by
  have settled : ∃ b, b ≠ .settled ∧ does E (withRegistry (.session s) (Registry.settle id o)) c = (.ok b, c) := by
    rcases Registry.exec_settle (hc.registries s).room c.loop id o with ⟨p, found, _⟩ | ⟨p, found, _⟩ | ⟨_, hx⟩
    · cases found.symm.trans unknown
    · cases found.symm.trans unknown
    · refine ⟨if (c.sessionAt s).registry.wasCancelled id then .late else .unknown, ?_,
        (does_withRegistry s _ c).trans ?_⟩
      · split <;> simp
      · rw [hx]
        exact congrArg (Prod.mk _) (withRequests_self c s)
  obtain ⟨b, late, hx⟩ := settled
  obtain ⟨c', hy, shows⟩ := does_reportSettlement (E := E) id b c
  rw [beq_eq_false_iff_ne.2 late] at hy
  exact ⟨c', (does_bind_of_ok hx _).trans hy, shows⟩

/-- A request is settled, and only it. -/
theorem does_settleRequest (fit : (c.sessionAt s).registry.Fit c.loop) (id : RequestId) (o : Outcome) :
    ∃ b r l c', does E (settleRequest (.session s) id o) c = (.ok b, c') ∧
      (c.sessionAt s).registry.Settles id o c.loop r l ∧ (c.withRequests s r l).Shows [] c' := by
  obtain ⟨b, r, l, hx, settles⟩ := fit.settles id o
  obtain ⟨c', hy, shows⟩ := does_reportSettlement (E := E) id b (c.withRequests s r l)
  refine ⟨b == .settled, r, l, c', ?_, settles, shows⟩
  have settled : does E (withRegistry (.session s) (Registry.settle id o)) c = (.ok b, c.withRequests s r l) := by
    rw [does_withRegistry, hx]
    rfl
  exact (does_bind_of_ok settled _).trans hy

/-! ## Rejecting messages -/

theorem Shows.refuses (h : c.Shows (List.replicate (c.echoes s) (c.protocolRecord s f.message (refusalDetails f))) c')
    (none : f.requestId? = none) : c.Refuses s f c' := by
  have unnamed : c.named? s f = .none := by
    unfold named?
    rw [none]
    rfl
  refine ⟨?_, ?_, h.enabled, h.kinds, h.records, fun x => ?_, fun x _ => ?_, ?_, fun p hp => ?_, fun q _ => ?_⟩
  · rw [h.same]
  · rw [h.same]
  · rw [h.sessionAt]
  · rw [h.sessionAt]
  · rw [h.sessionAt, none]
    exact (List.filter_eq_self.2 fun _ _ => by simp).symm
  · rw [unnamed] at hp
    cases hp
  · rw [h.same]

theorem Shows.refuses_named {d : Client} {id : RequestId} {r : Registry CancelHook} {l : Loop Activity Event}
    (h : c.Shows (List.replicate (c.echoes s) (c.protocolRecord s f.message (refusalDetails f))) d)
    (named : f.requestId? = some id) (settles : (c.sessionAt s).registry.Settles id (.error f) c.loop r l)
    (h' : (d.withRequests s r l).Shows [] c') : c.Refuses s f c' := by
  have found : c.named? s f = (c.sessionAt s).registry.find? id := by
    unfold named?
    rw [named]
    rfl
  have session : ∀ x, c'.sessionAt x = c.sessionAt x ∧ (x = s → c.sessionAt s = default) ∨
      x = s ∧ c'.sessionAt x = { c.sessionAt x with registry := r } := by
    intro x
    rw [h'.sessionAt, ← h.sessionAt x, ← h.sessionAt s]
    exact sessionAt_withRequests d s x r l
  have loop : c'.loop = l := by
    rw [h'.same]
    rfl
  refine ⟨?_, ?_, h'.enabled.trans h.enabled, h'.kinds.trans h.kinds, ?_, fun x => ?_, fun x other => ?_, ?_,
    fun p hp => ?_, fun q other => ?_⟩
  · rw [h'.same]
    unfold withRequests
    rw [h.same]
  · rw [loop, settles.now]
  · rw [h'.records, List.append_nil]
    exact h.records
  · rcases session x with ⟨same, _⟩ | ⟨_, changed⟩
    · rw [same]
    · rw [changed]
  · rcases session x with ⟨same, _⟩ | ⟨here, _⟩
    · rw [same]
    · exact absurd here other
  · have pending : (c'.sessionAt s).registry.pending = r.pending := by
      rcases session s with ⟨same, nobody⟩ | ⟨_, changed⟩
      · -- Where there is no session there are no requests.
        rw [settles.pending, same, nobody rfl]
        rfl
      · rw [changed]
    rw [pending, settles.pending, named]
    simp [eq_comm]
  · rw [loop]
    exact settles.settled p (found ▸ hp)
  · rw [loop]
    exact settles.others q fun p hp => other p (found ▸ hp)

/-- A message that cannot be used is told of once, and the request that it answers, if that is pending, is rejected. -/
theorem refuses (hc : c.Sound) (discreet : c.Discreet s) (f : Fault) :
    ∃ c', does E (rejectBadMessage s f) c = (.ok (), c') ∧ c.Refuses s f c' := by
  obtain ⟨_, d, told, shows⟩ := showsAt_reportProtocolFault (E := E) discreet f.message (refusalDetails f)
  have first : does E (rejectBadMessage s f) c = does E (match f.requestId? with
      | some id => do
        let _ ← settleRequest (.session s) id (.error f)
      | none => pure ()) d := does_bind_of_ok told _
  rw [first]
  cases named : f.requestId? with
  | none => exact ⟨d, rfl, shows.refuses named⟩
  | some id =>
    have same : d.sessionAt s = c.sessionAt s := shows.sessionAt s
    have fit : (d.sessionAt s).registry.Fit d.loop := by
      rw [same, shows.same]
      exact hc.registries s
    obtain ⟨b, r, l, c', hx, settles, shows'⟩ := does_settleRequest (E := E) fit id (.error f)
    refine ⟨c', ?_, shows.refuses_named named ?_ shows'⟩
    · exact does_bind_of_ok hx _
    · rw [same, shows.same] at settles
      exact settles

/-! ## After a refusal -/

theorem Refuses.sessionAt_eq (h : c.Refuses s f c') (x : SessionId) :
    (c'.sessionAt x).settings = (c.sessionAt x).settings ∧
      (c'.sessionAt x).telemetryHandlers = (c.sessionAt x).telemetryHandlers := by
  rw [h.sessions x]
  exact ⟨rfl, rfl⟩

theorem Refuses.discreet (h : c.Refuses s f c') (discreet : c.Discreet s) : c'.Discreet s := by
  refine ⟨fun p => ?_, ?_⟩
  · rw [h.kinds]
    exact discreet.kept p
  · rw [(h.sessionAt_eq s).2]
    exact discreet.handlers

/-- What is told of a message does not depend on those that were refused before. -/
theorem Refuses.protocolRecord (h : c.Refuses s f c') (message : String) (properties : List (String × Value)) :
    List.replicate (c'.echoes s) (c'.protocolRecord s message properties) =
      List.replicate (c.echoes s) (c.protocolRecord s message properties) := by
  have settings := (h.sessionAt_eq s).1
  have name : (c'.sessionAt s).name = (c.sessionAt s).name := congrArg SessionSettings.name settings
  have echoes : c'.echoes s = c.echoes s := by
    unfold echoes recorders
    rw [settings, h.kinds, h.enabled]
  have time : c'.origin = c.origin ∧ c'.loop.now = c.loop.now := ⟨by rw [h.same], h.now⟩
  unfold Client.protocolRecord
  rw [echoes, name, time.1, time.2]

/-- A request that was rejected is not pending any more. -/
theorem Refuses.find?_eq_none (h : c.Refuses s f c') {id : RequestId} (named : f.requestId? = some id) :
    (c'.sessionAt s).registry.find? id = none := by
  refine List.find?_eq_none.2 fun p hp => ?_
  rw [h.pending, List.mem_filter, named] at hp
  simpa using Ne.symm (by simpa using hp.2)

/-- The record of telemetry for a response to a request that is not known. -/
def unknownResponse (c : Client) (s : SessionId) (id : RequestId) : Record :=
  c.protocolRecord s ("Response for unknown request id " ++ id.literal) [("request_id", id.toValue)]

/-- A response to a request that is not pending is logged. That is all if the request was cancelled, and a record is
sent otherwise. -/
theorem does_handleResponse_unknown (hc : c.Sound) {id : RequestId}
    (unknown : (c.sessionAt s).registry.find? id = none) (o : Outcome) :
    ∃ d, c.Shows [] d ∧ does E (handleResponse s id o) c = if (c.sessionAt s).registry.wasCancelled id then (.ok (), d)
      else does E (emitTelemetry s (c.unknownResponse s id)) d := by
  obtain ⟨d, hx, shows⟩ := does_settleRequest_unknown (E := E) hc unknown o
  have first : does E (handleResponse s id o) c = does E (do
      if !(← session s).registry.wasCancelled id then
        reportProtocolFault s ("Response for unknown request id " ++ id.literal) [("request_id", id.toValue)]) d :=
    does_bind_of_ok hx _
  rw [first, does_bind_of_ok (does_session s d), shows.sessionAt]
  cases (c.sessionAt s).registry.wasCancelled id with
  | true => exact ⟨d, shows, rfl⟩
  | false =>
    obtain ⟨d', shows', told⟩ := does_reportProtocolFault (E := E) s ("Response for unknown request id " ++ id.literal)
      [("request_id", id.toValue)] d
    have record : d.unknownResponse s id = c.unknownResponse s id := by
      unfold unknownResponse Client.protocolRecord
      rw [shows.sessionAt, shows.same]
    refine ⟨d', shows.trans shows', ?_⟩
    rw [← record]
    exact told

/-- A response to a request that is not pending changes nothing, and is told of unless the request was cancelled. -/
theorem showsAt_handleResponse (hc : c.Sound) (discreet : c.Discreet s) {id : RequestId}
    (unknown : (c.sessionAt s).registry.find? id = none) (o : Outcome) :
    ShowsAt E (if (c.sessionAt s).registry.wasCancelled id then [] else List.replicate (c.echoes s)
      (c.unknownResponse s id))
      (handleResponse s id o) c := by
  obtain ⟨d, shows, hx⟩ := does_handleResponse_unknown (E := E) hc unknown o
  unfold ShowsAt
  rw [hx]
  cases (c.sessionAt s).registry.wasCancelled id with
  | true => exact ⟨_, d, rfl, shows⟩
  | false =>
    obtain ⟨_, c', emitted, told⟩ := showsAt_emitTelemetry (E := E) (shows.discreet discreet) (c.unknownResponse s id)
    rw [shows.echoes] at told
    exact ⟨_, c', emitted, shows.trans told⟩

/-! ## Reading -/

/-- A body that is no message is refused. -/
theorem refuses_of_parse (hc : c.Sound) (discreet : c.Discreet s) {body : Octets}
    (parse : Message.parse (.octets body) (c.sessionAt s).settings.maxMessageSize = .error f)
    (malformed : f.isProtocol = true) :
    ∃ c', does E (handleBody s body) c = (.ok (), c') ∧ c.Refuses s f c' := by
  obtain ⟨c', hx, refuses⟩ := refuses (E := E) hc discreet f
  refine ⟨c', ?_, refuses⟩
  unfold handleBody handleMessage
  rw [does_bind_of_ok (does_session s c), parse]
  dsimp only
  rw [if_pos malformed]
  exact hx

/-- What a reader has received is refused: the transport has read no message, or what it has read is none. -/
def Refused (c : Client) (s : SessionId) (f : Fault) (o : Outcome) : Prop :=
  f.isProtocol = true ∧ (o = .error f ∨
    ∃ body, o = .ok (.bytes body) ∧ Message.parse (.octets body) (c.sessionAt s).settings.maxMessageSize = .error f)

/-- The reader reads on after what is refused. -/
theorem reads_on_of_refused (hc : c.Sound) (discreet : c.Discreet s) {o : Outcome} (refused : c.Refused s f o)
    (t : TransportId) :
    ∃ c', does E (readLoopReceived s t o) c = (.ok (.become (.readLoop s t)), c') ∧ c.Refuses s f c' := by
  obtain ⟨malformed, rfl | ⟨body, rfl, parse⟩⟩ := refused
  · obtain ⟨c', hx, refuses⟩ := refuses (E := E) hc discreet f
    refine ⟨c', ?_, refuses⟩
    unfold readLoopReceived
    dsimp only
    rw [if_pos malformed, does_bind_of_ok hx, does_pure]
  · obtain ⟨c', hx, refuses⟩ := refuses_of_parse (E := E) hc discreet parse malformed
    refine ⟨c', ?_, refuses⟩
    unfold readLoopReceived
    dsimp only
    rw [does_bind_of_ok (does_attempt_of_ok hx)]
    rfl

end Client

/-! ## Whole runs -/

namespace Moment

open Client

variable {P : Moment → Prop} {m m' m'' : Moment} {acts acts' : List LspClient.Step} {p : PromiseId} {t : TransportId}
  {rest : List Activity} {o : Outcome}

/-- What an activity becomes goes on next. -/
theorem Step.becomes (next : Step E acts m m') {a b : Activity} (turn : m.turn = some ⟨p, a :: rest, o⟩)
    (hx : does E (goOn a o) m.client = (.ok (.become b), c)) : m' = ⟨c, some ⟨p, b :: rest, .ok .null⟩⟩ := by
  have goes : ∀ {d : Client}, does E (goOn a o) d = (.ok (.become b), c) →
      does E (runActivity p a rest o) d = (.ok (some (b :: rest, .ok .null)), c) := by
    intro d hx
    obtain ⟨u, c', hy, leads⟩ := does_runActivity (E := E) p a rest o d
    rw [hx] at leads
    cases leads
    exact hy
  cases next with
  | go here =>
    cases turn
    cases here.symm.trans (goes hx)
    rfl
  | wait here =>
    cases turn
    cases here.symm.trans (goes hx)
  | finish => cases turn
  | act => cases turn
  | clock => cases turn
  | begin => cases turn
  | work => cases turn

/-- A reader that has received what is refused tells of it and reads on; but for the request that it answers, everything
is as before. -/
theorem Step.refuses (sound : m.Sound) (next : Step E acts m m')
    (turn : m.turn = some ⟨p, .readLoopReceived s t :: rest, o⟩) (discreet : m.client.Discreet s)
    (refused : m.client.Refused s f o) :
    m.client.Refuses s f m'.client ∧ m'.turn = some ⟨p, .readLoop s t :: rest, .ok .null⟩ := by
  obtain ⟨c, hx, refuses⟩ := reads_on_of_refused (E := E) sound.client discreet refused t
  rw [next.becomes turn hx]
  exact ⟨refuses, rfl⟩

/-- In every run, what a reader refuses rejects the request that it answers with its very fault, for good. -/
theorem rejected_of_refused (hE : E.IsTame) (new : c.IsNew) (run : Run E P ⟨c, none⟩ acts m) (next : Step E [] m m')
    (turn : m.turn = some ⟨p, .readLoopReceived s t :: rest, o⟩) (discreet : m.client.Discreet s)
    (refused : m.client.Refused s f o) (later : Run E P m' acts' m'') {q : Pending CancelHook}
    (named : m.client.named? s f = some q) (pending : m.client.loop.outcome? q.promise = none) :
    m''.client.loop.outcome? q.promise = some (.error f) ∧ q ∉ (m''.client.sessionAt s).registry.pending := by
  have sound := (run.spec hE (sound_of_isNew new)).1
  obtain ⟨refuses, _⟩ := next.refuses sound turn discreet refused
  obtain ⟨sound', _, _⟩ := next.spec hE sound
  have rejected := refuses.rejected q named
  rw [pending] at rejected
  have after := (later.spec hE sound').2
  refine ⟨after.outcome rejected, fun again => ?_⟩
  obtain ⟨id, named', found⟩ := Option.bind_eq_some_iff.1 named
  obtain ⟨before, same⟩ := Registry.mem_of_find? found
  -- It is not pending right after it, and its id is not given away again.
  rcases (after.ages s).fresh q again with still | ⟨n, later, e⟩
  · rw [refuses.pending, List.mem_filter, named', same] at still
    simp at still
  · obtain ⟨k, earlier, e'⟩ := (sound.client.sessions s).ids q before
    rw [refuses.sessions s] at later
    rw [e'] at e
    cases e
    exact absurd earlier (Nat.not_lt_of_le later)

end Moment

end LspClient
