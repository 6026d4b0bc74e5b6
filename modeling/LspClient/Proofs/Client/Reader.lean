/-
What the reader of a session survives. Handling a message does not fail, so the reader reads on, with
three exceptions: a handler is cancelled, a number in the message has too many digits, or the message
is for the output channel and its kind is a list or an object.
-/
import LspClient.Proofs.Client.Serving

namespace LspClient

variable {E : Executor} {α β : Type} {c : Client}

/-! ## Definitions -/

/-- An operation that fails only with some faults. -/
structure FailsOnly (E : Executor) (Q : Fault → Prop) (op : ClientM α) : Prop where
  sound : ∀ {c}, c.Sound → (does E op c).2.Sound
  fault : ∀ {c f c'}, c.Sound → does E op c = (.error f, c') → Q f

/-- Cancelling is the only fault. -/
def Cancels (f : Fault) : Prop :=
  f.isCancellation = true

namespace Client

/-- How a message body may stop the reader of a session. -/
inductive StopsReader (x : Session) (body : Octets) : Fault → Prop
  | cancelled {f : Fault} (cancels : Cancels f) : StopsReader x body f
  | oversized {wording : String}
    (parse : Message.parse (.octets body) x.settings.maxMessageSize = .error (.invalid wording))
    (read : (Message.Body.octets body).read = .error (.oversized wording)) : StopsReader x body (.invalid wording)
  | unhashable {method : String} {members : List (String × Value)}
    (parse : Message.parse (.octets body) x.settings.maxMessageSize = .ok (.notification method (.object members)))
    (shown : Session.outputMethods.contains method = true) (hasOutput : x.settings.hasOutput = true)
    (kind : ((Value.lookup "type" members).getD .null).isHashable = false) :
    StopsReader x body (.type "unhashable type")

end Client

/-! ## Putting operations together -/

section

variable {Q Q' : Fault → Prop}

theorem FailsOnly.weaken {op : ClientM α} (h : FailsOnly E Q op) (w : ∀ f, Q f → Q' f) : FailsOnly E Q' op :=
  ⟨h.sound, fun hc hx => w _ (h.fault hc hx)⟩

theorem failsOnly_pure (a : α) : FailsOnly E Q (pure a) :=
  ⟨id, fun _ hx => by cases hx⟩

theorem failsOnly_throw {f : Fault} (h : Q f) : FailsOnly E Q (throw f : ClientM α) :=
  ⟨id, fun _ hx => by cases hx; exact h⟩

theorem FailsOnly.bind {x : ClientM α} {f : α → ClientM β} (h : FailsOnly E Q x) (hf : ∀ a, FailsOnly E Q (f a)) :
    FailsOnly E Q (x >>= f) := by
  constructor
  · intro c hc
    have sound := h.sound hc
    rw [does_bind]
    rcases hx : does E x c with ⟨e | a, d⟩
    · rw [hx] at sound
      exact sound
    · rw [hx] at sound
      exact (hf a).sound sound
  · intro c e c' hc he
    have sound := h.sound hc
    rw [does_bind] at he
    rcases hx : does E x c with ⟨e' | a, d⟩
    · rw [hx] at he
      cases he
      exact h.fault hc hx
    · rw [hx] at he sound
      exact (hf a).fault sound he

theorem FailsOnly.tryCatch {x : ClientM α} {f : Fault → ClientM α} (h : FailsOnly E Q' x)
    (hf : ∀ e, FailsOnly E Q (f e)) : FailsOnly E Q (tryCatch x f) := by
  constructor
  · intro c hc
    have sound := h.sound hc
    rw [does_tryCatch]
    rcases hx : does E x c with ⟨e | a, d⟩
    · rw [hx] at sound
      exact (hf e).sound sound
    · rw [hx] at sound
      exact sound
  · intro c e c' hc he
    have sound := h.sound hc
    rw [does_tryCatch] at he
    rcases hx : does E x c with ⟨e' | a, d⟩
    · rw [hx] at he sound
      exact (hf e').fault sound he
    · rw [hx] at he
      cases he

theorem IsMinor.failsOnly {op : ClientM α} (h : IsMinor E op)
    (fault : ∀ {c f c'}, c.Sound → does E op c = (.error f, c') → Q f) :
    FailsOnly E Q op :=
  ⟨fun hc => (h.minorAt _ hc).2, fault⟩

theorem IsMinor.fails {op : ClientM α} (h : IsMinor E op) : FailsOnly E (fun _ => True) op :=
  h.failsOnly fun _ _ => trivial

/-- Whatever fails, an attempt at it fails only if it is cancelled. -/
theorem FailsOnly.attempt {op : ClientM α} (h : FailsOnly E Q op) : FailsOnly E Cancels (Client.attempt op) := by
  refine FailsOnly.tryCatch (h.bind fun a => failsOnly_pure _) fun e => ?_
  split
  · next cancels => exact failsOnly_throw cancels
  · exact failsOnly_pure _

theorem FailsOnly.foldlM {f : β → α → ClientM β} {as : List α} (h : ∀ b, ∀ a ∈ as, FailsOnly E Q (f b a)) (b : β) :
    FailsOnly E Q (as.foldlM f b) := by
  induction as generalizing b with
  | nil => exact failsOnly_pure _
  | cons a as ih =>
    rw [List.foldlM_cons]
    exact (h b a (List.mem_cons_self ..)).bind fun b => ih (fun b a ha => h b a (List.mem_cons_of_mem _ ha)) b

theorem FailsOnly.forIn {f : α → β → ClientM (ForInStep β)} (h : ∀ a b, FailsOnly E Q (f a b)) (as : List α) (b : β) :
    FailsOnly E Q (forIn as b f) := by
  induction as generalizing b with
  | nil => exact failsOnly_pure _
  | cons a as ih =>
    rw [List.forIn_cons]
    refine (h a b).bind fun r => ?_
    split
    · exact failsOnly_pure _
    · exact ih _

end

namespace Client

variable {Q : Fault → Prop}

/-! ## Calls that do not fail -/

theorem failsOnly_get : FailsOnly E Q (get : ClientM Client) :=
  ⟨id, fun _ hx => by cases hx⟩

theorem failsOnly_session (s : SessionId) : FailsOnly E Q (session s) :=
  failsOnly_get.bind fun _ => failsOnly_pure _

theorem failsOnly_time : FailsOnly E Q time :=
  failsOnly_get.bind fun _ => failsOnly_pure _

theorem failsOnly_note (n : Note) : FailsOnly E Q (note n) :=
  (isMinor_note n).failsOnly fun _ hx => by cases hx

theorem failsOnly_log (level : Log.Level) (source : Log.Source) (message : String) (fields : List (String × Value))
    (fault : Option Fault) : FailsOnly E Q (log level source message fields fault) :=
  failsOnly_get.bind fun _ => failsOnly_note _

theorem failsOnly_recordOf (event : String) (properties : List (String × Value)) :
    FailsOnly E Q (recordOf event properties) :=
  failsOnly_time.bind fun _ => failsOnly_pure _

/-- What fails in a backend is logged. -/
theorem failsOnly_send (r : Telemetry.Record) : FailsOnly E Cancels (send r) := by
  refine failsOnly_get.bind fun _ => ?_
  split
  · refine failsOnly_get.bind fun _ => FailsOnly.bind (FailsOnly.forIn (fun index _ => ?_) _ _) fun _ =>
      failsOnly_pure _
    refine failsOnly_get.bind fun _ => ?_
    split
    · exact (failsOnly_pure _).bind fun _ => failsOnly_pure _
    · refine (isMinor_emitTo index _ r).fails.attempt.bind fun _ => ?_
      split
      · exact (failsOnly_pure _).bind fun _ => failsOnly_pure _
      · exact (failsOnly_log ..).bind fun _ => failsOnly_pure _
  · exact failsOnly_pure _

theorem failsOnly_showLine (text : String) : FailsOnly E Cancels (showLine text) := by
  refine failsOnly_get.bind fun _ => ?_
  split
  · exact failsOnly_pure _
  · next channel _ =>
    have changes : FailsOnly E Cancels (modify fun c => { c with output := some (channel.append text) }) := by
      refine IsMinor.failsOnly (isMinor_modify fun _ => ⟨rfl, rfl, rfl, rfl, rfl⟩) ?_
      intro c f c' _ hx
      cases hx
    refine changes.bind fun _ => (failsOnly_log ..).bind fun _ => (failsOnly_note _).bind fun _ => ?_
    split
    · exact (failsOnly_recordOf _ _).bind fun _ => failsOnly_send _
    · exact failsOnly_pure _

/-! ## Calling handlers -/

/-- What fails in a handler is reported. -/
theorem failsOnly_dispatchIn (hE : E.IsTame) {r : Router Handler} (tame : ∀ h ∈ r.all, h.IsTame) (name method : String)
    (argument : Display) {report : Fault → ClientM Unit} (hr : ∀ f, IsMinor E (report f)) :
    FailsOnly E Cancels (dispatchIn r name method argument report) := by
  refine FailsOnly.foldlM (fun completed h hh => ?_) _
  have calls := isMinor_callHandler hE argument (tame h (handlers_subset_all r method hh))
  refine FailsOnly.tryCatch (calls.fails.bind fun _ => failsOnly_pure _) fun f => ?_
  split
  · next cancels => exact failsOnly_throw cancels
  · refine FailsOnly.bind ((failsOnly_log ..).bind fun _ => (hr f).fails.attempt.bind fun _ => ?_) fun _ =>
      failsOnly_pure _
    split
    · exact failsOnly_pure _
    · exact failsOnly_log ..

theorem failsOnly_dispatchSession (hE : E.IsTame) (s : SessionId) (topic : Topic) (name method : String)
    (argument : Display) {report : Fault → ClientM Unit} (hr : ∀ f, IsMinor E (report f)) :
    FailsOnly E Cancels (do let _ ← dispatchIn ((← session s).router topic) name method argument report) := by
  refine (isMinor_dispatchSession hE s topic name method argument hr).failsOnly fun {c f c'} hc hx => ?_
  have calls := failsOnly_dispatchIn hE ((hc.sessions s).tame topic) name method argument hr
  rw [does_bind_of_ok (does_session s c)] at hx
  exact (calls.bind fun _ => failsOnly_pure _).fault hc hx

theorem failsOnly_emitTelemetry (hE : E.IsTame) (s : SessionId) (r : Telemetry.Record) :
    FailsOnly E Cancels (emitTelemetry s r) := by
  have calls := failsOnly_dispatchSession hE s .telemetry "telemetry" Session.telemetryTopic (.value r.toValue)
    fun _ => isMinor_pure ()
  refine (failsOnly_session s).bind fun _ => ?_
  split
  · exact (failsOnly_send r).bind fun _ => calls
  · exact calls

theorem failsOnly_dispatchNotification (hE : E.IsTame) (s : SessionId) (method : String) (params : Value) :
    FailsOnly E Cancels (dispatchNotification s method params) :=
  failsOnly_dispatchSession hE s .notification _ _ _ fun f => isMinor_reportHandlerFault hE s method f

theorem failsOnly_reportProtocolFault (hE : E.IsTame) (s : SessionId) (message : String)
    (properties : List (String × Value)) : FailsOnly E Cancels (reportProtocolFault s message properties) :=
  (failsOnly_session s).bind fun _ => ((failsOnly_session s).bind fun _ => failsOnly_log ..).bind fun _ =>
    (failsOnly_recordOf _ _).bind fun _ => failsOnly_emitTelemetry hE s _

/-! ## Handling messages -/

theorem failsOnly_settleRequest (s : SessionId) (id : RequestId) (o : Outcome) :
    FailsOnly E Q (settleRequest (.session s) id o) := by
  have settles : FailsOnly E Q (withRegistry (.session s) (Registry.settle id o)) := by
    refine (isMinor_withRegistry (Registry.isQuiet_settle id o) (Registry.isDeed_settle id o)).failsOnly
      fun {c f c'} hc hx => ?_
    rw [does_withRegistry] at hx
    rcases Registry.exec_settle (hc.registries s).room c.loop id o with ⟨_, _, _, e⟩ | ⟨_, _, _, e⟩ | ⟨_, e⟩ <;>
      rw [e] at hx <;> cases hx
  refine settles.bind fun settlement => ?_
  cases settlement with
  | settled => exact failsOnly_pure _
  | late => exact (failsOnly_log ..).bind fun _ => failsOnly_pure _
  | unknown => exact (failsOnly_log ..).bind fun _ => failsOnly_pure _

theorem failsOnly_rejectBadMessage (hE : E.IsTame) (s : SessionId) (f : Fault) :
    FailsOnly E Cancels (rejectBadMessage s f) := by
  refine (failsOnly_reportProtocolFault hE s _ _).bind fun _ => ?_
  split
  · exact (failsOnly_settleRequest _ _ _).bind fun _ => failsOnly_pure _
  · exact failsOnly_pure _

theorem failsOnly_handleResponse (hE : E.IsTame) (s : SessionId) (id : RequestId) (o : Outcome) :
    FailsOnly E Cancels (handleResponse s id o) := by
  refine (failsOnly_settleRequest _ _ _).bind fun _ => (failsOnly_session s).bind fun _ => ?_
  split
  · exact failsOnly_reportProtocolFault hE s _ _
  · exact failsOnly_pure _

theorem failsOnly_handleRequest (s : SessionId) (id : RequestId) (method : String) (params : Value) :
    FailsOnly E Q (handleRequest s id method params) :=
  ⟨fun {c} hc => (stillAt_handleRequest c hc s 0 id method params).2, fun _ hx => by cases hx⟩

/-- A line for the output channel is shown, if there is one. -/
theorem failsOnly_showMessage (params : Value) :
    FailsOnly E (fun f => Cancels f ∨ ∃ clock, Session.outputLine clock params = .error f) (showMessage params) := by
  refine failsOnly_time.bind fun now => ?_
  split
  · exact (failsOnly_showLine _).weaken fun _ => .inl
  · next e => exact failsOnly_throw (.inr ⟨_, e⟩)

/-- Only messages whose kind is a list or an object cannot be shown. -/
theorem outputLine_eq_error {clock : String} {params : Value} {f : Fault}
    (h : Session.outputLine clock params = .error f) :
    ∃ members, params = .object members ∧ ((Value.lookup "type" members).getD .null).isHashable = false ∧
      f = .type "unhashable type" := by
  unfold Session.outputLine at h
  split at h
  · next members =>
    dsimp only at h
    split at h
    · cases h
    · next unhashable =>
      cases h
      exact ⟨members, rfl, Bool.eq_false_iff.2 unhashable, rfl⟩
  · cases h

theorem fault_of_handleNotification (hE : E.IsTame) (hc : c.Sound) {s : SessionId} {method : String} {params : Value}
    {f : Fault} {c' : Client} (h : does E (handleNotification s method params) c = (.error f, c')) :
    Cancels f ∨ (Session.outputMethods.contains method = true ∧ (c.sessionAt s).settings.hasOutput = true ∧
      ∃ clock, Session.outputLine clock params = .error f) := by
  have calls := failsOnly_dispatchNotification hE s method params
  unfold handleNotification at h
  split at h
  · left
    have emits : FailsOnly E Cancels _ := failsOnly_time.bind fun now =>
      (failsOnly_emitTelemetry hE s (.ofPayload params (timestamp now))).bind fun _ => calls
    exact emits.fault hc h
  · rw [does_bind_of_ok (does_session s c)] at h
    split at h
    · next shown =>
      obtain ⟨output, channel⟩ := Bool.and_eq_true_iff.1 shown
      have shows := (failsOnly_showMessage (E := E) params).bind fun _ => calls.weaken fun _ => .inl
      rcases shows.fault hc h with cancels | unhashable
      · exact .inl cancels
      · exact .inr ⟨output, channel, unhashable⟩
    · exact .inl (calls.fault hc h)

/-! ## Parsing -/

theorem isProtocol_of_ofCall {data : List (String × Value)} {method : Value} {f : Fault}
    (h : Message.ofCall data method = .error f) : f.isProtocol = true := by
  unfold Message.ofCall at h
  dsimp only at h
  repeat' split at h
  all_goals cases h
  all_goals rfl

theorem isProtocol_of_ofResponse {data : List (String × Value)} {id : Value} {f : Fault}
    (h : Message.ofResponse data id = .error f) : f.isProtocol = true := by
  unfold Message.ofResponse at h
  repeat' split at h
  all_goals cases h
  all_goals rfl

/-- Whatever is wrong with a JSON value as a message is a fault in the message. -/
theorem isProtocol_of_ofValue {v : Value} {f : Fault} (h : Message.ofValue v = .error f) : f.isProtocol = true := by
  unfold Message.ofValue at h
  split at h
  · split at h
    · split at h
      · exact isProtocol_of_ofCall h
      · split at h
        · exact isProtocol_of_ofResponse h
        · cases h
          rfl
      · cases h
        rfl
    · cases h
      rfl
  · cases h
    rfl

/-- What cannot be parsed is malformed, or a number in it has too many digits. -/
theorem parse_eq_error {body : Message.Body} {limit : Number} {f : Fault} (h : Message.parse body limit = .error f) :
    f.isProtocol = true ∨ ∃ wording, body.read = .error (.oversized wording) ∧ f = .invalid wording := by
  unfold Message.parse at h
  split at h
  · cases h
    exact .inl rfl
  · split at h
    · cases h
      exact .inl rfl
    · next wording read =>
      cases h
      exact .inr ⟨wording, read, rfl⟩
    · exact .inl (isProtocol_of_ofValue h)

/-! ## The reader -/

/-- Handling a message body fails only as it may. -/
theorem fault_of_handleBody (hE : E.IsTame) (hc : c.Sound) {s : SessionId} {body : Octets} {f : Fault} {c' : Client}
    (h : does E (handleBody s body) c = (.error f, c')) : StopsReader (c.sessionAt s) body f := by
  have first : does E (handleBody s body) c =
      does E (handleMessage s (Message.parse (.octets body) (c.sessionAt s).settings.maxMessageSize)) c :=
    does_bind_of_ok (does_session s c) _
  rw [first] at h
  cases hm : Message.parse (.octets body) (c.sessionAt s).settings.maxMessageSize with
  | error e =>
    rw [hm] at h
    unfold handleMessage at h
    dsimp only at h
    split at h
    · exact .cancelled ((failsOnly_rejectBadMessage hE s e).fault hc h)
    · next other =>
      cases h
      rcases parse_eq_error hm with protocol | ⟨wording, read, rfl⟩
      · exact absurd protocol other
      · exact .oversized hm read
  | ok m =>
    rw [hm] at h
    cases m with
    | result id v => exact .cancelled ((failsOnly_handleResponse hE s id _).fault hc h)
    | error id members => exact .cancelled ((failsOnly_handleResponse hE s id _).fault hc h)
    | request id method params => exact .cancelled ((failsOnly_handleRequest s id method params).fault hc h)
    | notification method params =>
      rcases fault_of_handleNotification hE hc h with cancels | ⟨shown, hasOutput, clock, unhashable⟩
      · exact .cancelled cancels
      · obtain ⟨members, rfl, kind, rfl⟩ := outputLine_eq_error unhashable
        exact .unhashable hm shown hasOutput kind

/-- What may stop the reader does so, whatever the handlers do. -/
theorem handleBody_of_stops {s : SessionId} {body : Octets} {f : Fault} (stops : StopsReader (c.sessionAt s) body f)
    (other : ¬ Cancels f) : ∃ c', does E (handleBody s body) c = (.error f, c') := by
  have first : does E (handleBody s body) c =
      does E (handleMessage s (Message.parse (.octets body) (c.sessionAt s).settings.maxMessageSize)) c :=
    does_bind_of_ok (does_session s c) _
  cases stops with
  | cancelled cancels => exact absurd cancels other
  | oversized parse read =>
    rw [first, parse]
    exact ⟨c, rfl⟩
  | @unhashable method members parse shown hasOutput kind =>
    have plain : method ≠ Session.telemetryMethod := by
      rintro rfl
      revert shown
      decide
    have shows : ∀ rest : Unit → ClientM Unit, does E (showMessage (.object members) >>= rest) c =
        (.error (.type "unhashable type"), c) := by
      intro rest
      refine does_bind_of_error ?_ rest
      unfold showMessage Session.outputLine
      simp only [kind]
      rfl
    refine ⟨c, ?_⟩
    rw [first, parse]
    unfold handleMessage handleNotification
    dsimp only
    rw [if_neg plain, does_bind_of_ok (does_session s c), hasOutput, Bool.and_true, if_pos shown]
    exact shows _

/-- A reader that has received a message body reads on, unless the message stops it. -/
theorem reads_on (hE : E.IsTame) (hc : c.Sound) (s : SessionId) (t : TransportId) (body : Octets) :
    (∃ c', does E (readLoopReceived s t (.ok (.bytes body))) c = (.ok (.become (.readLoop s t)), c')) ∨
      ∃ f c', StopsReader (c.sessionAt s) body f ∧
      does E (readLoopReceived s t (.ok (.bytes body))) c = (.error f, c') := by
  have first : does E (readLoopReceived s t (.ok (.bytes body))) c =
      does E (attempt (handleBody s body) >>= bodyHandled s t) c := rfl
  rcases hx : does E (handleBody s body) c with ⟨f | u, c'⟩
  · right
    have stops := fault_of_handleBody hE hc hx
    refine ⟨f, c', stops, ?_⟩
    cases cancels : f.isCancellation with
    | true => rw [first, does_bind_of_error (does_attempt_of_cancelled hx cancels)]
    | false =>
      -- What stops a reader otherwise is no fault of the connection.
      have other : f.isTransport = false := by
        cases stops with
        | cancelled h =>
          have never := h.symm.trans cancels
          cases never
        | oversized => rfl
        | unhashable => rfl
      rw [first, does_bind_of_ok (does_attempt_of_error hx cancels)]
      unfold bodyHandled
      simp [other]
  · left
    exact ⟨c', by rw [first, does_bind_of_ok (does_attempt_of_ok hx)]; rfl⟩

/-- A reader that has skipped a malformed message reads on, unless a handler is cancelled. -/
theorem reads_on_of_malformed (hE : E.IsTame) (hc : c.Sound) (s : SessionId) (t : TransportId) {f : Fault}
    (malformed : f.isProtocol = true) :
    (∃ c', does E (readLoopReceived s t (.error f)) c = (.ok (.become (.readLoop s t)), c')) ∨
      ∃ f' c', Cancels f' ∧ does E (readLoopReceived s t (.error f)) c = (.error f', c') := by
  have first : does E (readLoopReceived s t (.error f)) c = does E (do
      rejectBadMessage s f
      return .become (.readLoop s t)) c := by
    unfold readLoopReceived
    dsimp only
    rw [if_pos malformed]
  rcases hx : does E (rejectBadMessage s f) c with ⟨f' | u, c'⟩
  · exact .inr ⟨f', c', (failsOnly_rejectBadMessage hE s f).fault hc hx, by rw [first, does_bind_of_error hx]⟩
  · exact .inl ⟨c', by rw [first, does_bind_of_ok hx, does_pure]⟩

end Client

end LspClient
