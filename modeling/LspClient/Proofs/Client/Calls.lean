/-
The calls that make minor changes only: logging and telemetry, handlers and the steps they take,
servers and pipes, and the settling of requests.
-/
import LspClient.Proofs.Client.Minor

namespace LspClient.Client

open Telemetry (Backend)

variable {E : Executor}

/-! ## Notes and the log -/

theorem isMinor_note (n : Note) : IsMinor E (note n) :=
  isMinor_modify fun _ => ⟨rfl, rfl, rfl, rfl, rfl⟩

theorem isMinor_time : IsMinor E time :=
  isMinor_get.bind fun _ => isMinor_pure _

theorem isMinor_log (level : Log.Level) (source : Log.Source) (message : String) (fields : List (String × Value))
    (fault : Option Fault) : IsMinor E (log level source message fields fault) :=
  isMinor_get.bind fun _ => isMinor_note _

/-! ## Telemetry -/

theorem isMinor_setBackend (index : Nat) (b : Backend) : IsMinor E (setBackend index b) :=
  isMinor_modify fun _ => ⟨rfl, rfl, rfl, rfl, rfl⟩

theorem isMinor_appendFile (path text : String) : IsMinor E (appendFile path text) :=
  (isMinor_get.bind fun _ => isMinor_pure _).bind fun _ => isMinor_modify fun _ => ⟨rfl, rfl, rfl, rfl, rfl⟩

theorem isMinor_poster? (index : Nat) : IsMinor E (poster? index) := by
  refine isMinor_get.bind fun _ => ?_
  split
  · exact isMinor_pure _
  · exact isMinor_pure _

theorem isMinor_schedulePost (index : Nat) (p : Telemetry.Poster) : IsMinor E (schedulePost index p) := by
  refine isMinor_get.bind fun _ => ?_
  split
  · exact (isMinor_spawn ⟨rfl, rfl⟩).bind fun _ => (isMinor_setBackend _ _).bind fun _ =>
      isMinor_observe_notify trivial
  · exact isMinor_pure _

theorem isMinor_emitTo (index : Nat) (b : Backend) (r : Telemetry.Record) : IsMinor E (emitTo index b r) := by
  unfold emitTo
  split
  · exact isMinor_setBackend _ _
  · split
    · split
      · exact isMinor_appendFile _ _
      · exact isMinor_throw _
    · exact isMinor_pure _
  · refine (isMinor_setBackend _ _).bind fun _ => ?_
    split
    · exact isMinor_schedulePost _ _
    · exact isMinor_pure _
  · exact isMinor_throw _
  · exact isMinor_note _

theorem isMinor_send (r : Telemetry.Record) : IsMinor E (send r) := by
  unfold send
  refine isMinor_get.bind fun _ => ?_
  split
  · refine isMinor_get.bind fun _ => IsMinor.bind (IsMinor.forIn (fun index _ _ => ?_) _) fun _ => isMinor_pure _
    refine isMinor_get.bind fun _ => ?_
    split
    · exact (isMinor_pure _).bind fun _ => isMinor_pure _
    · refine (isMinor_emitTo _ _ _).attempt.bind fun _ => ?_
      split
      · exact (isMinor_pure _).bind fun _ => isMinor_pure _
      · exact (isMinor_log ..).bind fun _ => isMinor_pure _
  · exact isMinor_pure _

theorem isMinor_recordOf (event : String) (properties : List (String × Value)) :
    IsMinor E (recordOf event properties) :=
  isMinor_time.bind fun _ => isMinor_pure _

theorem isMinor_showLine (text : String) : IsMinor E (showLine text) := by
  refine isMinor_get.bind fun _ => ?_
  split
  · exact isMinor_pure _
  · refine IsMinor.bind (isMinor_modify fun _ => ⟨rfl, rfl, rfl, rfl, rfl⟩) fun _ => (isMinor_log ..).bind fun _ =>
      (isMinor_note _).bind fun _ => ?_
    split
    · exact (isMinor_recordOf _ _).bind fun _ => isMinor_send _
    · exact isMinor_pure _

/-! ## Handlers -/

/-- A reaction with tame steps. -/
theorem isMinor_reactSteps (hE : E.IsTame) (label : String) {steps : List Step} (h : Step.areTame steps = true) :
    IsMinor E (reactSteps label steps) := by
  refine IsMinor.forM fun step hs => (hE step (Step.areTame_iff.1 h step hs)).attempt.bind fun _ => ?_
  split
  · exact isMinor_pure _
  · exact isMinor_note _

theorem isMinor_beginReaction (hE : E.IsTame) {r : Reaction} (h : r.isTame = true) (argument : Display) :
    IsMinor E (beginReaction r argument) :=
  (isMinor_note _).bind fun _ => isMinor_reactSteps hE _ (by rwa [← Reaction.isTame_eq])

theorem isMinor_endReaction (r : Reaction) : IsMinor E (endReaction r) := by
  unfold endReaction
  split
  · exact isMinor_pure _
  · exact isMinor_throw _

theorem isMinor_react (hE : E.IsTame) {r : Reaction} (h : r.isTame = true) (argument : Display) :
    IsMinor E (react r argument) :=
  (isMinor_beginReaction hE h argument).bind fun _ => isMinor_endReaction r

theorem isMinor_callHandler (hE : E.IsTame) (argument : Display) {h : Handler} (tame : h.IsTame) :
    IsMinor E (callHandler argument h) := by
  cases h with
  | script r =>
    show IsMinor E (if r.pause.isSome then pure () else do let _ ← react r argument)
    split
    · exact isMinor_pure _
    · exact (isMinor_react hE tame argument).bind fun _ => isMinor_pure _
  | logResync s => exact (isMinor_session s).bind fun _ => isMinor_log ..
  | giveUp =>
    refine isMinor_get.bind fun _ => ?_
    split
    · exact isMinor_settle _ _
    · exact isMinor_pure _

theorem handlers_subset_all (r : Router Handler) (method : String) : r.handlers method ⊆ r.all := by
  have found : ∀ (ms : List (String × List (Subscription Handler))),
      ∀ x ∈ (ms.lookup method).getD [], ∃ m ∈ ms, x ∈ m.2 := by
    intro ms
    induction ms with
    | nil => exact fun x hx => by cases hx
    | cons m ms ih =>
      obtain ⟨name, ss⟩ := m
      intro x hx
      rw [List.lookup_cons] at hx
      split at hx
      · exact ⟨_, List.mem_cons_self .., hx⟩
      · obtain ⟨m, hm, h⟩ := ih x hx
        exact ⟨m, List.mem_cons_of_mem _ hm, h⟩
  intro h hh
  obtain ⟨x, hx, rfl⟩ := List.mem_map.1 hh
  obtain ⟨m, hm, hx⟩ := found r.methods x hx
  exact List.mem_flatMap.2 ⟨m, hm, List.mem_map.2 ⟨x, hx, rfl⟩⟩

/-- Calling tame handlers, and telling about those that fail. -/
theorem isMinor_dispatchIn (hE : E.IsTame) {r : Router Handler} (tame : ∀ h ∈ r.all, h.IsTame)
    (name method : String) (argument : Display) {report : Fault → ClientM Unit} (hr : ∀ f, IsMinor E (report f)) :
    IsMinor E (dispatchIn r name method argument report) := by
  refine IsMinor.foldlM (fun _ h hh => IsMinor.tryCatch ?_ fun f => ?_) _
  · exact (isMinor_callHandler hE argument (tame h (handlers_subset_all r method hh))).bind fun _ => isMinor_pure _
  · split
    · exact isMinor_throw _
    · refine IsMinor.bind ((isMinor_log ..).bind fun _ => (hr f).attempt.bind fun _ => ?_) fun _ => isMinor_pure _
      split
      · exact isMinor_pure _
      · exact isMinor_log ..

/-- Calling the handlers of a session. -/
theorem isMinor_dispatchSession (hE : E.IsTame) (s : SessionId) (topic : Topic) (name method : String)
    (argument : Display) {report : Fault → ClientM Unit} (hr : ∀ f, IsMinor E (report f)) :
    IsMinor E (do let _ ← dispatchIn ((← session s).router topic) name method argument report) := by
  refine ⟨fun c hc => minorAt_bind_of_ok (does_session s c) ?_⟩
  have calls := isMinor_dispatchIn hE ((hc.sessions s).tame topic) name method argument hr
  exact (calls.bind fun _ => isMinor_pure _).minorAt c hc

theorem isMinor_emitTelemetry (hE : E.IsTame) (s : SessionId) (r : Telemetry.Record) :
    IsMinor E (emitTelemetry s r) := by
  have calls := isMinor_dispatchSession hE s .telemetry "telemetry" Session.telemetryTopic (.value r.toValue)
    fun _ => isMinor_pure ()
  refine (isMinor_session s).bind fun _ => ?_
  split
  · exact (isMinor_send r).bind fun _ => calls
  · exact calls

theorem isMinor_reportHandlerFault (hE : E.IsTame) (s : SessionId) (method : String) (f : Fault) :
    IsMinor E (reportHandlerFault s method f) :=
  (isMinor_session s).bind fun _ => (isMinor_recordOf _ _).bind fun _ => isMinor_emitTelemetry hE s _

theorem isMinor_dispatchNotification (hE : E.IsTame) (s : SessionId) (method : String) (params : Value) :
    IsMinor E (dispatchNotification s method params) :=
  isMinor_dispatchSession hE s .notification _ _ _ fun f => isMinor_reportHandlerFault hE s method f

theorem isMinor_dispatchEvent (hE : E.IsTame) (s : SessionId) (event : String) (argument : Display) :
    IsMinor E (dispatchEvent s event argument) :=
  isMinor_dispatchSession hE s .event _ _ _ fun f => isMinor_reportHandlerFault hE s event f

theorem isMinor_logSession (s : SessionId) (level : Log.Level) (message : String) (fields : List (String × Value))
    (fault : Option Fault) : IsMinor E (logSession s level message fields fault) :=
  (isMinor_session s).bind fun _ => isMinor_log ..

theorem isMinor_reportProtocolFault (hE : E.IsTame) (s : SessionId) (message : String)
    (properties : List (String × Value)) : IsMinor E (reportProtocolFault s message properties) :=
  (isMinor_session s).bind fun _ => (isMinor_logSession ..).bind fun _ => (isMinor_recordOf _ _).bind fun _ =>
    isMinor_emitTelemetry hE s _

/-! ## Pipes -/

theorem isMinor_pipe (p : PipeId) : IsMinor E (pipe p) :=
  isMinor_get.bind fun _ => isMinor_pure _

theorem isMinor_onPipe (p : PipeId) (f : Pipe → Pipe) : IsMinor E (onPipe p f) :=
  isMinor_modify fun _ => ⟨rfl, rfl, rfl, rfl, rfl⟩

theorem isMinor_newPipe (lineLimit : Nat) : IsMinor E (newPipe lineLimit) :=
  isMinor_modifyGet fun _ => ⟨rfl, rfl, rfl, rfl, rfl⟩

theorem isMinor_wakeReader (p : PipeId) (o : Outcome) : IsMinor E (wakeReader p o) := by
  refine (isMinor_pipe p).bind fun _ => ?_
  split
  · exact (isMinor_onPipe p _).bind fun _ => isMinor_settle _ _
  · exact isMinor_pure _

theorem isMinor_feedPipe (p : PipeId) (octets : Octets) : IsMinor E (feedPipe p octets) := by
  refine (isMinor_pipe p).bind fun _ => ?_
  split
  · exact isMinor_pure _
  · exact (isMinor_onPipe p _).bind fun _ => isMinor_wakeReader p _

theorem isMinor_finishPipe (p : PipeId) : IsMinor E (finishPipe p) :=
  (isMinor_onPipe p _).bind fun _ => isMinor_wakeReader p _

theorem isMinor_breakPipe (p : PipeId) (f : Fault) : IsMinor E (breakPipe p f) :=
  (isMinor_onPipe p _).bind fun _ => isMinor_wakeReader p _

theorem isMinor_stopWaiting (p : PipeId) : IsMinor E (stopWaiting p) :=
  isMinor_onPipe p _

/-! ## Servers -/

theorem isMinor_deliver (t : TransportId) (d : Delivery) : IsMinor E (deliver t d) := by
  unfold deliver
  refine IsMinor.bind (isMinor_onTransport fun _ => rfl) fun _ => isMinor_get.bind fun _ => ?_
  refine (isMinor_transport t).bind fun _ => ?_
  split
  · exact isMinor_onTransport fun _ => rfl
  · exact IsMinor.bind (isMinor_onTransport fun _ => rfl) fun _ => isMinor_settle _ _

theorem isMinor_onChild (i : ChildId) (f : Child → Child) : IsMinor E (onChild i f) :=
  isMinor_modify fun _ => ⟨rfl, rfl, rfl, rfl, rfl⟩

theorem isMinor_child (i : ChildId) : IsMinor E (child i) :=
  isMinor_get.bind fun _ => isMinor_pure _

theorem isMinor_childExits (i : ChildId) (code : Int) : IsMinor E (childExits i code) := by
  unfold childExits
  refine (isMinor_child i).bind fun x => ?_
  have wakes : IsMinor E (do
      for waiter in x.waiters do
        onLoop fun l => l.settle waiter (.ok .null)) :=
    IsMinor.bind (IsMinor.forIn (fun _ _ _ => (isMinor_settle _ _).bind fun _ => isMinor_pure _) _) fun _ =>
      isMinor_pure _
  split
  · refine (isMinor_onChild i _).bind fun _ => (isMinor_finishPipe _).bind fun _ => ?_
    split
    · exact (isMinor_finishPipe _).bind fun _ => wakes
    · exact wakes
  · exact isMinor_pure _

theorem isMinor_childExitsLater (i : ChildId) (p : Peer) : IsMinor E (childExitsLater i p) := by
  unfold childExitsLater
  split
  · exact isMinor_childExits i _
  · exact (isMinor_callLater _ (show Loop.IsTimed notices (.notify (.childExits i p.exitCode)) from trivial)).bind
      fun _ => isMinor_pure _

theorem isMinor_childPeer (i : ChildId) : IsMinor E (childPeer i) :=
  (isMinor_child i).bind fun _ => isMinor_get.bind fun _ => isMinor_pure _

theorem isMinor_peerOf (t : TransportId) : IsMinor E (peerOf t) := by
  refine (isMinor_transport t).bind fun _ => ?_
  split
  · exact isMinor_childPeer _
  · exact isMinor_get.bind fun _ => isMinor_pure _

theorem isMinor_onPeer (f : Peer → Peer) : IsMinor E (onPeer f) :=
  isMinor_modify fun _ => ⟨rfl, rfl, rfl, rfl, rfl⟩

theorem isMinor_serverSends (t : TransportId) (body : Octets) : IsMinor E (serverSends t body) := by
  refine (isMinor_transport t).bind fun _ => ?_
  split
  · exact isMinor_deliver t _
  · exact isMinor_feedPipe _ _
  · exact isMinor_pure _

theorem isMinor_serverFinishes (t : TransportId) : IsMinor E (serverFinishes t) := by
  refine (isMinor_transport t).bind fun _ => ?_
  split
  · exact isMinor_deliver t _
  · exact isMinor_finishPipe _
  · exact isMinor_pure _

theorem isMinor_serverBreaks (t : TransportId) (f : Fault) : IsMinor E (serverBreaks t f) := by
  refine (isMinor_transport t).bind fun _ => ?_
  split
  · exact isMinor_deliver t _
  · exact isMinor_breakPipe _ f
  · exact isMinor_pure _

theorem isMinor_afterHandshake (t : TransportId) : IsMinor E (afterHandshake t) := by
  unfold afterHandshake
  refine (isMinor_peerOf t).bind fun p => ?_
  extract_lets crash
  have hcrash : ∀ u, IsMinor E (crash u) := fun _ => by
    refine (isMinor_transport t).bind fun _ => ?_
    split
    · exact isMinor_childExits _ _
    · exact isMinor_pure _
  split
  · exact (isMinor_onPeer _).bind fun _ => (isMinor_serverFinishes t).bind hcrash
  · exact hcrash ()

theorem isMinor_serverReceives (t : TransportId) (text : String) : IsMinor E (serverReceives t text) := by
  unfold serverReceives
  refine (isMinor_transport t).bind fun _ => ?_
  extract_lets hear
  have hhear : ∀ place, IsMinor E (hear place) := fun place => by
    refine (isMinor_note _).bind fun _ => ?_
    split
    · exact isMinor_pure _
    · split
      · refine (isMinor_peerOf t).bind fun _ => ?_
        extract_lets after
        have hafter : ∀ u, IsMinor E (after u) := fun _ => by
          dsimp only [after]
          split
          · exact isMinor_afterHandshake t
          · exact isMinor_pure _
        split
        · split
          · exact (isMinor_serverSends t _).bind hafter
          · exact hafter ()
        · exact hafter ()
      · exact isMinor_pure _
  split
  · exact (isMinor_child _).bind fun _ => (isMinor_pure _).bind hhear
  · exact (isMinor_pure _).bind hhear

theorem isMinor_write (t : TransportId) (text : String) : IsMinor E (write t text) := by
  unfold write
  refine (isMinor_transport t).bind fun x => ?_
  extract_lets receives rest
  have hreceives : ∀ u, IsMinor E (receives u) := fun _ => isMinor_serverReceives t text
  have hrest : ∀ u, IsMinor E (rest u) := fun _ => by
    refine (isMinor_peerOf t).bind fun _ => ?_
    split
    · split
      · exact (isMinor_throw _).bind hreceives
      · exact hreceives ()
    · split
      · exact (isMinor_throw _).bind hreceives
      · exact (isMinor_note _).bind hreceives
  split
  · exact (isMinor_throw _).bind hrest
  · exact hrest ()

/-! ## Writing -/

/-- A client that has tried to write a message on a transport. -/
def record (c : Client) (t : TransportId) (m : Purpose × String) : Client :=
  { c with transports := c.transports.modify t fun x => { x with attempts := x.attempts ++ [m] } }

theorem attemptsOn_record_of_ne (c : Client) {t u : TransportId} (h : u ≠ t) (m : Purpose × String) :
    (c.record t m).attemptsOn u = c.attemptsOn u := by
  unfold attemptsOn record
  dsimp only
  rw [Array.getElem?_modify, if_neg (Ne.symm h)]

theorem attemptsOn_record_self (c : Client) {t : TransportId} (h : t < c.transports.size) (m : Purpose × String) :
    (c.record t m).attemptsOn t = c.attemptsOn t ++ [m] := by
  unfold attemptsOn record
  dsimp only
  rw [Array.getElem?_modify, if_pos rfl, Array.getElem?_eq_getElem h]
  rfl

theorem attemptsOn_of_size_le (c : Client) {t : TransportId} (h : c.transports.size ≤ t) : c.attemptsOn t = [] := by
  unfold attemptsOn
  rw [Array.getElem?_eq_none h]
  rfl

theorem Sound.record {c : Client} (s : c.Sound) (t : TransportId) (m : Purpose × String) : (c.record t m).Sound :=
  ⟨s.wf, s.sessions, s.alone, s.registries⟩

/-- Writing a text: it is an attempt on the transport of the session, if there is one. -/
theorem does_writeText (s : SessionId) (purpose : Purpose) (text : Except Fault String) (c : Client) :
    (∃ f, does E (writeText s purpose text) c = (.error f, c) ∧ (text = .error f ∨ (c.sessionAt s).transport = none)) ∨
      ∃ x t, text = .ok x ∧ (c.sessionAt s).transport = some t ∧
        does E (writeText s purpose text) c = does E (write t x) (c.record t (purpose, x)) := by
  cases text with
  | error f => exact .inl ⟨f, rfl, .inl rfl⟩
  | ok x =>
    cases ht : (c.sessionAt s).transport with
    | none =>
      refine .inl ⟨.connection "No transport", ?_, .inr rfl⟩
      simp only [writeText, does_bind_of_ok (does_session s c), ht, does_throw]
    | some t =>
      refine .inr ⟨x, t, rfl, rfl, ?_⟩
      simp only [writeText, does_bind_of_ok (does_session s c), ht]
      rfl

/-- A running session may write the messages of its user. -/
theorem minor_record {c : Client} {s : SessionId} {t : TransportId} {m : Purpose × String} (user : m.1.isUser = true)
    (fits : m.1.Fits m.2) (running : (c.sessionAt s).state = .running) (ht : (c.sessionAt s).transport = some t) :
    c.Minor (c.record t m) := by
  refine { Minor.refl c with transports := Array.size_modify, attempts := fun u => ?_ }
  by_cases h : u = t ∧ t < c.transports.size
  · obtain ⟨rfl, h⟩ := h
    refine ⟨[m], attemptsOn_record_self c h _, fun m' hm => ?_⟩
    cases List.mem_singleton.1 hm
    exact ⟨user, fits, s, running, ht⟩
  · refine ⟨[], ?_, by simp⟩
    rw [List.append_nil]
    by_cases hu : u = t
    · have hsize : c.transports.size ≤ u := Nat.le_of_not_lt fun hl => h ⟨hu, hu ▸ hl⟩
      rw [attemptsOn_of_size_le c hsize, attemptsOn_of_size_le]
      exact Nat.le_trans (Nat.le_of_eq Array.size_modify) hsize
    · exact attemptsOn_record_of_ne c hu _

theorem minorAt_writeText {c : Client} (hc : c.Sound) {s : SessionId} {purpose : Purpose} {text : Except Fault String}
    (user : purpose.isUser = true) (fits : ∀ x, text = .ok x → purpose.Fits x)
    (running : (c.sessionAt s).state = .running) : MinorAt E (writeText s purpose text) c := by
  rcases does_writeText (E := E) s purpose text c with ⟨f, hx, _⟩ | ⟨x, t, hx, ht, hw⟩
  · unfold MinorAt
    rw [hx]
    exact ⟨Minor.refl c, hc⟩
  · obtain ⟨m, s'⟩ := (isMinor_write (E := E) t x).minorAt _ (hc.record t (purpose, x))
    unfold MinorAt
    rw [hw]
    exact ⟨(minor_record user (fits x hx) running ht).trans m, s'⟩

/-! ## Settling requests -/

theorem isMinor_reportSettlement (id : RequestId) (settlement : Registry.Settlement) :
    IsMinor E (reportSettlement id settlement) := by
  unfold reportSettlement
  split
  · exact isMinor_pure _
  · exact (isMinor_log _ _ _ _ _).bind fun _ => isMinor_pure _
  · exact (isMinor_log _ _ _ _ _).bind fun _ => isMinor_pure _

theorem isMinor_settleRequest (owner : Owner) (id : RequestId) (o : Outcome) : IsMinor E (settleRequest owner id o) :=
  (isMinor_withRegistry (Registry.isQuiet_settle id o) (Registry.isDeed_settle id o)).bind fun _ =>
    isMinor_reportSettlement id _

theorem isMinor_rejectAll (owner : Owner) (f : Fault) : IsMinor E (rejectAll owner f) :=
  isMinor_withRegistry (Registry.isQuiet_rejectAll f) (Registry.isDeed_rejectAll f)

theorem isMinor_tellServerCancelled (s : SessionId) (id : RequestId) : IsMinor E (tellServerCancelled s id) := by
  refine ⟨fun c hc => minorAt_bind_of_ok (does_session s c) ?_⟩
  split
  · next h =>
    refine MinorAt.catchTransport (minorAt_writeText hc rfl (fun x hx => ⟨id, hx⟩) ?_) fun f =>
      (isMinor_session s).bind fun _ => isMinor_log _ _ _ _ _
    exact beq_iff_eq.1 h
  · exact minorAt_pure hc _

theorem isMinor_runCancelHook (owner : Owner) (p : Pending CancelHook) : IsMinor E (runCancelHook owner p) := by
  refine IsMinor.bind (IsMinor.attempt ?hook) fun _ => ?reported
  case hook =>
    split
    · exact isMinor_pure _
    · exact isMinor_tellServerCancelled _ _
    · exact isMinor_pure _
    · refine (isMinor_note _).bind fun _ => ?_
      split
      · exact isMinor_throw _
      · exact isMinor_pure _
  case reported =>
    split
    · exact isMinor_pure _
    · exact isMinor_log _ _ _ _ _

theorem isMinor_cancelRequest (owner : Owner) (id : RequestId) : IsMinor E (cancelRequest owner id) := by
  refine (isMinor_withRegistry (Registry.isQuiet_cancel id) (Registry.isDeed_cancel id)).bind fun _ => ?_
  split
  · exact isMinor_pure _
  · exact (isMinor_runCancelHook _ _).bind fun _ => isMinor_pure _

theorem isMinor_requestSettled (owner : Owner) (id : RequestId) (promise : PromiseId) :
    IsMinor E (requestSettled owner id promise) := by
  refine (isMinor_withRegistry (Registry.isQuiet_forgetCancelled id promise)
    (Registry.isDeed_forgetCancelled id promise)).bind fun _ => ?_
  split
  · exact isMinor_pure _
  · exact (isMinor_log _ _ _ _ _).bind fun _ => isMinor_runCancelHook _ _

theorem isMinor_requestExpired (owner : Owner) (id : RequestId) (timeout : Number) :
    IsMinor E (requestExpired owner id timeout) := by
  refine (isMinor_registryOf owner).bind fun _ => ?_
  split
  · exact isMinor_pure _
  · have expires : IsMinor E (withRegistry owner (Registry.expire id timeout)) :=
      isMinor_withRegistry (Registry.isQuiet_expire id timeout) (Registry.isDeed_expire id timeout)
    exact (isMinor_log _ _ _ _ _).bind fun _ => expires.bind fun _ =>
      (isMinor_reportSettlement _ _).bind fun _ => isMinor_pure _

/-! ## Sending requests -/


/-- A client in which a session has given away the next id. -/
def withNextId (c : Client) (s : SessionId) : Client :=
  { c with sessions := c.sessions.modify s fun x => { x with nextId := x.nextId + 1 } }

theorem minor_withNextId {c : Client} (hc : c.Sound) (s : SessionId) :
    c.Minor (c.withNextId s) ∧ (c.withNextId s).Sound := by
  have alike : (c.sessionAt s).Alike { c.sessionAt s with nextId := (c.sessionAt s).nextId + 1 } :=
    ⟨rfl, rfl, rfl, rfl, rfl, rfl, rfl, Nat.le_succ _⟩
  exact minor_onSession hc alike (alike.isSound (fun topic => by cases topic <;> rfl) (hc.sessions s))

theorem registry_withNextId (c : Client) (s : SessionId) :
    ((c.withNextId s).sessionAt s).registry = (c.sessionAt s).registry := by
  unfold withNextId
  rcases sessionAt_modify c s s fun x => { x with nextId := x.nextId + 1 } with e | ⟨_, _, e⟩ <;> rw [e]

/-- The id that a session gives away next is not pending. -/
theorem Sound.not_contains_nextId {c : Client} (hc : c.Sound) (s : SessionId) :
    (c.sessionAt s).registry.contains (.int (c.sessionAt s).nextId) = false := by
  refine Bool.eq_false_iff.2 fun h => ?_
  obtain ⟨p, hp, e⟩ := Registry.contains_eq_true.1 h
  obtain ⟨n, hn, e'⟩ := (hc.sessions s).ids p hp
  rw [e] at e'
  cases e'
  exact Nat.lt_irrefl _ hn

/-- Registering the next request of a session fails only with a timeout that no double is near; then no
request is begun. -/
theorem does_register {c : Client} (hc : c.Sound) (s : SessionId) (method : String) (timeout : Option Number)
    (onCancel : Option CancelHook) :
    ∃ r c', does E (do
        onSession s fun x => { x with nextId := x.nextId + 1 }
        register (.session s) (.int (c.sessionAt s).nextId) method timeout onCancel) c = (r, c') ∧ c'.Sound ∧
      ((∃ f, r = .error f) ∧ (∃ n e, timeout = some n ∧ n.widen = .error e) ∧ c.Minor c' ∨
        (∃ h, r = .ok h) ∧ c.Near (some s) c') := by
  obtain ⟨m, hc'⟩ := minor_withNextId hc s
  have same := registry_withNextId c s
  have first : does E (do
      onSession s fun x => { x with nextId := x.nextId + 1 }
      register (.session s) (.int (c.sessionAt s).nextId) method timeout onCancel) c =
      does E (register (.session s) (.int (c.sessionAt s).nextId) method timeout onCancel) (c.withNextId s) := rfl
  have hears : ∀ p, notices.hears p
      ((registryEvents (.session s)).settled (.int (c.sessionAt s).nextId) p) := fun _ => trivial
  have free : ∀ n, notices.free ((registryEvents (.session s)).expire (.int (c.sessionAt s).nextId) n) :=
    fun _ => trivial
  have fit : (c.sessionAt s).registry.Fit (c.withNextId s).loop := hc.registries s
  have life := (Registry.isDeed_register (registryEvents (.session s)) (.int (c.sessionAt s).nextId) method timeout
    onCancel).life (c.sessionAt s).registry (c.withNextId s).loop
  obtain ⟨l, moves, wf, ⟨n, e, hn, he, hx⟩ | ⟨r, promise, fit', ⟨timer, hr⟩, hx⟩⟩ :=
    Registry.register_spec (A := Activity.IsRoot) hears free hc'.wf fit (hc.not_contains_nextId s) method
      timeout onCancel
  · rw [hx] at life
    obtain ⟨near, sound⟩ := near_withRequests none s m hc' moves wf (fit.moves moves)
      (fun _ p hp => .inl (by rwa [same])) (by rw [same]; exact ⟨fun _ hp => .inl hp, life⟩)
    refine ⟨.error (.range e), _, ?_, sound, .inl ⟨⟨_, rfl⟩, ⟨n, e, hn, he⟩, near⟩⟩
    rw [first]
    unfold register
    rewrite [does_bind, does_withRegistry, same, hx]
    rfl
  · rw [hx] at life
    have new : s < (c.withNextId s).sessions.size → ∀ p ∈ r.pending,
        p ∈ ((c.withNextId s).sessionAt s).registry.pending ∨
          (some s = some s ∨ (c.sessionAt s).state = .running) ∧ ∃ n : Nat,
            (c.sessionAt s).nextId ≤ n ∧ n < ((c.withNextId s).sessionAt s).nextId ∧ p.id = .int n := by
      intro hs p hp
      rw [hr] at hp
      rcases List.mem_append.1 hp with hp | hp
      · exact .inl (by rwa [same])
      · cases List.mem_singleton.1 hp
        refine .inr ⟨.inl rfl, (c.sessionAt s).nextId, Nat.le_refl _, ?_, rfl⟩
        have hs' : s < c.sessions.size := by simpa [withNextId] using hs
        unfold withNextId
        rw [sessionAt_modify_self c hs']
        exact Nat.lt_succ_self _
    have endures : (c.sessionAt s).registry.Endures (c.withNextId s).loop r l :=
      ⟨fun p hp => .inl (by rw [hr]; exact List.mem_append_left _ hp), life⟩
    obtain ⟨near, sound⟩ := near_withRequests (some s) s m hc' moves wf fit' new (by rwa [same])
    refine ⟨.ok ⟨.session s, .int (c.sessionAt s).nextId, method, promise⟩, _, ?_, sound, .inr ⟨⟨_, rfl⟩, near⟩⟩
    rw [first]
    unfold register
    rewrite [does_bind, does_withRegistry, same, hx]
    rfl

/-- Sending a request: it is registered, and then there is an attempt to write it, if it has a text,
its time can be kept, and there is a transport. -/
theorem sendUnchecked_spec (hE : E.IsTame) {c : Client} (hc : c.Sound) (s : SessionId) (purpose : Purpose)
    (method : String) (params : Value) (timeout : Option Number) :
    ∃ r c', does E (sendUnchecked s purpose method params timeout) c = (r, c') ∧ c'.Sound ∧
      ((∃ f, r = .error f) ∧ (∃ n e, timeout = some n ∧ n.widen = .error e) ∧ c.Minor c' ∨
        c.Near (some s) c' ∧ ((c.sessionAt s).transport = none ∨
          (∃ f, r = .error f) ∧
            ∃ f, Message.formatRequest (.int (c.sessionAt s).nextId) method params = .error f) ∨
        ∃ c₁ x t, c.Near (some s) c₁ ∧
          Message.formatRequest (.int (c.sessionAt s).nextId) method params = .ok x ∧
          (c.sessionAt s).transport = some t ∧ (c₁.record t (purpose, x)).Minor c') := by
  have failed : ∀ f, IsMinor E (do
      reportProtocolFault s ("Failed to send request: " ++ f.message) [("method", .str method)]
      let _ ← settleRequest (.session s) (.int (c.sessionAt s).nextId) (.error f)) := fun f =>
    (isMinor_reportProtocolFault hE _ _ _).bind fun _ => (isMinor_settleRequest _ _ _).bind fun _ => isMinor_pure _
  have parts : does E (sendUnchecked s purpose method params timeout) c = does E ((do
      onSession s fun x => { x with nextId := x.nextId + 1 }
      register (.session s) (.int (c.sessionAt s).nextId) method timeout (some .tellServer)) >>= fun handle => do
        catchTransport (writeText s purpose (Message.formatRequest (.int (c.sessionAt s).nextId) method params))
            fun f => do
          reportProtocolFault s ("Failed to send request: " ++ f.message) [("method", .str method)]
          let _ ← settleRequest (.session s) (.int (c.sessionAt s).nextId) (.error f)
        return handle) c := by
    rw [bind_assoc]
    exact does_bind_of_ok (does_session s c) _
  obtain ⟨r, c', hx, sound, ⟨⟨f, rfl⟩, long, m⟩ | ⟨⟨handle, rfl⟩, m⟩⟩ :=
    does_register (E := E) hc s method timeout (some .tellServer)
  · refine ⟨.error f, c', ?_, sound, .inl ⟨⟨f, rfl⟩, long, m⟩⟩
    rw [parts, does_bind_of_error hx]
  · rw [parts, does_bind_of_ok hx]
    have ht := (m.sessions s).transport
    rcases does_writeText (E := E) s purpose (Message.formatRequest (.int (c.sessionAt s).nextId) method params) c' with
      ⟨f, hw, why⟩ | ⟨x, t, htext, hct, hw⟩
    · have writes : MinorAt E (writeText s purpose
          (Message.formatRequest (.int (c.sessionAt s).nextId) method params)) c' := by
        unfold MinorAt
        rw [hw]
        exact ⟨Minor.refl c', sound⟩
      obtain ⟨m', sound'⟩ := (writes.catchTransport failed).bind fun _ c'' _ _ hs => minorAt_pure hs handle
      refine ⟨_, _, rfl, sound', .inr (.inl ⟨m.trans (m'.near _), ?_⟩)⟩
      rcases why with why | why
      · -- What has no text is no fault of the connection, so it is not caught.
        have raised : does E (catchTransport (writeText s purpose
            (Message.formatRequest (.int (c.sessionAt s).nextId) method params)) fun f => do
              reportProtocolFault s ("Failed to send request: " ++ f.message) [("method", .str method)]
              let _ ← settleRequest (.session s) (.int (c.sessionAt s).nextId) (.error f)) c' = (.error f, c') := by
          unfold catchTransport
          rw [does_tryCatch, hw]
          simp [Message.isTransport_of_printObject why]
        exact .inr ⟨⟨f, congrArg Prod.fst (does_bind_of_error raised _)⟩, f, why⟩
      · exact .inl (by rw [← ht, why])
    · rw [ht] at hct
      have writes := (isMinor_write (E := E) t x).minorAt _ (sound.record t (purpose, x))
      obtain ⟨m', sound'⟩ := (writes.catchTransport failed).bind fun _ c'' _ _ hs => minorAt_pure hs handle
      rw [does_bind_congr (does_catchTransport_congr hw _)]
      exact ⟨_, _, rfl, sound', .inr (.inr ⟨c', x, t, m, htext, hct, m'⟩)⟩

theorem minorAt_sendUnchecked (hE : E.IsTame) {c : Client} (hc : c.Sound) {s : SessionId} (method : String)
    (params : Value) (timeout : Option Number) (running : (c.sessionAt s).state = .running) :
    MinorAt E (sendUnchecked s .request method params timeout) c := by
  obtain ⟨r, c', hx, sound, ⟨_, _, m⟩ | ⟨m, _⟩ | ⟨c₁, x, t, m, htext, ht, m'⟩⟩ :=
    sendUnchecked_spec hE hc s .request method params timeout
  all_goals
    unfold MinorAt
    rw [hx]
  · exact ⟨m, sound⟩
  · exact ⟨m.minor running, sound⟩
  · have hm : c₁.Minor (c₁.record t (.request, x)) :=
      minor_record rfl ⟨_, method, params, htext⟩ (by rw [(m.sessions s).state, running])
        (by rw [(m.sessions s).transport, ht])
    exact ⟨((m.minor running).trans hm).trans m', sound⟩

/-- Whatever needs a running session either finds one or fails. -/
theorem does_requireRunning (s : SessionId) (operation : String) (c : Client) :
    ((c.sessionAt s).state = .running ∧ does E (requireRunning s operation) c = (.ok (), c)) ∨
      ∃ f, does E (requireRunning s operation) c = (.error f, c) := by
  cases h : (c.sessionAt s).lifecycle.isRunning with
  | true =>
    refine .inl ⟨beq_iff_eq.1 h, ?_⟩
    simp only [requireRunning, does_bind_of_ok (does_session s c), Lifecycle.requireRunning, h, if_true, does_pure]
  | false =>
    refine .inr ⟨.notRunning (c.sessionAt s).lifecycle.state operation, ?_⟩
    simp only [requireRunning, does_bind_of_ok (does_session s c), Lifecycle.requireRunning, h]
    rfl

theorem MinorAt.afterRunning {α : Type} {c : Client} (hc : c.Sound) {s : SessionId} {operation : String}
    {f : Unit → ClientM α} (h : (c.sessionAt s).state = .running → MinorAt E (f ()) c) :
    MinorAt E (requireRunning s operation >>= f) c := by
  rcases does_requireRunning (E := E) s operation c with ⟨hr, hx⟩ | ⟨e, hx⟩
  · exact minorAt_bind_of_ok hx (h hr)
  · unfold MinorAt
    rw [does_bind_of_error hx]
    exact ⟨Minor.refl c, hc⟩

theorem isMinor_sendRequest (hE : E.IsTame) (s : SessionId) (method : String) (params : Value) (patience : Patience) :
    IsMinor E (sendRequest s method params patience) := by
  refine ⟨fun c hc => MinorAt.afterRunning hc fun hr => ?_⟩
  split
  · refine minorAt_bind_of_ok (does_session s c) ?_
    exact minorAt_bind_of_ok (does_pure _ c) (minorAt_sendUnchecked hE hc method params _ hr)
  · exact minorAt_bind_of_ok (does_pure _ c) (minorAt_sendUnchecked hE hc method params _ hr)

theorem isMinor_sendNotification (hE : E.IsTame) (s : SessionId) (method : String) (params : Value) :
    IsMinor E (sendNotification s method params) := by
  refine ⟨fun c hc => MinorAt.afterRunning hc fun hr => ?_⟩
  have write : MinorAt E (writeText s .notification (Message.formatNotification method params)) c :=
    minorAt_writeText hc rfl (fun x hx => ⟨method, params, hx⟩) hr
  exact write.catchTransport fun f => isMinor_reportProtocolFault hE _ _ _

theorem isMinor_resync (hE : E.IsTame) (s : SessionId) : IsMinor E (resync s) := by
  refine (isMinor_session s).bind fun _ => ?_
  split
  · exact (isMinor_sendNotification hE s _ _).bind fun _ => isMinor_pure _
  · exact (isMinor_log _ _ _ _ _).bind fun _ => isMinor_pure _

/-! ## Messages of the server -/

theorem isMinor_rejectBadMessage (hE : E.IsTame) (s : SessionId) (f : Fault) : IsMinor E (rejectBadMessage s f) := by
  refine (isMinor_reportProtocolFault hE s _ _).bind fun _ => ?_
  split
  · exact (isMinor_settleRequest _ _ _).bind fun _ => isMinor_pure _
  · exact isMinor_pure _

theorem isMinor_handleResponse (hE : E.IsTame) (s : SessionId) (id : RequestId) (o : Outcome) :
    IsMinor E (handleResponse s id o) := by
  refine (isMinor_settleRequest _ _ _).bind fun _ => (isMinor_session s).bind fun _ => ?_
  split
  · exact isMinor_reportProtocolFault hE s _ _
  · exact isMinor_pure _

theorem isMinor_showMessage (params : Value) : IsMinor E (showMessage params) := by
  refine isMinor_time.bind fun _ => ?_
  split
  · exact isMinor_showLine _
  · exact isMinor_throw _

theorem isMinor_handleNotification (hE : E.IsTame) (s : SessionId) (method : String) (params : Value) :
    IsMinor E (handleNotification s method params) := by
  have calls := isMinor_dispatchNotification hE s method params
  unfold handleNotification
  split
  · exact isMinor_time.bind fun _ => (isMinor_emitTelemetry hE s _).bind fun _ => calls
  · refine (isMinor_session s).bind fun _ => ?_
    split
    · exact (isMinor_showMessage params).bind fun _ => calls
    · exact calls

end LspClient.Client
