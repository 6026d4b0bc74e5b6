/-
The calls that are clean: what is done to registries, logging and telemetry, handlers and the steps
they take, servers and pipes, and the settling of requests.
-/
import LspClient.Proofs.Client.Clean
import LspClient.Proofs.Client.Reader

namespace LspClient.Client

open Telemetry (Backend)

variable [Breaches] {E : Executor} {α β : Type}

/-! ## Registries -/

/-- An operation of a registry that brings no breach into the loop, and raises none. -/
def IsTidy (op : Registry.Operation CancelHook Activity Event α) : Prop :=
  ∀ r : Registry CancelHook × Loop Activity Event, r.2.Holds cleanly →
    KeepsAt (fun r => r.2.Holds cleanly) cleanly.fault (fun _ _ => True) op r

theorem IsTidy.bind {x : Registry.Operation CancelHook Activity Event α}
    {f : α → Registry.Operation CancelHook Activity Event β} (h : IsTidy x) (hf : ∀ a, IsTidy (f a)) :
    IsTidy (x >>= f) :=
  fun r hr => (h r hr).bind fun a r' _ hr' => hf a r' hr'

theorem isTidy_pure (a : α) : IsTidy (pure a) :=
  fun r hr => .of_ok (exec_pure a r) hr trivial

theorem isTidy_throw {f : Fault} (hf : f.isBreach = false) :
    IsTidy (throw f : Registry.Operation CancelHook Activity Event α) :=
  fun r hr => .of_error (exec_throw f r) hr hf

theorem isTidy_get : IsTidy get :=
  fun r hr => .of_ok (exec_get r) hr trivial

theorem isTidy_modify {f : Registry CancelHook × Loop Activity Event → Registry CancelHook × Loop Activity Event}
    (h : ∀ r : Registry CancelHook × Loop Activity Event, r.2.Holds cleanly → (f r).2.Holds cleanly) :
    IsTidy (modify f) :=
  fun r hr => .of_ok (exec_modify f r) (h r hr) trivial

/-- A change of the registry alone. -/
theorem isTidy_onRegistry {f : Registry CancelHook × Loop Activity Event → Registry CancelHook × Loop Activity Event}
    (h : ∀ r, (f r).2 = r.2) : IsTidy (modify f) :=
  isTidy_modify fun r hr => by rw [h r]; exact hr

theorem IsTidy.foldlM {f : β → α → Registry.Operation CancelHook Activity Event β} {as : List α}
    (h : ∀ b a, IsTidy (f b a)) (b : β) : IsTidy (as.foldlM f b) := by
  induction as generalizing b with
  | nil => exact isTidy_pure b
  | cons a as ih =>
    rw [List.foldlM_cons]
    exact (h b a).bind ih

theorem isTidy_stopTimer (p : Pending CancelHook) : IsTidy (Registry.stopTimer p) := by
  unfold Registry.stopTimer
  split
  · exact isTidy_modify fun _ h => h.cancelTimer _
  · exact isTidy_pure _

theorem isTidy_remember (id : RequestId) : IsTidy (Registry.remember id) := by
  rintro ⟨r, l⟩ hl
  cases room : r.remembered.canHold with
  | true => exact .of_ok (Registry.exec_remember room l id) hl trivial
  | false =>
    have refuses : exec (Registry.remember id) (r, l) = (.error (.invalid "value too large"), r, l) := by
      simp [Registry.remember, exec_bind, room]
    exact .of_error refuses hl rfl

theorem isTidy_settlePromise (p : PromiseId) {o : Outcome} (ho : Fault.Spares o) :
    IsTidy (Registry.settlePromise p o) := by
  refine isTidy_get.bind fun _ => ?_
  have settles : IsTidy (Registry.onLoop (·.settle p o)) := isTidy_modify fun _ h => h.settle p ho
  split
  · exact (isTidy_throw rfl).bind fun _ => settles
  · exact settles

theorem isTidy_take? (id : RequestId) : IsTidy (Registry.take? id) := by
  refine isTidy_get.bind fun _ => ?_
  split
  · exact isTidy_pure _
  · refine (isTidy_onRegistry fun _ => by rfl).bind fun _ => (isTidy_stopTimer _).bind fun _ =>
      isTidy_get.bind fun _ => ?_
    split
    · exact (isTidy_remember id).bind fun _ => isTidy_pure _
    · exact isTidy_pure _

theorem isTidy_settle (id : RequestId) {o : Outcome} (ho : Fault.Spares o) : IsTidy (Registry.settle id o) := by
  refine (isTidy_take? id).bind fun _ => ?_
  split
  · exact (isTidy_settlePromise _ ho).bind fun _ => isTidy_pure _
  · exact isTidy_get.bind fun _ => isTidy_pure _

theorem isTidy_cancel (id : RequestId) : IsTidy (Registry.cancel id) := by
  refine (isTidy_take? id).bind fun _ => ?_
  split
  · exact isTidy_pure _
  · refine (isTidy_remember id).bind fun _ => IsTidy.bind (isTidy_modify fun _ h => ?_) fun _ => isTidy_pure _
    exact h.cancel _

theorem isTidy_forgetCancelled (id : RequestId) (promise : PromiseId) :
    IsTidy (Registry.forgetCancelled id promise) := by
  refine isTidy_get.bind fun _ => ?_
  split
  extract_lets cancelled
  split
  · split
    · exact (isTidy_onRegistry fun _ => by rfl).bind fun _ => (isTidy_stopTimer _).bind fun _ =>
        (isTidy_remember id).bind fun _ => isTidy_pure _
    · exact isTidy_pure _
  · exact isTidy_pure _

theorem isTidy_rejectAll {f : Fault} (hf : f.isBreach = false) : IsTidy (Registry.rejectAll f) := by
  refine isTidy_get.bind fun _ => ?_
  extract_lets pending
  refine (isTidy_onRegistry fun _ => by rfl).bind fun _ => IsTidy.foldlM (fun count p => ?_) 0
  refine (isTidy_stopTimer p).bind fun _ => isTidy_get.bind fun _ => ?_
  split
  · exact isTidy_pure _
  · exact (isTidy_settlePromise _ (Fault.only_error hf)).bind fun _ => isTidy_pure _

theorem isTidy_expire (id : RequestId) (timeout : Number) : IsTidy (Registry.expire id timeout) := by
  refine isTidy_get.bind fun _ => ?_
  split
  · exact isTidy_pure _
  · next p _ =>
    have late : Fault.isBreach (.requestTimeout id p.method timeout) = false := rfl
    exact (isTidy_settle id (Fault.only_error late)).bind fun _ => (isTidy_remember id).bind fun _ => isTidy_pure _

theorem isTidy_register (owner : Owner) (id : RequestId) (method : String) (timeout : Option Number)
    (onCancel : Option CancelHook) : IsTidy (Registry.register (registryEvents owner) id method timeout onCancel) := by
  rintro ⟨r, l⟩ hl
  -- The promise is there before the timer is set: a timeout that no timer can wait for leaves it behind.
  have watched : Loop.Holds cleanly
      (l.newPromise.2.observe l.promises.size (.notify ((registryEvents owner).settled id l.promises.size))) :=
    (hl.newPromise .plain trivial).observe _ trivial
  cases fresh : r.contains id with
  | true => exact .of_error (Registry.exec_register_duplicate _ fresh l method timeout onCancel) hl rfl
  | false =>
    rcases Registry.exec_register (registryEvents owner) fresh l method timeout onCancel with
      ⟨n, f, _, _, hx⟩ | ⟨_, timer, l', rfl | ⟨seconds, n, rfl⟩, hx⟩
    · exact .of_error hx watched rfl
    · exact .of_ok hx watched trivial
    · exact .of_ok hx (watched.callLater seconds trivial) trivial

theorem isClean_withRegistry (owner : Owner) {op : Registry.Operation CancelHook Activity Event α} (h : IsTidy op) :
    IsClean E (withRegistry owner op) := by
  -- The outcome is that of the operation, in a client whose loop it has left tidy.
  have keeps : ∀ {c c' : Client} (r : Registry CancelHook × Loop Activity Event), r.2.Holds cleanly →
      does E (withRegistry owner op) c = ((exec op r).1, c') → c'.Clean →
      CleanAt E (withRegistry owner op) (fun _ _ => True) c := by
    intro c c' r hr hx hc'
    have same : exec (withRegistry owner op E) c = ((exec op r).1, c') := hx
    exact ⟨by rw [same]; exact hc', by rw [same]; exact (h r hr).fault, fun _ _ => trivial⟩
  refine ⟨fun c hc => ?_⟩
  cases owner with
  | alone =>
    have tidy := (h (c.registry, c.loop) hc.loop).state
    exact keeps _ hc.loop (does_withRegistry_alone op c) ⟨tidy, hc.sessions, hc.transports, hc.pipes⟩
  | session s =>
    have tidy := (h ((c.sessionAt s).registry, c.loop) hc.loop).state
    let r := (exec op ((c.sessionAt s).registry, c.loop)).2.1
    have clean := hc.onSession (s := s) (f := fun x => { x with registry := r })
      ((hc.sessions s).of_router fun topic => by cases topic <;> rfl)
    exact keeps _ hc.loop (does_withRegistry s op c) (clean.withLoop tidy)

theorem isClean_registryOf (owner : Owner) : IsClean E (registryOf owner) := by
  refine isClean_get.bind fun _ => ?_
  split
  · exact isClean_return _
  · exact isClean_return _

/-! ## Notes and the log -/

theorem isClean_note (n : Note) : IsClean E (note n) :=
  isClean_modify fun _ => ⟨rfl, rfl, rfl, rfl⟩

theorem isClean_time : IsClean E time :=
  isClean_get.bind fun _ => isClean_return _

theorem isClean_log (level : Log.Level) (source : Log.Source) (message : String) (fields : List (String × Value))
    (fault : Option Fault) : IsClean E (log level source message fields fault) :=
  isClean_get.bind fun _ => isClean_note _

/-! ## Telemetry -/

theorem isClean_setBackend (index : Nat) (b : Backend) : IsClean E (setBackend index b) :=
  isClean_modify fun _ => ⟨rfl, rfl, rfl, rfl⟩

theorem isClean_appendFile (path text : String) : IsClean E (appendFile path text) :=
  (isClean_get.bind fun _ => isClean_return _).bind fun _ => isClean_modify fun _ => ⟨rfl, rfl, rfl, rfl⟩

theorem isClean_poster? (index : Nat) : IsClean E (poster? index) := by
  refine isClean_get.bind fun _ => ?_
  split
  · exact isClean_return _
  · exact isClean_return _

theorem isClean_schedulePost (index : Nat) (p : Telemetry.Poster) : IsClean E (schedulePost index p) := by
  refine isClean_get.bind fun _ => ?_
  split
  · exact (isClean_spawn ⟨rfl, rfl⟩).bind fun _ => (isClean_setBackend _ _).bind fun _ =>
      isClean_observe _ trivial
  · exact isClean_return _

theorem isBreach_toFault (f : Json.PrintFault) : f.toFault.isBreach = false := by
  cases f <;> rfl

theorem isClean_emitTo (index : Nat) (b : Backend) (r : Telemetry.Record) : IsClean E (emitTo index b r) := by
  unfold emitTo
  split
  · exact isClean_setBackend _ _
  · split
    · split
      · exact isClean_appendFile _ _
      · exact isClean_throw (isBreach_toFault _)
    · exact isClean_return _
  · refine (isClean_setBackend _ _).bind fun _ => ?_
    split
    · exact isClean_schedulePost _ _
    · exact isClean_return _
  · exact isClean_throw rfl
  · exact isClean_note _

theorem isClean_send (r : Telemetry.Record) : IsClean E (send r) := by
  unfold send
  refine isClean_get.bind fun _ => ?_
  split
  · refine isClean_get.bind fun _ => IsClean.bind (IsClean.forIn (fun index _ _ => ?_) _) fun _ => isClean_return _
    refine isClean_get.bind fun _ => ?_
    split
    · exact (isClean_return _).bind fun _ => isClean_return _
    · refine (isClean_emitTo _ _ _).attempt.bind fun _ => ?_
      split
      · exact (isClean_return _).bind fun _ => isClean_return _
      · exact (isClean_log ..).bind fun _ => isClean_return _
  · exact isClean_return _

theorem isClean_recordOf (event : String) (properties : List (String × Value)) :
    IsClean E (recordOf event properties) :=
  isClean_time.bind fun _ => isClean_return _

theorem isClean_showLine (text : String) : IsClean E (showLine text) := by
  refine isClean_get.bind fun _ => ?_
  split
  · exact isClean_return _
  · refine IsClean.bind (isClean_modify fun _ => ⟨rfl, rfl, rfl, rfl⟩) fun _ => (isClean_log ..).bind fun _ =>
      (isClean_note _).bind fun _ => ?_
    split
    · exact (isClean_recordOf _ _).bind fun _ => isClean_send _
    · exact isClean_return _

/-! ## Handlers -/

/-- A reaction with clean steps. -/
theorem isClean_reactSteps (hE : E.IsClean) (label : String) {steps : List Step} (h : Step.areClean steps = true) :
    IsClean E (reactSteps label steps) := by
  refine IsClean.forM fun step hs => (hE step (Step.areClean_iff.1 h step hs)).attempt.bind fun _ => ?_
  split
  · exact isClean_return _
  · exact isClean_note _

theorem isClean_beginReaction (hE : E.IsClean) {r : Reaction} (h : r.isClean = true) (argument : Display) :
    IsClean E (beginReaction r argument) :=
  (isClean_note _).bind fun _ => isClean_reactSteps hE _ (Reaction.isClean_iff.1 h).1

theorem isClean_endReaction {r : Reaction} (h : r.isClean = true) : IsClean E (endReaction r) := by
  have fair := (Reaction.isClean_iff.1 h).2
  unfold endReaction
  split
  · exact isClean_return _
  · next f e =>
    rw [e] at fair
    exact isClean_throw (by simpa [Ending.isClean] using fair)

theorem isClean_react (hE : E.IsClean) {r : Reaction} (h : r.isClean = true) (argument : Display) :
    IsClean E (react r argument) :=
  (isClean_beginReaction hE h argument).bind fun _ => isClean_endReaction h

theorem isClean_callHandler (hE : E.IsClean) (argument : Display) {h : Handler} (clean : h.IsClean) :
    IsClean E (callHandler argument h) := by
  cases h with
  | script r =>
    show IsClean E (if r.pause.isSome then pure () else do let _ ← react r argument)
    split
    · exact isClean_return _
    · exact (isClean_react hE clean argument).bind fun _ => isClean_return _
  | logResync s => exact (isClean_session s).bind fun _ => isClean_log ..
  | giveUp =>
    refine isClean_get.bind fun _ => ?_
    split
    · exact isClean_settle _ (Fault.only_ok _)
    · exact isClean_return _

/-- Calling clean handlers, and telling about those that fail. -/
theorem isClean_dispatchIn (hE : E.IsClean) {r : Router Handler} (clean : ∀ h ∈ r.all, h.IsClean)
    (name method : String) (argument : Display) {report : Fault → ClientM Unit} (hr : ∀ f, IsClean E (report f)) :
    IsClean E (dispatchIn r name method argument report) := by
  refine IsClean.foldlM (fun _ h hh => IsClean.tryCatch ?_ fun f hf => ?_) _
  · exact (isClean_callHandler hE argument (clean h (handlers_subset_all r method hh))).bind fun _ => isClean_return _
  · split
    · exact isClean_throw hf
    · refine IsClean.bind (Q := fun _ => True) ((isClean_log ..).bind fun _ => (hr f).attempt.bind fun _ => ?_)
        fun _ => isClean_return _
      split
      · exact isClean_return _
      · exact isClean_log ..

/-- Calling the handlers of a session. -/
theorem isClean_dispatchSession (hE : E.IsClean) (s : SessionId) (topic : Topic) (name method : String)
    (argument : Display) {report : Fault → ClientM Unit} (hr : ∀ f, IsClean E (report f)) :
    IsClean E (do let _ ← dispatchIn ((← session s).router topic) name method argument report) := by
  refine (isClean_session s).bindWith fun x hx => ?_
  exact (isClean_dispatchIn hE (hx topic) name method argument hr).bind fun _ => isClean_return _

theorem isClean_emitTelemetry (hE : E.IsClean) (s : SessionId) (r : Telemetry.Record) :
    IsClean E (emitTelemetry s r) := by
  have calls := isClean_dispatchSession hE s .telemetry "telemetry" Session.telemetryTopic (.value r.toValue)
    fun _ => isClean_return ()
  refine (isClean_session s).bind fun _ => ?_
  split
  · exact (isClean_send r).bind fun _ => calls
  · exact calls

theorem isClean_reportHandlerFault (hE : E.IsClean) (s : SessionId) (method : String) (f : Fault) :
    IsClean E (reportHandlerFault s method f) :=
  (isClean_session s).bind fun _ => (isClean_recordOf _ _).bind fun _ => isClean_emitTelemetry hE s _

theorem isClean_dispatchNotification (hE : E.IsClean) (s : SessionId) (method : String) (params : Value) :
    IsClean E (dispatchNotification s method params) :=
  isClean_dispatchSession hE s .notification _ _ _ fun f => isClean_reportHandlerFault hE s method f

theorem isClean_dispatchEvent (hE : E.IsClean) (s : SessionId) (event : String) (argument : Display) :
    IsClean E (dispatchEvent s event argument) :=
  isClean_dispatchSession hE s .event _ _ _ fun f => isClean_reportHandlerFault hE s event f

theorem isClean_logSession (s : SessionId) (level : Log.Level) (message : String) (fields : List (String × Value))
    (fault : Option Fault) : IsClean E (logSession s level message fields fault) :=
  (isClean_session s).bind fun _ => isClean_log ..

theorem isClean_reportProtocolFault (hE : E.IsClean) (s : SessionId) (message : String)
    (properties : List (String × Value)) : IsClean E (reportProtocolFault s message properties) :=
  (isClean_session s).bind fun _ => (isClean_logSession ..).bind fun _ => (isClean_recordOf _ _).bind fun _ =>
    isClean_emitTelemetry hE s _

/-! ## Pipes -/

theorem isClean_wakeReader (p : PipeId) {o : Outcome} (ho : Fault.Spares o) : IsClean E (wakeReader p o) := by
  refine (isClean_pipe p).bind fun _ => ?_
  split
  · exact IsClean.bind (isClean_onPipe p fun _ h => by exact h) fun _ => isClean_settle _ ho
  · exact isClean_return _

theorem isClean_feedPipe (p : PipeId) (octets : Octets) : IsClean E (feedPipe p octets) := by
  refine (isClean_pipe p).bind fun _ => ?_
  split
  · exact isClean_return _
  · exact IsClean.bind (isClean_onPipe p fun _ h => by exact h) fun _ => isClean_wakeReader p (Fault.only_ok _)

theorem isClean_finishPipe (p : PipeId) : IsClean E (finishPipe p) :=
  IsClean.bind (isClean_onPipe p fun _ h => by exact h) fun _ => isClean_wakeReader p (Fault.only_ok _)

theorem isClean_breakPipe (p : PipeId) {f : Fault} (hf : f.isBreach = false) : IsClean E (breakPipe p f) := by
  refine IsClean.bind (isClean_onPipe p fun _ _ g hg => ?_) fun _ => isClean_wakeReader p (Fault.only_error hf)
  cases hg
  exact hf

theorem isClean_stopWaiting (p : PipeId) : IsClean E (stopWaiting p) :=
  isClean_onPipe p fun _ h => h

/-! ## Servers -/

theorem isClean_deliver (t : TransportId) {d : Delivery} (hd : d.IsClean) : IsClean E (deliver t d) := by
  have queued : ∀ x : Transport, x.IsClean → Transport.IsClean { x with inbox := x.inbox ++ [d] } := by
    intro x hx d' hd'
    rcases List.mem_append.1 hd' with hd' | hd'
    · exact hx d' hd'
    · rw [List.mem_singleton.1 hd']
      exact hd
  refine (isClean_onTransport t queued).bind fun _ => isClean_get.bind fun _ => ?_
  refine (isClean_transport t).bind fun _ => ?_
  split
  · exact isClean_onTransport _ fun _ h => h
  · exact IsClean.bind (isClean_onTransport _ fun _ h => h) fun _ => isClean_settle _ (Fault.only_ok _)

theorem isClean_onChild (i : ChildId) (f : Child → Child) : IsClean E (onChild i f) :=
  isClean_modify fun _ => ⟨rfl, rfl, rfl, rfl⟩

theorem isClean_child (i : ChildId) : IsClean E (child i) :=
  isClean_get.bind fun _ => isClean_return _

theorem isClean_childExits (i : ChildId) (code : Int) : IsClean E (childExits i code) := by
  unfold childExits
  refine (isClean_child i).bind fun x => ?_
  have wakes : IsClean E (do
      for waiter in x.waiters do
        onLoop fun l => l.settle waiter (.ok .null)) :=
    IsClean.bind (IsClean.forIn (fun _ _ _ => (isClean_settle _ (Fault.only_ok _)).bind fun _ => isClean_return _) _)
        fun _ =>
      isClean_return _
  split
  · refine (isClean_onChild i _).bind fun _ => (isClean_finishPipe _).bind fun _ => ?_
    split
    · exact (isClean_finishPipe _).bind fun _ => wakes
    · exact wakes
  · exact isClean_return _

theorem isClean_childExitsLater (i : ChildId) (p : Peer) : IsClean E (childExitsLater i p) := by
  unfold childExitsLater
  split
  · exact isClean_childExits i _
  · have exits : Job.Holds cleanly (.notify (.childExits i p.exitCode) : Job Event) := trivial
    exact (isClean_callLater _ exits).bind fun _ => isClean_return _

theorem isClean_childPeer (i : ChildId) : IsClean E (childPeer i) :=
  (isClean_child i).bind fun _ => isClean_get.bind fun _ => isClean_return _

theorem isClean_peerOf (t : TransportId) : IsClean E (peerOf t) := by
  refine (isClean_transport t).bind fun _ => ?_
  split
  · exact isClean_childPeer _
  · exact isClean_get.bind fun _ => isClean_return _

theorem isClean_onPeer (f : Peer → Peer) : IsClean E (onPeer f) :=
  isClean_modify fun _ => ⟨rfl, rfl, rfl, rfl⟩

theorem isClean_serverSends (t : TransportId) (body : Octets) : IsClean E (serverSends t body) := by
  refine (isClean_transport t).bind fun _ => ?_
  split
  · exact isClean_deliver t trivial
  · exact isClean_feedPipe _ _
  · exact isClean_return _

theorem isClean_serverFinishes (t : TransportId) : IsClean E (serverFinishes t) := by
  refine (isClean_transport t).bind fun _ => ?_
  split
  · exact isClean_deliver t trivial
  · exact isClean_finishPipe _
  · exact isClean_return _

theorem isClean_serverBreaks (t : TransportId) {f : Fault} (hf : f.isBreach = false) :
    IsClean E (serverBreaks t f) := by
  refine (isClean_transport t).bind fun _ => ?_
  split
  · exact isClean_deliver t hf
  · exact isClean_breakPipe _ hf
  · exact isClean_return _

theorem isClean_afterHandshake (t : TransportId) : IsClean E (afterHandshake t) := by
  unfold afterHandshake
  refine (isClean_peerOf t).bind fun p => ?_
  extract_lets crash
  have hcrash : ∀ u, IsClean E (crash u) := fun _ => by
    refine (isClean_transport t).bind fun _ => ?_
    split
    · exact isClean_childExits _ _
    · exact isClean_return _
  split
  · exact (isClean_onPeer _).bind fun _ => (isClean_serverFinishes t).bind hcrash
  · exact hcrash ()

theorem isClean_serverReceives (t : TransportId) (text : String) : IsClean E (serverReceives t text) := by
  unfold serverReceives
  refine (isClean_transport t).bind fun _ => ?_
  extract_lets hear
  have hhear : ∀ place, IsClean E (hear place) := fun place => by
    refine (isClean_note _).bind fun _ => ?_
    split
    · exact isClean_return _
    · split
      · refine (isClean_peerOf t).bind fun _ => ?_
        extract_lets after
        have hafter : ∀ u, IsClean E (after u) := fun _ => by
          dsimp only [after]
          split
          · exact isClean_afterHandshake t
          · exact isClean_return _
        split
        · split
          · exact (isClean_serverSends t _).bind hafter
          · exact hafter ()
        · exact hafter ()
      · exact isClean_return _
  split
  · exact (isClean_child _).bind fun _ => (isClean_return _).bind hhear
  · exact (isClean_return _).bind hhear

theorem isClean_write (t : TransportId) (text : String) : IsClean E (write t text) := by
  unfold write
  refine (isClean_transport t).bind fun x => ?_
  extract_lets receives rest
  have hreceives : ∀ u, IsClean E (receives u) := fun _ => isClean_serverReceives t text
  have hrest : ∀ u, IsClean E (rest u) := fun _ => by
    refine (isClean_peerOf t).bind fun _ => ?_
    split
    · split
      · exact isClean_throw_bind rfl _
      · exact hreceives ()
    · split
      · exact isClean_throw_bind rfl _
      · exact (isClean_note _).bind hreceives
  split
  · exact isClean_throw_bind rfl _
  · exact hrest ()

/-! ## Requests -/

/-- A message without a JSON text is no breach. -/
theorem spares_printObject (members : List (String × Value)) : Fault.Spares (Message.printObject members) := by
  intro f h
  unfold Message.printObject at h
  cases hp : Json.print (.object members) with
  | ok text => rw [hp] at h; cases h
  | error e =>
    rw [hp] at h
    cases h
    exact isBreach_toFault e

theorem isClean_writeText (s : SessionId) (purpose : Purpose) {text : Except Fault String} (ht : Fault.Spares text) :
    IsClean E (writeText s purpose text) := by
  unfold writeText
  split
  · next f => exact isClean_throw (ht f rfl)
  · refine (isClean_session s).bind fun _ => ?_
    split
    · exact isClean_throw rfl
    · exact IsClean.bind (isClean_onTransport _ fun _ h => by exact h) fun _ => isClean_write _ _

theorem isClean_reportSettlement (id : RequestId) (settlement : Registry.Settlement) :
    IsClean E (reportSettlement id settlement) := by
  unfold reportSettlement
  split
  · exact isClean_return _
  · exact (isClean_log ..).bind fun _ => isClean_return _
  · exact (isClean_log ..).bind fun _ => isClean_return _

theorem isClean_register (owner : Owner) (id : RequestId) (method : String) (timeout : Option Number)
    (onCancel : Option CancelHook) : IsClean E (register owner id method timeout onCancel) :=
  (isClean_withRegistry owner (isTidy_register owner id method timeout onCancel)).bind fun _ => isClean_return _

theorem isClean_settleRequest (owner : Owner) (id : RequestId) {o : Outcome} (ho : Fault.Spares o) :
    IsClean E (settleRequest owner id o) :=
  (isClean_withRegistry owner (isTidy_settle id ho)).bind fun _ => isClean_reportSettlement id _

theorem isClean_rejectAll (owner : Owner) {f : Fault} (hf : f.isBreach = false) : IsClean E (rejectAll owner f) :=
  isClean_withRegistry owner (isTidy_rejectAll hf)

theorem isClean_tellServerCancelled (s : SessionId) (id : RequestId) : IsClean E (tellServerCancelled s id) := by
  refine (isClean_session s).bind fun _ => ?_
  split
  · exact (isClean_writeText s _ (spares_printObject _)).catchTransport fun _ _ => isClean_logSession ..
  · exact isClean_return _

theorem isClean_runCancelHook (owner : Owner) (p : Pending CancelHook) : IsClean E (runCancelHook owner p) := by
  refine IsClean.bind (IsClean.attempt (Q := fun _ => True) ?hook) fun _ => ?reported
  case hook =>
    split
    · exact isClean_return _
    · exact isClean_tellServerCancelled _ _
    · exact isClean_return _
    · refine (isClean_note _).bind fun _ => ?_
      split
      · exact isClean_throw rfl
      · exact isClean_return _
  case reported =>
    split
    · exact isClean_return _
    · exact isClean_log ..

theorem isClean_cancelRequest (owner : Owner) (id : RequestId) : IsClean E (cancelRequest owner id) := by
  refine (isClean_withRegistry owner (isTidy_cancel id)).bind fun _ => ?_
  split
  · exact isClean_return _
  · exact (isClean_runCancelHook _ _).bind fun _ => isClean_return _

theorem isClean_requestSettled (owner : Owner) (id : RequestId) (promise : PromiseId) :
    IsClean E (requestSettled owner id promise) := by
  refine (isClean_withRegistry owner (isTidy_forgetCancelled id promise)).bind fun _ => ?_
  split
  · exact isClean_return _
  · exact (isClean_log ..).bind fun _ => isClean_runCancelHook _ _

theorem isClean_requestExpired (owner : Owner) (id : RequestId) (timeout : Number) :
    IsClean E (requestExpired owner id timeout) := by
  refine (isClean_registryOf owner).bind fun _ => ?_
  split
  · exact isClean_return _
  · exact (isClean_log ..).bind fun _ => (isClean_withRegistry owner (isTidy_expire id timeout)).bind fun _ =>
      (isClean_reportSettlement _ _).bind fun _ => isClean_return _

theorem isClean_sendUnchecked (hE : E.IsClean) (s : SessionId) (purpose : Purpose) (method : String) (params : Value)
    (timeout : Option Number) : IsClean E (sendUnchecked s purpose method params timeout) := by
  refine (isClean_session s).bind fun _ => (isClean_onSession fun _ topic => by cases topic <;> rfl).bind fun _ =>
    (isClean_register ..).bind fun _ => IsClean.bind (Q := fun _ => True) ?_ fun _ => isClean_return _
  refine (isClean_writeText s _ (spares_printObject _)).catchTransport fun f hf => ?_
  exact (isClean_reportProtocolFault hE s _ _).bind fun _ =>
    (isClean_settleRequest _ _ (Fault.only_error hf)).bind fun _ => isClean_return _

theorem isClean_requireRunning (s : SessionId) (operation : String) : IsClean E (requireRunning s operation) := by
  refine (isClean_session s).bind fun x => ?_
  unfold Lifecycle.requireRunning
  cases x.lifecycle.isRunning with
  | true => exact isClean_return ()
  | false => exact isClean_throw rfl

theorem isClean_sendRequest (hE : E.IsClean) (s : SessionId) (method : String) (params : Value) (patience : Patience) :
    IsClean E (sendRequest s method params patience) := by
  refine (isClean_requireRunning s _).bind fun _ => ?_
  split
  · exact (isClean_session s).bind fun _ => (isClean_return _).bind fun _ => isClean_sendUnchecked hE ..
  · exact (isClean_return _).bind fun _ => isClean_sendUnchecked hE ..

theorem isClean_sendNotification (hE : E.IsClean) (s : SessionId) (method : String) (params : Value) :
    IsClean E (sendNotification s method params) :=
  (isClean_requireRunning s _).bind fun _ =>
    (isClean_writeText s _ (spares_printObject _)).catchTransport fun _ _ => isClean_reportProtocolFault hE s _ _

theorem isClean_resync (hE : E.IsClean) (s : SessionId) : IsClean E (resync s) := by
  refine (isClean_session s).bind fun _ => ?_
  split
  · exact (isClean_sendNotification hE s _ _).bind fun _ => isClean_return _
  · exact (isClean_log ..).bind fun _ => isClean_return _

/-! ## Messages of the server -/

theorem isClean_rejectBadMessage (hE : E.IsClean) (s : SessionId) {f : Fault} (hf : f.isBreach = false) :
    IsClean E (rejectBadMessage s f) := by
  refine (isClean_reportProtocolFault hE s _ _).bind fun _ => ?_
  split
  · exact (isClean_settleRequest _ _ (Fault.only_error hf)).bind fun _ => isClean_return _
  · exact isClean_return _

theorem isClean_handleResponse (hE : E.IsClean) (s : SessionId) (id : RequestId) {o : Outcome} (ho : Fault.Spares o) :
    IsClean E (handleResponse s id o) := by
  refine (isClean_settleRequest _ _ ho).bind fun _ => (isClean_session s).bind fun _ => ?_
  split
  · exact isClean_reportProtocolFault hE s _ _
  · exact isClean_return _

theorem isClean_showMessage (params : Value) : IsClean E (showMessage params) := by
  refine isClean_time.bind fun _ => ?_
  split
  · exact isClean_showLine _
  · next h =>
    obtain ⟨_, _, _, rfl⟩ := outputLine_eq_error h
    exact isClean_throw rfl

theorem isClean_handleNotification (hE : E.IsClean) (s : SessionId) (method : String) (params : Value) :
    IsClean E (handleNotification s method params) := by
  have calls := isClean_dispatchNotification hE s method params
  unfold handleNotification
  split
  · exact isClean_time.bind fun _ => (isClean_emitTelemetry hE s _).bind fun _ => calls
  · refine (isClean_session s).bind fun _ => ?_
    split
    · exact (isClean_showMessage params).bind fun _ => calls
    · exact calls

theorem isClean_handleRequest (s : SessionId) (id : RequestId) (method : String) (params : Value) :
    IsClean E (handleRequest s id method params) := by
  have ends : ∀ task, Job.Holds cleanly (.notify (.answerEnded s task) : Job Event) := fun _ => trivial
  exact (isClean_spawn ⟨rfl, rfl⟩).bind fun task => (isClean_onSession fun _ topic => by cases topic <;> rfl).bind
      fun _ =>
    isClean_observe _ (ends task)

theorem isClean_handleBody (hE : E.IsClean) (s : SessionId) (body : Octets) : IsClean E (handleBody s body) := by
  refine (isClean_session s).bind fun x => ?_
  cases hm : Message.parse (.octets body) x.settings.maxMessageSize with
  | error f =>
    -- What cannot be parsed is malformed, or has a number with too many digits.
    have hf : f.isBreach = false := by
      rcases parse_eq_error hm with protocol | ⟨_, _, rfl⟩
      · cases f <;> first | rfl | cases protocol
      · rfl
    show IsClean E (if f.isProtocol then rejectBadMessage s f else throw f)
    split
    · exact isClean_rejectBadMessage hE s hf
    · exact isClean_throw hf
  | ok m =>
    cases m with
    | result id value => exact isClean_handleResponse hE s id (Fault.only_ok value)
    | error id error => exact isClean_handleResponse hE s id (Fault.only_error rfl)
    | request id method params => exact isClean_handleRequest s id method params
    | notification method params => exact isClean_handleNotification hE s method params

end LspClient.Client
