/-
What telemetry shows. A record that is sent is shown by every recorder, kept by the other backends or lost, and nothing
else changes, as long as handlers of telemetry only look on and no records are posted in the background.
-/
import LspClient.Proofs.Client.Reader

namespace LspClient

open Telemetry (Backend Record)

variable {E : Executor} {α β : Type} {c c' c'' : Client} {s : SessionId} {rs rs' : List Record}

/-! ## Definitions -/

/-- The record of telemetry that is shown. -/
def Note.record? : Note → Option Record
  | .telemetry r => some r
  | _ => none

/-- A handler that only looks on: it takes no steps, and does not cancel whoever calls it. -/
def Handler.LooksOn : Handler → Prop
  | .script r => r.steps = [] ∧ ∀ f, r.ending = .raises f → f.isCancellation = false
  | _ => False

namespace Client

/-- The records that have been shown so far. -/
def records (c : Client) : List Record :=
  c.notes.toList.filterMap Note.record?

/-- The kinds of the backends of telemetry. -/
def kinds (c : Client) : List String :=
  c.sink.backends.map Backend.kind

/-- How many times a record that is sent is shown. -/
def recorders (c : Client) : Nat :=
  if c.sink.enabled then c.kinds.count Backend.recorder.kind else 0

/-- How many times a record of a session is shown. -/
def echoes (c : Client) (s : SessionId) : Nat :=
  if (c.sessionAt s).settings.hasTelemetry then c.recorders else 0

/-- Telemetry of a session is kept here, and handlers only look at it. -/
structure Discreet (c : Client) (s : SessionId) : Prop where
  kept : ∀ p, (Backend.http p).kind ∉ c.kinds
  handlers : ∀ h ∈ (c.sessionAt s).telemetryHandlers.handlers Session.telemetryTopic, h.LooksOn

/-- Records are shown, and nothing else changes but what backends keep. -/
structure Shows (c : Client) (rs : List Record) (c' : Client) : Prop where
  same : c' = { c with notes := c'.notes, sink := c'.sink, files := c'.files }
  enabled : c'.sink.enabled = c.sink.enabled
  kinds : c'.kinds = c.kinds
  records : c'.records = c.records ++ rs

/-- The record of telemetry for what is wrong with the protocol. -/
def protocolRecord (c : Client) (s : SessionId) (message : String) (properties : List (String × Value)) : Record :=
  ⟨Telemetry.protocolErrorEvent,
    [("session", .str (c.sessionAt s).name), ("errorType", .str "ProtocolError"), ("message", .str message)] ++
    properties, timestamp (c.origin + microsOfSeconds c.loop.now)⟩

/-- An operation that succeeds, and does nothing but show records. -/
def ShowsAt (E : Executor) (rs : List Record) (op : ClientM α) (c : Client) : Prop :=
  ∃ a c', does E op c = (.ok a, c') ∧ c.Shows rs c'

/-! ## Showing records -/

theorem Shows.refl (c : Client) : c.Shows [] c :=
  ⟨rfl, rfl, rfl, (List.append_nil _).symm⟩

theorem Shows.trans (h : c.Shows rs c') (h' : c'.Shows rs' c'') : c.Shows (rs ++ rs') c'' := by
  refine ⟨?_, h'.enabled.trans h.enabled, h'.kinds.trans h.kinds, ?_⟩
  · have same := h'.same
    rw [h.same] at same
    exact same
  · rw [h'.records, h.records, List.append_assoc]

theorem Shows.sessionAt (h : c.Shows rs c') (x : SessionId) : c'.sessionAt x = c.sessionAt x := by
  rw [h.same]
  rfl

theorem Shows.recorders (h : c.Shows rs c') : c'.recorders = c.recorders := by
  unfold Client.recorders
  rw [h.enabled, h.kinds]

theorem Shows.discreet (h : c.Shows rs c') (discreet : c.Discreet s) : c'.Discreet s := by
  refine ⟨fun p => ?_, ?_⟩
  · rw [h.kinds]
    exact discreet.kept p
  · rw [h.sessionAt]
    exact discreet.handlers

theorem showsAt_pure (a : α) (c : Client) : ShowsAt E [] (pure a) c :=
  ⟨a, c, rfl, .refl c⟩

theorem ShowsAt.bind {op : ClientM α} {f : α → ClientM β} (h : ShowsAt E rs op c)
    (hf : ∀ a c', does E op c = (.ok a, c') → c.Shows rs c' → ShowsAt E rs' (f a) c') :
    ShowsAt E (rs ++ rs') (op >>= f) c := by
  obtain ⟨a, c', hx, shows⟩ := h
  obtain ⟨b, c'', hy, shows'⟩ := hf a c' hx shows
  exact ⟨b, c'', (does_bind_of_ok hx f).trans hy, shows.trans shows'⟩

/-- What follows something that shows no record. -/
theorem ShowsAt.then {op : ClientM α} {f : α → ClientM β} (h : ShowsAt E [] op c)
    (hf : ∀ a c', does E op c = (.ok a, c') → c.Shows [] c' → ShowsAt E rs (f a) c') : ShowsAt E rs (op >>= f) c :=
  h.bind hf

/-- What follows a look at the client. -/
theorem ShowsAt.of_ok {op : ClientM α} {f : α → ClientM β} {a : α} (looked : does E op c = (.ok a, c))
    (h : ShowsAt E rs (f a) c) : ShowsAt E rs (op >>= f) c := by
  obtain ⟨b, c', hx, shows⟩ := h
  exact ⟨b, c', (does_bind_of_ok looked f).trans hx, shows⟩

/-- What is shown is seen. -/
theorem showsAt_note (n : Note) (c : Client) : ShowsAt E n.record?.toList (note n) c := by
  refine ⟨⟨⟩, { c with notes := c.notes.push n }, rfl, rfl, rfl, rfl, ?_⟩
  unfold Client.records
  rw [Array.toList_push, List.filterMap_append]
  cases n <;> rfl

theorem showsAt_log (level : Log.Level) (source : Log.Source) (message : String) (fields : List (String × Value))
    (fault : Option Fault) (c : Client) : ShowsAt E [] (log level source message fields fault) c :=
  .of_ok (does_get c) (showsAt_note _ c)

theorem showsAt_logSession (s : SessionId) (level : Log.Level) (message : String) (fields : List (String × Value))
    (fault : Option Fault) (c : Client) : ShowsAt E [] (logSession s level message fields fault) c :=
  .of_ok (does_session s c) (showsAt_log ..)

/-- What succeeds, or fails without a cancellation, is attempted. -/
theorem showsAt_attempt {op : ClientM α} {r : Except Fault α} (hx : does E op c = (r, c')) (shows : c.Shows rs c')
    (other : ∀ f, r = .error f → f.isCancellation = false) : ShowsAt E rs (attempt op) c := by
  cases r with
  | ok a => exact ⟨.ok a, c', does_attempt_of_ok hx, shows⟩
  | error f => exact ⟨.error f, c', does_attempt_of_error hx (other f rfl), shows⟩

/-! ## Sending records -/

/-- A backend at a place keeps its kind. -/
theorem shows_setBackend {index : Nat} {b b' : Backend} (there : c.sink.backends[index]? = some b)
    (same : b'.kind = b.kind) :
    c.Shows [] { c with sink := c.sink.setBackend index b' } := by
  refine ⟨rfl, rfl, ?_, (List.append_nil _).symm⟩
  unfold Client.kinds Telemetry.Sink.setBackend
  obtain ⟨inside, rfl⟩ := List.getElem?_eq_some_iff.1 there
  rw [List.map_set, same, ← List.getElem_map Backend.kind (h := by simpa using inside), List.set_getElem_self]

/-- Every recorder shows a record; the other backends keep it or fail. -/
theorem showsAt_emitTo {index : Nat} {b : Backend} (there : c.sink.backends[index]? = some b)
    (kept : ∀ p, b ≠ .http p) (r : Record) :
    ShowsAt E (if b.kind = Backend.recorder.kind then [r] else []) (attempt (emitTo index b r)) c := by
  cases b with
  | memory limit old => exact showsAt_attempt rfl (shows_setBackend there rfl) nofun
  | file path isOpen =>
    cases isOpen with
    | false => exact showsAt_attempt rfl (.refl c) nofun
    | true =>
      cases hl : Telemetry.line r with
      | ok line =>
        have emits : emitTo index (.file path true) r = appendFile path (line ++ "\n") := by simp [emitTo, hl]
        rw [emits]
        exact showsAt_attempt rfl ⟨rfl, rfl, rfl, (List.append_nil _).symm⟩ nofun
      | error f =>
        have emits : emitTo index (.file path true) r = throw f.toFault := by simp [emitTo, hl]
        rw [emits]
        refine showsAt_attempt rfl (.refl c) fun e he => ?_
        cases he
        cases f <;> rfl
  | http p => exact absurd rfl (kept p)
  | broken =>
    refine showsAt_attempt rfl (.refl c) fun e he => ?_
    cases he
    rfl
  | recorder =>
    obtain ⟨a, c', hx, shows⟩ := showsAt_note (E := E) (.telemetry r) c
    exact showsAt_attempt hx shows nofun

/-- What is shown at each place adds up. -/
theorem showsAt_forIn {f : Nat → PUnit → ClientM (ForInStep PUnit)} {ks : List String} {want : Nat → List Record}
    (step : ∀ i c, c.kinds = ks → ∃ c', does E (f i ⟨⟩) c = (.ok (.yield ⟨⟩), c') ∧ c.Shows (want i) c')
    (places : List Nat) (c : Client) (here : c.kinds = ks) :
    ShowsAt E (places.flatMap want) (forIn places PUnit.unit f) c := by
  induction places generalizing c with
  | nil => exact showsAt_pure _ c
  | cons i places ih =>
    obtain ⟨c', hx, shows⟩ := step i c here
    obtain ⟨a, c'', hy, shows'⟩ := ih c' (shows.kinds.trans here)
    rw [List.forIn_cons, List.flatMap_cons]
    exact ⟨a, c'', (does_bind_of_ok hx _).trans hy, shows.trans shows'⟩

/-- As often as something is in a list, it is found at its places. -/
theorem flatMap_range_eq_replicate {γ : Type} (ks : List String) (k : String) (r : γ) :
    ((List.range ks.length).flatMap fun i => if ks[i]? = some k then [r] else []) = List.replicate (ks.count k) r := by
  induction ks with
  | nil => rfl
  | cons x ks ih =>
    rw [List.length_cons, List.range_succ_eq_map, List.flatMap_cons, List.flatMap_map]
    simp only [List.getElem?_cons_zero, List.getElem?_cons_succ, Option.some.injEq, ih, List.count_cons, beq_iff_eq]
    by_cases hx : x = k
    · rw [if_pos hx, if_pos hx, List.replicate_succ]
      rfl
    · rw [if_neg hx, if_neg hx]
      rfl

/-- A record that is sent is shown by every recorder. -/
theorem showsAt_send (kept : ∀ p, (Backend.http p).kind ∉ c.kinds) (r : Record) :
    ShowsAt E (List.replicate c.recorders r) (send r) c := by
  unfold send
  refine .of_ok (does_get c) ?_
  cases enabled : c.sink.enabled with
  | false =>
    have none : c.recorders = 0 := by simp [recorders, enabled]
    rw [none]
    exact showsAt_pure _ c
  | true =>
    have every : List.replicate c.recorders r =
        ((List.range c.sink.backends.length).flatMap
        fun i => if c.kinds[i]? = some Backend.recorder.kind then [r] else []) := by
      have length : c.sink.backends.length = c.kinds.length := (List.length_map _).symm
      rw [length, flatMap_range_eq_replicate, recorders, if_pos enabled]
    rw [every, ← List.append_nil (List.flatMap ..)]
    refine ShowsAt.of_ok (does_get c) (ShowsAt.bind (showsAt_forIn (fun i d here => ?_) _ c rfl) fun _ d _ _ =>
      showsAt_pure _ d)
    cases there : d.sink.backends[i]? with
    | none =>
      refine ⟨d, ?_, ?_⟩
      · rw [does_bind_of_ok (does_get d), there]
        rfl
      · have outside : c.kinds[i]? = none := by
          rw [← here, kinds, List.getElem?_map, there]
          rfl
        simpa [outside] using Shows.refl d
    | some b =>
      have kind : c.kinds[i]? = some b.kind := by
        rw [← here, kinds, List.getElem?_map, there]
        rfl
      have plain : ∀ p, b ≠ .http p := fun p e => kept p (e ▸ List.mem_of_getElem? kind)
      obtain ⟨outcome, d', hx, shows⟩ := showsAt_emitTo (E := E) there plain r
      simp only [kind, Option.some.injEq]
      -- What fails in a backend is logged.
      cases outcome with
      | ok u =>
        refine ⟨d', ?_, shows⟩
        rw [does_bind_of_ok (does_get d), there]
        dsimp only
        rw [does_bind_of_ok hx]
        rfl
      | error f =>
        obtain ⟨_, d'', hy, logged⟩ := showsAt_log (E := E) .warning .sink
          ("Telemetry backend " ++ b.kind ++ " failed for " ++ r.event) [] (some f) d'
        refine ⟨d'', ?_, ?_⟩
        · rw [does_bind_of_ok (does_get d), there]
          dsimp only
          rw [does_bind_of_ok hx]
          exact does_bind_of_ok hy _
        · simpa using shows.trans logged

/-! ## Telling handlers -/

/-- Handlers that only look on do nothing. -/
theorem showsAt_callHandler {h : Handler} (looks : h.LooksOn) (argument : Display) (c : Client) :
    ∃ r c', does E (callHandler argument h) c = (r, c') ∧ c.Shows [] c' ∧ ∀ f, r = .error f →
    f.isCancellation = false := by
  cases h with
  | logResync x => exact looks.elim
  | giveUp => exact looks.elim
  | script r =>
    obtain ⟨none, quiet⟩ := looks
    obtain ⟨label, steps, pause, ending⟩ := r
    cases none
    cases pause with
    | some pause => exact ⟨_, c, rfl, .refl c, nofun⟩
    | none =>
      obtain ⟨_, c', hx, shows⟩ := showsAt_note (E := E) (.got [.text label, argument]) c
      cases ending with
      | returns v =>
        have reacts : does E (react ⟨label, [], none, .returns v⟩ argument) c = (.ok v, c') := does_bind_of_ok hx _
        exact ⟨.ok (), c', does_bind_of_ok reacts _, shows, nofun⟩
      | raises f =>
        have reacts : does E (react ⟨label, [], none, .raises f⟩ argument) c = (.error f, c') := does_bind_of_ok hx _
        refine ⟨.error f, c', does_bind_of_error reacts _, shows, fun e he => ?_⟩
        cases he
        exact quiet f rfl

/-- What fails in a handler is logged, and the others are told. -/
theorem showsAt_dispatchIn {r : Router Handler} {method : String} (looks : ∀ h ∈ r.handlers method, h.LooksOn)
    (name : String) (argument : Display) (c : Client) :
    ShowsAt E [] (dispatchIn r name method argument fun _ => pure ()) c := by
  unfold dispatchIn Router.dispatch
  generalize 0 = completed
  generalize r.handlers method = hs at looks ⊢
  induction hs generalizing completed c with
  | nil => exact showsAt_pure _ c
  | cons h hs ih =>
    rw [List.foldlM_cons]
    refine ShowsAt.then ?_ fun n c' _ _ =>
      ih c' n fun x hx => looks x (List.mem_cons_of_mem _ hx)
    obtain ⟨r, d, hx, shows, quiet⟩ := showsAt_callHandler (E := E) (looks h (List.mem_cons_self ..)) argument c
    cases r with
    | ok u =>
      refine ⟨completed + 1, d, ?_, shows⟩
      rw [does_tryCatch, does_bind_of_ok hx, does_pure]
    | error f =>
      obtain ⟨_, d', hy, logged⟩ := showsAt_log (E := E) .error .router
        (name ++ " handler for " ++ Text.quoted method ++ " failed") [] (some f) d
      refine ⟨completed, d', ?_, shows.trans logged⟩
      rw [does_tryCatch, does_bind_of_error hx]
      dsimp only
      rw [if_neg (by simp [quiet f rfl]), bind_assoc, does_bind_of_ok hy]
      rfl

/-- A record of a session is shown by every recorder. -/
theorem showsAt_emitTelemetry (discreet : c.Discreet s) (r : Record) :
    ShowsAt E (List.replicate (c.echoes s) r) (emitTelemetry s r) c := by
  have told : ∀ {rs d}, c.Shows rs d → ShowsAt E [] (do
      let _ ← dispatchIn (← session s).telemetryHandlers "telemetry" Session.telemetryTopic (.value r.toValue)
        fun _ => pure ()) d := by
    intro rs d shows
    refine .of_ok (does_session s d) ?_
    exact ShowsAt.then (showsAt_dispatchIn (shows.discreet discreet).handlers _ _ d) fun _ d' _ _ =>
      showsAt_pure _ d'
  unfold emitTelemetry echoes
  refine .of_ok (does_session s c) ?_
  cases (c.sessionAt s).settings.hasTelemetry with
  | false => exact told (.refl c)
  | true =>
    rw [if_pos rfl, ← List.append_nil (List.replicate ..)]
    exact (showsAt_send discreet.kept r).bind fun _ d _ shows => told shows

/-- What is wrong with the protocol is logged, and then a record of it is sent. -/
theorem does_reportProtocolFault (s : SessionId) (message : String) (properties : List (String × Value)) (c : Client) :
    ∃ d, c.Shows [] d ∧ does E (reportProtocolFault s message properties) c =
      does E (emitTelemetry s (c.protocolRecord s message properties)) d := by
  obtain ⟨_, d, logged, shows⟩ := showsAt_logSession (E := E) s .warning
    ("Protocol error in session " ++ (c.sessionAt s).name ++ ": " ++ message) [] none c
  refine ⟨d, shows, ?_⟩
  have made : does E (recordOf Telemetry.protocolErrorEvent
      ([("session", .str (c.sessionAt s).name), ("errorType", .str "ProtocolError"), ("message", .str message)] ++
        properties)) d =
      (.ok (c.protocolRecord s message properties), d) := by
    rw [shows.same]
    rfl
  unfold reportProtocolFault
  rw [does_bind_of_ok (does_session s c), does_bind_of_ok logged]
  exact does_bind_of_ok made _

theorem Shows.echoes (h : c.Shows rs c') (s : SessionId) : c'.echoes s = c.echoes s := by
  unfold Client.echoes
  rw [h.sessionAt, h.recorders]

/-- What is wrong with the protocol is told of. -/
theorem showsAt_reportProtocolFault (discreet : c.Discreet s) (message : String) (properties : List (String × Value)) :
    ShowsAt E (List.replicate (c.echoes s) (c.protocolRecord s message properties))
    (reportProtocolFault s message properties) c := by
  obtain ⟨d, shows, told⟩ := does_reportProtocolFault (E := E) s message properties c
  obtain ⟨_, c', emitted, shows'⟩ :=
    showsAt_emitTelemetry (E := E) (shows.discreet discreet) (c.protocolRecord s message properties)
  rw [shows.echoes] at shows'
  exact ⟨_, c', told.trans emitted, shows.trans shows'⟩

end Client

end LspClient
