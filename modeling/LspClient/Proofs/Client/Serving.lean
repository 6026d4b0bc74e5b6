/-
Serving the server of a session: a reader handles the messages of the server one after another, and tasks
of their own answer its requests, each by one message at most.
-/
import LspClient.Proofs.Client.Vital

namespace LspClient

open Activity (IsRoot)

/-! ## Definitions -/

namespace Client

/-- A request of the server is answered: one text is written, on the transport of the session. -/
structure Replies (s : SessionId) (id : RequestId) (t : TransportId) (text : String) (c c' : Client) : Prop
    extends Goes IsRoot c c' where
  stays : ∀ x, (c.sessionAt x).Stays False (c'.sessionAt x)
  transport : (c.sessionAt s).transport = some t
  fits : Message.Answers id text
  written : t < c.transports.size → c'.answersOn t = c.answersOn t ++ [text]
  elsewhere : ∀ u, u ≠ t → c'.answersOn u = c.answersOn u

/-- How a request of the server goes on to be answered: its handler takes its time, or it is answered, or
there is no transport to do so, or something goes wrong. -/
inductive Answers (s : SessionId) (id : RequestId) (c : Client) : Except Fault Next → Client → Prop
  | waits {b k : Activity} {c' : Client} (still : c.Still IsRoot none c') (calls : b.IsRoot)
    (again : k.answers = some (s, id)) :
    Answers s id c (.ok (.call b k)) c'
  | replies {r : Except Fault Next} {t : TransportId} {text : String} {c' : Client} (writes : c.Replies s id t text c')
    (ends : framesOf r = []) : Answers s id c r c'
  | drops {r : Except Fault Next} {c' : Client} (still : c.Still IsRoot none c') (ends : framesOf r = [])
    (why : (c.sessionAt s).transport = none ∨ ∃ f, r = .error f) : Answers s id c r c'

end Client

/-- An operation that goes on to answer a request of the server. -/
def AnswersAt (E : Executor) (s : SessionId) (id : RequestId) (op : ClientM Next) (c : Client) : Prop :=
  (does E op c).2.Sound ∧ c.Answers s id (does E op c).1 (does E op c).2

/-- The text of an answer to a request, or why there is none. -/
structure Message.Drafts (id : RequestId) (text : Except Fault String) : Prop where
  fits : ∀ x, text = .ok x → Message.Answers id x
  fails : ∀ f, text = .error f → f.isTransport = false

/-! ## Texts of answers -/

theorem Message.drafts_formatResult (id : RequestId) (v : Value) : Message.Drafts id (Message.formatResult id v) :=
  ⟨fun _ h => .inl ⟨v, h⟩, fun _ h => Message.isTransport_of_printObject h⟩

theorem Message.drafts_formatError (id : RequestId) (code : Int) (message : String) (data : Value) :
    Message.Drafts id (Message.formatError id code message data) :=
  ⟨fun _ h => .inr ⟨code, message, data, h⟩, fun _ h => Message.isTransport_of_printObject h⟩

namespace Client

variable {E : Executor} {s : SessionId} {id : RequestId} {c d : Client}

/-! ## Answering requests -/

/-- What leaves sessions alone before a request is answered is part of that. -/
theorem Still.replies_trans {t : TransportId} {text : String} (h : c.Still IsRoot none d) {c' : Client}
    (h' : d.Replies s id t text c') : c.Replies s id t text c' where
  toGoes := h.goes.trans h'.toGoes
  stays x := (h.stays_false x).trans (h'.stays x)
  transport := by rw [← (h.stays_false s).transport]; exact h'.transport
  fits := h'.fits
  written inside := by rw [h'.written (Nat.lt_of_lt_of_le inside h.grows), h.answers]
  elsewhere u other := by rw [h'.elsewhere u other, h.answers]

theorem Still.answers_trans (h : c.Still IsRoot none d) {r : Except Fault Next} {c' : Client}
    (h' : d.Answers s id r c') :
    c.Answers s id r c' := by
  cases h' with
  | waits still calls again => exact .waits (h.trans still) calls again
  | replies writes ends => exact .replies (h.replies_trans writes) ends
  | drops still ends why =>
    rw [(h.stays_false s).transport] at why
    exact .drops (h.trans still) ends why

end Client

section

variable {E : Executor} {s : SessionId} {id : RequestId} {c : Client}

theorem IsMinor.answers_bind {α : Type} {x : ClientM α} {f : α → ClientM Next} (h : IsMinor E x) (hc : c.Sound)
    (hf : ∀ a d, d.Sound → AnswersAt E s id (f a) d) : AnswersAt E s id (x >>= f) c := by
  obtain ⟨m, hd⟩ := h.minorAt c hc
  unfold AnswersAt
  rw [does_bind]
  rcases hx : does E x c with ⟨e | a, d⟩
  all_goals rw [hx] at m hd
  · exact ⟨hd, .drops m.still rfl (.inr ⟨e, rfl⟩)⟩
  · obtain ⟨hc', answers⟩ := hf a d hd
    exact ⟨hc', m.still.answers_trans answers⟩

end

namespace Client

variable {E : Executor} {s : SessionId} {id : RequestId} {c : Client}

theorem answersAt_throw (hc : c.Sound) (f : Fault) : AnswersAt E s id (throw f) c :=
  ⟨hc, .drops (Still.refl none c) rfl (.inr ⟨f, rfl⟩)⟩

/-- An operation after which nothing is left to do. -/
theorem framesOf_done (op : ClientM Unit) (c : Client) :
    framesOf (does E (op >>= fun _ => pure (.done .null)) c).1 = [] := by
  rw [does_bind]
  rcases does E op c with ⟨f | u, d⟩
  · rfl
  · rfl

/-- An answer is written once, if it has a text and there is a transport. -/
theorem answersAt_sendAnswer (hE : E.IsTame) (hc : c.Sound) (method : String) {text : Except Fault String}
    (drafts : Message.Drafts id text) : AnswersAt E s id (sendAnswer s method text) c := by
  have reports : ∀ f : Fault, IsMinor E
      (reportProtocolFault s ("Failed to answer request: " ++ f.message) [("method", .str method)]) :=
    fun f => isMinor_reportProtocolFault hE s _ _
  rcases does_writeText (E := E) s .answer text c with ⟨f, hx, why⟩ | ⟨x, t, hx, ht, hw⟩
  · have writes : MinorAt E (writeText s .answer text) c := by
      unfold MinorAt
      rw [hx]
      exact ⟨Minor.refl c, hc⟩
    obtain ⟨m, hc'⟩ := (writes.catchTransport reports).bind fun _ d _ _ hd => minorAt_pure hd (Next.done .null)
    refine ⟨hc', .drops m.still (framesOf_done _ c) ?_⟩
    rcases why with noText | none
    · right
      refine ⟨f, ?_⟩
      unfold sendAnswer catchTransport
      rw [does_bind, does_tryCatch, hx]
      simp [drafts.fails f noText]
    · exact .inl none
  · have writes := (isMinor_write (E := E) t x).minorAt _ (hc.record t (.answer, x))
    obtain ⟨m, hc'⟩ := (writes.catchTransport reports).bind fun _ d _ _ hd => minorAt_pure hd (Next.done .null)
    have same : does E (sendAnswer s method text) c = does E ((catchTransport (write t x) fun f =>
        reportProtocolFault s ("Failed to answer request: " ++ f.message) [("method", .str method)]) >>= fun _ =>
          pure (.done .null)) (c.record t (.answer, x)) :=
      does_bind_congr (does_catchTransport_congr hw _) _
    unfold AnswersAt
    rw [same]
    have still := m.still
    have replies : c.Replies s id t x _ := {
      loop := still.loop, running := still.running, count := still.count
      grows := Nat.le_trans (Nat.le_of_eq Array.size_modify.symm) still.grows
      ages := fun x => (still.stays_false x).ages, endures := still.endures
      stays := still.stays_false, transport := ht, fits := drafts.fits x hx
      written := fun inside => by rw [still.answers, answersOn_record_self c inside]
      elsewhere := fun u other => by rw [still.answers, answersOn_record_of_ne c other] }
    exact ⟨hc', .replies replies (framesOf_done _ _)⟩

theorem answersAt_answerFault (hE : E.IsTame) (hc : c.Sound) (method : String) (f : Fault) :
    AnswersAt E s id (answerFault s id method f) c := by
  unfold answerFault
  split
  · exact answersAt_sendAnswer hE hc method (Message.drafts_formatError id _ _ _)
  · exact answersAt_throw hc _
  · exact (isMinor_logSession s _ _ _ _).answers_bind hc fun _ d hd =>
      (isMinor_reportHandlerFault hE s method f).answers_bind hd fun _ d hd =>
        answersAt_sendAnswer hE hd method (Message.drafts_formatError id _ _ _)

theorem answersAt_answered (hE : E.IsTame) (hc : c.Sound) (method : String) (o : Outcome) :
    AnswersAt E s id (answered s id method o) c := by
  cases o with
  | error f => exact answersAt_answerFault hE hc method f
  | ok v =>
    change AnswersAt E s id (answerResult s id method v) c
    have drafts := Message.drafts_formatResult id v
    unfold answerResult
    split
    · next x hx =>
      rw [hx] at drafts
      exact answersAt_sendAnswer hE hc method drafts
    · exact answersAt_answerFault hE hc method _

/-- A request of the server is answered at once, unless its handler takes its time. -/
theorem answersAt_answer (hE : E.IsTame) (hc : c.Sound) (method : String) (params : Value) :
    AnswersAt E s id (answer s id method params) c := by
  have unhandled : AnswersAt E s id (sendAnswer s method
      (Message.formatError id methodNotFound ("Unhandled method: " ++ method))) c :=
    answersAt_sendAnswer hE hc method (Message.drafts_formatError id _ _ _)
  unfold AnswersAt answer
  rw [does_bind_of_ok (does_session s c)]
  cases hh : ((c.sessionAt s).requestHandlers.handlers method).getLast? with
  | none => exact unhandled
  | some h =>
    have tame : h.IsTame :=
      (hc.sessions s).tame .request _ (handlers_subset_all _ method (List.mem_of_getLast? hh))
    cases h with
    | logResync x => exact unhandled
    | giveUp => exact unhandled
    | script r =>
      have called : AnswersAt E s id (do answered s id method (← attempt (react r (.value params)))) c :=
        (isMinor_react hE tame _).attempt.answers_bind hc fun o d hd => answersAt_answered hE hd method o
      unfold answerBy
      dsimp only
      split
      · exact ⟨hc, .waits (Still.refl none c) ⟨tame, rfl⟩ rfl⟩
      · exact called

/-! ## Reading -/

theorem isCalm_connectionLost (s : SessionId) (t : TransportId) (f : Fault) :
    IsCalm E (Next.IsFree (some s)) (connectionLost s t f) := by
  have done : IsCalm E (Next.IsFree (some s)) (pure (.done .null)) := isCalm_pure fun _ => nofun
  refine (isMinor_session s).calm fun x => ?_
  split
  · exact done
  · split
    · exact (isMinor_rejectAll _ _).calm fun _ => done
    · exact (isMinor_logSession s _ _ _ _).calm fun _ =>
        isCalm_pure (isFree_call ⟨rfl, rfl, rfl, .inr rfl⟩ ⟨rfl, rfl, rfl, .inr rfl⟩)
    · exact done

/-- A request of the server begins to be answered, by a task of its own. -/
theorem stillAt_handleRequest (c₀ : Client) (hc : c.Sound) (s : SessionId) (t : TransportId) (id : RequestId)
    (method : String) (params : Value) :
    StillAt E (c₀.Begins (.readLoopReceived s t)) none (handleRequest s id method params) c := by
  have spawned : StillAt E (c₀.Begins (.readLoopReceived s t)) none (spawn (.answer s id method params)) c :=
    stillAt_spawn hc .answer
  refine spawned.bind fun task d _ hd => ?_
  have kept : StillAt E (c₀.Begins (.readLoopReceived s t)) none
      (onSession s fun x => { x with answering := x.answering ++ [task] }) d := by
    refine ⟨still_alter s ?_ rfl, ?_⟩
    · exact ⟨rfl, rfl, rfl, Nat.le_refl _, fun _ hp => .inl hp⟩
    · exact hd.alter s (fun _ topic => by cases topic <;> rfl) (fun _ => rfl) fun _ => rfl
  refine kept.bind fun _ d _ hd => ?_
  have hears : notices.hears task (.answerEnded s task) := rfl
  exact (((isMinor_observe_notify hears).minorAt d hd).still none).mono fun b root => .root root

theorem stillAt_handleMessage (hE : E.IsTame) (c₀ : Client) (hc : c.Sound) (s : SessionId) (t : TransportId)
    (m : Except Fault Message) :
    StillAt E (c₀.Begins (.readLoopReceived s t)) none (handleMessage s m) c := by
  have minor : ∀ {op : ClientM Unit}, IsMinor E op → StillAt E (c₀.Begins (.readLoopReceived s t)) none op c :=
    fun h => ((h.minorAt c hc).still none).mono fun b root => .root root
  unfold handleMessage
  split
  · split
    · exact minor (isMinor_rejectBadMessage hE s _)
    · exact stillAt_throw hc _
  · exact minor (isMinor_handleResponse hE s _ _)
  · exact minor (isMinor_handleResponse hE s _ _)
  · exact stillAt_handleRequest c₀ hc s t _ _ _
  · exact minor (isMinor_handleNotification hE s _ _)

/-- A reader that has lost the connection of a session lets it fail, if it runs. -/
theorem steadyAt_connectionLost (hc : c.Sound) (s : SessionId) (t : TransportId) (f : Fault) :
    SteadyAt E none (some s) (connectionLost s t f) c ∧
      ((c.sessionAt s).state ≠ .running → SteadyAt E none none (connectionLost s t f) c) := by
  refine ⟨(isCalm_connectionLost s t f).steady hc, fun idle => steadyAt_bind_of_ok (does_session s c) ?_⟩
  have done : ∀ {d : Client}, d.Sound → SteadyAt E none none (pure (.done .null)) d := fun hd => steadyAt_pure hd nofun
  split
  · exact done hc
  · split
    · exact (isMinor_rejectAll _ _).steady_bind hc fun _ _ hd => done hd
    · next running => exact absurd running idle
    · exact done hc

/-- What a reader that has received something does: it reads on, or it stops to. If its session runs, that may
fail next. -/
structure ReadsAt (E : Executor) (s : SessionId) (t : TransportId) (op : ClientM Next) (c : Client) : Prop where
  still : StillAt E (c.Begins (.readLoopReceived s t)) none op c
  next : ∀ b ∈ framesOf (does E op c).1, b.IsFree (some s) ∨ b.reads = some (s, t)
  idle : (c.sessionAt s).state ≠ .running → ∀ b ∈ framesOf (does E op c).1, b.stirs = none

/-- A reader that has handled something goes on in some way. -/
theorem readsAt_of_steady {op op' : ClientM Next} {d : Client}
    (still : c.Still (c.Begins (.readLoopReceived s t)) none d) (goes : does E op c = does E op' d)
    (ends : SteadyAt E none (some s) op' d) (idle : (d.sessionAt s).state ≠ .running → SteadyAt E none none op' d) :
    ReadsAt E s t op c := by
  obtain ⟨r, c', hx, still', hc', free⟩ := ends.parts
  rw [hx] at goes
  refine ⟨?_, ?_, ?_⟩
  all_goals simp only [StillAt, goes]
  · exact ⟨still.trans (still'.mono fun b root => .root root), hc'⟩
  · exact fun b hb => .inl (free b hb)
  · intro other b hb
    obtain ⟨_, _, hy, _, _, quiet⟩ := (idle (by rw [(still.stays s).state]; exact other)).parts
    rw [hx] at hy
    cases hy
    exact (quiet b hb).stirs.elim id id

/-- A reader that has handled something reads on. -/
theorem readsAt_again {op : ClientM Next} {d : Client} (still : c.Still (c.Begins (.readLoopReceived s t)) none d)
    (hd : d.Sound) (goes : does E op c = (.ok (.become (.readLoop s t)), d)) : ReadsAt E s t op c := by
  have only : ∀ b ∈ framesOf (.ok (.become (.readLoop s t))), b = .readLoop s t := fun b hb => List.mem_singleton.1 hb
  refine ⟨?_, ?_, ?_⟩
  all_goals simp only [StillAt, goes]
  · exact ⟨still, hd⟩
  · intro b hb
    rw [only b hb]
    exact .inr rfl
  · intro _ b hb
    rw [only b hb]
    rfl

/-- A reader that has received something reads on, or stops to. -/
theorem readsAt_readLoopReceived (hE : E.IsTame) (hc : c.Sound) (s : SessionId) (t : TransportId) (o : Outcome) :
    ReadsAt E s t (readLoopReceived s t o) c := by
  have here : c.Still (c.Begins (.readLoopReceived s t)) none c := Still.refl none c
  have fails : ∀ {op : ClientM Next} {d : Client} (f : Fault), c.Still (c.Begins (.readLoopReceived s t)) none d →
      d.Sound → does E op c = does E (throw f : ClientM Next) d → ReadsAt E s t op c :=
    fun f still hd goes => readsAt_of_steady still goes (steadyAt_throw hd f) fun _ => steadyAt_throw hd f
  have loses : ∀ {op : ClientM Next} {d : Client} (f : Fault), c.Still (c.Begins (.readLoopReceived s t)) none d →
      d.Sound → does E op c = does E (connectionLost s t f) d → ReadsAt E s t op c :=
    fun f still hd goes =>
      readsAt_of_steady still goes (steadyAt_connectionLost hd s t f).1 (steadyAt_connectionLost hd s t f).2
  cases o with
  | error f =>
    cases hp : f.isProtocol with
    | true =>
      have first : does E (readLoopReceived s t (.error f)) c =
          does E (rejectBadMessage s f >>= fun _ => pure (.become (.readLoop s t))) c := by
        unfold readLoopReceived
        simp only [hp, if_true]
      obtain ⟨m, hd⟩ := (isMinor_rejectBadMessage hE s f).minorAt c hc
      rcases hx : does E (rejectBadMessage s f) c with ⟨e | u, d⟩
      all_goals rw [hx] at m hd
      · rw [does_bind_of_error hx] at first
        exact fails e (m.still.mono fun b root => .root root) hd first
      · rw [does_bind_of_ok hx] at first
        exact readsAt_again (m.still.mono fun b root => .root root) hd first
    | false =>
      cases ht : f.isTransport with
      | true =>
        refine loses f here hc ?_
        unfold readLoopReceived
        simp [hp, ht]
      | false =>
        refine fails f here hc ?_
        unfold readLoopReceived
        simp [hp, ht]
  | ok v =>
    cases v with
    | bytes body =>
      have handles : StillAt E (c.Begins (.readLoopReceived s t)) none (attempt (handleBody s body)) c := by
        refine StillAt.attempt ?_
        have looks : StillAt E (c.Begins (.readLoopReceived s t)) none (session s) c := ⟨here, hc⟩
        exact looks.bind fun _ d _ hd => stillAt_handleMessage hE c hd s t _
      obtain ⟨still, hd⟩ := handles
      have first : does E (readLoopReceived s t (.ok (.bytes body))) c =
          does E (attempt (handleBody s body) >>= bodyHandled s t) c := rfl
      rcases hx : does E (attempt (handleBody s body)) c with ⟨e | r, d⟩
      all_goals rw [hx] at still hd
      · rw [does_bind_of_error hx] at first
        exact fails e still hd first
      · rw [does_bind_of_ok hx] at first
        cases r with
        | ok u => exact readsAt_again still hd first
        | error f =>
          cases ht : f.isTransport with
          | true =>
            refine loses f still hd (first.trans ?_)
            unfold bodyHandled
            simp [ht]
          | false =>
            refine fails f still hd (first.trans ?_)
            unfold bodyHandled
            simp [ht]
    | _ => exact loses _ here hc rfl

end Client

end LspClient
