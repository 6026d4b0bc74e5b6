/-
Responses that come too late. A response whose id is not pending settles no request and leaves all sessions as they are.
Whether it is told of depends on what has become of the requests of its session: nothing is said if its id is among
those that have lapsed last, and otherwise one record of telemetry tells that nobody asked for it.
-/
import LspClient.Proofs.Client.Refusal
import LspClient.Proofs.Client.Steps

namespace LspClient

open Registry (Lives)

/-! ## Definitions -/

/-- The id that a message answers, if it was read as a response. -/
def Message.responds? : Except Fault Message → Option RequestId
  | .ok (.result id _) | .ok (.error id _) => some id
  | _ => none

namespace Client

/-- How many of the ids that have lapsed a session remembers. -/
def memory : Nat := 256

/-- The body of a response whose id is not pending, when some ids have lapsed. Nothing comes of it but a line in the log
if its id is among the last of them, and otherwise a record of it is sent, once. Where telemetry is kept, every recorder
shows the record, and nothing else changes. -/
structure HearsLate (E : Executor) (c : Client) (s : SessionId) (lapsed : List RequestId) (id : RequestId)
    (body : Octets) :
    Prop where
  sends : ∃ d, c.Shows [] d ∧ does E (handleBody s body) c =
    if id ∈ latest memory lapsed then (.ok (), d) else does E (emitTelemetry s (c.unknownResponse s id)) d
  shows : c.Discreet s → ShowsAt E
    (if id ∈ latest memory lapsed then [] else List.replicate (c.echoes s) (c.unknownResponse s id))
    (handleBody s body) c

variable {E : Executor} {c : Client} {s : SessionId} {id : RequestId} {lapsed : List RequestId}

/-! ## Responses -/

/-- A body that is a response is handled as one. -/
theorem handleBody_of_response {body : Octets}
    (response : Message.responds? (Message.parse (.octets body) (c.sessionAt s).settings.maxMessageSize) = some id) :
    ∃ o, does E (handleBody s body) c = does E (handleResponse s id o) c := by
  unfold handleBody
  rw [does_bind_of_ok (does_session s c)]
  generalize Message.parse (.octets body) (c.sessionAt s).settings.maxMessageSize = message at response
  cases message with
  | error f => cases response
  | ok message =>
    cases message with
    | result i v =>
      cases response
      exact ⟨_, rfl⟩
    | error i members =>
      cases response
      exact ⟨_, rfl⟩
    | request i method params => cases response
    | notification method params => cases response

/-- Sessions tell the responses that come late from those that nobody asked for by what their registries remember. -/
theorem hearsLate (hc : c.Sound) (remembers : (c.sessionAt s).registry.Remembers memory lapsed)
    (unknown : (c.sessionAt s).registry.find? id = none) {body : Octets}
    (response : Message.responds? (Message.parse (.octets body) (c.sessionAt s).settings.maxMessageSize) = some id) :
    c.HearsLate E s lapsed id body := by
  obtain ⟨o, handled⟩ := handleBody_of_response (E := E) response
  constructor
  · rw [handled]
    simpa only [remembers.wasCancelled_iff] using does_handleResponse_unknown (E := E) hc unknown o
  · intro discreet
    have shows := showsAt_handleResponse (E := E) hc discreet unknown o
    unfold ShowsAt at shows ⊢
    rw [handled]
    simpa only [remembers.wasCancelled_iff] using shows

end Client

namespace Moment

open Client

variable {P : Moment → Prop} {m : Moment} {acts : List LspClient.Step}

/-- Late replies, in every run of a new client, whatever users and servers do. The registry of a session has come about
by deeds; and whichever deeds it has come about by, a response whose id is not pending is told of unless its id is among
those that have lapsed last by them. -/
theorem late_replies {c : Client} (new : c.IsNew) (run : Run (executor nesting) P ⟨c, none⟩ acts m) (s : SessionId) :
    (∃ lapsed, Lives {} {} lapsed (m.client.sessionAt s).registry m.client.loop) ∧
      ∀ lapsed, Lives {} {} lapsed (m.client.sessionAt s).registry m.client.loop →
        ∀ id body, (m.client.sessionAt s).registry.find? id = none →
          Message.responds? (Message.parse (.octets body) (m.client.sessionAt s).settings.maxMessageSize) = some id →
            m.client.HearsLate (executor nesting) s lapsed id body := by
  obtain ⟨sound, after⟩ := run.spec (isTame_executor nesting) (sound_of_isNew new)
  constructor
  · obtain ⟨lapsed, life⟩ := (after.endures s).life
    rw [new.loop, (sessionAt_of_isNew new s).2.1] at life
    exact ⟨lapsed, life⟩
  · intro lapsed life id body unknown response
    exact hearsLate sound.client (life.remembers (by decide) (Registry.remembers_empty memory)) unknown response

/-- A client with one session, whose server never answers by itself. -/
def unanswered : Client where
  peer := { frameLimit := .int 0, autoReply := false }
  sessions := #[{
    settings := { name := "main", label := "Main", initializeParams := .null, initializeTimeout := none }
    policy := { settings := {} } }]

theorem isNew_unanswered : unanswered.IsNew := by
  refine ⟨rfl, rfl, rfl, fun x hx => ?_⟩
  cases List.mem_singleton.1 (Array.mem_toList_iff.2 hx)
  exact ⟨_, _, rfl⟩

/-- The first request is sent, and then whoever awaits its response is cancelled; the registry hears of that before the
response comes. -/
theorem late_replies_given_up : ∃ m,
    Run (executor nesting) (fun _ => True) ⟨unanswered, none⟩ [.start "t", .cancelTask "t"] m ∧
      ∃ lapsed, Lives {} {} lapsed (m.client.sessionAt 0).registry m.client.loop ∧ .int 1 ∈ latest memory lapsed ∧
        m.client.HearsLate (executor nesting) 0 lapsed (.int 1)
          (Text.encode "\x7b\"jsonrpc\": \"2.0\", \"id\": 1, \"result\": null\x7d") := by
  have new : Run (executor nesting) (fun _ => True) ⟨unanswered, none⟩ [] ⟨unanswered, none⟩ := .refl
  have asked := (new.act (.start "t") rfl rfl).onward 13
  have run := (asked.act (.cancelTask "t") rfl (by decide +kernel)).onward 1
  refine ⟨_, run, ?_⟩
  obtain ⟨⟨lapsed, life⟩, hears⟩ := late_replies isNew_unanswered run 0
  have remembers := life.remembers (by decide) (Registry.remembers_empty memory)
  refine ⟨lapsed, life, (remembers.wasCancelled_iff _).1 (by decide +kernel), ?_⟩
  exact hears lapsed life (.int 1) _ (Option.isNone_iff_eq_none.1 (by decide +kernel)) (by decide +kernel)

end Moment

end LspClient
