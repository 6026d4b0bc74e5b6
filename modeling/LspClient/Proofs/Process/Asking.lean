/-
What closing a process asks of it. Each operation asks for one thing at most; that it fails can only mean that a time
cannot be measured.
-/
import LspClient.Proofs.Process.Called

namespace LspClient

open Client

/-! ## Definitions -/

/-- What a note says was asked of a process. -/
def Note.asks? : Note → Option String
  | .trace (.text what) => some what
  | _ => none

/-- What was asked of processes so far. -/
def Client.asked (c : Client) : List String :=
  c.notes.toList.filterMap Note.asks?

/-- How long a process takes to exit once it has been asked for what makes it exit. -/
def Client.exitDelay (i : ChildId) (c : Client) : Number :=
  ((c.childAt i).peer.getD c.peer).exitDelay

/-- The fault that one of some times cannot be measured. -/
def Fault.IsUnmeasured (times : List Number) (f : Fault) : Prop :=
  ∃ time ∈ times, ∃ g : Number.RangeFault, time.widen = .error g ∧ f = .range g

/-- What an operation leaves that has asked for some things, and has failed only if a time could not be measured. -/
structure Asks (texts : List String) (delay : Number) (c : Client) (r : Except Fault Unit × Client) : Prop where
  asked : r.2.asked = c.asked ++ texts
  fault : ∀ f, r.1 = .error f → f.IsUnmeasured [delay]

variable {E : Executor} {S : Share} {c d : Client} {i : ChildId}

namespace Client

theorem asked_congr (h : d.notes = c.notes) : d.asked = c.asked := by
  unfold asked
  rw [h]

theorem asked_note (c : Client) (n : Note) :
    ({ c with notes := c.notes.push n } : Client).asked = c.asked ++ n.asks?.toList := by
  unfold asked
  rw [Array.toList_push, List.filterMap_append]
  cases h : n.asks? <;> simp [h]

end Client

theorem does_logTransport (level : Log.Level) (message : String) (c : Client) :
    ∃ d, does E (logTransport level message) c = (.ok (), d) ∧ d.asked = c.asked ∧ ∀ i, d.exitDelay i = c.exitDelay i :=
  ⟨_, rfl, (asked_note c _).trans (List.append_nil _), fun _ => rfl⟩

/-! ## Exits -/

theorem does_childExits_exits (apart : c.Apart S) (launched : S.child < c.children.size) (code : Int) :
    ∃ d, does E (childExits S.child code) c = (.ok (), d) ∧ d.asked = c.asked ∧ d.HasExited S.child := by
  by_cases exited : c.HasExited S.child
  · exact ⟨c, does_childExits_again code exited, rfl, exited⟩
  · obtain ⟨d, h, notes, beside⟩ := does_childExits (E := E) S.child code (Option.not_isSome_iff_eq_none.1 exited)
    exact ⟨_, h, asked_congr notes, (beside S apart).elsewhere.hasExited (hasExited_exited launched code)⟩

theorem asks_childExits (i : ChildId) (code : Int) (delay : Number) (c : Client) :
    Asks [] delay c (does E (childExits i code) c) := by
  by_cases exited : c.HasExited i
  · rw [does_childExits_again code exited]
    exact ⟨(List.append_nil _).symm, nofun⟩
  · obtain ⟨d, h, notes, -⟩ := does_childExits (E := E) i code (Option.not_isSome_iff_eq_none.1 exited)
    rw [h]
    exact ⟨(asked_congr notes).trans (List.append_nil _).symm, nofun⟩

theorem asks_childExitsLater (i : ChildId) (p : Peer) (c : Client) :
    Asks [] p.exitDelay c (does E (childExitsLater i p) c) := by
  unfold childExitsLater
  split
  · exact asks_childExits i _ _ c
  · cases widen : p.exitDelay.widen with
    | ok s =>
      rw [does_bind_of_ok (does_callLater widen _ c)]
      exact ⟨(List.append_nil _).symm, nofun⟩
    | error g =>
      rw [does_bind_of_error (does_callLater_of_error widen _ c)]
      exact ⟨(List.append_nil _).symm, fun f e => by cases e; exact ⟨_, List.mem_singleton_self _, g, widen, rfl⟩⟩

/-! ## Asking -/

/-- The input of a process is closed, unless that fails at once. -/
theorem asks_closeInput (i : ChildId) (c : Client) :
    ∃ texts, (texts = [] ∨ texts = ["close"]) ∧ Asks texts (c.exitDelay i) c (does E (closeInput i) c) := by
  have first : does E (childPeer i) c = (.ok ((c.childAt i).peer.getD c.peer), c) := rfl
  unfold closeInput
  rw [does_bind_of_ok first]
  split
  · exact ⟨[], .inl rfl, (List.append_nil _).symm, nofun⟩
  · have noted : does E (note (.trace (.text "close"))) c =
      (.ok ⟨⟩, { c with notes := c.notes.push (.trace (.text "close")) }) := rfl
    have asked := asked_note c (.trace (.text "close"))
    refine ⟨["close"], .inr rfl, ?_⟩
    rw [does_bind_of_ok noted]
    split
    · have later := asks_childExitsLater (E := E) i ((c.childAt i).peer.getD c.peer)
        { c with notes := c.notes.push (.trace (.text "close")) }
      exact ⟨(later.asked.trans (List.append_nil _)).trans asked, later.fault⟩
    · exact ⟨asked, nofun⟩

/-- A process is asked to terminate. -/
theorem asks_terminate (i : ChildId) (c : Client) : Asks ["terminate"] (c.exitDelay i) c (does E (terminate i) c) := by
  have first : does E (childPeer i) c = (.ok ((c.childAt i).peer.getD c.peer), c) := rfl
  have noted : does E (note (.trace (.text "terminate"))) c =
    (.ok ⟨⟩, { c with notes := c.notes.push (.trace (.text "terminate")) }) := rfl
  have asked := asked_note c (.trace (.text "terminate"))
  unfold terminate
  rw [does_bind_of_ok first, does_bind_of_ok noted]
  split
  · have later := asks_childExitsLater (E := E) i ((c.childAt i).peer.getD c.peer)
      { c with notes := c.notes.push (.trace (.text "terminate")) }
    exact ⟨(later.asked.trans (List.append_nil _)).trans asked, later.fault⟩
  · exact ⟨asked, nofun⟩

/-- A process is killed: it has exited then, and killing it does not fail. -/
theorem does_kill (apart : c.Apart S) (launched : S.child < c.children.size) :
    ∃ d, does E (kill S.child) c = (.ok (), d) ∧ d.asked = c.asked ++ ["kill"] ∧ d.HasExited S.child := by
  have noted : does E (note (.trace (.text "kill"))) c =
    (.ok ⟨⟩, { c with notes := c.notes.push (.trace (.text "kill")) }) := rfl
  have beside : c.Beside S { c with notes := c.notes.push (.trace (.text "kill")) } := apart.same rfl rfl rfl rfl rfl
  obtain ⟨d, h, asked, exited⟩ := does_childExits_exits (E := E) beside.apart launched (-9)
  refine ⟨d, ?_, asked.trans (asked_note c _), exited⟩
  unfold kill
  rw [does_bind_of_ok noted]
  exact h

end LspClient
