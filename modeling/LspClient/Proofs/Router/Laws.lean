/-
The law of dispatching, as a law about histories. What every event needs of the events before it is said once, so that a
history that obeys the law still does when more happens, whatever that is: handlers may use the router that calls them.
The events of a dispatch are apart from those of the dispatches that its handlers begin, because these begin later.
-/
import LspClient.Proofs.Router.History

namespace LspClient.Router

variable {η : Type}

/-! ## Definitions -/

/-- The dispatch that an event is part of. -/
def Event.owner? : Event η → Option Nat
  | called d .. | returned d .. | told d .. | heard d _ | ended d _ => some d
  | _ => none

/-- The events of a dispatch, without those of dispatches inside it. -/
def own (d : Nat) (history : List (Event η)) : List (Event η) :=
  history.filter fun e => e.owner? = some d

/-- The handlers that are called, with what they are given. -/
def calls (events : List (Event η)) : List (η × Value) :=
  events.filterMap fun
    | .called _ h p => some (h, p)
    | _ => none

/-- How the handlers come back. -/
def returns (events : List (Event η)) : List (η × Except Fault Unit) :=
  events.filterMap fun
    | .returned _ h o => some (h, o)
    | _ => none

/-- The faults that handlers raise. -/
def raised (events : List (Event η)) : List Fault :=
  events.filterMap fun
    | .returned _ _ (.error f) => some f
    | _ => none

/-- What the hook is told. -/
def reports (events : List (Event η)) : List (String × Fault) :=
  events.filterMap fun
    | .told _ m f => some (m, f)
    | _ => none

/-- The faults that the hook raises. -/
def hookFaults (events : List (Event η)) : List Fault :=
  events.filterMap fun
    | .heard _ (.error f) => some f
    | _ => none

/-- What dispatches answer. -/
def answers (events : List (Event η)) : List (Except Fault Nat) :=
  events.filterMap fun
    | .ended _ o => some o
    | _ => none

/-- The events of a dispatch for which handlers are called, each once and in their order, of which `n` do not fail. The
hook, if there is one, is told about each that fails, in the same order. -/
structure Completed (hooked : Bool) (method : String) (params : Value) (handlers : List η) (events : List (Event η))
    (n : Nat) : Prop where
  calls : calls events = handlers.map fun h => (h, params)
  returns : (returns events).map Prod.fst = handlers
  count : ((Router.returns events).countP fun r => r.2.isOk) = n
  reports : reports events = if hooked then (raised events).map fun f => (method, f) else []

/-- A cancellation that a handler or the hook raised among the events of a dispatch. -/
structure Passed (f : Fault) (events : List (Event η)) : Prop where
  cancels : f.isCancellation = true
  raised : f ∈ raised events ∨ f ∈ hookFaults events

/-- A dispatch has begun and has not ended. -/
structure Open (d : Nat) (history : List (Event η)) : Prop where
  began : ∃ method params, history[d]? = some (.began method params)
  unended : answers (own d history) = []

/-- What an event needs of what happened before it. -/
def Admits (hooked : Bool) (history : List (Event η)) : Event η → Prop
  | .subscribed _ id _ => ∀ method handler, .subscribed method id handler ∉ history
  | .listed method handlers => handlers = (active method history).map (·.handler)
  | .named methods => methods.Nodup ∧ ∀ method, method ∈ methods ↔ active method history ≠ []
  | .called d .. | .returned d .. | .told d .. | .heard d _ => Open d history
  | .ended d (.ok n) => Open d history ∧ ∀ method params, history[d]? = some (.began method params) →
      Completed hooked method params ((active method (history.take d)).map (·.handler)) (own d history) n
  | .ended d (.error f) => Open d history ∧ Passed f (own d history)
  | .unsubscribed .. | .cleared | .began .. => True

/-- Every event has what it needs. -/
def Lawful (hooked : Bool) (history : List (Event η)) : Prop :=
  ∀ i e, history[i]? = some e → Admits hooked (history.take i) e

/-- What a lawful history without open dispatches says. Asked for, the handlers of a method are those of its active
subscriptions, in order, and the methods are those that have one. No two subscriptions have the same id. A dispatch
answers once: either it has called the handlers of the subscriptions that were active when it began, and answers how
many did not fail, or a cancellation passed through it. -/
structure Accounted (hooked : Bool) (history : List (Event η)) : Prop where
  listed : ∀ i method handlers, history[i]? = some (.listed method handlers) →
    handlers = (active method (history.take i)).map (·.handler)
  named : ∀ i methods, history[i]? = some (.named methods) →
    methods.Nodup ∧ ∀ method, method ∈ methods ↔ active method (history.take i) ≠ []
  ids : ∀ (i j : Nat) method method' id handler handler', history[i]? = some (.subscribed method id handler) →
    history[j]? = some (.subscribed method' id handler') → i = j
  dispatched : ∀ d method params, history[d]? = some (.began method params) →
    (∃ n, answers (own d history) = [.ok n] ∧
      Completed hooked method params ((active method (history.take d)).map (·.handler)) (own d history) n) ∨
    ∃ f, answers (own d history) = [.error f] ∧ Passed f (own d history)

variable {hooked : Bool} {history news : List (Event η)} {e : Event η} {d i n : Nat} {method : String} {params : Value}
  {handlers : List η} {events : List (Event η)} {handler : η} {f : Fault} {t t' t'' : Tracked η}

theorem getElem?_note {e' : Event η} (h : (history ++ [e])[i]? = some e') :
    history[i]? = some e' ∨ i = history.length ∧ e' = e := by
  rcases Nat.lt_or_ge i history.length with before | after
  · rw [List.getElem?_append_left before] at h
    exact .inl h
  · rw [List.getElem?_append_right after, List.getElem?_singleton] at h
    split at h
    · exact .inr ⟨by omega, (Option.some.inj h).symm⟩
    · cases h

/-! ## Own events -/

theorem own_append (d : Nat) (history news : List (Event η)) : own d (history ++ news) = own d history ++ own d news :=
  List.filter_append ..

theorem own_eq_nil (h : ∀ e ∈ events, e.owner? ≠ some d) : own d events = [] :=
  List.filter_eq_nil_iff.2 fun e he => by simpa using h e he

theorem own_note (h : e.owner? = some d) (history : List (Event η)) :
    own d (history ++ [e]) = own d history ++ [e] := by
  rw [own_append]
  congr 1
  exact List.filter_cons_of_pos (by simpa using h)

/-- Other events leave a dispatch as it is. -/
theorem own_of_others (h : ∀ e ∈ news, e.owner? ≠ some d) (history : List (Event η)) :
    own d (history ++ news) = own d history := by
  rw [own_append, own_eq_nil h, List.append_nil]

theorem answers_append (events news : List (Event η)) : answers (events ++ news) = answers events ++ answers news :=
  List.filterMap_append ..

/-! ## Lawful histories -/

theorem lawful_nil : Lawful (η := η) hooked [] := nofun

theorem Lawful.note (l : Lawful hooked history) (h : Admits hooked history e) : Lawful hooked (history ++ [e]) := by
  intro i e' he'
  rcases getElem?_note he' with before | ⟨rfl, rfl⟩
  · rw [List.take_append_of_le_length (Nat.le_of_lt (List.getElem?_eq_some_iff.1 before).1)]
    exact l i e' before
  · rw [List.take_left]
    exact h

/-- An event of a dispatch happens while the dispatch is open. -/
theorem Admits.isOpen (h : Admits hooked history e) (owner : e.owner? = some d) : Open d history := by
  cases e with
  | called | returned | told | heard =>
    cases owner
    exact h
  | ended _ o =>
    cases owner
    cases o with
    | ok n => exact h.1
    | error f => exact h.1
  | _ => cases owner

theorem Open.lt_length (o : Open d history) : d < history.length := by
  obtain ⟨_, _, there⟩ := o.began
  exact (List.getElem?_eq_some_iff.1 there).1

/-- A dispatch that is yet to begin has no events. -/
theorem Lawful.own_eq_nil (l : Lawful hooked history) (h : history.length ≤ d) : own d history = [] := by
  refine Router.own_eq_nil fun e he owner => ?_
  obtain ⟨i, there⟩ := List.getElem?_of_mem he
  have early := ((l i e there).isOpen owner).lt_length
  rw [List.length_take] at early
  omega

/-! ## Complete calls -/

/-- What complete calls make of a router: more happens, but nothing to the dispatches that had begun before, and those
that begin meanwhile end. -/
structure Follows (hooked : Bool) (t t' : Tracked η) : Prop where
  sound : t'.Sound
  lawful : Lawful hooked t'.history
  grows : ∃ news, t'.history = t.history ++ news ∧ ∀ e ∈ news, ∀ d, e.owner? = some d → t.history.length ≤ d
  closed : ∀ d, t.history.length ≤ d → ¬ Open d t'.history

theorem Follows.refl (s : t.Sound) (l : Lawful hooked t.history) : Follows hooked t t where
  sound := s
  lawful := l
  grows := ⟨[], (List.append_nil _).symm, nofun⟩
  closed _ late o := Nat.not_lt.2 late o.lt_length

/-- A dispatch that began before complete calls is as open after them as before. -/
theorem Follows.open_iff (h : Follows hooked t t') (early : d < t.history.length) :
    Open d t'.history ↔ Open d t.history := by
  obtain ⟨news, grown, late⟩ := h.grows
  have same : own d t'.history = own d t.history := by
    rw [grown]
    refine own_of_others (fun e he owner => ?_) _
    exact Nat.not_le.2 early (late e he d owner)
  have there : t'.history[d]? = t.history[d]? := by rw [grown, List.getElem?_append_left early]
  constructor
  · exact fun o => ⟨there ▸ o.began, same ▸ o.unended⟩
  · exact fun o => ⟨there.symm ▸ o.began, same.symm ▸ o.unended⟩

theorem Follows.length_le (h : Follows hooked t t') : t.history.length ≤ t'.history.length := by
  obtain ⟨news, grown, -⟩ := h.grows
  rw [grown, List.length_append]
  exact Nat.le_add_right ..

theorem Follows.trans (h : Follows hooked t t') (h' : Follows hooked t' t'') : Follows hooked t t'' where
  sound := h'.sound
  lawful := h'.lawful
  grows := by
    obtain ⟨news, grown, late⟩ := h.grows
    obtain ⟨more, grown', late'⟩ := h'.grows
    refine ⟨news ++ more, by rw [grown', grown, List.append_assoc], ?_⟩
    intro e he d owner
    rcases List.mem_append.1 he with first | second
    · exact late e first d owner
    · exact Nat.le_trans h.length_le (late' e second d owner)
  closed d late o := by
    rcases Nat.lt_or_ge d t'.history.length with early | after
    · exact h.closed d late ((h'.open_iff early).1 o)
    · exact h'.closed d after o

/-- A step that is no part of a dispatch. -/
theorem follows_of_step {r' : Router η} (s : Tracked.Sound ⟨r', t.history ++ [e]⟩) (l : Lawful hooked t.history)
    (admitted : Admits hooked t.history e) (outside : e.owner? = none) (other : ∀ m p, e ≠ .began m p) :
    Follows hooked t ⟨r', t.history ++ [e]⟩ where
  sound := s
  lawful := l.note admitted
  grows := by
    refine ⟨[e], rfl, ?_⟩
    intro e' he' d owner
    rw [List.mem_singleton.1 he', outside] at owner
    cases owner
  closed d late o := by
    obtain ⟨m, p, there⟩ := o.began
    rcases getElem?_note there with before | ⟨-, same⟩
    · exact Nat.not_lt.2 late (List.getElem?_eq_some_iff.1 before).1
    · exact other m p same.symm

/-! ## A dispatch under way -/

/-- A dispatch that began in a router is under way: these are its own events so far, and the dispatches that its
handlers began have ended. -/
structure UnderWay (hooked : Bool) (t : Tracked η) (method : String) (params : Value) (events : List (Event η))
    (t' : Tracked η) : Prop where
  sound : t'.Sound
  lawful : Lawful hooked t'.history
  grows : ∃ news, t'.history = t.history ++ .began method params :: news ∧
    ∀ e ∈ news, ∀ d, e.owner? = some d → t.history.length ≤ d
  closed : ∀ d, t.history.length < d → ¬ Open d t'.history
  own : own t.history.length t'.history = events
  unended : answers events = []

namespace UnderWay

theorem began (s : t.Sound) (l : Lawful hooked t.history) (method : String) (params : Value) :
    UnderWay hooked t method params [] (t.note (.began method params)) where
  sound := s.note rfl
  lawful := l.note trivial
  grows := ⟨[], rfl, nofun⟩
  closed d late o := by
    have early := o.lt_length
    simp only [Tracked.note, List.length_append, List.length_singleton] at early
    omega
  own := by
    refine (own_of_others ?_ t.history).trans (l.own_eq_nil (Nat.le_refl _))
    intro e he
    obtain rfl := List.mem_singleton.1 he
    exact nofun
  unended := rfl

theorem getElem? (w : UnderWay hooked t method params events t') :
    t'.history[t.history.length]? = some (.began method params) := by
  obtain ⟨news, grown, -⟩ := w.grows
  rw [grown, List.getElem?_append_right (Nat.le_refl _), Nat.sub_self]
  rfl

theorem lt_length (w : UnderWay hooked t method params events t') : t.history.length < t'.history.length :=
  (List.getElem?_eq_some_iff.1 w.getElem?).1

theorem isOpen (w : UnderWay hooked t method params events t') : Open t.history.length t'.history :=
  ⟨⟨method, params, w.getElem?⟩, w.own.symm ▸ w.unended⟩

/-- What the handlers do is no part of the dispatch. -/
theorem follows (w : UnderWay hooked t method params events t') (h : Follows hooked t' t'') :
    UnderWay hooked t method params events t'' where
  sound := h.sound
  lawful := h.lawful
  grows := by
    obtain ⟨news, grown, late⟩ := w.grows
    obtain ⟨more, grown', late'⟩ := h.grows
    refine ⟨news ++ more, by rw [grown', grown, List.append_assoc, List.cons_append], ?_⟩
    intro e he d owner
    rcases List.mem_append.1 he with first | second
    · exact late e first d owner
    · exact Nat.le_trans (Nat.le_of_lt w.lt_length) (late' e second d owner)
  closed d late o := by
    rcases Nat.lt_or_ge d t'.history.length with early | after
    · exact w.closed d late ((h.open_iff early).1 o)
    · exact h.closed d after o
  own := by
    obtain ⟨more, grown, late⟩ := h.grows
    rw [grown]
    refine (own_of_others ?_ _).trans w.own
    intro e he owner
    exact Nat.not_le.2 w.lt_length (late e he _ owner)
  unended := w.unended

theorem grows_note (w : UnderWay hooked t method params events t') (owner : e.owner? = some t.history.length) :
    ∃ news, (t'.note e).history = t.history ++ .began method params :: news ∧
      ∀ e ∈ news, ∀ d, e.owner? = some d → t.history.length ≤ d := by
  obtain ⟨news, grown, late⟩ := w.grows
  refine ⟨news ++ [e], by rw [Tracked.note, grown, List.append_assoc, List.cons_append], ?_⟩
  intro e' he' d owner'
  rcases List.mem_append.1 he' with before | now
  · exact late e' before d owner'
  · rw [List.mem_singleton.1 now, owner] at owner'
    exact Nat.le_of_eq (Option.some.inj owner')

/-- An event of the dispatch opens none that began later. -/
theorem closed_note (w : UnderWay hooked t method params events t') (owner : e.owner? = some t.history.length)
    (late : t.history.length < d) : ¬ Open d (t'.note e).history := by
  intro o
  have other : ∀ e' ∈ [e], e'.owner? ≠ some d := by
    intro e' he' owner'
    rw [List.mem_singleton.1 he', owner] at owner'
    exact Nat.ne_of_lt late (Option.some.inj owner')
  obtain ⟨m, p, there⟩ := o.began
  rcases getElem?_note there with before | ⟨-, rfl⟩
  · refine w.closed d late ⟨⟨m, p, before⟩, ?_⟩
    have unended := o.unended
    rwa [Tracked.note, own_of_others other] at unended
  · cases owner

/-- A handler or the hook is called, or comes back. -/
theorem note (w : UnderWay hooked t method params events t') (owner : e.owner? = some t.history.length)
    (admitted : Open t.history.length t'.history → Admits hooked t'.history e) (unchanged : e.changes = false)
    (other : answers [e] = []) : UnderWay hooked t method params (events ++ [e]) (t'.note e) where
  sound := w.sound.note unchanged
  lawful := w.lawful.note (admitted w.isOpen)
  grows := w.grows_note owner
  closed d late := w.closed_note owner late
  own := by
    show Router.own _ (t'.history ++ [e]) = _
    rw [own_note owner, w.own]
  unended := by rw [answers_append, w.unended, other, List.append_nil]

/-- The dispatch ends. -/
theorem ended (w : UnderWay hooked t method params events t') {outcome : Except Fault Nat}
    (admitted : Open t.history.length t'.history → Admits hooked t'.history (.ended t.history.length outcome)) :
    Follows hooked t (t'.note (.ended t.history.length outcome)) where
  sound := w.sound.note rfl
  lawful := w.lawful.note (admitted w.isOpen)
  grows := by
    obtain ⟨news, grown, late⟩ := w.grows_note (e := .ended t.history.length outcome) rfl
    refine ⟨_, grown, ?_⟩
    intro e he d owner
    rcases List.mem_cons.1 he with rfl | inside
    · cases owner
    · exact late e inside d owner
  closed d late o := by
    rcases Nat.eq_or_lt_of_le late with rfl | after
    · have unended := o.unended
      rw [Tracked.note, own_note rfl, answers_append] at unended
      exact List.cons_ne_nil _ _ (List.append_eq_nil_iff.1 unended).2
    · exact w.closed_note rfl after o

end UnderWay

/-! ## The handlers of a dispatch -/

namespace Completed

theorem none (hooked : Bool) (method : String) (params : Value) : Completed (η := η) hooked method params [] [] 0 :=
  ⟨rfl, rfl, rfl, by cases hooked <;> rfl⟩

/-- Another handler is called and does not fail. -/
theorem succeed (c : Completed hooked method params handlers events n) (d : Nat) (h : η) :
    Completed hooked method params (handlers ++ [h]) (events ++ [.called d h params] ++ [.returned d h (.ok ())])
      (n + 1) where
  calls := by simpa [Router.calls] using c.calls
  returns := by simpa [Router.returns] using c.returns
  count := by simpa [Router.returns, Except.isOk, Except.toBool] using c.count
  reports := by simpa [Router.reports, Router.raised] using c.reports

/-- Another handler is called and fails, without a hook. -/
theorem fail (c : Completed false method params handlers events n) (d : Nat) (h : η) (f : Fault) :
    Completed false method params (handlers ++ [h])
      (events ++ [.called d h params] ++ [.returned d h (.error f)]) n where
  calls := by simpa [Router.calls] using c.calls
  returns := by simpa [Router.returns] using c.returns
  count := by simpa [Router.returns, Except.isOk, Except.toBool] using c.count
  reports := by simpa [Router.reports, Router.raised] using c.reports

/-- Another handler is called and fails, and the hook is told. -/
theorem failHooked (c : Completed true method params handlers events n) (d : Nat) (h : η) (f : Fault)
    (outcome : Except Fault Unit) :
    Completed true method params (handlers ++ [h]) (events ++ [.called d h params] ++ [.returned d h (.error f)] ++
      [.told d method f] ++ [.heard d outcome]) n where
  calls := by simpa [Router.calls] using c.calls
  returns := by simpa [Router.returns] using c.returns
  count := by simpa [Router.returns, Except.isOk, Except.toBool] using c.count
  reports := by simpa [Router.reports, Router.raised] using c.reports

theorem ended (c : Completed hooked method params handlers events n) (d : Nat) (outcome : Except Fault Nat) :
    Completed hooked method params handlers (events ++ [.ended d outcome]) n where
  calls := by simpa [Router.calls] using c.calls
  returns := by simpa [Router.returns] using c.returns
  count := by simpa [Router.returns] using c.count
  reports := by simpa [Router.reports, Router.raised] using c.reports

end Completed

theorem Passed.append (p : Passed f events) (news : List (Event η)) : Passed f (events ++ news) where
  cancels := p.cancels
  raised := by
    unfold Router.raised hookFaults
    rw [List.filterMap_append, List.filterMap_append]
    exact p.raised.imp (List.mem_append_left _) (List.mem_append_left _)

/-! ## Whole histories -/

theorem exists_ended (h : answers (own d history) ≠ []) :
    ∃ (i : Nat) (outcome : Except Fault Nat), history[i]? = some (.ended d outcome) := by
  obtain ⟨outcome, answered⟩ := List.exists_mem_of_ne_nil _ h
  obtain ⟨e, mine, same⟩ := List.mem_filterMap.1 answered
  obtain ⟨there, owner⟩ := List.mem_filter.1 mine
  cases e with
  | ended d' o =>
    obtain rfl : d' = d := by simpa [Event.owner?] using owner
    obtain ⟨i, ended⟩ := List.getElem?_of_mem there
    exact ⟨i, o, ended⟩
  | _ => cases same

/-- Nothing happens to a dispatch that has ended. -/
theorem Lawful.own_later (l : Lawful hooked history) {outcome : Except Fault Nat}
    (ended : history[i]? = some (.ended d outcome)) : own d (history.drop (i + 1)) = [] := by
  refine Router.own_eq_nil fun e he owner => ?_
  obtain ⟨k, there⟩ := List.getElem?_of_mem he
  rw [List.getElem?_drop] at there
  have unended := ((l _ _ there).isOpen owner).unended
  have before : .ended d outcome ∈ history.take (i + 1 + k) := by
    refine List.mem_of_getElem? (i := i) ?_
    rw [List.getElem?_take_of_lt (by omega), ended]
  have mine : .ended d outcome ∈ own d (history.take (i + 1 + k)) := List.mem_filter.2 ⟨before, by simp [Event.owner?]⟩
  have answered : outcome ∈ answers (own d (history.take (i + 1 + k))) := List.mem_filterMap.2 ⟨_, mine, rfl⟩
  rw [unended] at answered
  cases answered

/-- A dispatch that is not open any more has ended, and that was its last event. -/
theorem Lawful.ended (l : Lawful hooked history) (there : history[d]? = some (.began method params))
    (closed : ¬ Open d history) : ∃ i outcome, d < i ∧ Admits hooked (history.take i) (.ended d outcome) ∧
      own d history = own d (history.take i) ++ [.ended d outcome] := by
  obtain ⟨i, outcome, ended⟩ := exists_ended fun unended => closed ⟨⟨method, params, there⟩, unended⟩
  have admitted := l i _ ended
  have early : d < i := by
    have inside := (admitted.isOpen rfl).lt_length
    rw [List.length_take] at inside
    omega
  have whole : history = history.take i ++ [.ended d outcome] ++ history.drop (i + 1) := by
    obtain ⟨inside, got⟩ := List.getElem?_eq_some_iff.1 ended
    rw [← got, List.append_assoc, List.singleton_append, List.getElem_cons_drop, List.take_append_drop]
  refine ⟨i, outcome, early, admitted, ?_⟩
  calc own d history = own d (history.take i ++ [.ended d outcome] ++ history.drop (i + 1)) := by rw [← whole]
    _ = own d (history.take i ++ [.ended d outcome]) ++ own d (history.drop (i + 1)) := own_append ..
    _ = own d (history.take i) ++ [.ended d outcome] := by rw [l.own_later ended, List.append_nil, own_note rfl]

theorem Lawful.dispatched (l : Lawful hooked history) (there : history[d]? = some (.began method params))
    (closed : ¬ Open d history) :
    (∃ n, answers (own d history) = [.ok n] ∧
      Completed hooked method params ((active method (history.take d)).map (·.handler)) (own d history) n) ∨
    ∃ f, answers (own d history) = [.error f] ∧ Passed f (own d history) := by
  obtain ⟨i, outcome, early, admitted, mine⟩ := l.ended there closed
  have once : answers (own d history) = [outcome] := by
    rw [mine, answers_append, (admitted.isOpen rfl).unended]
    rfl
  cases outcome with
  | ok n =>
    have began : (history.take i)[d]? = some (.began method params) := by
      rw [List.getElem?_take_of_lt early, there]
    have completed := (admitted.2 method params began).ended d (.ok n)
    rw [← mine, List.take_take, Nat.min_eq_left (Nat.le_of_lt early)] at completed
    exact .inl ⟨n, once, completed⟩
  | error f =>
    have passed := admitted.2.append [.ended d (.error f)]
    rw [← mine] at passed
    exact .inr ⟨f, once, passed⟩

/-- A later subscription does not have the id of an earlier one. -/
theorem Lawful.not_again (l : Lawful hooked history) {i j id : Nat} {m m' : String} {h h' : η} (before : i < j)
    (first : history[i]? = some (.subscribed m id h)) : history[j]? ≠ some (.subscribed m' id h') := by
  intro second
  refine l j _ second m h (List.mem_of_getElem? (i := i) ?_)
  rw [List.getElem?_take_of_lt before, first]

theorem Lawful.accounted (l : Lawful hooked history) (closed : ∀ d, ¬ Open d history) : Accounted hooked history where
  listed i _ _ there := l i _ there
  named i _ there := l i _ there
  ids i j _ _ _ _ _ first second := by
    rcases Nat.lt_trichotomy i j with before | same | after
    · exact absurd second (l.not_again before first)
    · exact same
    · exact absurd first (l.not_again after second)
  dispatched d _ _ there := l.dispatched there (closed d)

end LspClient.Router
