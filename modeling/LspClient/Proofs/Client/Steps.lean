/-
The steps of users: tame ones make minor changes, however deep reactions are nested.
-/
import LspClient.Proofs.Client.Calls

namespace LspClient.Client

variable {E : Executor}

/-! ## Labels -/

theorem isMinor_named {α : Type} (name : String) (entries : List (String × α)) : IsMinor E (named name entries) := by
  unfold named
  split
  · exact isMinor_pure _
  · exact isMinor_throw _

theorem isMinor_handleOf (name : String) : IsMinor E (handleOf name) :=
  isMinor_get.bind fun _ => isMinor_named name _

theorem isMinor_subscriptionOf (name : String) : IsMinor E (subscriptionOf name) :=
  isMinor_get.bind fun _ => isMinor_named name _

theorem isMinor_labelHandle (name : String) (h : Handle) {steps : List Step} (tame : Step.areTame steps = true) :
    IsMinor E (labelHandle name h steps) :=
  IsMinor.bind (isMinor_modify fun _ => ⟨rfl, rfl, rfl, rfl, rfl⟩) fun _ => isMinor_observe_notify tame

theorem isMinor_labelSubscription (name : String) (s : SubscriptionRef) : IsMinor E (labelSubscription name s) :=
  isMinor_modify fun _ => ⟨rfl, rfl, rfl, rfl, rfl⟩

theorem isMinor_spawnNamed (name : String) {a : Activity} (h : a.IsRoot) : IsMinor E (spawnNamed name a) := by
  refine (isMinor_spawn h).bind fun task => IsMinor.bind (isMinor_modify fun _ => ⟨rfl, rfl, rfl, rfl, rfl⟩) fun _ => ?_
  have heard : notices.hears task (.taskEnded name task) := trivial
  exact (isMinor_observe_notify heard).bind fun _ => isMinor_pure _

theorem isMinor_targetOf (target : Option Nat) : IsMinor E (targetOf target) :=
  isMinor_get.bind fun _ => isMinor_pure _

theorem isMinor_onlyLink : IsMinor E onlyLink :=
  (isMinor_transport 0).bind fun _ => isMinor_pure _

theorem isMinor_showHandle (h : Handle) : IsMinor E (showHandle h) :=
  isMinor_get.bind fun _ => isMinor_pure _

/-! ## Routers -/

theorem mem_all {r : Router Handler} {h : Handler} : h ∈ r.all ↔ ∃ m ∈ r.methods, ∃ x ∈ m.2, x.handler = h := by
  simp [Router.all]

theorem all_unsubscribe_subset (r : Router Handler) (method : String)
    (id : Nat) : (r.unsubscribe method id).all ⊆ r.all := by
  intro h hh
  obtain ⟨m, hm, x, hx, rfl⟩ := mem_all.1 hh
  obtain ⟨⟨name, ss⟩, hmem, e⟩ := List.mem_filterMap.1 hm
  dsimp only at e
  split at e
  · split at e
    · cases e
    · cases e
      exact mem_all.2 ⟨_, hmem, x, (List.mem_filter.1 hx).1, rfl⟩
  · cases e
    exact mem_all.2 ⟨_, hmem, x, hx, rfl⟩

theorem mem_all_subscribe {r r' : Router Handler} {method : String} {h g : Handler} {id : Nat}
    (e : r.subscribe method h = .ok (id, r')) (hg : g ∈ r'.all) : g ∈ r.all ∨ g = h := by
  have inserted : ∀ (ms : List (String × List (Subscription Handler))), ∀ m ∈ Router.insert method ⟨r.nextId, h⟩ ms,
      ∀ x ∈ m.2, (∃ m ∈ ms, x ∈ m.2) ∨ x.handler = h := by
    intro ms
    induction ms with
    | nil =>
      intro m hm x hx
      cases List.mem_singleton.1 hm
      cases List.mem_singleton.1 hx
      exact .inr rfl
    | cons n ms ih =>
      intro m hm x hx
      unfold Router.insert at hm
      split at hm
      · rcases List.mem_cons.1 hm with rfl | hm
        · rcases List.mem_append.1 hx with hx | hx
          · exact .inl ⟨n, List.mem_cons_self .., hx⟩
          · cases List.mem_singleton.1 hx
            exact .inr rfl
        · exact .inl ⟨m, List.mem_cons_of_mem _ hm, hx⟩
      · rcases List.mem_cons.1 hm with rfl | hm
        · exact .inl ⟨_, List.mem_cons_self .., hx⟩
        · rcases ih m hm x hx with ⟨m', hm', hx'⟩ | hx'
          · exact .inl ⟨m', List.mem_cons_of_mem _ hm', hx'⟩
          · exact .inr hx'
  unfold Router.subscribe at e
  split at e
  · cases e
  · cases e
    obtain ⟨m, hm, x, hx, rfl⟩ := mem_all.1 hg
    rcases inserted r.methods m hm x hx with ⟨m', hm', hx'⟩ | hx'
    · exact .inl (mem_all.2 ⟨m', hm', x, hx', rfl⟩)
    · exact .inr hx'

theorem isMinor_routerAt (place : RouterPlace) : IsMinor E (routerAt place) := by
  refine isMinor_get.bind fun _ => ?_
  split
  · exact isMinor_pure _
  · exact isMinor_pure _

/-- A change of a router by which only tame handlers come in. -/
theorem minorAt_onRouter {c : Client} (hc : c.Sound) {place : RouterPlace} {f : Router Handler → Router Handler}
    (h : ∀ s topic, place = .session s topic → ∀ g ∈ (f ((c.sessionAt s).router topic)).all, g.IsTame) :
    MinorAt E (onRouter place f) c := by
  cases place with
  | alone => exact minor_of_eq hc rfl rfl rfl rfl rfl
  | session s topic =>
    have sound : ((c.sessionAt s).setRouter topic (f ((c.sessionAt s).router topic))).IsSound := by
      refine ⟨fun topic' g hg => ?_, fun p hp => by cases topic <;> exact (hc.sessions s).ids p hp⟩
      by_cases e : topic' = topic
      · cases e
        exact h s topic rfl g (by cases topic <;> exact hg)
      · refine (hc.sessions s).tame topic' g ?_
        cases topic <;> cases topic' <;> first | exact hg | exact absurd rfl e
    refine minor_onSession hc (f := fun x => x.setRouter topic (f (x.router topic))) ?_ sound
    cases topic <;> exact ⟨rfl, rfl, rfl, rfl, rfl, rfl, rfl, Nat.le_refl _⟩

theorem isMinor_unsubscribe (s : SubscriptionRef) : IsMinor E (unsubscribe s) := by
  refine ⟨fun c hc => minorAt_onRouter hc fun x topic _ g hg => ?_⟩
  exact (hc.sessions x).tame topic g (all_unsubscribe_subset _ _ _ hg)

theorem isMinor_isActive (s : SubscriptionRef) : IsMinor E (isActive s) :=
  (isMinor_routerAt _).bind fun _ => isMinor_pure _

theorem isMinor_subscribe {s : SessionId} {topic : Topic} (method : String) {h : Handler} (tame : h.IsTame) :
    IsMinor E (subscribe (.session s topic) method h) := by
  refine ⟨fun c hc => minorAt_bind_of_ok (a := (c.sessionAt s).router topic) rfl ?_⟩
  split
  · exact minorAt_throw hc _
  · next id router e =>
    refine MinorAt.bind (minorAt_onRouter hc fun x topic' e' g hg => ?_) fun _ c' _ _ hc' => minorAt_pure hc' _
    cases e'
    rcases mem_all_subscribe e hg with hg | rfl
    · exact (hc.sessions s).tame topic g hg
    · exact tame

theorem isMinor_subscribeTo {topic : Topic} (name : String) {r : Reaction}
    (tame : r.isTame = true) : IsMinor E (subscribeTo topic name r) :=
  (isMinor_lastSession).bind fun _ => (isMinor_subscribe _ (h := .script r) tame).bind fun _ =>
    isMinor_labelSubscription _ _

theorem isMinor_listenResync (s : SessionId) : IsMinor E (listenResync s) :=
  @isMinor_subscribe E s .notification Session.resyncMethod (.logResync s) trivial

/-! ## Steps -/

theorem isMinor_runStep (hE : E.IsTame) {step : Step} (tame : step.isTame = true) : IsMinor E (runStep step) := by
  have show_ : ∀ d : Display, IsMinor E (pure d) := isMinor_pure
  cases step with
  | batch steps =>
    refine IsMinor.bind (IsMinor.mapM fun step hs => ?_) fun _ => show_ _
    refine (hE step (Step.areTame_iff.1 tame step hs)).attempt.bind fun _ => ?_
    split
    · exact isMinor_pure _
    · exact isMinor_pure _
  | on topic name r => exact (isMinor_subscribeTo name tame).bind fun _ => show_ _
  | cancel name => exact (isMinor_handleOf name).bind fun _ => (isMinor_cancelRequest _ _).bind fun _ => show_ _
  | await name task timeout => exact (isMinor_handleOf name).bind fun _ => isMinor_spawnNamed _ ⟨rfl, rfl⟩
  | cancelTask name =>
    exact isMinor_get.bind fun _ => (isMinor_named _ _).bind fun _ => (isMinor_cancelPromise _).bind fun _ => show_ _
  | handle name => exact (isMinor_handleOf name).bind fun _ => isMinor_showHandle _
  | unsubscribe name =>
    exact (isMinor_subscriptionOf name).bind fun _ => (isMinor_unsubscribe _).bind fun _ => show_ _
  | isActive name => exact (isMinor_subscriptionOf name).bind fun _ => (isMinor_isActive _).bind fun _ => show_ _
  | subscribedWhile name =>
    exact (isMinor_subscriptionOf name).bind fun _ => (isMinor_isActive _).bind fun _ =>
      (isMinor_unsubscribe _).bind fun _ => (isMinor_isActive _).bind fun _ => show_ _
  | start task => exact isMinor_lastSession.bind fun _ => isMinor_spawnNamed _ ⟨rfl, rfl⟩
  | stop task clear => exact isMinor_lastSession.bind fun _ => isMinor_spawnNamed _ ⟨rfl, rfl⟩
  | request name method params patience =>
    exact isMinor_lastSession.bind fun _ => (isMinor_sendRequest hE _ _ _ _).bind fun _ =>
      (isMinor_labelHandle _ _ rfl).bind fun _ => show_ _
  | notify method params =>
    exact isMinor_lastSession.bind fun _ => (isMinor_sendNotification hE _ _ _).bind fun _ => show_ _
  | push body target => exact (isMinor_targetOf _).bind fun _ => (isMinor_serverSends _ _).bind fun _ => show_ _
  | feed octets target =>
    refine (isMinor_targetOf _).bind fun _ => (isMinor_transport _).bind fun _ => ?_
    split
    · exact (isMinor_feedPipe _ _).bind fun _ => show_ _
    · exact show_ _
  | finish target => exact (isMinor_targetOf _).bind fun _ => (isMinor_serverFinishes _).bind fun _ => show_ _
  | readFault f target => exact (isMinor_targetOf _).bind fun _ => (isMinor_serverBreaks _ _).bind fun _ => show_ _
  | setPeer change => exact (isMinor_onPeer _).bind fun _ => show_ _
  | resync => exact isMinor_lastSession.bind fun _ => (isMinor_resync hE _).bind fun _ => show_ _
  | listenResync name =>
    refine isMinor_lastSession.bind fun _ => (isMinor_listenResync _).bind fun _ => ?_
    split
    · exact (isMinor_labelSubscription _ _).bind fun _ => show_ _
    · exact isMinor_throw _
  | feedErrors octets =>
    refine isMinor_onlyLink.bind fun _ => ?_
    split
    · refine (isMinor_child _).bind fun _ => ?_
      split
      · exact (isMinor_feedPipe _ _).bind fun _ => show_ _
      · exact show_ _
    · exact show_ _
  | errorStreamFault f =>
    refine isMinor_onlyLink.bind fun _ => ?_
    split
    · refine (isMinor_child _).bind fun _ => ?_
      split
      · exact (isMinor_breakPipe _ _).bind fun _ => show_ _
      · exact show_ _
    · exact show_ _
  | exit code =>
    refine isMinor_onlyLink.bind fun _ => ?_
    split
    · exact (isMinor_childExits _ _).bind fun _ => show_ _
    · exact show_ _
  | inspect => exact isMinor_lastSession.bind fun _ => (isMinor_session _).bind fun _ => show_ _
  | _ => cases tame

/-- Tame steps make minor changes, however deep reactions are nested. -/
theorem isTame_executor (depth : Nat) : (executor depth).IsTame := by
  induction depth with
  | zero => exact fun _ _ => ⟨fun c hc => minorAt_pure (E := executor 0) (α := Display) hc .none⟩
  | succ depth ih => exact fun step tame => ⟨fun c hc => (isMinor_runStep ih tame).minorAt c hc⟩

end LspClient.Client
