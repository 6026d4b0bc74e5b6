/-
The steps of users: clean ones keep clients clean and raise no breach, however deep reactions are nested.
-/
import LspClient.Proofs.Client.CleanCalls

namespace LspClient.Client

variable [Breaches] {E : Executor}

/-! ## Labels -/

theorem isClean_named {α : Type} (name : String) (entries : List (String × α)) : IsClean E (named name entries) := by
  unfold named
  split
  · exact isClean_return _
  · exact isClean_throw rfl

theorem isClean_handleOf (name : String) : IsClean E (handleOf name) :=
  isClean_get.bind fun _ => isClean_named name _

theorem isClean_subscriptionOf (name : String) : IsClean E (subscriptionOf name) :=
  isClean_get.bind fun _ => isClean_named name _

theorem isClean_labelHandle (name : String) (h : Handle) {steps : List Step} (clean : Step.areClean steps = true) :
    IsClean E (labelHandle name h steps) :=
  IsClean.bind (isClean_modify fun _ => ⟨rfl, rfl, rfl, rfl⟩) fun _ => isClean_observe _ clean

theorem isClean_labelSubscription (name : String) (s : SubscriptionRef) : IsClean E (labelSubscription name s) :=
  isClean_modify fun _ => ⟨rfl, rfl, rfl, rfl⟩

theorem isClean_spawnNamed (name : String) {a : Activity} (h : a.IsParked) : IsClean E (spawnNamed name a) := by
  refine (isClean_spawn h).bind fun task => IsClean.bind (isClean_modify fun _ => ⟨rfl, rfl, rfl, rfl⟩) fun _ => ?_
  have heard : Job.Holds cleanly (.notify (.taskEnded name task) : Job Event) := trivial
  exact (isClean_observe _ heard).bind fun _ => isClean_return _

theorem isClean_targetOf (target : Option Nat) : IsClean E (targetOf target) :=
  isClean_get.bind fun _ => isClean_return _

theorem isClean_onlyLink : IsClean E onlyLink :=
  (isClean_transport 0).bind fun _ => isClean_return _

theorem isClean_showHandle (h : Handle) : IsClean E (showHandle h) :=
  isClean_get.bind fun _ => isClean_return _

/-! ## Routers -/

theorem isClean_routerAt (place : RouterPlace) : IsClean E (routerAt place) := by
  refine isClean_get.bind fun _ => ?_
  split
  · exact isClean_return _
  · exact isClean_return _

/-- A change of a router by which only clean handlers come in. -/
theorem cleanAt_onRouter {c : Client} (hc : c.Clean) {place : RouterPlace} {f : Router Handler → Router Handler}
    (h : ∀ s topic, place = .session s topic → ∀ g ∈ (f ((c.sessionAt s).router topic)).all, g.IsClean) :
    CleanAt E (onRouter place f) (fun _ _ => True) c := by
  cases place with
  | alone => exact .of_ok (exec_modify _ c) (hc.of_eq rfl rfl rfl rfl) trivial
  | session s topic =>
    refine .of_ok (exec_modify _ c) (hc.onSession (f := fun x => x.setRouter topic (f (x.router topic))) ?_) trivial
    intro topic' g hg
    by_cases e : topic' = topic
    · cases e
      exact h s topic rfl g (by cases topic <;> exact hg)
    · refine hc.sessions s topic' g ?_
      cases topic <;> cases topic' <;> first | exact hg | exact absurd rfl e

theorem isClean_unsubscribe (s : SubscriptionRef) : IsClean E (unsubscribe s) :=
  ⟨fun _ hc => cleanAt_onRouter hc fun x topic _ g hg =>
    hc.sessions x topic g (all_unsubscribe_subset _ _ _ hg)⟩

theorem isClean_isActive (s : SubscriptionRef) : IsClean E (isActive s) :=
  (isClean_routerAt _).bind fun _ => isClean_return _

theorem isClean_subscribe {s : SessionId} {topic : Topic} (method : String) {h : Handler} (clean : h.IsClean) :
    IsClean E (subscribe (.session s topic) method h) := by
  refine ⟨fun c hc => cleanAt_bind_of_ok (a := (c.sessionAt s).router topic) rfl ?_⟩
  split
  · next f e =>
    refine cleanAt_throw hc ?_
    unfold Router.subscribe at e
    split at e
    · cases e
      rfl
    · cases e
  · next id router e =>
    refine CleanAt.bind (cleanAt_onRouter hc fun x topic' e' g hg => ?_) fun _ c' _ hc' => cleanAt_pure hc' trivial
    cases e'
    rcases mem_all_subscribe e hg with hg | rfl
    · exact hc.sessions s topic g hg
    · exact clean

theorem isClean_subscribeTo {topic : Topic} (name : String) {r : Reaction} (clean : r.isClean = true) :
    IsClean E (subscribeTo topic name r) :=
  isClean_lastSession.bind fun _ => (isClean_subscribe _ (h := .script r) clean).bind fun _ =>
    isClean_labelSubscription _ _

theorem isClean_listenResync (s : SessionId) : IsClean E (listenResync s) :=
  @isClean_subscribe _ E s .notification Session.resyncMethod (.logResync s) trivial

/-! ## Steps -/

theorem isClean_runStep (hE : E.IsClean) {step : Step} (clean : step.isClean = true) : IsClean E (runStep step) := by
  have show_ : ∀ d : Display, IsClean E (pure d) := isClean_return
  cases step with
  | batch steps =>
    refine IsClean.bind (IsClean.mapM fun step hs => ?_) fun _ => show_ _
    refine (hE step (Step.areClean_iff.1 clean step hs)).attempt.bind fun _ => ?_
    split
    · exact isClean_return _
    · exact isClean_return _
  | on topic name r => exact (isClean_subscribeTo name clean).bind fun _ => show_ _
  | cancel name => exact (isClean_handleOf name).bind fun _ => (isClean_cancelRequest _ _).bind fun _ => show_ _
  | await name task timeout => exact (isClean_handleOf name).bind fun _ => isClean_spawnNamed _ ⟨rfl, rfl⟩
  | cancelTask name =>
    exact isClean_get.bind fun _ => (isClean_named _ _).bind fun _ => (isClean_cancelPromise _).bind fun _ => show_ _
  | handle name => exact (isClean_handleOf name).bind fun _ => isClean_showHandle _
  | unsubscribe name =>
    exact (isClean_subscriptionOf name).bind fun _ => (isClean_unsubscribe _).bind fun _ => show_ _
  | isActive name => exact (isClean_subscriptionOf name).bind fun _ => (isClean_isActive _).bind fun _ => show_ _
  | subscribedWhile name =>
    exact (isClean_subscriptionOf name).bind fun _ => (isClean_isActive _).bind fun _ =>
      (isClean_unsubscribe _).bind fun _ => (isClean_isActive _).bind fun _ => show_ _
  | start task => exact isClean_lastSession.bind fun _ => isClean_spawnNamed _ ⟨rfl, rfl⟩
  | stop task clear => exact isClean_lastSession.bind fun _ => isClean_spawnNamed _ ⟨rfl, rfl⟩
  | request name method params patience =>
    exact isClean_lastSession.bind fun _ => (isClean_sendRequest hE _ _ _ _).bind fun _ =>
      (isClean_labelHandle _ _ rfl).bind fun _ => show_ _
  | notify method params =>
    exact isClean_lastSession.bind fun _ => (isClean_sendNotification hE _ _ _).bind fun _ => show_ _
  | push body target => exact (isClean_targetOf _).bind fun _ => (isClean_serverSends _ _).bind fun _ => show_ _
  | feed octets target =>
    refine (isClean_targetOf _).bind fun _ => (isClean_transport _).bind fun _ => ?_
    split
    · exact (isClean_feedPipe _ _).bind fun _ => show_ _
    · exact show_ _
  | finish target => exact (isClean_targetOf _).bind fun _ => (isClean_serverFinishes _).bind fun _ => show_ _
  | readFault f target =>
    have fair : f.isBreach = false := by simpa [Step.isClean] using clean
    exact (isClean_targetOf _).bind fun _ => (isClean_serverBreaks _ fair).bind fun _ => show_ _
  | setPeer change => exact (isClean_onPeer _).bind fun _ => show_ _
  | resync => exact isClean_lastSession.bind fun _ => (isClean_resync hE _).bind fun _ => show_ _
  | listenResync name =>
    refine isClean_lastSession.bind fun _ => (isClean_listenResync _).bind fun _ => ?_
    split
    · exact (isClean_labelSubscription _ _).bind fun _ => show_ _
    · exact isClean_throw rfl
  | feedErrors octets =>
    refine isClean_onlyLink.bind fun _ => ?_
    split
    · refine (isClean_child _).bind fun _ => ?_
      split
      · exact (isClean_feedPipe _ _).bind fun _ => show_ _
      · exact show_ _
    · exact show_ _
  | errorStreamFault f =>
    refine isClean_onlyLink.bind fun _ => ?_
    split
    · refine (isClean_child _).bind fun _ => ?_
      split
      · have fair : f.isBreach = false := by simpa [Step.isClean] using clean
        exact (isClean_breakPipe _ fair).bind fun _ => show_ _
      · exact show_ _
    · exact show_ _
  | exit code =>
    refine isClean_onlyLink.bind fun _ => ?_
    split
    · exact (isClean_childExits _ _).bind fun _ => show_ _
    · exact show_ _
  | inspect => exact isClean_lastSession.bind fun _ => (isClean_session _).bind fun _ => show_ _
  | _ => cases clean

/-- Clean steps keep clients clean, however deep reactions are nested. -/
theorem isClean_executor (depth : Nat) : (executor depth).IsClean := by
  induction depth with
  | zero => exact fun _ _ => ⟨fun c hc => (isClean_return Display.none : IsClean (executor 0) _).cleanAt c hc⟩
  | succ depth ih => exact fun step clean => ⟨fun c hc => (isClean_runStep ih clean).cleanAt c hc⟩

end LspClient.Client
