/-
What a router holds, told from its history. The history of a router lists what was done with it and what was answered,
in order, and the subscriptions that are active after it are those that were neither taken back nor cleared later. A
router that is used by its operations alone holds exactly these for every method, and lists the methods that have one:
no method stays listed without a subscription, so none is listed twice when it comes back.
-/
import LspClient.Router
import LspClient.Value
import Mathlib.Data.List.Nodup

namespace LspClient.Router

/-! ## Definitions -/

/-- What happens to a router. A dispatch goes by the place in the history at which it began. -/
inductive Event (η : Type) where
  | subscribed (method : String) (id : Nat) (handler : η)
  | unsubscribed (method : String) (id : Nat)
  | cleared
  /-- The handlers of a method were asked for. -/
  | listed (method : String) (handlers : List η)
  /-- The methods were asked for. -/
  | named (methods : List String)
  | began (method : String) (params : Value)
  | called (dispatch : Nat) (handler : η) (params : Value)
  | returned (dispatch : Nat) (handler : η) (outcome : Except Fault Unit)
  /-- The hook was called for a fault. -/
  | told (dispatch : Nat) (method : String) (fault : Fault)
  /-- The hook came back. -/
  | heard (dispatch : Nat) (outcome : Except Fault Unit)
  | ended (dispatch : Nat) (outcome : Except Fault Nat)

/-- Whether an event ends a subscription. -/
def Event.revokes {η : Type} (method : String) (id : Nat) : Event η → Bool
  | unsubscribed m i => m = method && i = id
  | cleared => true
  | _ => false

/-- Whether an event changes what is subscribed. -/
def Event.changes {η : Type} : Event η → Bool
  | subscribed .. | unsubscribed .. | cleared => true
  | _ => false

/-- The subscriptions to a method that no later event ends, in the order in which they were made. -/
def active {η : Type} (method : String) : List (Event η) → List (Subscription η)
  | [] => []
  | .subscribed m id h :: later =>
    if m = method ∧ later.all (fun e => !e.revokes method id) then ⟨id, h⟩ :: active method later
    else active method later
  | _ :: later => active method later

/-- Each method is listed once, and with a subscription. -/
structure WF {η : Type} (r : Router η) : Prop where
  distinct : (r.methods.map Prod.fst).Nodup
  filled : ∀ m ∈ r.methods, m.2 ≠ []

/-- A router together with its history. -/
structure Tracked (η : Type) where
  router : Router η := {}
  history : List (Event η) := []

/-- Something else happens. -/
def Tracked.note {η : Type} (t : Tracked η) (e : Event η) : Tracked η :=
  { t with history := t.history ++ [e] }

/-- A router holds what is active after its history, and its next id is new. -/
structure Tracked.Sound {η : Type} (t : Tracked η) : Prop where
  wf : t.router.WF
  holds : ∀ method, t.router.subscriptions method = active method t.history
  fresh : ∀ method id handler, .subscribed method id handler ∈ t.history → id < t.router.nextId

variable {η : Type} {t : Tracked η} {r r' : Router η} {method other : String} {id : Nat} {handler : η}
  {history news : List (Event η)} {e : Event η} {methods : List (String × List (Subscription η))}

/-! ## Active subscriptions -/

/-- What comes later ends subscriptions and adds some. -/
theorem active_append (method : String) (history news : List (Event η)) :
    active method (history ++ news) =
      ((active method history).filter fun s => news.all fun e => !e.revokes method s.id) ++ active method news := by
  induction history with
  | nil => rfl
  | cons e history ih =>
    cases e with
    | subscribed m id h =>
      rw [List.cons_append, active, active, ih, List.all_append]
      by_cases same : m = method
      · by_cases before : (history.all fun e => !e.revokes method id) = true
        · by_cases after : (news.all fun e => !e.revokes method id) = true
          · rw [if_pos ⟨same, by rw [before, after]; rfl⟩, if_pos ⟨same, before⟩, List.filter_cons, if_pos after,
              List.cons_append]
          · rw [if_neg (by simp [after]), if_pos ⟨same, before⟩, List.filter_cons, if_neg after]
        · rw [if_neg (by simp [before]), if_neg (by simp [before])]
      · rw [if_neg (by simp [same]), if_neg (by simp [same])]
    | _ => exact ih

theorem active_subscribed (h : List (Event η)) :
    active method (h ++ [.subscribed other id handler]) =
      if other = method then active method h ++ [⟨id, handler⟩] else active method h := by
  rw [active_append]
  by_cases same : other = method
  · simp [active, same, Event.revokes]
  · simp [active, same, Event.revokes]

theorem active_unsubscribed (h : List (Event η)) :
    active method (h ++ [.unsubscribed other id]) =
      if other = method then (active method h).filter fun s => s.id ≠ id else active method h := by
  rw [active_append]
  by_cases same : other = method
  · simp [active, same, Event.revokes, eq_comm]
  · simp [active, same, Event.revokes]

theorem active_cleared (h : List (Event η)) : active method (h ++ [.cleared]) = [] := by
  rw [active_append]
  simp [active, Event.revokes]

theorem active_of_unchanged (h : List (Event η)) (e : Event η) (unchanged : e.changes = false) :
    active method (h ++ [e]) = active method h := by
  rw [active_append]
  cases e with
  | subscribed | unsubscribed | cleared => cases unchanged
  | _ => simp [active, Event.revokes]

/-! ## Subscriptions -/

theorem lookup_insert (s : Subscription η) (methods : List (String × List (Subscription η))) :
    (insert method s methods).lookup other =
      if other = method then some ((methods.lookup method).getD [] ++ [s]) else methods.lookup other := by
  induction methods with
  | nil =>
    by_cases same : other = method
    · simp [insert, same]
    · simp [insert, same]
  | cons first methods ih =>
    obtain ⟨m, ss⟩ := first
    unfold insert
    by_cases here : m = method
    · obtain rfl := here
      by_cases same : other = m
      · simp [same]
      · rw [if_pos rfl, if_neg same, List.lookup_cons, List.lookup_cons, beq_false_of_ne same]
    · rw [if_neg here, List.lookup_cons, List.lookup_cons, List.lookup_cons, ih, beq_false_of_ne (Ne.symm here)]
      by_cases found : other = m
      · rw [if_neg (found ▸ here), if_neg (found ▸ here), found, beq_self_eq_true]
      · rw [beq_false_of_ne found]

theorem mem_insert {s : Subscription η} {m : String × List (Subscription η)} (h : m ∈ insert method s methods) :
    m ∈ methods ∨ m.1 = method ∧ s ∈ m.2 := by
  induction methods with
  | nil =>
    obtain rfl := List.mem_singleton.1 h
    exact .inr ⟨rfl, List.mem_singleton.2 rfl⟩
  | cons first methods ih =>
    obtain ⟨k, ss⟩ := first
    unfold insert at h
    split at h
    · next same =>
      rcases List.mem_cons.1 h with rfl | later
      · exact .inr ⟨same, List.mem_append_right ss (List.mem_singleton.2 rfl)⟩
      · exact .inl (List.mem_cons_of_mem _ later)
    · rcases List.mem_cons.1 h with rfl | later
      · exact .inl List.mem_cons_self
      · exact (ih later).imp_left (List.mem_cons_of_mem _)

theorem nodup_insert {s : Subscription η} (h : (methods.map Prod.fst).Nodup) :
    ((insert method s methods).map Prod.fst).Nodup := by
  induction methods with
  | nil => exact List.nodup_singleton _
  | cons first methods ih =>
    obtain ⟨k, ss⟩ := first
    rw [List.map_cons, List.nodup_cons] at h
    unfold insert
    split
    · exact List.nodup_cons.2 h
    · next other =>
      refine List.nodup_cons.2 ⟨?_, ih h.2⟩
      intro again
      obtain ⟨m, hm, same⟩ := List.mem_map.1 again
      rcases mem_insert hm with old | ⟨new, -⟩
      · exact h.1 (List.mem_map.2 ⟨m, old, same⟩)
      · exact other (same.symm.trans new)

theorem wf_empty : WF (η := η) {} :=
  ⟨List.nodup_nil, nofun⟩

/-- A subscription comes behind the others of its method. -/
theorem subscriptions_subscribe (h : r.subscribe method handler = .ok (id, r')) (other : String) :
    r'.subscriptions other =
      if method = other then r.subscriptions other ++ [⟨id, handler⟩] else r.subscriptions other := by
  unfold subscribe at h
  split at h
  · cases h
  · cases h
    unfold subscriptions
    rw [lookup_insert]
    by_cases same : method = other
    · simp [same]
    · rw [if_neg (Ne.symm same), if_neg same]

theorem WF.subscribe (wf : r.WF) (h : r.subscribe method handler = .ok (id, r')) : r'.WF := by
  unfold Router.subscribe at h
  split at h
  · cases h
  · cases h
    refine ⟨nodup_insert wf.distinct, fun m hm => ?_⟩
    rcases mem_insert hm with old | ⟨-, new⟩
    · exact wf.filled m old
    · exact List.ne_nil_of_mem new

/-- What is left of a method when a subscription is taken back. -/
def without (method : String) (id : Nat) (m : String × List (Subscription η)) :
    Option (String × List (Subscription η)) :=
  if m.1 = method then
    match m.2.filter fun s => s.id ≠ id with
    | [] => none
    | ss => some (m.1, ss)
  else some m

theorem methods_unsubscribe (r : Router η) (method : String) (id : Nat) :
    (r.unsubscribe method id).methods = r.methods.filterMap (without method id) := rfl

/-- A method goes with its last subscription; until then it keeps the other ones. -/
theorem without_cases (method : String) (id : Nat) (m : String × List (Subscription η)) :
    (without method id m = none ∧ m.1 = method ∧ (m.2.filter fun s => s.id ≠ id) = []) ∨
      ∃ ss, without method id m = some (m.1, ss) ∧ (m.2 ≠ [] → ss ≠ []) ∧
        ss = if m.1 = method then m.2.filter fun s => s.id ≠ id else m.2 := by
  unfold without
  by_cases same : m.1 = method
  · rw [if_pos same, if_pos same]
    cases rest : m.2.filter fun s => s.id ≠ id with
    | nil => exact .inl ⟨rfl, same, rfl⟩
    | cons s ss => exact .inr ⟨s :: ss, rfl, fun _ => List.cons_ne_nil s ss, rfl⟩
  · rw [if_neg same, if_neg same]
    exact .inr ⟨m.2, rfl, fun filled => filled, rfl⟩

theorem sublist_without (method : String) (id : Nat) (methods : List (String × List (Subscription η))) :
    ((methods.filterMap (without method id)).map Prod.fst).Sublist (methods.map Prod.fst) := by
  induction methods with
  | nil => exact .slnil
  | cons m methods ih =>
    rcases without_cases method id m with ⟨gone, -⟩ | ⟨ss, kept, -⟩
    · rw [List.filterMap_cons, gone]
      exact ih.cons m.1
    · rw [List.filterMap_cons, kept]
      exact ih.cons_cons m.1

theorem lookup_without (distinct : (methods.map Prod.fst).Nodup) (other : String) :
    ((methods.filterMap (without method id)).lookup other).getD [] =
      if method = other then ((methods.lookup other).getD []).filter fun s => s.id ≠ id
      else (methods.lookup other).getD [] := by
  induction methods with
  | nil => split <;> rfl
  | cons m methods ih =>
    rw [List.map_cons, List.nodup_cons] at distinct
    rw [List.filterMap_cons, List.lookup_cons]
    by_cases here : other = m.1
    · -- The method of `other` stands here and nowhere else.
      have absent : methods.lookup other = none := by
        rw [List.lookup_eq_none_iff]
        rintro p hp
        refine bne_iff_ne.2 ?_
        rintro same
        exact distinct.1 (List.mem_map.2 ⟨p, hp, same.symm.trans here⟩)
      rw [here, beq_self_eq_true]
      rcases without_cases method id m with ⟨gone, same, empty⟩ | ⟨ss, kept, -, rfl⟩
      · rw [gone, if_pos same.symm, ← here, ih distinct.2, absent]
        rw [Option.getD_some, empty]
        split <;> rfl
      · rw [kept]
        simp [eq_comm]
    · rw [beq_false_of_ne here]
      rcases without_cases method id m with ⟨gone, -⟩ | ⟨ss, kept, -⟩
      · rw [gone]
        exact ih distinct.2
      · rw [kept, List.lookup_cons, beq_false_of_ne here]
        exact ih distinct.2

theorem subscriptions_unsubscribe (wf : r.WF) (method : String) (id : Nat) (other : String) :
    (r.unsubscribe method id).subscriptions other =
      if method = other then (r.subscriptions other).filter fun s => s.id ≠ id else r.subscriptions other := by
  unfold subscriptions
  rw [methods_unsubscribe]
  exact lookup_without wf.distinct other

theorem WF.unsubscribe (wf : r.WF) (method : String) (id : Nat) : (r.unsubscribe method id).WF := by
  refine ⟨wf.distinct.sublist (sublist_without method id r.methods), fun m hm => ?_⟩
  rw [methods_unsubscribe] at hm
  obtain ⟨old, there, left⟩ := List.mem_filterMap.1 hm
  rcases without_cases method id old with ⟨gone, -⟩ | ⟨ss, kept, filled, -⟩
  · rw [left] at gone
    cases gone
  · rw [left] at kept
    cases kept
    exact filled (wf.filled old there)

theorem WF.clear (r : Router η) : r.clear.WF :=
  ⟨List.nodup_nil, nofun⟩

/-- A method is listed just if it has a subscription. -/
theorem WF.mem_methodNames (wf : r.WF) : method ∈ r.methodNames ↔ r.subscriptions method ≠ [] := by
  unfold methodNames subscriptions
  cases found : r.methods.lookup method with
  | none =>
    refine iff_of_false ?_ (fun filled => filled rfl)
    rintro listed
    obtain ⟨m, hm, rfl⟩ := List.mem_map.1 listed
    exact absurd (List.lookup_eq_none_iff.1 found m hm) (by simp)
  | some ss =>
    obtain ⟨before, after, split, -⟩ := List.lookup_eq_some_iff.1 found
    have there : (method, ss) ∈ r.methods := by
      rw [split]
      exact List.mem_append_right before List.mem_cons_self
    exact iff_of_true (List.mem_map.2 ⟨_, there, rfl⟩) (wf.filled _ there)

/-! ## Routers and their histories -/

theorem id_of_subscribe (h : r.subscribe method handler = .ok (id, r')) : id = r.nextId ∧ r'.nextId = r.nextId + 1 := by
  unfold subscribe at h
  split at h
  · cases h
  · cases h
    exact ⟨rfl, rfl⟩

namespace Tracked

theorem sound_empty : Sound (η := η) {} :=
  ⟨wf_empty, fun _ => rfl, nofun⟩

theorem Sound.note (s : t.Sound) {e : Event η} (unchanged : e.changes = false) : (t.note e).Sound where
  wf := s.wf
  holds method := (s.holds method).trans (active_of_unchanged t.history e unchanged).symm
  fresh method id handler there := by
    rcases List.mem_append.1 there with before | now
    · exact s.fresh method id handler before
    · obtain rfl := List.mem_singleton.1 now
      cases unchanged

theorem Sound.subscribe (s : t.Sound) (h : t.router.subscribe method handler = .ok (id, r')) :
    Sound ⟨r', t.history ++ [.subscribed method id handler]⟩ where
  wf := s.wf.subscribe h
  holds other := by
    show r'.subscriptions other = _
    rw [subscriptions_subscribe h, active_subscribed, s.holds]
  fresh m i g there := by
    obtain ⟨same, next⟩ := id_of_subscribe h
    show i < r'.nextId
    rcases List.mem_append.1 there with before | now
    · have old := s.fresh m i g before
      omega
    · cases List.mem_singleton.1 now
      omega

theorem Sound.unsubscribe (s : t.Sound) (method : String) (id : Nat) :
    Sound ⟨t.router.unsubscribe method id, t.history ++ [.unsubscribed method id]⟩ where
  wf := s.wf.unsubscribe method id
  holds other := by
    show (t.router.unsubscribe method id).subscriptions other = _
    rw [subscriptions_unsubscribe s.wf, active_unsubscribed, s.holds]
  fresh m i g there := s.fresh m i g (by simpa using there)

theorem Sound.clear (s : t.Sound) : Sound ⟨t.router.clear, t.history ++ [.cleared]⟩ where
  wf := .clear t.router
  holds other := (active_cleared t.history).symm
  fresh m i g there := s.fresh m i g (by simpa using there)

/-- A subscription gets an id of its own. -/
theorem Sound.new (s : t.Sound) (h : t.router.subscribe method handler = .ok (id, r')) (m : String) (g : η) :
    .subscribed m id g ∉ t.history := by
  intro old
  have below := s.fresh m id g old
  have same := (id_of_subscribe h).1
  omega

theorem Sound.handlers (s : t.Sound) (method : String) :
    t.router.handlers method = (active method t.history).map (·.handler) := by
  unfold Router.handlers
  rw [s.holds]

theorem Sound.mem_methodNames (s : t.Sound) (method : String) :
    method ∈ t.router.methodNames ↔ active method t.history ≠ [] := by
  rw [s.wf.mem_methodNames, s.holds]

end Tracked

end LspClient.Router
