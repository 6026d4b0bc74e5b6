/-
Responses in any order. A request is settled with the first response that carries its id, unless it was
settled before, so the outcomes of requests do not depend on the order in which responses with
different ids come.
-/
import LspClient.Proofs.Registry.Settlement

namespace LspClient.Registry.World

variable {owner : Owner} {w : World} {responses responses' : List (RequestId × Outcome)}

/-! ## Definitions -/

/-- The world after a response has come. -/
def respond (w : World) (response : RequestId × Outcome) : World :=
  let (_, registry, loop) := exec (settle response.1 response.2) (w.registry, w.loop)
  { w with registry, loop }

/-- The world after responses have come one after another. -/
def respondAll (w : World) (responses : List (RequestId × Outcome)) : World :=
  responses.foldl respond w

/-! ## Responses -/

/-- A response keeps the world sound, and settles the open handle with its id. -/
theorem respond_spec (s : w.Sound owner) (response : RequestId × Outcome) :
    (w.respond response).Sound owner ∧ (w.respond response).handles = w.handles ∧
      ∀ h ∈ w.handles, (w.respond response).loop.outcome? h.2 =
        (w.loop.outcome? h.2).or (if h.1 = response.1 then some response.2 else none) := by
  obtain ⟨id, o⟩ := response
  obtain ⟨b, r, l, hx, sound, settles⟩ := Registry.Sound.exec_settle s id o
  have after : w.respond (id, o) = ⟨r, l, w.handles⟩ := by
    unfold respond
    rw [hx]
  rw [after]
  refine ⟨sound, rfl, fun h hh => ?_⟩
  rcases settles with ⟨e, he, _, before, settled, same⟩ | ⟨_, none, closed⟩
  · obtain ⟨mem, rfl⟩ := mem_of_find? he
    by_cases hp : h.2 = e.promise
    · have hid : h = (e.id, e.promise) := s.eq_of_promise hh (s.issued e mem) hp
      simp [hid, before, settled]
    · rw [same h.2 hp]
      by_cases hid : h.1 = e.id
      · -- The handle is not the one that is pending under the id, so it was settled before.
        cases ho : w.loop.outcome? h.2 with
        | some o' => rfl
        | none =>
          obtain ⟨d, hd, hid', hp'⟩ := s.registered h hh ho
          rw [s.eq_of_id hd mem (hid'.trans hid)] at hp'
          exact absurd hp'.symm hp
      · simp [hid]
  · rw [none h.2]
    by_cases hid : h.1 = id
    · obtain ⟨o', ho⟩ := Loop.isSettled_iff.1 (closed h hh hid)
      simp [ho]
    · simp [hid]

/-- Each handle keeps what it is settled with, or is settled with the first response with its id. -/
theorem outcome?_respondAll (s : w.Sound owner) {h : Issued} (hh : h ∈ w.handles) :
    (w.respondAll responses).loop.outcome? h.2 = (w.loop.outcome? h.2).or (responses.lookup h.1) := by
  induction responses generalizing w with
  | nil => simp [respondAll]
  | cons response responses ih =>
    obtain ⟨sound, handles, first⟩ := respond_spec s response
    have rest := ih sound (by rwa [handles])
    calc (w.respondAll (response :: responses)).loop.outcome? h.2
        = ((w.respond response).respondAll responses).loop.outcome? h.2 := rfl
      _ = ((w.respond response).loop.outcome? h.2).or (responses.lookup h.1) := rest
      _ = (w.loop.outcome? h.2).or ((response :: responses).lookup h.1) := by
        rw [first h hh, Option.or_assoc, List.lookup_cons]
        by_cases hid : h.1 = response.1
        · simp [hid]
        · rw [if_neg hid, beq_eq_false_iff_ne.2 hid, Option.none_or]

/-! ## Their order -/

/-- Of responses with different ids, each is the first one with its id. -/
theorem lookup_eq_some_iff_mem (distinct : (responses.map (·.1)).Nodup) {id : RequestId} {o : Outcome} :
    responses.lookup id = some o ↔ (id, o) ∈ responses := by
  induction responses with
  | nil => simp
  | cons response responses ih =>
    obtain ⟨first, rest⟩ := List.nodup_cons.1 distinct
    obtain ⟨id', o'⟩ := response
    rw [List.lookup_cons, List.mem_cons]
    by_cases hid : id = id'
    · cases hid
      have never : (id, o) ∉ responses := fun mem => first (List.mem_map.2 ⟨(id, o), mem, rfl⟩)
      simp [never, eq_comm]
    · rw [beq_eq_false_iff_ne.2 hid]
      simp [hid, ih rest]

/-- In whatever order responses with different ids come, all handles have the same outcomes. -/
theorem outcome?_respondAll_of_perm {memory : Nat} (room : 1 ≤ memory) {l : Loop Activity Event}
    (reached : Reaches owner ⟨.empty memory, l, []⟩ w) (distinct : (responses.map (·.1)).Nodup)
    (perm : responses.Perm responses') {h : Issued} (hh : h ∈ w.handles) :
    (w.respondAll responses').loop.outcome? h.2 = (w.respondAll responses).loop.outcome? h.2 := by
  have s : w.Sound owner := (reached.sound (Registry.Sound.empty owner room l)).1
  have distinct' : (responses'.map (·.1)).Nodup := (perm.map _).nodup_iff.1 distinct
  have same : responses'.lookup h.1 = responses.lookup h.1 := by
    refine Option.ext fun o => ?_
    rw [lookup_eq_some_iff_mem distinct', lookup_eq_some_iff_mem distinct, perm.mem_iff]
  rw [outcome?_respondAll s hh, outcome?_respondAll s hh, same]

end LspClient.Registry.World
