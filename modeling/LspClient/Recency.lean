/-
A memory of bounded size that forgets the entry used longest ago. Writing an entry makes it the
most recent one, and so does touching it; asking for its value does not.
-/

namespace LspClient

/-- Entries from the one used longest ago to the most recent one. -/
structure Recency (κ α : Type) where
  limit : Nat
  entries : List (κ × α) := []

namespace Recency

variable {κ α : Type} [DecidableEq κ]

/-- A memory without entries. -/
def empty (limit : Nat) : Recency κ α :=
  ⟨limit, []⟩

/-- The value written under a key, if it is still remembered. -/
def get? (m : Recency κ α) (key : κ) : Option α :=
  (m.entries.find? fun e => e.1 = key).map (·.2)

/-- Whether a key is still remembered. -/
def contains (m : Recency κ α) (key : κ) : Bool :=
  m.entries.any fun e => e.1 = key

/-- Whether the memory has room for any entry at all. -/
def canHold (m : Recency κ α) : Bool :=
  0 < m.limit

/-- Writes an entry as the most recent one; a full memory forgets the oldest for a new key. -/
def insert (m : Recency κ α) (key : κ) (value : α) : Recency κ α :=
  let others := m.entries.filter fun e => e.1 ≠ key
  { m with entries := others.drop (others.length + 1 - m.limit) ++ [(key, value)] }

/-- Makes the entry of a key the most recent one. -/
def touch (m : Recency κ α) (key : κ) : Recency κ α :=
  { m with entries := m.entries.filter (fun e => e.1 ≠ key) ++ m.entries.filter fun e => e.1 = key }

theorem length_insert_le (m : Recency κ α) (key : κ) (value : α) (h : 0 < m.limit) :
    (m.insert key value).entries.length ≤ m.limit := by
  simp only [insert, List.length_append, List.length_drop, List.length_singleton]
  omega

theorem contains_insert_self (m : Recency κ α) (key : κ) (value : α) :
    (m.insert key value).contains key = true := by
  simp [insert, contains]

theorem mem_of_get? {m : Recency κ α} {key : κ} {value : α} (h : m.get? key = some value) :
    (key, value) ∈ m.entries := by
  unfold get? at h
  obtain ⟨e, found, rfl⟩ := Option.map_eq_some_iff.1 h
  have same : e.1 = key := by simpa using List.find?_some found
  exact same ▸ List.mem_of_find?_eq_some found

theorem mem_of_mem_insert {m : Recency κ α} {key : κ} {value : α} {e : κ × α}
    (h : e ∈ (m.insert key value).entries) : e ∈ m.entries ∨ e = (key, value) := by
  unfold insert at h
  simp only [List.mem_append, List.mem_singleton] at h
  rcases h with old | new
  · exact .inl (List.mem_filter.1 (List.mem_of_mem_drop old)).1
  · exact .inr new

theorem mem_touch {m : Recency κ α} {key : κ} {e : κ × α} :
    e ∈ (m.touch key).entries ↔ e ∈ m.entries := by
  simp only [touch, List.mem_append, List.mem_filter, decide_eq_true_eq]
  constructor
  · rintro (⟨h, _⟩ | ⟨h, _⟩) <;> exact h
  · intro h
    by_cases same : e.1 = key
    · exact .inr ⟨h, same⟩
    · exact .inl ⟨h, same⟩

end Recency

end LspClient
