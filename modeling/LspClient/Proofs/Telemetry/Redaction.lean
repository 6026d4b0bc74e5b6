/-
What redaction hides, and what it leaves. Properties look the same once they are redacted exactly if they differ in
nothing but values under sensitive keys that are reached through objects. Lists are not searched: what stands in them,
secrets included, leaves the process as it is.
-/
import LspClient.Client.Host
import Mathlib.Data.List.Forall2

namespace LspClient.Telemetry

/-! ## Definitions -/

mutual

/-- Values that differ in nothing but what stands under sensitive keys, as deep as objects are nested. -/
inductive Veiled : Value → Value → Prop
  | same (v : Value) : Veiled v v
  | object {ms ns : List (String × Value)} (members : VeiledMembers ms ns) : Veiled (.object ms) (.object ns)

/-- Members that differ in nothing but what stands under sensitive keys, as deep as objects are nested. -/
inductive VeiledMembers : List (String × Value) → List (String × Value) → Prop
  | nil : VeiledMembers [] []
  | secret {k : String} {v w : Value} {ms ns : List (String × Value)} (sensitive : isSensitiveKey k = true)
    (rest : VeiledMembers ms ns) : VeiledMembers ((k, v) :: ms) ((k, w) :: ns)
  | plain {k : String} {v w : Value} {ms ns : List (String × Value)} (value : Veiled v w)
    (rest : VeiledMembers ms ns) : VeiledMembers ((k, v) :: ms) ((k, w) :: ns)

end

/-- Records of the same event that differ in nothing but what stands under sensitive keys. -/
structure Record.Veiled (r r' : Record) : Prop where
  event : r'.event = r.event
  timestamp : r'.timestamp = r.timestamp
  properties : VeiledMembers r.properties r'.properties

/-- The value that is reached from another one through the members with some keys. -/
def reach? : List String → Value → Option Value
  | [], v => some v
  | k :: ks, v => (v.get? k).bind (reach? ks)

variable {v w : Value} {ms ns : List (String × Value)} {r r' : Record}

/-! ## What is hidden -/

theorem redactValue_object (ms : List (String × Value)) : redactValue (.object ms) = .object (redact ms) := by
  rw [redactValue]

/-- Only objects are searched. -/
theorem redactValue_of_not_object (h : ∀ ms, v ≠ .object ms) : redactValue v = v := by
  unfold redactValue
  split
  · exact absurd rfl (h _)
  · rfl

theorem redact_cons (k : String) (v : Value) (ms : List (String × Value)) :
    redact ((k, v) :: ms) = (k, if isSensitiveKey k then redacted else redactValue v) :: redact ms := by
  rw [redact]

mutual

/-- What differs only under sensitive keys looks the same. -/
theorem Veiled.redactValue_eq : ∀ {v w : Value}, Veiled v w → redactValue v = redactValue w
  | _, _, .same _ => rfl
  | _, _, .object members => by rw [redactValue_object, redactValue_object, members.redact_eq]

theorem VeiledMembers.redact_eq : ∀ {ms ns : List (String × Value)}, VeiledMembers ms ns → redact ms = redact ns
  | _, _, .nil => rfl
  | _, _, .secret sensitive rest => by
    rw [redact_cons, redact_cons, if_pos sensitive, if_pos sensitive, rest.redact_eq]
  | _, _, .plain value rest => by rw [redact_cons, redact_cons, value.redactValue_eq, rest.redact_eq]

end

mutual

/-- What looks the same differs only under sensitive keys. -/
theorem veiled_of_redactValue_eq : ∀ v w : Value, redactValue v = redactValue w → Veiled v w
  | .object ms, w, h => by
    rw [redactValue_object] at h
    by_cases object : ∃ ns, w = .object ns
    · obtain ⟨ns, rfl⟩ := object
      rw [redactValue_object] at h
      exact .object (veiled_of_redact_eq ms ns (Value.object.inj h))
    · have plain : ∀ ns, w ≠ .object ns := fun ns e => object ⟨ns, e⟩
      rw [redactValue_of_not_object plain] at h
      exact absurd h.symm (plain _)
  | .null, w, h | .bool _, w, h | .int _, w, h | .float _, w, h | .str _, w, h | .bytes _, w, h | .date _, w, h
  | .dateTime _, w, h | .list _, w, h | .set _, w, h | .map _, w, h => by
    rw [redactValue_of_not_object (by simp)] at h
    by_cases object : ∃ ns, w = .object ns
    · obtain ⟨ns, rfl⟩ := object
      rw [redactValue_object] at h
      cases h
    · rw [redactValue_of_not_object fun ns e => object ⟨ns, e⟩] at h
      exact h ▸ .same _

theorem veiled_of_redact_eq : ∀ ms ns : List (String × Value), redact ms = redact ns → VeiledMembers ms ns
  | [], [], _ => .nil
  | [], (_, _) :: _, h => by
    rw [redact_cons] at h
    cases h
  | (_, _) :: _, [], h => by
    rw [redact_cons] at h
    cases h
  | (k, v) :: ms, (k', w) :: ns, h => by
    rw [redact_cons, redact_cons] at h
    obtain ⟨first, rest⟩ := List.cons.inj h
    obtain ⟨rfl, value⟩ := Prod.mk.inj first
    have rest := veiled_of_redact_eq ms ns rest
    by_cases sensitive : isSensitiveKey k = true
    · exact .secret sensitive rest
    · rw [if_neg sensitive, if_neg sensitive] at value
      exact .plain (veiled_of_redactValue_eq v w value) rest

end

/-- Properties look the same once they are redacted exactly if they differ only under sensitive keys. -/
theorem redact_eq_redact_iff : redact ms = redact ns ↔ VeiledMembers ms ns :=
  ⟨veiled_of_redact_eq ms ns, VeiledMembers.redact_eq⟩

/-! ## What is left -/

theorem lookup_redact (key : String) (ms : List (String × Value)) :
    Value.lookup key (redact ms) =
      (Value.lookup key ms).map fun v => if isSensitiveKey key then redacted else redactValue v := by
  induction ms with
  | nil => rfl
  | cons head rest ih =>
    obtain ⟨k, v⟩ := head
    rw [redact_cons]
    unfold Value.lookup
    by_cases same : k = key
    · rw [if_pos same, if_pos same, same]
      rfl
    · rw [if_neg same, if_neg same, ih]

theorem get?_redactValue (key : String) (v : Value) :
    (redactValue v).get? key = (v.get? key).map fun v => if isSensitiveKey key then redacted else redactValue v := by
  by_cases object : ∃ ms, v = .object ms
  · obtain ⟨ms, rfl⟩ := object
    rw [redactValue_object]
    exact lookup_redact key ms
  · have none : v.get? key = none := by
      unfold Value.get?
      split
      · exact absurd ⟨_, rfl⟩ object
      · rfl
    rw [redactValue_of_not_object fun ms e => object ⟨ms, e⟩, none]
    rfl

/-- What is reached through keys that are not sensitive is redacted in its turn, and nothing else is changed about
it. -/
theorem reach?_redactValue {path : List String} (plain : ∀ k ∈ path, isSensitiveKey k = false) (v : Value) :
    reach? path (redactValue v) = (reach? path v).map redactValue := by
  induction path generalizing v with
  | nil => rfl
  | cons k path ih =>
    have step := get?_redactValue k v
    rw [plain k (List.mem_cons_self ..)] at step
    unfold reach?
    rw [step]
    cases v.get? k with
    | none => rfl
    | some w => exact ih (fun x hx => plain x (List.mem_cons_of_mem _ hx)) w

/-- So what is no object and is reached that way stays as it is. -/
theorem reach?_redactValue_of_not_object {path : List String} (plain : ∀ k ∈ path, isSensitiveKey k = false)
    (reached : reach? path v = some w) (leaf : ∀ ms, w ≠ .object ms) : reach? path (redactValue v) = some w := by
  rw [reach?_redactValue plain, reached, Option.map_some, redactValue_of_not_object leaf]

/-! ## Records -/

/-- Veiled values have veiled members under each key, unless the key is sensitive. -/
theorem Veiled.get? (h : Veiled v w) (key : String) (plain : isSensitiveKey key = false) :
    v.get? key = none ∧ w.get? key = none ∨ ∃ a b, v.get? key = some a ∧ w.get? key = some b ∧ Veiled a b := by
  have same := (get?_redactValue key v).symm.trans (h.redactValue_eq ▸ get?_redactValue key w)
  simp only [plain] at same
  cases hv : v.get? key with
  | none =>
    rw [hv] at same
    exact .inl ⟨rfl, Option.map_eq_none_iff.1 same.symm⟩
  | some a =>
    rw [hv] at same
    obtain ⟨b, hw, e⟩ := Option.map_eq_some_iff.1 same.symm
    exact .inr ⟨a, b, rfl, hw, veiled_of_redactValue_eq a b e.symm⟩

/-- Texts look like nothing but themselves. -/
theorem Veiled.eq_str {text : String} (h : Veiled (.str text) w) : w = .str text := by
  cases h
  rfl

theorem Veiled.symm (h : Veiled v w) : Veiled w v :=
  veiled_of_redactValue_eq w v h.redactValue_eq.symm

/-- Veiled values have veiled members, if they have any. -/
theorem Veiled.asObject? (h : Veiled v w) : VeiledMembers (v.asObject?.getD []) (w.asObject?.getD []) := by
  cases h with
  | same v => exact veiled_of_redact_eq _ _ rfl
  | object members => exact members

/-- Payloads that differ only under sensitive keys make records that do. -/
theorem Veiled.ofPayload (h : Veiled v w) (timestamp : String) :
    (Record.ofPayload v timestamp).Veiled (Record.ofPayload w timestamp) := by
  have wrapped : (⟨serverTelemetryEvent, [("data", v)], timestamp⟩ : Record).Veiled
      ⟨serverTelemetryEvent, [("data", w)], timestamp⟩ := ⟨rfl, rfl, .plain h .nil⟩
  have properties : VeiledMembers (((v.get? "properties").bind Value.asObject?).getD [])
      (((w.get? "properties").bind Value.asObject?).getD []) := by
    rcases h.get? "properties" (by decide) with ⟨hv, hw⟩ | ⟨a, b, hv, hw, veiled⟩
    · rw [hv, hw]
      exact .nil
    · rw [hv, hw]
      exact veiled.asObject?
  unfold Record.ofPayload
  rcases h.get? "eventName" (by decide) with ⟨hv, hw⟩ | ⟨a, b, hv, hw, veiled⟩
  · rw [hv, hw]
    exact wrapped
  · rw [hv, hw]
    by_cases text : ∃ name, a = .str name
    · obtain ⟨name, rfl⟩ := text
      rw [veiled.eq_str]
      exact ⟨rfl, rfl, properties⟩
    · have other : ∀ name, b ≠ .str name := by
        rintro name rfl
        exact text ⟨name, veiled.symm.eq_str⟩
      split
      · next e => exact absurd ⟨_, Option.some.inj e⟩ text
      · split
        · next e => exact absurd (Option.some.inj e) (other _)
        · exact wrapped

/-- The line of a record in a file does not depend on what stands under sensitive keys. -/
theorem Record.Veiled.line_eq (h : r.Veiled r') : line r = line r' := by
  unfold line
  rw [h.event, h.timestamp, h.properties.redact_eq]

/-- Nor does a record as it is posted, -/
theorem Record.Veiled.posted_eq (h : r.Veiled r') : posted r = posted r' := by
  unfold posted
  rw [h.event, h.timestamp, h.properties.redact_eq]

/-- and nothing but that is hidden. -/
theorem posted_eq_posted_iff : posted r = posted r' ↔ r.Veiled r' := by
  refine ⟨fun h => ?_, Record.Veiled.posted_eq⟩
  simp only [posted, Value.object.injEq, List.cons.injEq, Prod.mk.injEq, Value.str.injEq, true_and, and_true] at h
  exact ⟨h.1.symm, h.2.2.symm, veiled_of_redact_eq _ _ h.2.1⟩

/-- A file takes the same line for records that differ only under sensitive keys. -/
theorem emitTo_file_eq (h : r.Veiled r') (index : Nat) (path : String) (isOpen : Bool) :
    Client.emitTo index (.file path isOpen) r = Client.emitTo index (.file path isOpen) r' := by
  simp only [Client.emitTo, h.line_eq]

/-- A collector is posted the same for records that differ only under sensitive keys. -/
theorem map_posted_eq {rs rs' : List Record} (h : List.Forall₂ Record.Veiled rs rs') :
    rs.map posted = rs'.map posted := by
  induction h with
  | nil => rfl
  | cons first _ ih => rw [List.map_cons, List.map_cons, first.posted_eq, ih]

/-! ## What is not hidden -/

/-- Lists that look the same are the same, whatever stands in them. -/
theorem eq_of_veiled_list {items items' : List Value} (h : Veiled (.list items) (.list items')) : items = items' := by
  cases h
  rfl

/-- A secret in a list can be told from another one. -/
theorem posted_ne_of_listed_secrets :
    posted (Record.ofPayload (.list [.object [("password", .str "one")]]) "") ≠
      posted (Record.ofPayload (.list [.object [("password", .str "two")]]) "") := by
  intro h
  cases (posted_eq_posted_iff.1 h).properties with
  | secret sensitive => exact absurd sensitive (by decide)
  | plain value =>
    have same := eq_of_veiled_list value
    simp at same

end LspClient.Telemetry
