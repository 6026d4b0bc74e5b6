/-
Whether settings keep the schema. Values are checked before their references are replaced, so a text that must not be
empty may become empty, if all it refers to is. That is the only way in which settings can break the schema: what is
wrong with them, written back as a mapping, is that such texts are empty, and each of these was configured as a text
that is not.
-/
import LspClient.Proofs.Settings.Reading

namespace LspClient.Settings

variable {v d item : Value} {env : Environment} {path : List Value} {s : Settings} {t : String}

/-! ## Values at paths -/

/-- The value that a path of keys and indices leads to. -/
def valueAt? : Value → List Value → Option Value
  | v, [] => some v
  | v, .str name :: path => (memberOf? v name).bind fun item => valueAt? item path
  | .list items, .int (.ofNat i) :: path => items[i]?.bind fun item => valueAt? item path
  | _, _ => none

theorem valueAt?_str {name : String} :
    valueAt? v (.str name :: path) = some item ↔ ∃ w, memberOf? v name = some w ∧ valueAt? w path = some item :=
  Option.bind_eq_some_iff

/-- The places of texts that must not be empty. -/
inductive IsEssential : List Value → Prop
  | name : IsEssential [.str "name"]
  | label : IsEssential [.str "label"]
  | word (i : Nat) : IsEssential [.str "server", .str "command", .int i]
  | host : IsEssential [.str "debug", .str "host"]
  | componentId : IsEssential [.str "conflicts", .str "component_id"]
  | capability : IsEssential [.str "conflicts", .str "capability"]

theorem valueAt?_expandValue (env : Environment) (v : Value) (path : List Value) :
    valueAt? (expandValue env v) path = (valueAt? v path).map (expandValue env) := by
  induction path generalizing v with
  | nil => rfl
  | cons step path ih =>
    cases step with
    | str name =>
      rw [valueAt?, valueAt?, memberOf?_expandValue]
      cases memberOf? v name with
      | none => rfl
      | some item => exact ih item
    | int i =>
      cases v with
      | list items =>
        cases i with
        | ofNat i =>
          rw [expandValue, expandItems_eq, valueAt?, valueAt?, List.getElem?_map]
          cases items[i]? with
          | none => rfl
          | some item => exact ih item
        | negSucc i => rfl
      | _ => cases i <;> rfl
    | _ => cases v <;> rfl

theorem memberOf?_fill (n : Nat) (defaults : List (String × Value)) (v : Value) (name : String) :
    memberOf? (fill (n + 1) (.object defaults) v) name =
      (memberOf? (.object defaults) name).map fun d => (memberOf? v name).elim d (fill n d) := by
  unfold fill memberOf?
  dsimp only
  induction defaults with
  | nil => rfl
  | cons d defaults ih =>
    rw [List.map_cons, Value.lookup, Value.lookup]
    split
    · next same =>
      rw [← same]
      rfl
    · exact ih

/-- A text of a value that is laid over defaults comes from the value or from the defaults. -/
theorem valueAt?_fill {n : Nat} (h : valueAt? (fill n d v) path = some (.str t)) :
    valueAt? v path = some (.str t) ∨ valueAt? d path = some (.str t) := by
  -- By the depth: a step of the path goes into the defaults, and into the value where it has the member.
  induction n generalizing d v path with
  | zero => exact .inl h
  | succ n ih =>
    cases d with
    | object defaults =>
      cases path with
      | nil => cases h
      | cons step path =>
        cases step with
        | str name =>
          rw [valueAt?, memberOf?_fill] at h
          cases known : memberOf? (.object defaults) name with
          | none =>
            rw [known] at h
            cases h
          | some d =>
            rw [known, Option.map_some, Option.bind_some] at h
            cases present : memberOf? v name with
            | none =>
              rw [present] at h
              refine .inr ?_
              rwa [valueAt?, known]
            | some item =>
              rw [present] at h
              rw [valueAt?, valueAt?, present, known]
              exact ih h
        | int i => cases i <;> cases h
        | _ => cases h
    | _ => exact .inl h

/-- What keeps the schema has no empty text in an essential place. -/
theorem Keeps.ne_empty (h : Keeps schema v) (essential : IsEssential path) (there : valueAt? v path = some (.str t)) :
    t ≠ "" := by
  have text : ∀ {members : List (String × Schema)} {v : Value} {name : String}, Keeps (sectionOf members) v →
      (name, nonEmptyText) ∈ members → memberOf? v name = some (.str t) → t ≠ "" := by
    intro members v name keeps member there
    obtain ⟨s, nonempty, same⟩ := keeps_nonEmptyText.1 (keeps.member name member there)
    cases same
    exact nonempty
  cases essential with
  | name =>
    obtain ⟨item, there, ⟨⟩⟩ := valueAt?_str.1 there
    exact text h (by simp [members]) there
  | label =>
    obtain ⟨item, there, ⟨⟩⟩ := valueAt?_str.1 there
    exact text h (by simp [members]) there
  | host =>
    obtain ⟨debug, there, inside⟩ := valueAt?_str.1 there
    obtain ⟨item, inside, ⟨⟩⟩ := valueAt?_str.1 inside
    have keeps : Keeps (sectionOf Debug.members) debug := h.member "debug" (by simp [members]) there
    exact text keeps (by simp [Debug.members]) inside
  | componentId =>
    obtain ⟨conflicts, there, inside⟩ := valueAt?_str.1 there
    obtain ⟨item, inside, ⟨⟩⟩ := valueAt?_str.1 inside
    have keeps : Keeps (sectionOf Conflicts.members) conflicts := h.member "conflicts" (by simp [members]) there
    exact text keeps (by simp [Conflicts.members]) inside
  | capability =>
    obtain ⟨conflicts, there, inside⟩ := valueAt?_str.1 there
    obtain ⟨item, inside, ⟨⟩⟩ := valueAt?_str.1 inside
    have keeps : Keeps (sectionOf Conflicts.members) conflicts := h.member "conflicts" (by simp [members]) there
    exact text keeps (by simp [Conflicts.members]) inside
  | word i =>
    obtain ⟨server, there, inside⟩ := valueAt?_str.1 there
    obtain ⟨command, inside, place⟩ := valueAt?_str.1 inside
    have keeps : Keeps (sectionOf Server.members) server := h.member "server" (by simp [members]) there
    obtain ⟨words, -, nonempty, rfl⟩ := keeps_command.1 (keeps.member "command" (by simp [Server.members]) inside)
    obtain ⟨item, found, ⟨⟩⟩ := Option.bind_eq_some_iff.1 place
    rw [List.getElem?_map, Option.map_eq_some_iff] at found
    obtain ⟨word, found, ⟨⟩⟩ := found
    exact nonempty _ (List.mem_of_getElem? found)

theorem valueAt?_of_mem_essentials {e : Essential} (h : e ∈ s.essentials) :
    IsEssential e.path ∧ valueAt? s.toValue e.path = some (.str e.text) := by
  unfold essentials at h
  rw [List.mem_cons, List.mem_cons, List.mem_append, List.mem_append] at h
  rcases h with rfl | rfl | (h | h) | h
  · exact ⟨.name, rfl⟩
  · exact ⟨.label, rfl⟩
  · unfold Server.essentials wordsOf at h
    rw [List.map_map, List.map_map, List.mem_map] at h
    obtain ⟨⟨word, i⟩, there, rfl⟩ := h
    refine ⟨.word i, ?_⟩
    rw [List.mk_mem_zipIdx_iff_getElem?] at there
    have listed : valueAt? (.list (s.server.command.map .str)) [.int i] = some (.str word) := by
      simp [valueAt?, there]
    exact listed
  · obtain rfl := List.mem_singleton.1 h
    exact ⟨.host, rfl⟩
  · rcases (List.mem_cons.trans (or_congr_right List.mem_singleton)).1 h with rfl | rfl
    · exact ⟨.componentId, rfl⟩
    · exact ⟨.capability, rfl⟩

/-! ## Settings -/

/-- Settings keep the schema but for essential texts that are empty: that is all that is wrong with them when they are
written back, and they pass the check if no such text is empty. Where one is empty, the value has a text that is not,
and it expands to nothing. -/
theorem ofValue_keeps_schema (h : ofValue env v = .ok s) :
    brokenRules schema s.toValue = s.essentials.flatMap Essential.violations ∧
      (validate s.toValue = .ok () ↔ ∀ e ∈ s.essentials, e.text ≠ "") ∧
      ∀ e ∈ s.essentials, e.text = "" →
        ∃ raw, valueAt? v e.path = some (.str raw) ∧ raw ≠ "" ∧ expand env raw = "" := by
  obtain ⟨keeps, written, broken⟩ := ofValue_ok h
  refine ⟨broken, ?_, ?_⟩
  · rw [validate_eq_ok, Keeps, broken, List.flatMap_eq_nil_iff]
    refine forall₂_congr fun e _ => ?_
    unfold Essential.violations
    by_cases empty : e.text = "" <;> simp [empty]
  · intro e member empty
    obtain ⟨essential, there⟩ := valueAt?_of_mem_essentials member
    rw [written, empty] at there
    rcases valueAt?_fill there with configured | default
    · rw [valueAt?_expandValue, Option.map_eq_some_iff] at configured
      obtain ⟨item, configured, expanded⟩ := configured
      cases item with
      | str raw =>
        rw [expandValue, Value.str.injEq] at expanded
        exact ⟨raw, configured, keeps.ne_empty essential configured, expanded⟩
      | _ => cases expanded
    · have valid : Keeps schema (toValue {}) := rfl
      exact absurd rfl (valid.ne_empty essential default)

theorem ofValue_emptied :
    ofValue ⟨[("X", "")], "/root"⟩ (.object [("name", .str "$\x7bX\x7d")]) = .ok { name := "" } := by
  have nothing : expand ⟨[("X", "")], "/root"⟩ "$\x7bX\x7d" = "" := by decide
  refine ofValue_eq_ok.2 ⟨rfl, ?_⟩
  simp only [expandValue, expandMembers, nothing]
  rfl

theorem ofValue_keeps_schema_emptied :
    ofValue ⟨[("X", "")], "/root"⟩ (.object [("name", .str "$\x7bX\x7d")]) = .ok { name := "" } ∧
      brokenRules schema (toValue { name := "" }) = [⟨[.str "name"], "'' should be non-empty", [.str ""]⟩] := by
  refine ⟨ofValue_emptied, (ofValue_keeps_schema ofValue_emptied).1.trans ?_⟩
  rfl

/-- A name may be empty after expansion, and the settings do not pass the check then. -/
theorem ofValue_empties_name :
    ofValue ⟨[("X", "")], "/root"⟩ (.object [("name", .str "$\x7bX\x7d")]) = .ok { name := "" } ∧
      validate (toValue { name := "" }) = .error (.configuration "Invalid settings: name: '' should be non-empty"
        [("errors", .list [.str "name: '' should be non-empty"])]) := by
  have broken : schema.violations (toValue { name := "" }) = [⟨[.str "name"], "'' should be non-empty", [.str ""]⟩] :=
    List.mergeSort_singleton _
  refine ⟨ofValue_emptied, ?_⟩
  unfold validate
  rw [broken]
  rfl

end LspClient.Settings
