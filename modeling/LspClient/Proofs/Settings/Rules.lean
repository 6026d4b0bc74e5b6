/-
What keeps the rules of settings, and what expansion does to it. A value keeps a schema if it breaks none of its rules;
for the schemas that settings are made of this is said here in terms of the value. Expansion changes texts and nothing
else: the types of values, the keys of mappings and all numbers stay as they are.
-/
import LspClient.Settings
import LspClient.Proofs.Settings.References
import Mathlib.Data.Set.List

namespace LspClient.Settings

variable {rules : Schema} {rule : Rule} {v item : Value} {env : Environment} {name s : String}
  {members : List (String × Schema)}

/-! ## Keeping rules -/

/-- A value that breaks no rule of a schema. -/
def Keeps (rules : Schema) (v : Value) : Prop :=
  brokenRules rules v = []

theorem keeps_nil : Keeps [] v := rfl

theorem keeps_cons : Keeps (rule :: rules) v ↔ broken rule v = [] ∧ Keeps rules v := by
  unfold Keeps
  rw [brokenRules_cons, List.append_eq_nil_iff]

theorem broken_type {names : List TypeName} :
    broken (.type names) v = [] ↔ ∃ t ∈ names, t.admits v = true := by
  simp [broken_type_eq]

theorem keeps_type {t : TypeName} : Keeps [.type [t]] v ↔ t.admits v = true := by
  simp [keeps_cons, keeps_nil, broken_type]

theorem broken_oneOf {choices : List String} : broken (.oneOf choices) v = [] ↔ ∃ s ∈ choices, v = .str s := by
  cases v <;> simp [broken_oneOf_eq, Value.asString?]

theorem acceptsAny_iff {schemas : List Schema} : acceptsAny schemas v = true ↔ ∃ rules ∈ schemas, Keeps rules v := by
  induction schemas with
  | nil => exact ⟨nofun, nofun⟩
  | cons rules schemas ih => simp [acceptsAny_cons, Keeps, ih]

theorem broken_anyOf {schemas : List Schema} : broken (.anyOf schemas) v = [] ↔ ∃ rules ∈ schemas, Keeps rules v := by
  rw [← acceptsAny_iff]
  simp [broken_anyOf_eq]

theorem boundViolation_eq_nil {breaks : Number → Bool} {wording : String} {bound : Int} :
    boundViolation v breaks wording bound = [] ↔ ∀ n, Number.ofValue? v = some n → breaks n = false := by
  unfold boundViolation
  cases Number.ofValue? v <;> simp

theorem under_eq_nil {step : Value} {found : List Violation} : under step found = [] ↔ found = [] := by
  simp [under]

theorem broken_items {items : List Value} :
    broken (.items rules) (.list items) = [] ↔ ∀ item ∈ items, Keeps rules item := by
  have each : broken (.items rules) (.list items) = [] ↔ ∀ p ∈ items.zipIdx, Keeps rules p.1 := by
    rw [broken_items_list, List.flatMap_eq_nil_iff]
    exact forall₂_congr fun _ _ => under_eq_nil
  rw [each]
  constructor
  · intro h item member
    obtain ⟨i, hi, rfl⟩ := List.getElem_of_mem member
    exact h (items[i], i) (List.mk_mem_zipIdx_iff_getElem?.2 (List.getElem?_eq_getElem hi))
  · rintro h ⟨item, i⟩ member
    exact h item (List.fst_mem_of_mem_zipIdx member)

theorem broken_members : broken (.members rules) v = [] ↔ ∀ e ∈ entriesOf v, Keeps rules e.2 := by
  rw [broken_members_eq, List.flatMap_eq_nil_iff]
  exact forall₂_congr fun _ _ => under_eq_nil

theorem brokenMembers_eq_nil :
    brokenMembers members v = [] ↔ ∀ m ∈ members, ∀ item, memberOf? v m.1 = some item → Keeps m.2 item := by
  induction members with
  | nil => exact ⟨fun _ => nofun, fun _ => rfl⟩
  | cons m members ih =>
    obtain ⟨name, rules⟩ := m
    rw [brokenMembers_cons, List.append_eq_nil_iff, ih, List.forall_mem_cons]
    refine and_congr_left' ?_
    cases memberOf? v name <;> simp [under_eq_nil, Keeps]

theorem keeps_mapping : Keeps [.type [.object]] v ↔ v.isMapping = true := by
  rw [keeps_type, TypeName.object_admits]

theorem keeps_sectionOf : Keeps (sectionOf members) v ↔
    v.isMapping = true ∧ unexpectedKeys (members.map (·.1)) v = [] ∧
      ∀ m ∈ members, ∀ item, memberOf? v m.1 = some item → Keeps m.2 item := by
  have known : broken (.noneBut (members.map (·.1))) v = [] ↔ unexpectedKeys (members.map (·.1)) v = [] := by
    simp [broken_noneBut_eq]
  have mapping : broken (.type [.object]) v = [] ↔ v.isMapping = true := by
    rw [← keeps_mapping, keeps_cons]
    exact (and_iff_left keeps_nil).symm
  unfold sectionOf
  rw [keeps_cons, keeps_cons, keeps_cons, mapping, broken_properties_eq, brokenMembers_eq_nil, known]
  exact and_congr_right' ⟨fun h => ⟨h.2.1, h.1⟩, fun h => ⟨h.2, h.1, keeps_nil⟩⟩

theorem Keeps.member (h : Keeps (sectionOf members) v) (name : String) (listed : (name, rules) ∈ members)
    (there : memberOf? v name = some item) : Keeps rules item :=
  (keeps_sectionOf.1 h).2.2 (name, rules) listed item there

/-! ## Values of the settings -/

theorem keeps_text : Keeps [.type [.string]] v ↔ ∃ s, v = .str s :=
  keeps_type.trans TypeName.string_admits

theorem keeps_nonEmptyText : Keeps nonEmptyText v ↔ ∃ s, s ≠ "" ∧ v = .str s := by
  have texts : Keeps nonEmptyText v ↔ (∃ s, v = .str s) ∧ broken .nonEmptyText v = [] := by
    rw [← keeps_text]
    simp [nonEmptyText, keeps_cons, keeps_nil]
  rw [texts]
  constructor
  · rintro ⟨⟨s, rfl⟩, filled⟩
    refine ⟨s, ?_, rfl⟩
    rintro rfl
    cases filled
  · rintro ⟨s, nonempty, rfl⟩
    exact ⟨⟨s, rfl⟩, by simp [broken_nonEmptyText_str, nonempty]⟩

theorem keeps_flag : Keeps [.type [.boolean]] v ↔ ∃ b, v = .bool b :=
  keeps_type.trans TypeName.boolean_admits

theorem keeps_null : Keeps [.type [.null]] v ↔ v = .null :=
  keeps_type.trans TypeName.null_admits

theorem keeps_optionalText : Keeps [.type [.string, .null]] v ↔ ∃ s, v = optionalTextValue s := by
  have either : Keeps [.type [.string, .null]] v ↔ (∃ s, v = .str s) ∨ v = .null := by
    rw [← TypeName.string_admits, ← TypeName.null_admits]
    simp [keeps_cons, keeps_nil, broken_type]
  rw [either]
  constructor
  · rintro (⟨s, rfl⟩ | rfl)
    · exact ⟨some s, rfl⟩
    · exact ⟨none, rfl⟩
  · rintro ⟨_ | s, rfl⟩
    · exact .inr rfl
    · exact .inl ⟨s, rfl⟩

theorem keeps_level : Keeps [.oneOf levelNames] v ↔ ∃ s ∈ levelNames, v = .str s := by
  rw [keeps_cons, broken_oneOf]
  exact and_iff_left keeps_nil

theorem keeps_textMap : Keeps textMap v ↔ v.isMapping = true ∧ ∀ e ∈ entriesOf v, ∃ s, e.2 = .str s := by
  have texts : (∀ e ∈ entriesOf v, Keeps [.type [.string]] e.2) ↔ ∀ e ∈ entriesOf v, ∃ s, e.2 = .str s :=
    forall₂_congr fun _ _ => keeps_text
  unfold textMap
  rw [keeps_cons, keeps_cons, broken_members, texts, ← keeps_mapping, keeps_cons]
  simp [keeps_nil]

theorem keeps_command : Keeps [.type [.array], .items nonEmptyText, .nonEmptyList] v ↔
    ∃ words : List String, words ≠ [] ∧ (∀ w ∈ words, w ≠ "") ∧ v = .list (words.map .str) := by
  have array : broken (.type [.array]) v = [] ↔ ∃ items, v = .list items := by
    rw [← TypeName.array_admits]
    simp [broken_type]
  rw [keeps_cons, keeps_cons, keeps_cons, array]
  constructor
  · rintro ⟨⟨items, rfl⟩, texts, some, _⟩
    rw [broken_items] at texts
    have ranged : items ∈ Set.range (List.map Value.str) := by
      rw [Set.range_list_map]
      intro item member
      obtain ⟨s, _, rfl⟩ := keeps_nonEmptyText.1 (texts item member)
      exact ⟨s, rfl⟩
    obtain ⟨words, rfl⟩ := ranged
    refine ⟨words, ?_, ?_, rfl⟩
    · rintro rfl
      simp [broken_nonEmptyList_list] at some
    · intro w hw
      obtain ⟨s, nonempty, same⟩ := keeps_nonEmptyText.1 (texts (.str w) (List.mem_map_of_mem hw))
      cases same
      exact nonempty
  · rintro ⟨words, some, nonempty, rfl⟩
    refine ⟨⟨_, rfl⟩, ?_, ?_, keeps_nil⟩
    · rw [broken_items, List.forall_mem_map]
      exact fun w hw => keeps_nonEmptyText.2 ⟨w, nonempty w hw, rfl⟩
    · simp [broken_nonEmptyList_list, some]

/-- What must be a number is one. -/
theorem isNumber_of_keeps {t : TypeName} (ht : t = .number ∨ t = .integer) (h : Keeps (.type [t] :: rules) v) :
    ∃ n : Number, v = n.toValue := by
  obtain ⟨typed, _⟩ := keeps_cons.1 h
  obtain ⟨_, member, admits⟩ := broken_type.1 typed
  rw [List.mem_singleton.1 member] at admits
  cases v with
  | int n => exact ⟨.int n, rfl⟩
  | float x => exact ⟨.float x, rfl⟩
  | _ => rcases ht with rfl | rfl <;> cases admits

theorem keeps_timeout : Keeps [.anyOf [positiveNumber, [.type [.null]]]] v ↔ v = .null ∨ Keeps positiveNumber v := by
  rw [keeps_cons, broken_anyOf]
  simp [keeps_null, keeps_nil, or_comm]

/-! ## Expansion -/

@[simp] theorem expandItems_eq (env : Environment) (items : List Value) :
    expandItems env items = items.map (expandValue env) := by
  induction items with
  | nil => rfl
  | cons v items ih => rw [expandItems, ih, List.map_cons]

theorem expandMembers_eq (env : Environment) (xs : List (String × Value)) :
    expandMembers env xs = xs.map fun m => (m.1, expandValue env m.2) := by
  induction xs with
  | nil => rfl
  | cons x xs ih => rw [expandMembers, ih, List.map_cons]

theorem expandEntries_eq (env : Environment) (xs : List (Value × Value)) :
    expandEntries env xs = xs.map fun e => (e.1, expandValue env e.2) := by
  induction xs with
  | nil => rfl
  | cons x xs ih => rw [expandEntries, ih, List.map_cons]

@[simp] theorem isMapping_expandValue (env : Environment) (v : Value) :
    (expandValue env v).isMapping = v.isMapping := by
  cases v <;> rfl

theorem entriesOf_expandValue (env : Environment) (v : Value) :
    entriesOf (expandValue env v) = (entriesOf v).map fun e => (e.1, expandValue env e.2) := by
  cases v <;> simp [expandValue, entriesOf, expandMembers_eq, expandEntries_eq, Function.comp_def]

@[simp] theorem unexpectedKeys_expandValue (env : Environment) (names : List String) (v : Value) :
    unexpectedKeys names (expandValue env v) = unexpectedKeys names v := by
  simp [unexpectedKeys, entriesOf_expandValue, Function.comp_def]

theorem lookup_expandMembers (env : Environment) (name : String) (xs : List (String × Value)) :
    Value.lookup name (expandMembers env xs) = (Value.lookup name xs).map (expandValue env) := by
  induction xs with
  | nil => rfl
  | cons x xs ih =>
    rw [expandMembers, Value.lookup, Value.lookup, ih]
    split <;> rfl

@[simp] theorem memberOf?_expandValue (env : Environment) (v : Value) (name : String) :
    memberOf? (expandValue env v) name = (memberOf? v name).map (expandValue env) := by
  cases v with
  | object xs => exact lookup_expandMembers env name xs
  | map xs => simp [expandValue, memberOf?, expandEntries_eq, List.find?_map, Function.comp_def]
  | _ => rfl

@[simp] theorem expandValue_toValue (env : Environment) (n : Number) : expandValue env n.toValue = n.toValue := by
  cases n <;> rfl

end LspClient.Settings
