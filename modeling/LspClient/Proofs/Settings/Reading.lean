/-
Reading settings. A section is read member by member; a member that is missing keeps its default. Everything that keeps
the schema can be read, and what is read says the same as the mapping with its references replaced, laid over the
defaults. Expansion can make one rule of the schema break: texts that must not be empty may have become empty. The
settings keep all other rules.
-/
import LspClient.Proofs.Settings.Rules

namespace LspClient.Settings

variable {α : Type} {rules : Schema} {read : String → Value → Except Fault α} {write : α → Value}
  {image : Value → Value} {v : Value} {env : Environment} {s : Settings} {name : String}

/-! ## Definitions -/

/-- A value laid over defaults, down to a depth: where the defaults are a mapping, each of its members keeps its default
if the value has no such member. -/
def fill : Nat → Value → Value → Value
  | n + 1, .object defaults, v =>
    .object (defaults.map fun (name, d) => (name, (memberOf? v name).elim d (fill n d)))
  | _, _, v => v

/-- A text that must not be empty, with the keys and indices that lead to it. -/
structure Essential where
  path : List Value
  text : String

namespace Essential

/-- What is wrong with the text. -/
def violations (e : Essential) : List Violation :=
  if e.text = "" then [⟨e.path, "'' should be non-empty", [.str ""]⟩] else []

/-- The same text, seen from the mapping around. -/
def within (step : String) (e : Essential) : Essential :=
  { e with path := .str step :: e.path }

end Essential

/-- The words of a command must not be empty. -/
def wordsOf (words : List String) : List Essential :=
  words.zipIdx.map fun (word, i) => ⟨[.int i], word⟩

/-- The essential texts of the server section. -/
def Server.essentials (s : Server) : List Essential :=
  (wordsOf s.command).map (.within "command")

/-- The essential texts of the debug section. -/
def Debug.essentials (d : Debug) : List Essential :=
  [⟨[.str "host"], d.host⟩]

/-- The essential texts of the conflicts section. -/
def Conflicts.essentials (c : Conflicts) : List Essential :=
  [⟨[.str "component_id"], c.componentId⟩, ⟨[.str "capability"], c.capability⟩]

/-- All essential texts of settings. -/
def essentials (s : Settings) : List Essential :=
  ⟨[.str "name"], s.name⟩ :: ⟨[.str "label"], s.label⟩ ::
    (s.server.essentials.map (.within "server") ++ s.debug.essentials.map (.within "debug") ++
      s.conflicts.essentials.map (.within "conflicts"))

/-- Reads all that keeps some rules: what is read is written back as an image of the expanded value, and keeps the rules
but for essential texts that are empty. -/
def Reads (rules : Schema) (read : String → Value → Except Fault α) (write : α → Value) (image : Value → Value)
    (essential : α → List Essential) : Prop :=
  ∀ env name v, Keeps rules v → ∃ a, read name (expandValue env v) = .ok a ∧ write a = image (expandValue env v) ∧
    brokenRules rules (write a) = (essential a).flatMap Essential.violations

/-! ## Violations by member -/

@[simp] theorem under_nil (step : Value) : under step [] = [] := rfl

@[simp] theorem within_mk (step : String) (path : List Value) (text : String) :
    Essential.within step ⟨path, text⟩ = ⟨.str step :: path, text⟩ := rfl

@[simp] theorem under_violations (step : String) (e : Essential) :
    under (.str step) e.violations = (e.within step).violations := by
  unfold Essential.violations Essential.within
  dsimp only
  split <;> rfl

@[simp] theorem under_flatMap (step : String) (es : List Essential) :
    under (.str step) (es.flatMap Essential.violations) = (es.map (.within step)).flatMap Essential.violations := by
  rw [List.flatMap_map, ← funext (under_violations step)]
  exact List.map_flatMap

/-- The violations of a section are those of its members. -/
theorem brokenMembers_object {members : List (String × Schema)} {xs all : List (String × Value)}
    (names : xs.map Prod.fst = members.map Prod.fst) (found : ∀ x ∈ xs, Value.lookup x.1 all = some x.2) :
    brokenMembers members (.object all) =
      (members.zip xs).flatMap fun (m, x) => under (.str m.1) (brokenRules m.2 x.2) := by
  -- The members get fewer, but each is looked up among all.
  induction members generalizing xs with
  | nil => rfl
  | cons m members ih =>
    cases xs with
    | nil => cases names
    | cons x xs =>
      rw [List.map_cons, List.map_cons, List.cons.injEq] at names
      rw [List.forall_mem_cons] at found
      rw [brokenMembers_cons, ih names.2 found.2, ← names.1, memberOf?, found.1, List.zip_cons_cons, List.flatMap_cons,
        names.1]

theorem brokenRules_sectionOf {members : List (String × Schema)} {xs : List (String × Value)}
    (names : xs.map Prod.fst = members.map Prod.fst) (distinct : (members.map Prod.fst).Nodup) :
    brokenRules (sectionOf members) (.object xs) =
      (members.zip xs).flatMap fun (m, x) => under (.str m.1) (brokenRules m.2 x.2) := by
  have known : unexpectedKeys (members.map Prod.fst) (.object xs) = [] := by
    unfold unexpectedKeys entriesOf
    rw [← names, List.filter_eq_nil_iff]
    simp only [List.map_map, List.forall_mem_map, Function.comp_apply]
    intro x hx
    simpa using ⟨x.2, hx⟩
  have found : ∀ x ∈ xs, Value.lookup x.1 xs = some x.2 := fun x hx =>
    (Value.lookup_eq_some_iff (names ▸ distinct)).2 hx
  have typed : broken (.type [.object]) (.object xs) = [] := broken_type.2 ⟨_, List.mem_singleton_self _, rfl⟩
  have closed : broken (.noneBut (members.map Prod.fst)) (.object xs) = [] := by
    simp [broken_noneBut_eq, known]
  unfold sectionOf
  rw [brokenRules_cons, brokenRules_cons, brokenRules_cons, typed, closed, broken_properties_eq,
    brokenMembers_object names found]
  exact List.append_nil _

/-! ## Members -/

/-- A member that is missing keeps its default, and all others are read. -/
theorem Reads.member {essential : α → List Essential} (h : Reads rules read write image essential) {d : α}
    (default : brokenRules rules (write d) = (essential d).flatMap Essential.violations)
    (keeps : ∀ item, memberOf? v name = some item → Keeps rules item) (env : Environment) :
    ∃ a, member (expandValue env v) name read d = .ok a ∧
      write a = (memberOf? (expandValue env v) name).elim (write d) image ∧
      brokenRules rules (write a) = (essential a).flatMap Essential.violations := by
  unfold Settings.member
  rw [memberOf?_expandValue]
  cases present : memberOf? v name with
  | none => exact ⟨d, rfl, rfl, default⟩
  | some item => exact h env name item (keeps item present)

/-- A section that keeps its rules has no unknown members, before and after expansion, and its members keep theirs. -/
theorem members_of_keeps {members : List (String × Schema)} (h : Keeps (sectionOf members) v) (env : Environment) :
    onlyMembers (members.map Prod.fst) (expandValue env v) = .ok () ∧
      ∀ m ∈ members, ∀ item, memberOf? v m.1 = some item → Keeps m.2 item := by
  obtain ⟨mapping, known, each⟩ := keeps_sectionOf.1 h
  refine ⟨?_, each⟩
  unfold onlyMembers
  rw [isMapping_expandValue, if_pos mapping, unexpectedKeys_expandValue, known]

/-! ## Kinds of members -/

theorem reads_text : Reads [.type [.string]] text .str (fun v => v) fun _ => [] := by
  rintro env name v keeps
  obtain ⟨s, rfl⟩ := keeps_text.1 keeps
  exact ⟨expand env s, rfl, rfl, rfl⟩

theorem brokenRules_nonEmptyText (s : String) : brokenRules nonEmptyText (.str s) = Essential.violations ⟨[], s⟩ := by
  have typed : broken (.type [.string]) (.str s) = [] := broken_type.2 ⟨_, List.mem_singleton_self _, rfl⟩
  unfold nonEmptyText Essential.violations
  rw [brokenRules_cons, brokenRules_cons, typed, broken_nonEmptyText_str, brokenRules_nil, List.nil_append,
    List.append_nil]
  by_cases empty : s = ""
  · subst empty
    rfl
  · simp [empty]

theorem reads_nonEmptyText : Reads nonEmptyText text .str (fun v => v) fun s => [⟨[], s⟩] := by
  rintro env name v keeps
  obtain ⟨s, -, rfl⟩ := keeps_nonEmptyText.1 keeps
  refine ⟨expand env s, rfl, rfl, ?_⟩
  simp [brokenRules_nonEmptyText]

theorem reads_optionalText :
    Reads [.type [.string, .null]] optionalText optionalTextValue (fun v => v) fun _ => [] := by
  rintro env name v keeps
  obtain ⟨_ | s, rfl⟩ := keeps_optionalText.1 keeps
  · exact ⟨none, rfl, rfl, rfl⟩
  · exact ⟨some (expand env s), rfl, rfl, rfl⟩

theorem reads_flag : Reads [.type [.boolean]] flag .bool (fun v => v) fun _ => [] := by
  rintro env name v keeps
  obtain ⟨b, rfl⟩ := keeps_flag.1 keeps
  exact ⟨b, rfl, rfl, rfl⟩

theorem expand_level {s : String} (h : s ∈ levelNames) (env : Environment) : expand env s = s := by
  refine expand_of_not_refers env ?_
  rintro ⟨before, name, after, split, -⟩
  have dollar : '$' ∈ s.toList := by
    rw [eq_append_reference_iff.1 split, toList_reference]
    simp
  have free : ∀ level ∈ levelNames, '$' ∉ level.toList := by decide
  exact free s h dollar

theorem reads_level : Reads [.oneOf levelNames] text .str (fun v => v) fun _ => [] := by
  rintro env name v keeps
  obtain ⟨s, level, rfl⟩ := keeps_level.1 keeps
  refine ⟨s, ?_, ?_, keeps⟩
  · rw [expandValue, expand_level level env, text]
  · rw [expandValue, expand_level level env]

theorem reads_number {t : TypeName} (ht : t = .number ∨ t = .integer) :
    Reads (.type [t] :: rules) number Number.toValue (fun v => v) fun _ => [] := by
  rintro env name v keeps
  obtain ⟨n, rfl⟩ := isNumber_of_keeps ht keeps
  refine ⟨n, ?_, ?_, keeps⟩
  · rw [expandValue_toValue]
    cases n <;> rfl
  · exact (expandValue_toValue env n).symm

theorem reads_positive : Reads positiveNumber number Number.toValue (fun v => v) fun _ => [] :=
  reads_number (.inl rfl)

theorem reads_nonNegative : Reads nonNegativeNumber number Number.toValue (fun v => v) fun _ => [] :=
  reads_number (.inl rfl)

theorem reads_timeout :
    Reads [.anyOf [positiveNumber, [.type [.null]]]] optionalNumber optionalNumberValue (fun v => v) fun _ => [] := by
  rintro env name v keeps
  rcases keeps_timeout.1 keeps with rfl | positive
  · exact ⟨none, rfl, rfl, keeps⟩
  · obtain ⟨n, rfl⟩ := isNumber_of_keeps (.inl rfl) positive
    refine ⟨some n, ?_, (expandValue_toValue env n).symm, keeps⟩
    rw [expandValue_toValue]
    cases n <;> rfl

theorem reads_mapping : Reads [.type [.object]] mapping (fun v => v) (fun v => v) fun _ => [] := by
  rintro env name v keeps
  rw [keeps_mapping] at keeps
  refine ⟨expandValue env v, ?_, rfl, keeps_mapping.2 ?_⟩
  · unfold mapping
    rw [if_pos]
    rwa [isMapping_expandValue]
  · rwa [isMapping_expandValue]

theorem reads_textMap : Reads textMap mapping (fun v => v) (fun v => v) fun _ => [] := by
  rintro env name v keeps
  obtain ⟨isMapping, texts⟩ := keeps_textMap.1 keeps
  obtain ⟨a, reads, rfl, -⟩ := reads_mapping env name v (keeps_mapping.2 isMapping)
  refine ⟨_, reads, rfl, keeps_textMap.2 ⟨?_, ?_⟩⟩
  · rwa [isMapping_expandValue]
  · rw [entriesOf_expandValue, List.forall_mem_map]
    intro e he
    obtain ⟨s, same⟩ := texts e he
    exact ⟨expand env s, by rw [same, expandValue]⟩

theorem brokenRules_command {words : List String} (some : words ≠ []) :
    brokenRules [.type [.array], .items nonEmptyText, .nonEmptyList] (.list (words.map .str)) =
      (wordsOf words).flatMap Essential.violations := by
  have typed : broken (.type [.array]) (.list (words.map .str)) = [] :=
    broken_type.2 ⟨_, List.mem_singleton_self _, rfl⟩
  have filled : broken .nonEmptyList (.list (words.map .str)) = [] := by
    simp [broken_nonEmptyList_list, some]
  have each : broken (.items nonEmptyText) (.list (words.map .str)) = (wordsOf words).flatMap Essential.violations := by
    rw [broken_items_list, wordsOf, List.zipIdx_map, List.flatMap_map, List.flatMap_map]
    congr 1
    funext p
    obtain ⟨word, i⟩ := p
    show under (.int i) (brokenRules nonEmptyText (.str word)) = Essential.violations ⟨[.int i], word⟩
    rw [brokenRules_nonEmptyText]
    unfold under Essential.violations
    split <;> rfl
  rw [brokenRules_cons, brokenRules_cons, brokenRules_cons, brokenRules_nil, typed, filled, each, List.nil_append,
    List.append_nil, List.append_nil]

theorem mapM_text (name : String) (words : List String) : (words.map Value.str).mapM (text name) = .ok words := by
  induction words with
  | nil => rfl
  | cons word words ih =>
    rw [List.map_cons, List.mapM_cons, ih]
    rfl

theorem reads_command : Reads [.type [.array], .items nonEmptyText, .nonEmptyList] texts
    (fun words => .list (words.map .str)) (fun v => v) wordsOf := by
  rintro env name v keeps
  obtain ⟨words, some, -, rfl⟩ := keeps_command.1 keeps
  have expanded : expandValue env (.list (words.map .str)) = .list ((words.map (expand env)).map .str) := by
    simp [expandValue, Function.comp_def]
  refine ⟨words.map (expand env), ?_, expanded.symm, brokenRules_command ?_⟩
  · rw [expanded, texts, mapM_text]
  · simpa using some

/-! ## Sections

Of each member `r` says what is read, `w` what that is written back as, and `b` how it breaks its rules. -/

theorem Server.reads : Reads (sectionOf Server.members) (fun _ => Server.ofValue {}) Server.toValue
    (fill 1 (Server.toValue {})) Server.essentials := by
  rintro env _ v keeps
  have known := members_of_keeps keeps env
  simp only [Server.members, List.map_cons, List.map_nil, List.forall_mem_cons] at known
  obtain ⟨only, h₁, h₂, h₃, h₄, h₅, -⟩ := known
  obtain ⟨command, r₁, w₁, b₁⟩ := reads_command.member (d := ({} : Server).command) rfl h₁ env
  obtain ⟨cwd, r₂, w₂, b₂⟩ := reads_optionalText.member (d := ({} : Server).cwd) rfl h₂ env
  obtain ⟨vars, r₃, w₃, b₃⟩ := reads_textMap.member (d := ({} : Server).env) rfl h₃ env
  obtain ⟨rootUri, r₄, w₄, b₄⟩ := reads_optionalText.member (d := ({} : Server).rootUri) rfl h₄ env
  obtain ⟨options, r₅, w₅, b₅⟩ := reads_mapping.member (d := ({} : Server).initializationOptions) rfl h₅ env
  refine ⟨⟨command, cwd, vars, rootUri, options⟩, ?_, ?_, ?_⟩
  · show Server.ofValue {} (expandValue env v) = _
    unfold Server.ofValue
    rw [only, r₁, r₂, r₃, r₄, r₅]
    rfl
  · unfold Server.toValue
    rw [w₁, w₂, w₃, w₄, w₅]
    rfl
  · unfold Server.toValue
    rw [brokenRules_sectionOf rfl (by decide)]
    simp [Server.members, Server.essentials, b₁, b₂, b₃, b₄, b₅]

theorem Debug.reads : Reads (sectionOf Debug.members) (fun _ => Debug.ofValue {}) Debug.toValue
    (fill 1 (Debug.toValue {})) Debug.essentials := by
  rintro env _ v keeps
  have known := members_of_keeps keeps env
  simp only [Debug.members, List.map_cons, List.map_nil, List.forall_mem_cons] at known
  obtain ⟨only, h₁, h₂, h₃, h₄, -⟩ := known
  obtain ⟨enabled, r₁, w₁, b₁⟩ := reads_flag.member (d := ({} : Debug).enabled) rfl h₁ env
  obtain ⟨host, r₂, w₂, b₂⟩ := reads_nonEmptyText.member (d := ({} : Debug).host) rfl h₂ env
  obtain ⟨port, r₃, w₃, b₃⟩ := (reads_number (.inr rfl)).member (d := ({} : Debug).port) rfl h₃ env
  obtain ⟨timeout, r₄, w₄, b₄⟩ := reads_positive.member (d := ({} : Debug).connectTimeout) rfl h₄ env
  refine ⟨⟨enabled, host, port, timeout⟩, ?_, ?_, ?_⟩
  · show Debug.ofValue {} (expandValue env v) = _
    unfold Debug.ofValue
    rw [only, r₁, r₂, r₃, r₄]
    rfl
  · unfold Debug.toValue
    rw [w₁, w₂, w₃, w₄]
    rfl
  · unfold Debug.toValue
    rw [brokenRules_sectionOf rfl (by decide)]
    simp [Debug.members, Debug.essentials, b₁, b₂, b₃, b₄]

theorem Requests.reads : Reads (sectionOf Requests.members) (fun _ => Requests.ofValue {}) Requests.toValue
    (fill 1 (Requests.toValue {})) fun _ => [] := by
  rintro env _ v keeps
  have known := members_of_keeps keeps env
  simp only [Requests.members, List.map_cons, List.map_nil, List.forall_mem_cons] at known
  obtain ⟨only, h₁, h₂, h₃, h₄, -⟩ := known
  obtain ⟨timeout, r₁, w₁, b₁⟩ := reads_timeout.member (d := ({} : Requests).timeout) rfl h₁ env
  obtain ⟨first, r₂, w₂, b₂⟩ := reads_positive.member (d := ({} : Requests).initializeTimeout) rfl h₂ env
  obtain ⟨last, r₃, w₃, b₃⟩ := reads_positive.member (d := ({} : Requests).shutdownTimeout) rfl h₃ env
  obtain ⟨size, r₄, w₄, b₄⟩ := (reads_number (.inr rfl)).member (d := ({} : Requests).maxMessageSize) rfl h₄ env
  refine ⟨⟨timeout, first, last, size⟩, ?_, ?_, ?_⟩
  · show Requests.ofValue {} (expandValue env v) = _
    unfold Requests.ofValue
    rw [only, r₁, r₂, r₃, r₄]
    rfl
  · unfold Requests.toValue
    rw [w₁, w₂, w₃, w₄]
    rfl
  · unfold Requests.toValue
    rw [brokenRules_sectionOf rfl (by decide)]
    simp [Requests.members, b₁, b₂, b₃, b₄]

theorem reads_restart : Reads (sectionOf restartMembers) (fun _ => restartOfValue {}) restartToValue
    (fill 1 (restartToValue {})) fun _ => [] := by
  rintro env _ v keeps
  have known := members_of_keeps keeps env
  simp only [restartMembers, List.map_cons, List.map_nil, List.forall_mem_cons] at known
  obtain ⟨only, h₁, h₂, h₃, h₄, -⟩ := known
  obtain ⟨failures, r₁, w₁, b₁⟩ :=
    (reads_number (.inr rfl)).member (d := ({} : PolicySettings).maxConsecutiveFailures) rfl h₁ env
  obtain ⟨first, r₂, w₂, b₂⟩ := reads_nonNegative.member (d := ({} : PolicySettings).backoffInitial) rfl h₂ env
  obtain ⟨longest, r₃, w₃, b₃⟩ := reads_nonNegative.member (d := ({} : PolicySettings).backoffMax) rfl h₃ env
  obtain ⟨factor, r₄, w₄, b₄⟩ := (reads_number (.inl rfl)).member (d := ({} : PolicySettings).backoffFactor) rfl h₄ env
  refine ⟨⟨failures, first, longest, factor⟩, ?_, ?_, ?_⟩
  · show restartOfValue {} (expandValue env v) = _
    unfold restartOfValue
    rw [only, r₁, r₂, r₃, r₄]
    rfl
  · unfold restartToValue
    rw [w₁, w₂, w₃, w₄]
    rfl
  · unfold restartToValue
    rw [brokenRules_sectionOf rfl (by decide)]
    simp [restartMembers, b₁, b₂, b₃, b₄]

theorem Telemetry.reads : Reads (sectionOf Telemetry.members) (fun _ => Telemetry.ofValue {}) Telemetry.toValue
    (fill 1 (Telemetry.toValue {})) fun _ => [] := by
  rintro env _ v keeps
  have known := members_of_keeps keeps env
  simp only [Telemetry.members, List.map_cons, List.map_nil, List.forall_mem_cons] at known
  obtain ⟨only, h₁, h₂, h₃, h₄, h₅, h₆, -⟩ := known
  obtain ⟨enabled, r₁, w₁, b₁⟩ := reads_flag.member (d := ({} : Telemetry).enabled) rfl h₁ env
  obtain ⟨logFile, r₂, w₂, b₂⟩ := reads_text.member (d := ({} : Telemetry).logFile) rfl h₂ env
  obtain ⟨endpoint, r₃, w₃, b₃⟩ := reads_text.member (d := ({} : Telemetry).endpoint) rfl h₃ env
  obtain ⟨size, r₄, w₄, b₄⟩ := (reads_number (.inr rfl)).member (d := ({} : Telemetry).batchSize) rfl h₄ env
  obtain ⟨timeout, r₅, w₅, b₅⟩ := reads_positive.member (d := ({} : Telemetry).timeout) rfl h₅ env
  obtain ⟨headers, r₆, w₆, b₆⟩ := reads_textMap.member (d := ({} : Telemetry).headers) rfl h₆ env
  refine ⟨⟨enabled, logFile, endpoint, size, timeout, headers⟩, ?_, ?_, ?_⟩
  · show Telemetry.ofValue {} (expandValue env v) = _
    unfold Telemetry.ofValue
    rw [only, r₁, r₂, r₃, r₄, r₅, r₆]
    rfl
  · unfold Telemetry.toValue
    rw [w₁, w₂, w₃, w₄, w₅, w₆]
    rfl
  · unfold Telemetry.toValue
    rw [brokenRules_sectionOf rfl (by decide)]
    simp [Telemetry.members, b₁, b₂, b₃, b₄, b₅, b₆]

theorem Logging.reads : Reads (sectionOf Logging.members) (fun _ => Logging.ofValue {}) Logging.toValue
    (fill 1 (Logging.toValue {})) fun _ => [] := by
  rintro env _ v keeps
  have known := members_of_keeps keeps env
  simp only [Logging.members, List.map_cons, List.map_nil, List.forall_mem_cons] at known
  obtain ⟨only, h₁, h₂, -⟩ := known
  obtain ⟨level, r₁, w₁, b₁⟩ := reads_level.member (d := ({} : Logging).level) rfl h₁ env
  obtain ⟨json, r₂, w₂, b₂⟩ := reads_flag.member (d := ({} : Logging).json) rfl h₂ env
  refine ⟨⟨level, json⟩, ?_, ?_, ?_⟩
  · show Logging.ofValue {} (expandValue env v) = _
    unfold Logging.ofValue
    rw [only, r₁, r₂]
    rfl
  · unfold Logging.toValue
    rw [w₁, w₂]
    rfl
  · unfold Logging.toValue
    rw [brokenRules_sectionOf rfl (by decide)]
    simp [Logging.members, b₁, b₂]

theorem Conflicts.reads : Reads (sectionOf Conflicts.members) (fun _ => Conflicts.ofValue {}) Conflicts.toValue
    (fill 1 (Conflicts.toValue {})) Conflicts.essentials := by
  rintro env _ v keeps
  have known := members_of_keeps keeps env
  simp only [Conflicts.members, List.map_cons, List.map_nil, List.forall_mem_cons] at known
  obtain ⟨only, h₁, h₂, -⟩ := known
  obtain ⟨componentId, r₁, w₁, b₁⟩ := reads_nonEmptyText.member (d := ({} : Conflicts).componentId) rfl h₁ env
  obtain ⟨capability, r₂, w₂, b₂⟩ := reads_nonEmptyText.member (d := ({} : Conflicts).capability) rfl h₂ env
  refine ⟨⟨componentId, capability⟩, ?_, ?_, ?_⟩
  · show Conflicts.ofValue {} (expandValue env v) = _
    unfold Conflicts.ofValue
    rw [only, r₁, r₂]
    rfl
  · unfold Conflicts.toValue
    rw [w₁, w₂]
    rfl
  · unfold Conflicts.toValue
    rw [brokenRules_sectionOf rfl (by decide)]
    simp [Conflicts.members, Conflicts.essentials, b₁, b₂]

/-- All that keeps the schema can be read, and no error is raised on the way. -/
theorem reads_schema : Reads schema (fun _ => ofExpanded {}) toValue (fill 2 (toValue {})) essentials := by
  rintro env _ v keeps
  have known := (members_of_keeps keeps env).2
  simp only [members, List.forall_mem_cons] at known
  obtain ⟨h₁, h₂, h₃, h₄, h₅, h₆, h₇, h₈, h₉, h₁₀, -⟩ := known
  obtain ⟨version, r₁, w₁, b₁⟩ := reads_text.member (d := ({} : Settings).version) rfl h₁ env
  obtain ⟨name, r₂, w₂, b₂⟩ := reads_nonEmptyText.member (d := ({} : Settings).name) rfl h₂ env
  obtain ⟨label, r₃, w₃, b₃⟩ := reads_nonEmptyText.member (d := ({} : Settings).label) rfl h₃ env
  obtain ⟨server, r₄, w₄, b₄⟩ := Server.reads.member (d := ({} : Settings).server) rfl h₄ env
  obtain ⟨debug, r₅, w₅, b₅⟩ := Debug.reads.member (d := ({} : Settings).debug) rfl h₅ env
  obtain ⟨requests, r₆, w₆, b₆⟩ := Requests.reads.member (d := ({} : Settings).requests) rfl h₆ env
  obtain ⟨restart, r₇, w₇, b₇⟩ := reads_restart.member (d := ({} : Settings).restart) rfl h₇ env
  obtain ⟨telemetry, r₈, w₈, b₈⟩ := Telemetry.reads.member (d := ({} : Settings).telemetry) rfl h₈ env
  obtain ⟨logging, r₉, w₉, b₉⟩ := Logging.reads.member (d := ({} : Settings).logging) rfl h₉ env
  obtain ⟨conflicts, r₁₀, w₁₀, b₁₀⟩ := Conflicts.reads.member (d := ({} : Settings).conflicts) rfl h₁₀ env
  refine ⟨⟨version, name, label, server, debug, requests, restart, telemetry, logging, conflicts⟩, ?_, ?_, ?_⟩
  · show ofExpanded {} (expandValue env v) = _
    unfold ofExpanded
    rw [r₁, r₂, r₃, r₄, r₅, r₆, r₇, r₈, r₉, r₁₀]
    rfl
  · unfold toValue
    rw [w₁, w₂, w₃, w₄, w₅, w₆, w₇, w₈, w₉, w₁₀]
    rfl
  · unfold schema toValue
    rw [brokenRules_sectionOf rfl (by decide)]
    simp [members, essentials, b₁, b₂, b₃, b₄, b₅, b₆, b₇, b₈, b₉, b₁₀]

/-! ## Values that are checked -/

theorem isEmpty_violations : (Schema.violations rules v).isEmpty = true ↔ Keeps rules v := by
  rw [List.isEmpty_iff, ← List.length_eq_zero_iff, Schema.violations, List.length_mergeSort, List.length_eq_zero_iff]
  rfl

theorem validate_eq_ok : validate v = .ok () ↔ Keeps schema v := by
  unfold validate
  rw [← isEmpty_violations]
  dsimp only
  split
  · next kept => exact iff_of_true rfl kept
  · next broken =>
    refine iff_of_false ?_ broken
    split <;> nofun

theorem ofValue_eq_ok : ofValue env v = .ok s ↔ Keeps schema v ∧ ofExpanded {} (expandValue env v) = .ok s := by
  rw [← validate_eq_ok]
  unfold ofValue
  cases validate v with
  | ok _ => exact (and_iff_right rfl).symm
  | error f => exact iff_of_false nofun nofun

/-- Settings say what the value says with its references replaced, over the defaults, and keep the schema but for empty
texts. -/
theorem ofValue_ok (h : ofValue env v = .ok s) :
    Keeps schema v ∧ s.toValue = fill 2 (toValue {}) (expandValue env v) ∧
      brokenRules schema s.toValue = s.essentials.flatMap Essential.violations := by
  obtain ⟨keeps, read⟩ := ofValue_eq_ok.1 h
  obtain ⟨s', read', written, broken⟩ := reads_schema env "" v keeps
  obtain rfl : s' = s := Except.ok.inj (read'.symm.trans read)
  exact ⟨keeps, written, broken⟩

/-- Whatever keeps the schema is read. -/
theorem exists_ofValue (h : Keeps schema v) (env : Environment) : ∃ s, ofValue env v = .ok s := by
  obtain ⟨s, read, -⟩ := reads_schema env "" v h
  exact ⟨s, ofValue_eq_ok.2 ⟨h, read⟩⟩

end LspClient.Settings
