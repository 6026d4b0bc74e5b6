/-
Reading settings and making things from them. The bounds on settings are written twice: in the schema, and where restart
policies, transports, telemetry and sessions are made. The schema is the stricter of the two, so whatever is read from a
value is accepted there. A value that breaks the schema is refused with a configuration error, which lists all that is
wrong with it; only when the list would have to show an integer with too many digits there is another error.
-/
import LspClient.Client.Host
import LspClient.Proofs.Client.Does
import LspClient.Proofs.Settings.Validity

namespace LspClient.Settings

variable {v item : Value} {env : Environment} {s : Settings} {x : Violation} {name : String} {rules : Schema}
  {members : List (String × Schema)}

/-- Whatever is made from settings accepts them. -/
structure Accepted (s : Settings) : Prop where
  policy : RestartPolicy.ofSettings s.restart = .ok ⟨s.restart, 0⟩
  launch : ∀ cwd env timeout maxSize,
    ∃ t, LspClient.Transport.ofLaunch ⟨s.server.command, cwd, env, timeout⟩ maxSize = .ok t
  transport : ∀ environment, ∃ t, s.transport environment = .ok t
  poster : ∀ endpoint headers, ∃ p, LspClient.Telemetry.Poster.new endpoint s.telemetry.batchSize headers = .ok p
  session : ∀ (E : Executor) (c : Client), (c.host.getD default).settings = s →
    does E Client.createSession c = (.ok c.sessions.size,
      { c with sessions := c.sessions.push { settings := s.session c.processId, policy := ⟨s.restart, 0⟩ } })

/-! ## Where rules are broken -/

/-- What is wrong with a member is wrong with the section. -/
theorem mem_brokenRules_sectionOf (name : String) (listed : (name, rules) ∈ members)
    (there : memberOf? v name = some item) (h : x ∈ brokenRules rules item) :
    { x with path := .str name :: x.path } ∈ brokenRules (sectionOf members) v := by
  have member : { x with path := .str name :: x.path } ∈ brokenMembers members v := by
    induction members with
    | nil => cases listed
    | cons m members ih =>
      obtain ⟨first, firstRules⟩ := m
      rw [brokenMembers_cons, List.mem_append]
      rcases List.mem_cons.1 listed with same | later
      · cases same
        rw [there]
        exact .inl (List.mem_map_of_mem h)
      · exact .inr (ih later)
  unfold sectionOf
  rw [brokenRules_cons, brokenRules_cons, List.mem_append, List.mem_append, broken_properties_eq]
  exact .inr (.inl member)

theorem IsEssential.head {path : List Value} (h : IsEssential (.str name :: path)) :
    name ∈ ["name", "label", "server", "debug", "conflicts"] := by
  cases h <;> simp

/-- Settings break the schema in essential places only. -/
theorem isEssential_of_broken (h : ofValue env v = .ok s) (broken : x ∈ brokenRules schema s.toValue) :
    IsEssential x.path := by
  rw [(ofValue_ok h).2.2, List.mem_flatMap] at broken
  obtain ⟨e, member, broken⟩ := broken
  unfold Essential.violations at broken
  split at broken
  · obtain rfl := List.mem_singleton.1 broken
    exact (valueAt?_of_mem_essentials member).1
  · cases broken

/-- A section without essential texts keeps its rules. -/
theorem keeps_member (h : ofValue env v = .ok s) (name : String) (listed : (name, rules) ∈ Settings.members)
    (there : memberOf? s.toValue name = some item) (free : name ∉ ["name", "label", "server", "debug", "conflicts"]) :
    Keeps rules item := by
  refine List.eq_nil_iff_forall_not_mem.2 fun x broken => free ?_
  exact (isEssential_of_broken h (mem_brokenRules_sectionOf name listed there broken)).head

/-- A minimum is a bound. -/
theorem lt_eq_false_of_keeps {n : Number} {bound : Int} (h : Keeps rules n.toValue) (listed : .minimum bound ∈ rules) :
    n.lt (.int bound) = false := by
  induction rules with
  | nil => cases listed
  | cons rule rules ih =>
    obtain ⟨first, rest⟩ := keeps_cons.1 h
    rcases List.mem_cons.1 listed with rfl | later
    · rw [broken] at first
      refine boundViolation_eq_nil.1 first n ?_
      cases n <;> rfl
    · exact ih rest later

/-! ## What is made from settings -/

theorem policy_of_ofValue (h : ofValue env v = .ok s) : RestartPolicy.ofSettings s.restart = .ok ⟨s.restart, 0⟩ := by
  have keeps : Keeps (sectionOf restartMembers) (restartToValue s.restart) :=
    keeps_member h "restart" (by simp [Settings.members]) rfl (by decide)
  have failures : Keeps [.type [.integer], .minimum 0] s.restart.maxConsecutiveFailures.toValue :=
    keeps.member "max_consecutive_failures" (by simp [restartMembers]) rfl
  have first : Keeps nonNegativeNumber s.restart.backoffInitial.toValue :=
    keeps.member "backoff_initial" (by simp [restartMembers]) rfl
  have longest : Keeps nonNegativeNumber s.restart.backoffMax.toValue :=
    keeps.member "backoff_max" (by simp [restartMembers]) rfl
  have factor : Keeps [.type [.number], .minimum 1] s.restart.backoffFactor.toValue :=
    keeps.member "backoff_factor" (by simp [restartMembers]) rfl
  unfold RestartPolicy.ofSettings
  rw [lt_eq_false_of_keeps failures (by simp), lt_eq_false_of_keeps first (by simp [nonNegativeNumber]),
    lt_eq_false_of_keeps longest (by simp [nonNegativeNumber]), lt_eq_false_of_keeps factor (by simp)]
  rfl

theorem command_of_ofValue (h : ofValue env v = .ok s) : s.server.command ≠ [] := by
  intro empty
  -- The rule that a list has items is broken at the list itself, and that is no place of an essential text.
  obtain ⟨x, broken, root⟩ : ∃ x ∈ brokenRules [.type [.array], .items nonEmptyText, .nonEmptyList]
      (.list (s.server.command.map .str)), x.path = [] := by
    rw [empty]
    exact ⟨_, List.mem_singleton_self _, rfl⟩
  have inServer : { x with path := [.str "command"] } ∈ brokenRules (sectionOf Server.members) s.server.toValue :=
    root ▸ mem_brokenRules_sectionOf "command" (by simp [Server.members]) rfl broken
  have inSettings : { x with path := [.str "server", .str "command"] } ∈ brokenRules schema s.toValue :=
    mem_brokenRules_sectionOf "server" (by simp [Settings.members]) rfl inServer
  have essential := isEssential_of_broken h inSettings
  generalize place : [Value.str "server", Value.str "command"] = path at essential
  cases essential <;> simp at place

theorem batchSize_of_ofValue (h : ofValue env v = .ok s) : s.telemetry.batchSize.lt (.int 1) = false := by
  have keeps : Keeps (sectionOf Telemetry.members) s.telemetry.toValue :=
    keeps_member h "telemetry" (by simp [Settings.members]) rfl (by decide)
  have size : Keeps [.type [.integer], .minimum 1] s.telemetry.batchSize.toValue :=
    keeps.member "batch_size" (by simp [Telemetry.members]) rfl
  exact lt_eq_false_of_keeps size (by simp)

theorem accepted_of_ofValue (h : ofValue env v = .ok s) : Accepted s where
  policy := policy_of_ofValue h
  launch cwd env timeout maxSize := by
    unfold LspClient.Transport.ofLaunch
    rw [if_neg (by simpa using command_of_ofValue h)]
    exact ⟨_, rfl⟩
  transport environment := by
    unfold transport LspClient.Transport.ofLaunch
    split
    · exact ⟨_, rfl⟩
    · rw [if_neg (by simpa using command_of_ofValue h)]
      exact ⟨_, rfl⟩
  poster endpoint headers := by
    unfold LspClient.Telemetry.Poster.new
    rw [batchSize_of_ofValue h]
    exact ⟨_, rfl⟩
  session E c same := by
    unfold Client.createSession
    rw [does_bind_of_ok (does_get c)]
    dsimp only
    rw [same, policy_of_ofValue h]
    rfl

/-! ## Reading any value -/

/-- What breaks the schema is refused, with a list of all that is wrong if it can be made. -/
theorem validate_of_broken (h : ¬ Keeps schema v) :
    ((∀ x ∈ brokenRules schema v, x.isTellable = true) ∧ validate v = .error (refusal (schema.violations v))) ∨
    ((∃ x ∈ brokenRules schema v, x.isTellable = false) ∧
      validate v = .error Json.PrintFault.tooManyDigits.toFault) := by
  have same : ∀ x, x ∈ schema.violations v ↔ x ∈ brokenRules schema v := fun _ => List.mem_mergeSort
  unfold validate
  dsimp only
  rw [if_neg (mt isEmpty_violations.1 h)]
  by_cases tellable : ∀ x ∈ brokenRules schema v, x.isTellable = true
  · refine .inl ⟨tellable, if_pos ?_⟩
    rw [List.all_eq_true]
    exact fun x hx => tellable x ((same x).1 hx)
  · refine .inr ⟨by simpa using tellable, if_neg ?_⟩
    rw [List.all_eq_true]
    exact fun all => tellable fun x hx => all x ((same x).2 hx)

/-- What comes of reading a value. If it keeps the schema, there are settings: they say what the value says with its
references replaced, over the defaults, and all that is made from them accepts them. If it does not, it is refused with
a configuration error that lists all violations; but if one of them has to show an integer with too many digits, the
error is that of the integer. -/
theorem ofValue_outcome (env : Environment) (v : Value) :
    (Keeps schema v ∧ ∃ s, ofValue env v = .ok s ∧ s.toValue = fill 2 (toValue {}) (expandValue env v) ∧ Accepted s) ∨
    (¬ Keeps schema v ∧ (∀ x ∈ brokenRules schema v, x.isTellable = true) ∧
      ofValue env v = .error (refusal (schema.violations v))) ∨
    ((∃ x ∈ brokenRules schema v, x.isTellable = false) ∧
      ofValue env v = .error Json.PrintFault.tooManyDigits.toFault) := by
  by_cases keeps : Keeps schema v
  · obtain ⟨s, read⟩ := exists_ofValue keeps env
    exact .inl ⟨keeps, s, read, (ofValue_ok read).2.1, accepted_of_ofValue read⟩
  · have refused : ∀ f, validate v = .error f → ofValue env v = .error f := by
      intro f h
      unfold ofValue
      rw [h]
      rfl
    rcases validate_of_broken keeps with ⟨tellable, h⟩ | ⟨huge, h⟩
    · exact .inr (.inl ⟨keeps, tellable, refused _ h⟩)
    · exact .inr (.inr ⟨huge, refused _ h⟩)

/-- A port that is out of range and has too many digits is not refused with a configuration error. -/
theorem ofValue_of_long_port (env : Environment) {port : Int} (above : 65535 < port)
    (long : (Json.digitsFault? port).isSome = true) :
    ofValue env (.object [("debug", .object [("port", .int port)])]) =
      .error Json.PrintFault.tooManyDigits.toFault := by
  have beyond : (Number.int 65535).lt (.int port) = true := by
    simp [Number.lt, Number.compare?, Int.compare_eq_lt, above]
  -- The message about the bound shows the port.
  have here : .ofValue (.int port) (" is greater than the maximum of " ++ toString (65535 : Int)) ∈
      brokenRules [.type [.integer], .minimum 1, .maximum 65535] (.int port) := by
    simp [brokenRules, broken, boundViolation, Number.ofValue?, beyond]
  have inDebug : _ ∈ brokenRules (sectionOf Debug.members) (.object [("port", .int port)]) :=
    mem_brokenRules_sectionOf "port" (by simp [Debug.members]) rfl here
  have inSchema : _ ∈ brokenRules schema (.object [("debug", .object [("port", .int port)])]) :=
    mem_brokenRules_sectionOf "debug" (by simp [Settings.members]) rfl inDebug
  rcases ofValue_outcome env (.object [("debug", .object [("port", .int port)])]) with
    ⟨keeps, -⟩ | ⟨-, tellable, -⟩ | ⟨-, h⟩
  · rw [Keeps] at keeps
    rw [keeps] at inSchema
    cases inSchema
  · have shown := tellable _ inSchema
    simp [Violation.isTellable, Violation.ofValue, Value.isShowable] at shown
    simp [shown] at long
  · exact h

end LspClient.Settings
