/-
Chunks are invisible. A reader that is given a stream in parts finds what it would find in the
whole of it, whether the octets are well formed or not, wherever the parts are cut and whenever it
reads on between them; and what it has found after some of the parts is never taken back.

Reading on with more octets at hand comes to the same as reading first, and on when they have
arrived: `run_extend` says so of one frame, `Reader.drain_extend` of all, and `Reader.drain_after`
of a reader to which anything has happened.
-/
import LspClient.Proofs.Frame.Takes

namespace LspClient.Frame

namespace Reader

variable {limit : Number} {r r' : Reader} {bs : Octets} {last : Bool}

/-! ## Reading all frames -/

/-- How many frames a reader can find at most: each but the last takes an octet of its own. -/
def work (r : Reader) : Nat :=
  match r.phase with
  | none => 0
  | some phase => r.stream.buffer.length + (if phase.isHeaders then 1 else 2)

/-- A reader that goes on after a result. -/
def goOn (r : Reader) (result : Result) (s : Stream) : Reader :=
  { results := r.results ++ [result], phase := if result.continues then some .start else none, stream := s }

/-- After each frame fewer can follow. -/
theorem work_goOn {phase : Phase} {result : Result} {s : Stream} {resumed : Bool} (calm : r.stream.fault = none)
    (hp : r.phase = some phase) (h : run limit resumed phase r.stream = .done result s) :
    (r.goOn result s).work < r.work ∧ s.fault = none ∧ s.ended = r.stream.ended := by
  obtain ⟨n, took, pos⟩ := (run_took resumed phase r.stream calm).2 result s h
  refine ⟨?_, took.fault.trans calm, took.ended⟩
  have := took.length
  unfold work goOn
  rw [hp]
  cases hc : result.continues with
  | false =>
    simp only [Bool.false_eq_true, ite_false]
    split <;> omega
  | true =>
    have one : (if Phase.start.isHeaders then 1 else 2) = 1 := rfl
    simp only [ite_true, one]
    split
    case isTrue hh =>
      have := pos hh hc
      omega
    case isFalse => omega

/-- More fuel than there can be frames changes nothing. -/
theorem drainFrom_fuel (fuel : Nat) : ∀ (fuel' : Nat) (resumed resumed' : Bool) (r : Reader),
    r.stream.fault = none → r.work ≤ fuel → r.work ≤ fuel' →
    drainFrom limit fuel resumed r = drainFrom limit fuel' resumed' r := by
  induction fuel with
  | zero =>
    intro fuel' resumed resumed' r calm hf _
    cases hp : r.phase with
    | none => cases fuel' <;> simp [drainFrom, hp]
    | some phase =>
      unfold work at hf
      rw [hp] at hf
      simp only at hf
      split at hf <;> omega
  | succ fuel ih =>
    intro fuel' resumed resumed' r calm hf hf'
    cases hp : r.phase with
    | none => cases fuel' <;> simp [drainFrom, hp]
    | some phase =>
      obtain ⟨fuel', rfl⟩ : ∃ k, fuel' = k + 1 := by
        refine Nat.exists_eq_succ_of_ne_zero fun h => ?_
        unfold work at hf'
        rw [hp, h] at hf'
        simp only at hf'
        split at hf' <;> omega
      rw [drainFrom, drainFrom, hp]
      simp only
      rw [run_resumed calm resumed, run_resumed calm resumed']
      cases h : run limit false phase r.stream with
      | waiting phase' s => rfl
      | done result s =>
        obtain ⟨less, calm', _⟩ := work_goOn calm hp h
        exact ih fuel' false false (r.goOn result s) calm' (by omega) (by omega)

theorem work_le (r : Reader) : r.work ≤ r.stream.buffer.length + 2 := by
  unfold work
  split
  · omega
  · split <;> omega

/-- A reader that has stopped for good reads nothing. -/
theorem drain_none (hp : r.phase = none) : r.drain limit = r := by
  unfold drain
  rw [drainFrom, hp]

/-- Reading on is going on with one frame, and reading on after it. -/
theorem drain_some (limit : Number) {phase : Phase} (calm : r.stream.fault = none) (hp : r.phase = some phase) :
    r.drain limit = match run limit false phase r.stream with
      | .waiting phase s => { r with phase := some phase, stream := s }
      | .done result s => (r.goOn result s).drain limit := by
  have := work_le r
  unfold drain
  rw [drainFrom, hp]
  simp only
  rw [run_resumed calm true]
  cases h : run limit false phase r.stream with
  | waiting phase' s => rfl
  | done result s =>
    obtain ⟨less, calm', _⟩ := work_goOn calm hp h
    exact drainFrom_fuel _ _ _ _ (r.goOn result s) calm' (by omega) (work_le _)

/-- What one frame keeps, and the state of a reader that waits for the rest of one, all frames keep. -/
theorem drain_induction {P : Reader → Prop} (waits : ∀ (r : Reader) phase phase' s, r.stream.fault = none →
      r.phase = some phase → run limit false phase r.stream = .waiting phase' s → P r →
      P { r with phase := some phase', stream := s })
    (goes : ∀ (r : Reader) phase result s, r.stream.fault = none → r.phase = some phase →
      run limit false phase r.stream = .done result s → P r → P (r.goOn result s))
    (r : Reader) (calm : r.stream.fault = none) (h : P r) : P (r.drain limit) := by
  generalize hw : r.work = w
  induction w using Nat.strongRecOn generalizing r with
  | _ w ih =>
    cases hp : r.phase with
    | none =>
      rw [drain_none hp]
      exact h
    | some phase =>
      rw [drain_some limit calm hp]
      cases hx : run limit false phase r.stream with
      | waiting phase' s => exact waits r phase phase' s calm hp hx h
      | done result s =>
        obtain ⟨less, calm', _⟩ := work_goOn calm hp hx
        exact ih _ (hw ▸ less) (r.goOn result s) calm' (goes r phase result s calm hp hx h) rfl

/-- Reading on leaves the stream as it is, but for the octets taken. -/
theorem drain_took (limit : Number) (calm : r.stream.fault = none) : ∃ n, r.stream.Took n (r.drain limit).stream := by
  refine drain_induction (P := fun r' => ∃ n, r.stream.Took n r'.stream) ?_ ?_ r calm ⟨0, .refl _⟩
  · rintro r' phase phase' s calm' - hx ⟨n, took⟩
    obtain ⟨k, took'⟩ := (run_took false phase r'.stream calm').1 phase' s hx
    exact ⟨n + k, took.trans took'⟩
  · rintro r' phase result s calm' - hx ⟨n, took⟩
    obtain ⟨k, took', _⟩ := (run_took false phase r'.stream calm').2 result s hx
    exact ⟨n + k, took.trans took'⟩

/-- Reading on takes no result back. -/
theorem results_drain (calm : r.stream.fault = none) : r.results <+: (r.drain limit).results := by
  refine drain_induction (P := fun r' => r.results <+: r'.results) ?_ ?_ r calm (List.prefix_refl _)
  · rintro r' phase phase' s - - - h
    exact h
  · rintro r' phase result s - - - h
    exact h.trans (List.prefix_append _ _)

/-! ## Octets that arrive in parts -/

/-- A reader after more octets have arrived, and the end of the stream with the last of them. -/
def extend (r : Reader) (bs : Octets) (last : Bool) : Reader :=
  { r with stream := r.stream.extend bs last }

/-- Reading on before more octets arrive makes no difference to reading on after them. -/
theorem drain_extend (calm : r.stream.fault = none) (open_ : r.stream.ended = false) :
    ((r.drain limit).extend bs last).drain limit = (r.extend bs last).drain limit := by
  generalize hw : r.work = w
  induction w using Nat.strongRecOn generalizing r with
  | _ w ih =>
    cases hp : r.phase with
    | none => rw [drain_none hp]
    | some phase =>
      have whole := drain_some limit (r := r.extend bs last) calm hp
      have split : run limit false phase (r.extend bs last).stream = _ :=
        run_extend false false phase r.stream calm open_ bs last
      rw [split] at whole
      rw [whole, drain_some limit calm hp]
      cases h : run limit false phase r.stream with
      | waiting phase' s =>
        obtain ⟨n, took⟩ := (run_took false phase r.stream calm).1 phase' s h
        exact drain_some limit (r := extend { r with phase := some phase', stream := s } bs last)
          (took.fault.trans calm) rfl
      | done result s =>
        obtain ⟨less, calm', ended⟩ := work_goOn calm hp h
        exact ih _ (hw ▸ less) calm' (ended.trans open_) rfl

/-- Whatever has happened to a reader before the last octets arrive, reading on after them comes to
what reading the whole at once comes to. -/
theorem drain_after (events : List Event) : ∀ {r : Reader}, r.stream.fault = none → r.stream.ended = false →
    ((events.foldl (after limit) r).extend bs last).drain limit =
    (r.extend (arriving events ++ bs) last).drain limit := by
  induction events with
  | nil =>
    intro r _ _
    rfl
  | cons event events ih =>
    intro r calm open_
    rw [List.foldl_cons]
    cases event with
    | arrive octets =>
      rw [ih (r := after limit r (.arrive octets)) calm open_, arriving, List.append_assoc]
      simp [after, extend, Stream.feed, Stream.extend]
    | read =>
      obtain ⟨n, took⟩ := drain_took limit calm
      rw [ih (r := after limit r .read) (took.fault.trans calm) (took.ended.trans open_), arriving]
      exact drain_extend calm open_

/-- Whatever happens to a reader takes no result back, and the stream neither fails nor ends by it. -/
theorem results_after (limit : Number) (events : List Event) : ∀ {r : Reader}, r.stream.fault = none →
    let r' := events.foldl (after limit) r
    r.results <+: r'.results ∧ r'.stream.fault = none ∧ r'.stream.ended = r.stream.ended := by
  induction events with
  | nil =>
    intro r calm
    exact ⟨List.prefix_refl _, calm, rfl⟩
  | cons event events ih =>
    intro r calm
    rw [List.foldl_cons]
    cases event with
    | arrive octets => exact ih (r := after limit r (.arrive octets)) calm
    | read =>
      obtain ⟨n, took⟩ := drain_took limit calm
      obtain ⟨grows, calm', ended⟩ := ih (r := after limit r .read) (took.fault.trans calm)
      exact ⟨(results_drain calm).trans grows, calm', ended.trans took.ended⟩

/-! ## Two ways of cutting a stream -/

/-- A reader after all octets have arrived, at the end of the stream or with more to follow. -/
def close (limit : Number) (last : Bool) (r : Reader) : Reader :=
  if last then r.finish limit else r.drain limit

theorem close_eq (limit : Number) {r : Reader} (open_ : r.stream.ended = false) (last : Bool) :
    r.close limit last = (r.extend [] last).drain limit := by
  unfold close finish extend Stream.extend Stream.finish
  rw [List.append_nil]
  cases last with
  | true => rfl
  | false =>
    have same : ({ r.stream with ended := false } : Stream) = r.stream := by rw [← open_]
    rw [same]
    rfl

theorem results_close {r : Reader} (calm : r.stream.fault = none) (open_ : r.stream.ended = false) (last : Bool) :
    r.results <+: (r.close limit last).results := by
  rw [close_eq limit open_]
  exact results_drain (r := r.extend [] last) calm

/-- However octets arrive, reading them comes to what reading the whole at once comes to. -/
theorem close_after (events : List Event) {r : Reader} (calm : r.stream.fault = none)
    (open_ : r.stream.ended = false) (last : Bool) :
    (events.foldl (after limit) r).close limit last = (r.extend (arriving events) last).drain limit := by
  obtain ⟨_, _, ended⟩ := results_after limit events calm
  rw [close_eq limit (ended.trans open_), drain_after events calm open_, List.append_nil]

end Reader

/-- However a stream of any octets is cut into what arrives, and whenever a reader reads on
meanwhile, it finds the same frames and faults in the end; and what it has found at any time before
is the beginning of them. -/
theorem chunks_invisible (limit : Number) (lineLimit : Nat) (last : Bool) (octets : Octets)
    (events events' : List Reader.Event) (cut : Reader.arriving events = octets)
    (cut' : Reader.arriving events' = octets) :
    let reader := fun events : List Reader.Event =>
      events.foldl (Reader.after limit) { stream := { limit := lineLimit } }
    ((reader events).close limit last).results = ((reader events').close limit last).results ∧
      ∀ before, before <+: events → (reader before).results <+: ((reader events').close limit last).results := by
  intro reader
  have same : (reader events).close limit last = (reader events').close limit last := by
    unfold reader
    rw [Reader.close_after events rfl rfl, Reader.close_after events' rfl rfl, cut, cut']
  refine ⟨congrArg Reader.results same, ?_⟩
  rintro before ⟨later, rfl⟩
  obtain ⟨_, calm, ended⟩ := Reader.results_after limit before (r := { stream := { limit := lineLimit } }) rfl
  obtain ⟨grows, calm', ended'⟩ := Reader.results_after limit later (r := reader before) calm
  have whole : reader (before ++ later) = later.foldl (Reader.after limit) (reader before) := List.foldl_append
  rw [← same, whole]
  exact grows.trans (Reader.results_close calm' (ended'.trans ended) last)

/-- A frame, a body beyond the limit and a malformed line, in one part and octet by octet. -/
theorem chunks_invisible_malformed :
    let octets := encode "ab" ++ encode "abcd" ++ (Text.encode "x") ++ separator
    let events := octets.flatMap fun b => [.arrive [b], .arrive [], .read]
    let reader := fun events : List Reader.Event =>
      events.foldl (Reader.after (.int 3)) { stream := { limit := 20 } }
    ((reader events).close (.int 3) true).results = ((reader [.arrive octets]).close (.int 3) true).results ∧
      ((reader [.arrive octets]).close (.int 3) true).results.length = 3 := by
  intro octets events reader
  have h := chunks_invisible (.int 3) 20 true octets events [.arrive octets] (by decide +kernel) (by decide +kernel)
  exact ⟨h.1, by decide +kernel⟩

end LspClient.Frame
