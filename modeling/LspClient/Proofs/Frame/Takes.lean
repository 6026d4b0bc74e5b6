/-
Takes from a stream of any octets. A take looks only at what has arrived, yet what it comes to does
not depend on when the rest arrives: a take that does not wait comes to the same with more octets at
hand. The one exception is a body that is passed over, whose octets are taken as they come; how that
ends is told at once, for all of its takes together.
-/
import LspClient.Proofs.Frame.RoundTrip

namespace LspClient

namespace Stream

/-! ## Looking for a separator -/

section Offsets

variable {sep bs more : Octets} {i : Nat}

/-- The offset is that of the first separator. -/
theorem offsetOf?_eq_some (hs : sep ≠ []) :
    offsetOf? sep bs = some i ↔ sep <+: bs.drop i ∧ ∀ j < i, ¬ sep <+: bs.drop j := by
  induction bs generalizing i with
  | nil => simp [offsetOf?, hs]
  | cons b bs ih =>
    rw [offsetOf?]
    by_cases hp : sep <+: b :: bs
    · rw [if_pos (List.isPrefixOf_iff_prefix.2 hp)]
      constructor
      · rintro h
        cases h
        exact ⟨hp, fun j hj => absurd hj (Nat.not_lt_zero j)⟩
      · rintro ⟨_, first⟩
        cases i with
        | zero => rfl
        | succ i => exact absurd hp (first 0 (Nat.succ_pos i))
    · rw [if_neg (fun h => hp (List.isPrefixOf_iff_prefix.1 h))]
      constructor
      · intro h
        obtain ⟨k, hk, rfl⟩ := Option.map_eq_some_iff.1 h
        obtain ⟨found, first⟩ := ih.1 hk
        refine ⟨found, fun j hj => ?_⟩
        cases j with
        | zero => exact hp
        | succ j => exact first j (Nat.lt_of_succ_lt_succ hj)
      · rintro ⟨found, first⟩
        cases i with
        | zero => exact absurd found hp
        | succ i =>
          rw [ih.2 ⟨found, fun j hj => first (j + 1) (Nat.succ_lt_succ hj)⟩]
          rfl

/-- No separator is found where there is none. -/
theorem offsetOf?_eq_none (hs : sep ≠ []) : offsetOf? sep bs = none ↔ ¬ sep <:+: bs := by
  induction bs with
  | nil => simp [offsetOf?, hs]
  | cons b bs ih =>
    rw [offsetOf?, List.infix_cons_iff]
    by_cases hp : sep <+: b :: bs
    · simp [List.isPrefixOf_iff_prefix.2 hp, hp]
    · rw [if_neg (fun h => hp (List.isPrefixOf_iff_prefix.1 h)), Option.map_eq_none_iff, ih]
      simp [hp]

/-- The first separator fits into the octets. -/
theorem add_length_le (hs : sep ≠ []) (h : offsetOf? sep bs = some i) : i + sep.length ≤ bs.length := by
  have := ((offsetOf?_eq_some hs).1 h).1.length_le
  have := List.length_pos_iff.2 hs
  rw [List.length_drop] at *
  omega

/-- More octets do not move the first separator. -/
theorem offsetOf?_append (hs : sep ≠ []) (h : offsetOf? sep bs = some i) : offsetOf? sep (bs ++ more) = some i := by
  have hl := add_length_le hs h
  obtain ⟨found, first⟩ := (offsetOf?_eq_some hs).1 h
  have shift : ∀ j ≤ i, (bs ++ more).drop j = bs.drop j ++ more := fun j hj =>
    List.drop_append_of_le_length (by omega)
  refine (offsetOf?_eq_some hs).2 ⟨?_, fun j hj hp => first j hj ?_⟩
  · rw [shift i (Nat.le_refl i)]
    exact found.trans (List.prefix_append _ _)
  · rw [shift j (Nat.le_of_lt hj)] at hp
    refine List.prefix_of_prefix_length_le hp (List.prefix_append _ _) ?_
    rw [List.length_drop]
    omega

/-- A separator that comes with more octets ends among them. -/
theorem lt_add_length (hs : sep ≠ []) (h : offsetOf? sep bs = none) (h' : offsetOf? sep (bs ++ more) = some i) :
    bs.length < i + sep.length := by
  refine Nat.lt_of_not_le fun hl => ?_
  obtain ⟨found, _⟩ := (offsetOf?_eq_some hs).1 h'
  rw [List.drop_append_of_le_length (by omega)] at found
  have inside : sep <+: bs.drop i := by
    refine List.prefix_of_prefix_length_le found (List.prefix_append _ _) ?_
    rw [List.length_drop]
    omega
  exact (offsetOf?_eq_none hs).1 h (inside.isInfix.trans (List.drop_suffix i bs).isInfix)

end Offsets

/-! ## Streams of which more has arrived -/

/-- A stream after more of its octets have arrived, and its end with them if it is the last part. -/
def extend (s : Stream) (bs : Octets) (last : Bool) : Stream :=
  { s with buffer := s.buffer ++ bs, ended := last }

/-- A stream that is left when so many octets are taken from another. -/
def Took (n : Nat) (s s' : Stream) : Prop :=
  n ≤ s.buffer.length ∧ s' = { s with buffer := s.buffer.drop n }

variable {s s' : Stream} {sep bs : Octets} {last : Bool} {n k : Nat}

theorem Took.refl (s : Stream) : Took 0 s s :=
  ⟨Nat.zero_le _, rfl⟩

theorem Took.trans {s'' : Stream} (h : Took n s s') (h' : Took k s' s'') : Took (n + k) s s'' := by
  obtain ⟨hn, rfl⟩ := h
  obtain ⟨hk, rfl⟩ := h'
  have hk : k ≤ (s.buffer.drop n).length := hk
  rw [List.length_drop] at hk
  exact ⟨by omega, by rw [List.drop_drop]⟩

theorem Took.length (h : Took n s s') : s'.buffer.length + n = s.buffer.length := by
  obtain ⟨hn, rfl⟩ := h
  rw [List.length_drop]
  omega

theorem Took.fault (h : Took n s s') : s'.fault = s.fault := by
  rw [h.2]

theorem Took.ended (h : Took n s s') : s'.ended = s.ended := by
  rw [h.2]

/-! ## Single takes -/

theorem takeLine?_took {r : LineResult} (hs : sep ≠ []) (h : s.takeLine? sep = some (r, s')) :
    ∃ n, Took n s s' ∧ ∀ line, r = .line line → line = s.buffer.take n ∧ sep.length ≤ n := by
  unfold takeLine? at h
  split at h
  case h_1 i hi =>
    have hl := add_length_le hs hi
    split at h
    · cases h
      exact ⟨0, .refl s, fun line hr => by cases hr⟩
    · cases h
      refine ⟨i + sep.length, ⟨hl, rfl⟩, fun line hr => ?_⟩
      cases hr
      exact ⟨rfl, by omega⟩
  case h_2 hi =>
    split at h
    · cases h
      exact ⟨0, .refl s, fun line hr => by cases hr⟩
    · split at h
      · cases h
        refine ⟨s.buffer.length, ⟨Nat.le_refl _, ?_⟩, fun line hr => by cases hr⟩
        rw [List.drop_length]
      · cases h

/-- A line is the same line with more octets behind it, and too long a line stays too long. -/
theorem takeLine?_extend {r : LineResult} (hs : sep ≠ []) (open_ : s.ended = false)
    (h : s.takeLine? sep = some (r, s')) : (s.extend bs last).takeLine? sep = some (r, s'.extend bs last) := by
  unfold takeLine? at h
  split at h
  case h_1 i hi =>
    have hl := add_length_le hs hi
    have hx : offsetOf? sep (s.extend bs last).buffer = some i := offsetOf?_append hs hi
    unfold takeLine?
    rw [hx]
    split at h
    case isTrue long =>
      cases h
      exact if_pos long
    case isFalse short =>
      cases h
      refine (if_neg short).trans ?_
      simp only [extend, List.take_append_of_le_length hl, List.drop_append_of_le_length hl]
  case h_2 hi =>
    rw [open_] at h
    simp only [Bool.false_eq_true, ite_false, Bool.and_eq_true, decide_eq_true_eq] at h
    split at h
    case isFalse => cases h
    case isTrue long =>
      cases h
      unfold takeLine?
      split
      case h_1 i hi' =>
        have := lt_add_length hs hi hi'
        refine if_pos ?_
        show s.limit < i
        omega
      case h_2 hi' =>
        refine if_pos ?_
        simp only [extend, List.length_append, Bool.and_eq_true, decide_eq_true_eq]
        omega

theorem takeExactly?_took {r : Option Octets} (h : s.takeExactly? k = some (r, s')) : ∃ n, Took n s s' := by
  unfold takeExactly? at h
  split at h
  case isTrue hk =>
    cases h
    exact ⟨k, hk, rfl⟩
  case isFalse =>
    split at h
    · cases h
      refine ⟨s.buffer.length, Nat.le_refl _, ?_⟩
      rw [List.drop_length]
    · cases h

/-- Octets that have arrived are the same with more behind them. -/
theorem takeExactly?_extend {r : Option Octets} (open_ : s.ended = false) (bs : Octets) (last : Bool)
    (h : s.takeExactly? k = some (r, s')) : (s.extend bs last).takeExactly? k = some (r, s'.extend bs last) := by
  unfold takeExactly? at h
  split at h
  case isTrue hk =>
    cases h
    have hx : k ≤ (s.buffer ++ bs).length := by
      rw [List.length_append]
      omega
    unfold takeExactly?
    refine (if_pos hx).trans ?_
    simp only [extend, List.take_append_of_le_length hk, List.drop_append_of_le_length hk]
  case isFalse =>
    rw [open_] at h
    simp at h

theorem takeSome?_took {chunk : Octets} (h : s.takeSome? k = some (chunk, s')) : Took chunk.length s s' := by
  unfold takeSome? at h
  split at h
  · cases h
  · cases h
    rw [List.length_take]
    exact ⟨Nat.min_le_right _ _, by simp only [List.drop_eq_drop_min (i := k)]⟩

end Stream

namespace Frame

variable {limit : Number} {phase phase' : Phase} {s s' : Stream} {bs : Octets} {last : Bool} {r : Result}

theorem separator_ne_nil : separator ≠ [] := by
  unfold separator
  exact List.cons_ne_nil _ _

/-! ## One take of a reader -/

/-- What a take leads to, when more octets arrive after it. -/
def Progress.extend (bs : Octets) (last : Bool) : Progress → Progress
  | .waiting => .waiting
  | .next phase s => .next phase (s.extend bs last)
  | .done r s => .done r (s.extend bs last)

theorem afterLine_extend (limit : Number) (length : Option Nat) (line : Octets) (s : Stream) :
    afterLine limit length line (s.extend bs last) = (afterLine limit length line s).extend bs last := by
  unfold afterLine
  split
  · split
    · rfl
    · split <;> rfl
  · split <;> rfl

theorem headerLength?_error {line : Octets} {f : Fault} (h : headerLength? line = .error f) :
    ∃ message, f = .connection message := by
  unfold headerLength? at h
  simp only at h
  split at h
  · split at h
    · split at h
      · split at h
        · cases h
          exact ⟨_, rfl⟩
        · cases h
      · cases h
        exact ⟨_, rfl⟩
    · cases h
  · cases h
    exact ⟨_, rfl⟩

/-- What follows a line: another phase, none of them behind it, or a fault that ends reading. -/
theorem afterLine_cases (limit : Number) (length : Option Nat) (line : Octets) (s : Stream) :
    (∃ phase', afterLine limit length line s = .next phase' s ∧ ∀ n, cost phase' n ≤ n + 3) ∨
    ∃ message, afterLine limit length line s = .done (.fault (.connection message)) s := by
  unfold afterLine
  split
  · split
    · exact .inr ⟨_, rfl⟩
    · split
      · exact .inl ⟨_, rfl, fun n => by simp [cost]⟩
      · exact .inl ⟨_, rfl, fun n => by simp [cost]⟩
  · split
    case h_1 f hf =>
      obtain ⟨message, rfl⟩ := headerLength?_error hf
      exact .inr ⟨message, rfl⟩
    case h_2 => exact .inl ⟨_, rfl, fun n => by simp [cost]⟩

/-- A take that goes on leaves fewer takes for the frame. -/
theorem advance_next (h : advance limit phase s = .next phase' s') :
    ∃ n, s.Took n s' ∧ cost phase' s'.buffer.length < cost phase s.buffer.length ∧
    (phase.isHeaders = true → 0 < n) := by
  cases phase with
  | headers length first =>
    simp only [advance] at h
    split at h
    case h_1 => cases h
    case h_3 => split at h <;> cases h
    case h_4 => cases h
    case h_2 line s'' hx =>
      obtain ⟨n, took, hn⟩ := Stream.takeLine?_took separator_ne_nil hx
      obtain ⟨_, hn⟩ := hn line rfl
      have hsep : separator.length = 2 := rfl
      rcases afterLine_cases limit length line s'' with ⟨phase'', he, hc⟩ | ⟨message, he⟩
      · rw [he] at h
        cases h
        have := took.length
        have := hc s'.buffer.length
        refine ⟨n, took, ?_, fun _ => by omega⟩
        simp only [cost] at *
        omega
      · rw [he] at h
        cases h
  | head size =>
    simp only [advance] at h
    split at h
    case h_1 => cases h
    case h_2 => cases h
    case h_3 head s'' hx =>
      cases h
      obtain ⟨n, took⟩ := Stream.takeExactly?_took hx
      have := took.length
      refine ⟨n, took, ?_, fun h => absurd h Bool.false_ne_true⟩
      simp only [cost]
      omega
  | discard size left head =>
    simp only [advance] at h
    split at h
    · cases h
    · split at h
      case h_1 => cases h
      case h_2 => cases h
      case h_3 chunk s'' nonempty hx =>
        cases h
        have took := Stream.takeSome?_took hx
        have := took.length
        have := List.length_pos_iff.2 nonempty
        refine ⟨chunk.length, took, ?_, fun h => absurd h Bool.false_ne_true⟩
        simp only [cost]
        omega
  | body size =>
    simp only [advance] at h
    split at h <;> cases h

/-- What a take among the headers finds ends reading. -/
theorem advance_done (h : advance limit phase s = .done r s') :
    ∃ n, s.Took n s' ∧ (phase.isHeaders = true → r.continues = false) := by
  cases phase with
  | headers length first =>
    simp only [advance] at h
    split at h
    case h_1 => cases h
    case h_2 line s'' hx =>
      obtain ⟨n, took, _⟩ := Stream.takeLine?_took separator_ne_nil hx
      rcases afterLine_cases limit length line s'' with ⟨phase'', he, _⟩ | ⟨message, he⟩
      · rw [he] at h
        cases h
      · rw [he] at h
        cases h
        exact ⟨n, took, fun _ => rfl⟩
    case h_3 rest s'' hx =>
      obtain ⟨n, took, _⟩ := Stream.takeLine?_took separator_ne_nil hx
      split at h <;> cases h <;> exact ⟨n, took, fun _ => rfl⟩
    case h_4 s'' hx =>
      obtain ⟨n, took, _⟩ := Stream.takeLine?_took separator_ne_nil hx
      cases h
      exact ⟨n, took, fun _ => rfl⟩
  | head size =>
    simp only [advance] at h
    split at h
    case h_2 s'' hx =>
      cases h
      obtain ⟨n, took⟩ := Stream.takeExactly?_took hx
      exact ⟨n, took, fun h => absurd h Bool.false_ne_true⟩
    all_goals cases h
  | discard size left head =>
    simp only [advance] at h
    split at h
    · cases h
      exact ⟨0, .refl s, fun h => absurd h Bool.false_ne_true⟩
    · split at h
      case h_2 s'' hx =>
        cases h
        exact ⟨0, Stream.takeSome?_took hx, fun h => absurd h Bool.false_ne_true⟩
      all_goals cases h
  | body size =>
    simp only [advance] at h
    split at h
    case h_1 => cases h
    all_goals
      rename_i hx
      cases h
      obtain ⟨n, took⟩ := Stream.takeExactly?_took hx
      exact ⟨n, took, fun h => absurd h Bool.false_ne_true⟩

/-- Whether a reader passes over a body. -/
def Phase.isDiscard : Phase → Bool
  | .discard .. => true
  | _ => false

/-- A take that does not wait comes to the same with more octets at hand. -/
theorem advance_extend (open_ : s.ended = false) (hp : phase.isDiscard = false)
    (h : advance limit phase s ≠ .waiting) (bs : Octets) (last : Bool) :
    advance limit phase (s.extend bs last) = (advance limit phase s).extend bs last := by
  cases phase with
  | headers length first =>
    cases hx : s.takeLine? separator with
    | none =>
      refine absurd ?_ h
      simp only [advance, hx]
    | some taken =>
      obtain ⟨result, s'⟩ := taken
      have hx' : (s.extend bs last).takeLine? separator = some (result, s'.extend bs last) :=
        Stream.takeLine?_extend separator_ne_nil open_ hx
      cases result with
      | line line => simp only [advance, hx, hx', afterLine_extend]
      | remainder rest =>
        simp only [advance, hx, hx']
        split <;> rfl
      | overrun => simp only [advance, hx, hx', Progress.extend]
  | head size =>
    cases hx : s.takeExactly? (min size Message.headSize) with
    | none =>
      refine absurd ?_ h
      simp only [advance, hx]
    | some taken =>
      obtain ⟨result, s'⟩ := taken
      have hx' := Stream.takeExactly?_extend open_ bs last hx
      cases result <;> simp only [advance, hx, hx', Progress.extend]
  | discard => cases hp
  | body size =>
    cases hx : s.takeExactly? size with
    | none =>
      refine absurd ?_ h
      simp only [advance, hx]
    | some taken =>
      obtain ⟨result, s'⟩ := taken
      have hx' := Stream.takeExactly?_extend open_ bs last hx
      cases result <;> simp only [advance, hx, hx', Progress.extend]

/-! ## All takes of a frame -/

theorem runFrom_eq (calm : s.fault = none) (fuel : Nat) (resumed : Bool) :
    runFrom limit (fuel + 1) resumed phase s = match advance limit phase s with
      | .waiting => .waiting phase s
      | .next phase s => runFrom limit fuel false phase s
      | .done r s => .done r s := by
  have look : (if resumed || !phase.takes then none else s.fault) = none := by
    rw [calm]
    split <;> rfl
  rewrite [runFrom, look]
  rfl

/-- More fuel than there can be takes changes nothing. -/
theorem runFrom_fuel (fuel : Nat) : ∀ (fuel' : Nat) (resumed resumed' : Bool) (phase : Phase) (s : Stream),
    s.fault = none → cost phase s.buffer.length ≤ fuel → cost phase s.buffer.length ≤ fuel' →
    runFrom limit fuel resumed phase s = runFrom limit fuel' resumed' phase s := by
  induction fuel with
  | zero =>
    intro fuel' resumed resumed' phase s _ hf _
    cases phase <;> simp [cost] at hf
  | succ fuel ih =>
    intro fuel' resumed resumed' phase s calm hf hf'
    obtain ⟨fuel', rfl⟩ : ∃ k, fuel' = k + 1 := by
      refine Nat.exists_eq_succ_of_ne_zero fun h => ?_
      cases phase <;> simp [cost, h] at hf'
    rw [runFrom_eq calm, runFrom_eq calm]
    cases h : advance limit phase s with
    | waiting => rfl
    | next phase' s' =>
      obtain ⟨n, took, less, _⟩ := advance_next h
      exact ih fuel' false false phase' s' (took.fault.trans calm) (by omega) (by omega)
    | done r s' => rfl

theorem cost_le_takesOf (phase : Phase) (s : Stream) : cost phase s.buffer.length ≤ takesOf s := by
  unfold takesOf
  cases phase <;> simp [cost]

/-- Going on with a frame is one take, and going on after it. -/
theorem run_eq (calm : s.fault = none) (resumed : Bool) (phase : Phase) :
    run limit resumed phase s = match advance limit phase s with
      | .waiting => .waiting phase s
      | .next phase s => run limit false phase s
      | .done r s => .done r s := by
  have hc := cost_le_takesOf phase s
  unfold run takesOf at *
  rw [runFrom_eq calm]
  cases h : advance limit phase s with
  | waiting => rfl
  | next phase' s' =>
    obtain ⟨n, took, less, _⟩ := advance_next h
    exact runFrom_fuel _ _ _ _ phase' s' (took.fault.trans calm) (by omega) (cost_le_takesOf phase' s')
  | done r s' => rfl

/-- Whether octets were missing before makes no difference on a stream without a fault. -/
theorem run_resumed (calm : s.fault = none) (resumed : Bool) (phase : Phase) :
    run limit resumed phase s = run limit false phase s := by
  rw [run_eq calm, run_eq calm]

/-- A frame leaves what follows it, and among the headers it takes an octet at least. -/
theorem run_took (resumed : Bool) (phase : Phase) (s : Stream) (calm : s.fault = none) :
    (∀ phase' s', run limit resumed phase s = .waiting phase' s' → ∃ n, s.Took n s') ∧
    (∀ r s', run limit resumed phase s = .done r s' →
      ∃ n, s.Took n s' ∧ (phase.isHeaders = true → r.continues = true → 0 < n)) := by
  generalize hc : cost phase s.buffer.length = c
  induction c using Nat.strongRecOn generalizing resumed phase s with
  | _ c ih =>
    rw [run_eq calm]
    cases h : advance limit phase s with
    | waiting =>
      refine ⟨fun phase' s' he => ?_, fun r s' he => by cases he⟩
      cases he
      exact ⟨0, .refl s⟩
    | next phase'' s'' =>
      obtain ⟨n, took, less, pos⟩ := advance_next h
      obtain ⟨waits, ends⟩ := ih _ (hc ▸ less) false phase'' s'' (took.fault.trans calm) rfl
      refine ⟨fun phase' s' he => ?_, fun r s' he => ?_⟩
      · obtain ⟨k, took'⟩ := waits phase' s' he
        exact ⟨n + k, took.trans took'⟩
      · obtain ⟨k, took', _⟩ := ends r s' he
        exact ⟨n + k, took.trans took', fun hp _ => Nat.add_pos_left (pos hp) k⟩
    | done r s'' =>
      refine ⟨fun _ _ he => (nomatch he), fun r' s' he => ?_⟩
      cases he
      obtain ⟨n, took, stops⟩ := advance_done h
      refine ⟨n, took, fun hp hr => ?_⟩
      rw [stops hp] at hr
      cases hr

/-- A take fails because of the connection, or of the size of a message. -/
theorem advance_fault {f : Fault} (h : advance limit phase s = .done (.fault f) s') :
    f.isTransport = true ∨ f.isProtocol = true := by
  cases phase with
  | headers length first =>
    simp only [advance] at h
    split at h
    case h_1 => cases h
    case h_2 line s'' hx =>
      rcases afterLine_cases limit length line s'' with ⟨phase'', he, _⟩ | ⟨message, he⟩ <;> rw [he] at h <;> cases h
      exact .inl rfl
    case h_3 => split at h <;> cases h; exact .inl rfl
    case h_4 => cases h; exact .inl rfl
  | head size =>
    simp only [advance] at h
    split at h <;> cases h
    exact .inl rfl
  | discard size left head =>
    simp only [advance] at h
    split at h
    · cases h
      exact .inr rfl
    · split at h <;> cases h
      exact .inl rfl
  | body size =>
    simp only [advance] at h
    split at h <;> cases h
    exact .inl rfl

/-- Whatever happens to a stream, the fault that broke it stays, and a frame fails with it, or because of the
connection, or of the size of the message. -/
theorem runFrom_fault (limit : Number) (fuel : Nat) (resumed : Bool) (phase : Phase) (s : Stream) :
    (∀ phase' s', runFrom limit fuel resumed phase s = .waiting phase' s' → s'.fault = s.fault) ∧
    (∀ r s', runFrom limit fuel resumed phase s = .done r s' → s'.fault = s.fault ∧
      ∀ f, r = .fault f → s.fault = some f ∨ f.isTransport = true ∨ f.isProtocol = true) := by
  induction fuel generalizing resumed phase s with
  | zero => exact ⟨fun _ _ he => by cases he; rfl, fun _ _ he => (nomatch he)⟩
  | succ fuel ih =>
    unfold runFrom
    split
    · next g broken =>
      refine ⟨fun _ _ he => (nomatch he), fun r s' he => ?_⟩
      cases he
      refine ⟨rfl, fun f hf => .inl ?_⟩
      cases hf
      split at broken
      · cases broken
      · exact broken
    · cases h : advance limit phase s with
      | waiting => exact ⟨fun _ _ he => by cases he; rfl, fun _ _ he => (nomatch he)⟩
      | next phase'' s'' =>
        obtain ⟨n, took, _⟩ := advance_next h
        rw [← took.fault]
        exact ih false phase'' s''
      | done r s'' =>
        refine ⟨fun _ _ he => (nomatch he), fun r' s' he => ?_⟩
        cases he
        obtain ⟨n, took, _⟩ := advance_done h
        refine ⟨took.fault, fun f hf => .inr ?_⟩
        cases hf
        exact advance_fault h

/-- All takes that pass over the rest of a body, told at once. -/
theorem run_discard (resumed : Bool) (size left : Nat) (head : Octets) (s : Stream) (calm : s.fault = none) :
    run limit resumed (.discard size left head) s =
      if left ≤ s.buffer.length then .done (tooLarge limit size head) { s with buffer := s.buffer.drop left }
      else if s.ended then .done (.fault cutShort) { s with buffer := [] }
      else .waiting (.discard size (left - s.buffer.length) head) { s with buffer := [] } := by
  generalize hc : s.buffer.length = c
  induction c using Nat.strongRecOn generalizing resumed left s with
  | _ c ih =>
    rw [run_eq calm]
    by_cases hl : left = 0
    · rw [hl, if_pos (Nat.zero_le c)]
      rfl
    · cases hb : s.buffer with
      | nil =>
        have same : ({ s with buffer := [] } : Stream) = s := by rw [← hb]
        have hx : s.takeSome? (min left discardSize) = if s.ended then some ([], s) else none := by
          unfold Stream.takeSome?
          rw [hb, List.take_nil, List.drop_nil, same]
          cases s.ended <;> rfl
        have hc : c = 0 := by
          rw [← hc, hb]
          rfl
        rw [if_neg (by omega), hc, same]
        simp only [advance, if_neg hl, hx]
        cases s.ended <;> rfl
      | cons b bs =>
        have hx : s.takeSome? (min left discardSize) =
            some (s.buffer.take (min left discardSize), { s with buffer := s.buffer.drop (min left discardSize) }) := by
          unfold Stream.takeSome?
          rw [hb]
          rfl
        generalize hk : min left discardSize = k at hx
        have hd : discardSize = 65536 := rfl
        have taken : (s.buffer.take k).length = min k c := by rw [List.length_take, hc]
        have later : (s.buffer.drop k).length = c - k := by rw [List.length_drop, hc]
        have pos : 0 < c := by
          rw [← hc, hb]
          exact Nat.succ_pos _
        have next : advance limit (.discard size left head) s =
            .next (.discard size (left - min k c) head) { s with buffer := s.buffer.drop k } := by
          obtain ⟨d, chunk, he⟩ := List.exists_cons_of_length_pos (l := s.buffer.take k) (by omega)
          rw [he] at hx taken
          simp only [advance, if_neg hl, hk, hx, taken]
        rw [next]
        refine (ih (c - k) (by omega) false _ { s with buffer := s.buffer.drop k } calm later).trans ?_
        rw [← hb, List.drop_drop]
        by_cases hle : left ≤ c
        · have all : k + (left - min k c) = left := by omega
          rw [if_pos hle, if_pos (by omega), all]
        · have missing : left - min k c - (c - k) = left - c := by omega
          rw [if_neg hle, if_neg (by omega), missing]

/-- Reading on within a frame with more octets at hand comes to the same as reading first, and on
when they have arrived. -/
theorem run_extend (resumed resumed' : Bool) (phase : Phase) (s : Stream) (calm : s.fault = none)
    (open_ : s.ended = false) (bs : Octets) (last : Bool) :
    run limit resumed phase (s.extend bs last) = match run limit resumed' phase s with
      | .waiting phase' s' => run limit false phase' (s'.extend bs last)
      | .done r s' => .done r (s'.extend bs last) := by
  generalize hc : cost phase s.buffer.length = c
  induction c using Nat.strongRecOn generalizing resumed resumed' phase s with
  | _ c ih =>
    cases hp : phase.isDiscard with
    | true =>
      obtain ⟨size, left, head, rfl⟩ : ∃ size left head, phase = .discard size left head := by
        cases phase <;> simp [Phase.isDiscard] at hp
        exact ⟨_, _, _, rfl⟩
      rw [run_discard resumed' size left head s calm, run_discard resumed size left head (s.extend bs last) calm]
      simp only [Stream.extend, List.length_append]
      by_cases hl : left ≤ s.buffer.length
      · rw [if_pos hl, if_pos (by omega), List.drop_append_of_le_length hl]
      · rw [if_neg hl, open_]
        simp only [Bool.false_eq_true, ite_false]
        rw [run_discard]
        · rw [List.drop_append, List.drop_eq_nil_of_le (Nat.le_of_not_le hl)]
          simp only [List.nil_append, Nat.sub_le_iff_le_add', Nat.sub_sub]
        · exact calm
    | false =>
      rw [run_eq calm]
      cases h : advance limit phase s with
      | waiting => exact run_resumed (s := s.extend bs last) calm resumed phase
      | next phase' s' =>
        obtain ⟨n, took, less, _⟩ := advance_next h
        have next := advance_extend open_ hp (by rw [h]; exact nofun) bs last
        rw [run_eq (s := s.extend bs last) calm, next, h]
        exact ih _ (hc ▸ less) false false phase' s' (took.fault.trans calm) (took.ended.trans open_) rfl
      | done r s' =>
        have done := advance_extend open_ hp (by rw [h]; exact nofun) bs last
        rw [run_eq (s := s.extend bs last) calm, done, h]
        rfl

end Frame

end LspClient
