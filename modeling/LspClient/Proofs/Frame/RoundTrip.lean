/-
Frames are read as they were written, however the octets are cut on their way. What a reader has
found and what is still ahead of it make up the results of all frames at any time: each take from
the stream keeps that, whatever part of the octets has arrived. A body beyond the limit is passed
over without losing the next frame.
-/
import LspClient.Proofs.Frame.Header

namespace LspClient.Frame

/-! ## Taking from a stream that has arrived in part -/

section Takes

variable {s : Stream} {rest tail : Octets}

/-- A line is taken when all of it has arrived. -/
theorem takeLine?_spec {line : Octets} (hne : ∀ b ∈ line, b ≠ 0x0d) (hl : line.length ≤ s.limit)
    (he : s.ended = true → rest = []) (h : s.buffer ++ rest = line ++ separator ++ tail) :
    (∃ buffer, tail = buffer ++ rest ∧ s.buffer = line ++ separator ++ buffer ∧
      s.takeLine? separator = some (.line (line ++ separator), { s with buffer })) ∨
    (s.takeLine? separator = none ∧ s.ended = false) := by
  have found : ∀ buffer, s.buffer = line ++ separator ++ buffer →
      s.takeLine? separator = some (.line (line ++ separator), { s with buffer }) := by
    intro buffer hb
    unfold Stream.takeLine?
    rw [hb, offsetOf?_separator hne]
    simp only [Nat.not_lt.2 hl, ite_false, ← List.length_append, List.take_left, List.drop_left]
  rcases List.append_eq_append_iff.1 h with ⟨missing, hm, hr⟩ | ⟨buffer, hb, ht⟩
  · cases missing with
    | nil =>
      rw [List.append_nil] at hm
      have hb : s.buffer = line ++ separator ++ [] := by rw [List.append_nil, hm]
      exact .inl ⟨[], by rw [hr]; rfl, hb, found [] hb⟩
    | cons b missing =>
      have open_ : s.ended = false := by
        cases hs : s.ended with
        | false => rfl
        | true =>
          rw [he hs] at hr
          cases hr
      -- What has arrived is a part of the line, or the line with the first half of the separator.
      have part : Stream.offsetOf? separator s.buffer = none ∧ s.buffer.length ≤ line.length + 1 := by
        rcases List.append_eq_append_iff.1 hm with ⟨half, hs, hx⟩ | ⟨after, hs, _⟩
        · have hh : half = [] ∨ half = [0x0d] := by
            unfold separator at hx
            match half, hx with
            | [], _ => exact .inl rfl
            | [c], hx =>
              cases hx
              exact .inr rfl
            | c :: d :: half, hx =>
              have := congrArg List.length hx
              simp at this
          rw [hs]
          refine ⟨offsetOf?_none hne hh, ?_⟩
          rcases hh with rfl | rfl <;> simp
        · have hn : ∀ c ∈ s.buffer, c ≠ 0x0d := fun c hc => hne c (by rw [hs]; exact List.mem_append_left _ hc)
          refine ⟨?_, ?_⟩
          · have := offsetOf?_none hn (.inl rfl)
            rwa [List.append_nil] at this
          · rw [hs, List.length_append]
            omega
      refine .inr ⟨?_, open_⟩
      unfold Stream.takeLine?
      have hsep : separator.length = 2 := rfl
      rw [part.1, open_, hsep]
      have := part.2
      simp only [Bool.and_eq_true, decide_eq_true_eq, Bool.false_eq_true, ite_false]
      rw [if_neg (by omega)]
  · exact .inl ⟨buffer, ht, hb, found buffer hb⟩

/-- At the end of the stream nothing is left for a line. -/
theorem takeLine?_nil (h : s.buffer = []) :
    s.takeLine? separator = if s.ended then some (.remainder [], s) else none := by
  have : ({ s with buffer := [] } : Stream) = s := by rw [← h]
  unfold Stream.takeLine?
  rw [h]
  simp [Stream.offsetOf?, separator, this]

/-- So many octets are taken when all of them have arrived. -/
theorem takeExactly?_spec {body : Octets} (he : s.ended = true → rest = []) (h : s.buffer ++ rest = body ++ tail) :
    (∃ buffer, tail = buffer ++ rest ∧ s.buffer = body ++ buffer ∧
      s.takeExactly? body.length = some (some body, { s with buffer })) ∨
    (s.takeExactly? body.length = none ∧ s.ended = false) := by
  have found : ∀ buffer, s.buffer = body ++ buffer →
      s.takeExactly? body.length = some (some body, { s with buffer }) := by
    intro buffer hb
    unfold Stream.takeExactly?
    rw [hb]
    simp
  rcases List.append_eq_append_iff.1 h with ⟨missing, hm, hr⟩ | ⟨buffer, hb, ht⟩
  · cases missing with
    | nil =>
      rw [List.append_nil] at hm
      have hb : s.buffer = body ++ [] := by rw [List.append_nil, hm]
      exact .inl ⟨[], by rw [hr]; rfl, hb, found [] hb⟩
    | cons b missing =>
      refine .inr ?_
      have open_ : s.ended = false := by
        cases hs : s.ended with
        | false => rfl
        | true =>
          rw [he hs] at hr
          cases hr
      unfold Stream.takeExactly?
      rw [hm, List.length_append, List.length_cons, if_neg (by omega), open_]
      exact ⟨rfl, rfl⟩
  · exact .inl ⟨buffer, ht, hb, found buffer hb⟩

/-- At least one octet of those to be passed over is taken, if one has arrived. -/
theorem takeSome?_spec {left : Octets} (hne : left ≠ []) (he : s.ended = true → rest = [])
    (h : s.buffer ++ rest = left ++ tail) :
    (∃ chunk left' buffer, chunk ≠ [] ∧ left = chunk ++ left' ∧ s.buffer = chunk ++ buffer ∧
      left' ++ tail = buffer ++ rest ∧
      s.takeSome? (min left.length discardSize) = some (chunk, { s with buffer })) ∨
    (s.takeSome? (min left.length discardSize) = none ∧ s.ended = false) := by
  unfold Stream.takeSome?
  cases hb : s.buffer with
  | nil =>
    cases hs : s.ended with
    | false => exact .inr ⟨rfl, rfl⟩
    | true =>
      rw [hb, he hs] at h
      exact absurd (List.append_eq_nil_iff.1 h.symm).1 hne
  | cons b bs =>
    have hpos : 0 < min left.length discardSize := by
      have := List.length_pos_iff.2 hne
      unfold discardSize
      omega
    generalize hn : min left.length discardSize = n at hpos
    obtain ⟨n, rfl⟩ := Nat.exists_eq_succ_of_ne_zero (Nat.ne_of_gt hpos)
    have hle : n + 1 ≤ left.length := by omega
    have pre : (b :: bs).take (n + 1) <+: left := by
      refine List.prefix_of_prefix_length_le ((List.take_prefix _ _).trans (List.prefix_append _ rest)) ?_ ?_
      · rw [← hb, h]
        exact List.prefix_append left tail
      · rw [List.length_take]
        omega
    obtain ⟨left', hl⟩ := pre
    refine .inl ⟨(b :: bs).take (n + 1), left', (b :: bs).drop (n + 1), by simp, hl.symm,
      (List.take_append_drop _ _).symm, ?_, by simp⟩
    rw [hb, ← List.take_append_drop (n + 1) (b :: bs), ← hl, List.append_assoc, List.append_assoc] at h
    exact (List.append_cancel_left h).symm

end Takes

/-! ## What is ahead of a reader -/

/-- What reading the frame around a body comes to. -/
def outcome (limit : Number) (body : Octets) : Result :=
  if limit.lt (.int body.length) then
    tooLarge limit body.length (body.take (min body.length Message.headSize))
  else .frame body

/-- Whether the length of a body can be read: the header is not too long for the stream, and the
length has no more digits than integers may have. -/
structure Fits (lineLimit : Nat) (body : Octets) : Prop where
  line : (headerLine body.length).length ≤ lineLimit
  digits : (toString body.length).length ≤ Json.maxIntegerDigits

/-- What a reader in some phase will find in the octets that are ahead of it. -/
inductive Awaits (limit : Number) (lineLimit : Nat) : Phase → Octets → List Result → Prop where
  | finished : Awaits limit lineLimit (.headers none true) [] [.finished]
  | frame {input : Octets} {results : List Result} (body : Octets) (fits : Fits lineLimit body)
    (next : Awaits limit lineLimit (.headers none true) input results) :
    Awaits limit lineLimit (.headers none true) (wrap body ++ input) (outcome limit body :: results)
  | blank {input : Octets} {results : List Result} (body : Octets)
    (next : Awaits limit lineLimit (.headers none true) input results) :
    Awaits limit lineLimit (.headers (some body.length) false) (separator ++ (body ++ input))
      (outcome limit body :: results)
  | body {input : Octets} {results : List Result} (body : Octets) (small : limit.lt (.int body.length) = false)
    (next : Awaits limit lineLimit (.headers none true) input results) :
    Awaits limit lineLimit (.body body.length) (body ++ input) (outcome limit body :: results)
  | head {input : Octets} {results : List Result} (body : Octets) (large : limit.lt (.int body.length) = true)
    (next : Awaits limit lineLimit (.headers none true) input results) :
    Awaits limit lineLimit (.head body.length) (body ++ input) (outcome limit body :: results)
  | discard {input : Octets} {results : List Result} (body left : Octets)
    (large : limit.lt (.int body.length) = true)
    (next : Awaits limit lineLimit (.headers none true) input results) :
    Awaits limit lineLimit
      (.discard body.length left.length (body.take (min body.length Message.headSize))) (left ++ input)
      (outcome limit body :: results)

/-- The frames of some bodies, and the end of the stream after them. -/
theorem awaits_frames (limit : Number) {lineLimit : Nat} {bodies : List Octets}
    (fits : ∀ body ∈ bodies, Fits lineLimit body) :
    Awaits limit lineLimit .start (bodies.flatMap wrap) (bodies.map (outcome limit) ++ [.finished]) := by
  induction bodies with
  | nil => exact .finished
  | cons body bodies ih =>
    exact .frame body (fits body List.mem_cons_self) (ih fun b hb => fits b (List.mem_cons_of_mem body hb))

/-- How many takes a phase can need at most, with so many octets at hand. -/
def cost : Phase → Nat → Nat
  | .headers .., n => n + 3
  | .head _, n => n + 2
  | .discard .., n => n + 1
  | .body _, n => n + 1

/-- Whether a reader looks for the end of a header line. -/
def Phase.isHeaders : Phase → Bool
  | .headers .. => true
  | _ => false

/-! ## One take -/

section Reading

variable {limit : Number} {lineLimit : Nat} {phase : Phase} {rest : Octets} {results : List Result} {s : Stream}

/-- A stream without a fault, and whether octets can still follow. -/
structure Calm (lineLimit : Nat) (rest : Octets) (s : Stream) : Prop where
  fault : s.fault = none
  limit : s.limit = lineLimit
  ended : s.ended = true → rest = []

theorem Calm.taking (c : Calm lineLimit rest s) (buffer : Octets) : Calm lineLimit rest { s with buffer } :=
  ⟨c.fault, c.limit, c.ended⟩

/-- What is right about the result of a take or of several: the results that were ahead are the one
found and those that are still ahead. -/
inductive Found (limit : Number) (lineLimit : Nat) (rest : Octets) (results : List Result) (r : Result)
    (s : Stream) : Prop where
  | between (later : List Result) (cons : results = r :: later) (continues : r.continues = true)
    (ahead : Awaits limit lineLimit (.headers none true) (s.buffer ++ rest) later)
  | finished (cons : results = [r]) (continues : r.continues = false)

theorem continues_outcome (limit : Number) (body : Octets) : (outcome limit body).continues = true := by
  unfold outcome
  split <;> rfl

/-- What one take from the stream does. -/
theorem advance_spec (c : Calm lineLimit rest s) (h : Awaits limit lineLimit phase (s.buffer ++ rest) results) :
    (advance limit phase s = .waiting ∧ s.ended = false) ∨
    (∃ phase' buffer, advance limit phase s = .next phase' { s with buffer } ∧
      Awaits limit lineLimit phase' (buffer ++ rest) results ∧
      cost phase' buffer.length < cost phase s.buffer.length ∧ buffer.length ≤ s.buffer.length ∧
      (phase.isHeaders = true → buffer.length < s.buffer.length)) ∨
    (∃ r buffer, advance limit phase s = .done r { s with buffer } ∧
      Found limit lineLimit rest results r { s with buffer } ∧ buffer.length ≤ s.buffer.length ∧
      (phase.isHeaders = true → r.continues = false)) := by
  generalize hi : s.buffer ++ rest = input at h
  cases h with
  | finished =>
    have hb := (List.append_eq_nil_iff.1 hi).1
    have hx := takeLine?_nil hb
    by_cases hs : s.ended = true
    · rw [if_pos hs] at hx
      refine .inr (.inr ⟨.finished, s.buffer, ?_, .finished rfl rfl, Nat.le_refl _, fun _ => rfl⟩)
      simp only [advance, hx]
      rfl
    · rw [if_neg hs] at hx
      refine .inl ⟨?_, Bool.eq_false_iff.2 hs⟩
      simp only [advance, hx]
  | frame body fits next =>
    rw [wrap_eq, List.append_assoc] at hi
    rcases takeLine?_spec (fun b hb => ne_of_mem_headerLine hb) (by rw [c.limit]; exact fits.line) c.ended hi with
      ⟨buffer, ht, hb, hx⟩ | ⟨hx, hs⟩
    · refine .inr (.inl ⟨.headers (some body.length) false, buffer, ?_, ?_, ?_, ?_, fun _ => ?_⟩)
      · have hne : headerLine body.length ++ separator ≠ separator := fun h =>
          headerLine_ne_nil _ (List.append_left_eq_self.1 h)
        unfold advance
        rw [hx]
        simp [afterLine, hne, headerLength?_headerLine fits.digits]
      · rw [← ht, List.append_assoc]
        exact .blank body next
      all_goals
        rw [hb]
        simp only [List.length_append, cost, separator, List.length_cons]
        omega
    · refine .inl ⟨?_, hs⟩
      unfold advance
      rw [hx]
  | blank body next =>
    have hi' : s.buffer ++ rest = [] ++ separator ++ (body ++ _) := hi
    rcases takeLine?_spec (by simp) (by simp) c.ended hi' with ⟨buffer, ht, hb, hx⟩ | ⟨hx, hs⟩
    · have hlen : s.buffer.length = buffer.length + 2 := by
        rw [hb]
        simp [separator]
      cases hl : limit.lt (.int body.length) with
      | true =>
        refine .inr (.inl ⟨.head body.length, buffer, ?_, ?_, ?_, by omega, fun _ => by omega⟩)
        · unfold advance
          rw [hx]
          simp [afterLine, hl]
        · rw [← ht]
          exact .head body hl next
        · simp only [cost]
          omega
      | false =>
        refine .inr (.inl ⟨.body body.length, buffer, ?_, ?_, ?_, by omega, fun _ => by omega⟩)
        · unfold advance
          rw [hx]
          simp [afterLine, hl]
        · rw [← ht]
          exact .body body hl next
        · simp only [cost]
          omega
    · refine .inl ⟨?_, hs⟩
      unfold advance
      rw [hx]
  | body body small next =>
    rcases takeExactly?_spec c.ended hi with ⟨buffer, ht, hb, hx⟩ | ⟨hx, hs⟩
    · refine .inr (.inr ⟨.frame body, buffer, ?_, .between _ ?_ rfl (ht ▸ next), ?_,
        fun h => absurd h Bool.false_ne_true⟩)
      · simp only [advance, hx]
      · rw [outcome, small]
        rfl
      · rw [hb, List.length_append]
        omega
    · refine .inl ⟨?_, hs⟩
      simp only [advance, hx]
  | head body large next =>
    generalize hk : min body.length Message.headSize = k
    have hlen : (body.take k).length = k := by
      rw [List.length_take]
      omega
    rw [← List.take_append_drop k body, List.append_assoc] at hi
    rcases takeExactly?_spec c.ended hi with ⟨buffer, ht, hb, hx⟩ | ⟨hx, hs⟩
    · rw [hlen] at hx
      refine .inr (.inl ⟨.discard body.length (body.drop k).length (body.take k), buffer, ?_, ?_, ?_, ?_,
        fun h => absurd h Bool.false_ne_true⟩)
      · simp only [advance, hk, hx, List.length_drop, hlen]
      · rw [← ht, ← hk]
        exact .discard body _ large next
      all_goals
        simp only [hb, List.length_append, cost]
        omega
    · refine .inl ⟨?_, hs⟩
      rw [hlen] at hx
      simp only [advance, hk, hx]
  | discard body left large next =>
    cases left with
    | nil =>
      refine .inr (.inr ⟨outcome limit body, s.buffer, ?_, .between _ rfl (continues_outcome limit body) ?_,
        Nat.le_refl _, fun h => absurd h Bool.false_ne_true⟩)
      · unfold advance outcome
        rw [large]
        rfl
      · rw [hi]
        exact next
    | cons b left =>
      rcases takeSome?_spec (by simp) c.ended hi with ⟨chunk, left', buffer, hne, hl, hb, ht, hx⟩ | ⟨hx, hs⟩
      · obtain ⟨d, chunk, rfl⟩ := List.exists_cons_of_ne_nil hne
        have hlen : (b :: left).length - (d :: chunk).length = left'.length := by
          rw [hl, List.length_append]
          omega
        refine .inr (.inl ⟨.discard body.length left'.length (body.take (min body.length Message.headSize)),
          buffer, ?_, ?_, ?_, ?_, fun h => absurd h Bool.false_ne_true⟩)
        · simp only [advance, hx, hlen]
          rfl
        · rw [← ht]
          exact .discard body left' large next
        all_goals
          simp only [hb, List.length_append, List.length_cons, cost]
          omega
      · refine .inl ⟨?_, hs⟩
        simp only [advance, hx]
        rfl

/-! ## Many takes -/

/-- What reading on within a frame comes to: the reader waits, and the stream has not ended; or it
has found the first of the results that were ahead. -/
theorem runFrom_spec (fuel : Nat) : ∀ (resumed : Bool) (phase : Phase) (s : Stream), Calm lineLimit rest s →
    Awaits limit lineLimit phase (s.buffer ++ rest) results → cost phase s.buffer.length ≤ fuel →
    (∃ phase' buffer, runFrom limit fuel resumed phase s = .waiting phase' { s with buffer } ∧
      Awaits limit lineLimit phase' (buffer ++ rest) results ∧ s.ended = false) ∨
    (∃ r buffer, runFrom limit fuel resumed phase s = .done r { s with buffer } ∧
      Found limit lineLimit rest results r { s with buffer } ∧ buffer.length ≤ s.buffer.length ∧
      (phase.isHeaders = true → r.continues = true → buffer.length < s.buffer.length)) := by
  induction fuel with
  | zero =>
    intro resumed phase s c h hf
    cases phase <;> simp [cost] at hf
  | succ fuel ih =>
    intro resumed phase s c h hf
    have calm : (if resumed || !phase.takes then none else s.fault) = none := by
      rw [c.fault]
      split <;> rfl
    rw [runFrom, calm]
    dsimp only
    rcases advance_spec c h with ⟨hx, hs⟩ | ⟨phase', buffer, hx, ha, hc, hle, hlt⟩ | ⟨r, buffer, hx, hr, hle, hlt⟩
    · rw [hx]
      exact .inl ⟨phase, s.buffer, rfl, h, hs⟩
    · rw [hx]
      rcases ih false phase' { s with buffer } (c.taking buffer) ha (Nat.le_of_lt_succ (Nat.lt_of_lt_of_le hc hf)) with
        ⟨phase'', buffer', hx', ha', hs⟩ | ⟨r, buffer', hx', hr, hle', _⟩
      · exact .inl ⟨phase'', buffer', hx', ha', hs⟩
      · exact .inr ⟨r, buffer', hx', hr, Nat.le_trans hle' hle,
          fun hp _ => Nat.lt_of_le_of_lt hle' (hlt hp)⟩
    · rw [hx]
      refine .inr ⟨r, buffer, rfl, hr, hle, fun hp hcont => ?_⟩
      rw [hlt hp] at hcont
      cases hcont

/-- The same without a bound on the takes: a stream allows as many as it needs. -/
theorem run_spec (c : Calm lineLimit rest s) (resumed : Bool)
    (h : Awaits limit lineLimit phase (s.buffer ++ rest) results) :
    (∃ phase' buffer, run limit resumed phase s = .waiting phase' { s with buffer } ∧
      Awaits limit lineLimit phase' (buffer ++ rest) results ∧ s.ended = false) ∨
    (∃ r buffer, run limit resumed phase s = .done r { s with buffer } ∧
      Found limit lineLimit rest results r { s with buffer } ∧ buffer.length ≤ s.buffer.length ∧
      (phase.isHeaders = true → r.continues = true → buffer.length < s.buffer.length)) := by
  refine runFrom_spec (takesOf s) resumed phase s c h ?_
  unfold takesOf
  cases phase <;> simp [cost]

/-! ## Readers -/

/-- What a reader has found, and what is ahead of it, are the results of all frames. -/
structure Reader.Sound (limit : Number) (lineLimit : Nat) (rest : Octets) (all : List Result) (r : Reader) : Prop where
  calm : Calm lineLimit rest r.stream
  ahead : ∃ later, all = r.results ++ later ∧ match r.phase with
    | some phase => Awaits limit lineLimit phase (r.stream.buffer ++ rest) later
    | none => later = []

variable {all : List Result} {r : Reader}

theorem Reader.sound_drainFrom (fuel : Nat) : ∀ (resumed : Bool) (r : Reader), r.Sound limit lineLimit rest all →
    (∀ phase, r.phase = some phase → r.stream.buffer.length + (if phase.isHeaders then 1 else 2) ≤ fuel) →
    (r.drainFrom limit fuel resumed).Sound limit lineLimit rest all ∧
      (r.drainFrom limit fuel resumed).stream.ended = r.stream.ended ∧
      (r.stream.ended = true → (r.drainFrom limit fuel resumed).phase = none) := by
  induction fuel with
  | zero =>
    intro resumed r sound hf
    cases hp : r.phase with
    | none => exact ⟨sound, rfl, fun _ => hp⟩
    | some phase =>
      have := hf phase hp
      split at this <;> omega
  | succ fuel ih =>
    intro resumed r sound hf
    obtain ⟨later, hl, ha⟩ := sound.ahead
    rw [Reader.drainFrom]
    cases hp : r.phase with
    | none => exact ⟨sound, rfl, fun _ => hp⟩
    | some phase =>
      rw [hp] at ha
      have hf := hf phase hp
      rcases run_spec sound.calm resumed ha with ⟨phase', buffer, hx, ha', hs⟩ | ⟨found, buffer, hx, hr, hle, hlt⟩
      · simp only [hx]
        exact ⟨⟨sound.calm.taking buffer, later, hl, ha'⟩, trivial, fun he => by rw [hs] at he; cases he⟩
      · simp only [hx]
        cases hr with
        | between later' cons continues ahead =>
          rw [continues]
          refine ih false ⟨r.results ++ [found], some .start, { r.stream with buffer }⟩
            ⟨sound.calm.taking buffer, later', ?_, ahead⟩ ?_
          · rw [hl, cons, List.append_assoc]
            rfl
          · intro phase'' he
            cases he
            have : Phase.start.isHeaders = true := rfl
            rw [if_pos this]
            show buffer.length + 1 ≤ fuel
            cases hh : phase.isHeaders with
            | true =>
              have := hlt hh continues
              rw [hh] at hf
              simp only [ite_true] at hf
              omega
            | false =>
              rw [hh] at hf
              simp only [Bool.false_eq_true, ite_false] at hf
              omega
        | finished cons continues =>
          rw [continues]
          have stopped : ∀ n b, Reader.drainFrom limit n b ⟨r.results ++ [found], none, { r.stream with buffer }⟩ =
              ⟨r.results ++ [found], none, { r.stream with buffer }⟩ := by
            intro n b
            cases n <;> rfl
          simp only [Bool.false_eq_true, ite_false, stopped]
          refine ⟨⟨sound.calm.taking buffer, [], ?_, rfl⟩, ?_⟩
          · rw [hl, cons, List.append_nil]
          · exact ⟨trivial, fun _ => trivial⟩

/-- Reading on keeps it, and comes to the end of a stream that has ended. -/
theorem Reader.sound_drain (sound : r.Sound limit lineLimit rest all) :
    (r.drain limit).Sound limit lineLimit rest all ∧ (r.drain limit).stream.ended = r.stream.ended ∧
      (r.stream.ended = true → (r.drain limit).phase = none) := by
  refine Reader.sound_drainFrom _ true r sound fun phase _ => ?_
  split <;> omega

end Reading

/-! ## The round trip -/

/-- What happens to a reader before the end of its stream: octets arrive, or it reads on. -/
inductive Reader.Event where
  | arrive (octets : Octets)
  | read

namespace Reader

/-- A reader after an event. -/
def after (limit : Number) (r : Reader) : Event → Reader
  | .arrive octets => { r with stream := r.stream.feed octets }
  | .read => r.drain limit

/-- The octets that arrive. -/
def arriving : List Event → Octets
  | [] => []
  | .arrive octets :: events => octets ++ arriving events
  | .read :: events => arriving events

/-- What one event keeps, and so do many. -/
theorem sound_after {limit : Number} {lineLimit : Nat} {rest : Octets} {all : List Result} :
    ∀ (events : List Event) {r : Reader}, r.stream.ended = false →
      r.Sound limit lineLimit (arriving events ++ rest) all →
      (events.foldl (after limit) r).Sound limit lineLimit rest all
  | [], _, _, sound => sound
  | .arrive octets :: events, r, open_, sound => by
    refine sound_after events (r := { r with stream := r.stream.feed octets }) open_ ⟨?_, ?_⟩
    · exact ⟨sound.calm.fault, sound.calm.limit, fun he => by cases open_.symm.trans he⟩
    · obtain ⟨later, hl, ha⟩ := sound.ahead
      rw [arriving, List.append_assoc, ← List.append_assoc] at ha
      exact ⟨later, hl, ha⟩
  | .read :: events, r, open_, sound => by
    obtain ⟨sound', ended, _⟩ := Reader.sound_drain sound
    exact sound_after events (r := r.drain limit) (ended.trans open_) sound'

/-- The end of the stream lets a reader come to the end. -/
theorem results_finish {limit : Number} {lineLimit : Nat} {all : List Result} {r : Reader}
    (sound : r.Sound limit lineLimit [] all) : (r.finish limit).results = all ∧ (r.finish limit).phase = none := by
  have calm : Calm lineLimit [] r.stream.finish := ⟨sound.calm.fault, sound.calm.limit, fun _ => rfl⟩
  have sound' : Reader.Sound limit lineLimit [] all { r with stream := r.stream.finish } := ⟨calm, sound.ahead⟩
  obtain ⟨⟨_, later, hl, ha⟩, _, hp⟩ := Reader.sound_drain sound'
  have hp := hp rfl
  unfold Reader.finish
  rw [hp] at ha
  refine ⟨?_, hp⟩
  rw [hl, ha, List.append_nil]

end Reader

/-- Payloads are read back from their frames, however these are cut into what arrives, and whenever
the reader reads on meanwhile: after the end of the stream it has found one result for each payload,
its octets or, if they are beyond the limit, the fault that names their number and the request that
their head answers; and then the end. A stream allows lines as long as the headers, and the lengths
have no more digits than any memory has room for octets. -/
theorem read_encoded (payloads : List String) (limit : Number) (lineLimit : Nat) (events : List Reader.Event)
    (cut : Reader.arriving events = payloads.flatMap encode)
    (lines : ∀ p ∈ payloads, (headerLine (Text.encode p).length).length ≤ lineLimit)
    (digits : ∀ p ∈ payloads, (toString (Text.encode p).length).length ≤ Json.maxIntegerDigits) :
    let r := (events.foldl (Reader.after limit) { stream := { limit := lineLimit } }).finish limit
    r.results = (payloads.map fun p =>
      let body := Text.encode p
      if limit.lt (.int body.length) then
        .fault (.messageTooLarge body.length limit
          (Message.peekId? (body.take (min body.length Message.headSize))))
      else .frame body) ++ [.finished] ∧ r.phase = none := by
  have fits : ∀ body ∈ payloads.map Text.encode, Fits lineLimit body := by
    intro body hb
    obtain ⟨p, hp, rfl⟩ := List.mem_map.1 hb
    exact ⟨lines p hp, digits p hp⟩
  have ahead := awaits_frames limit fits
  have input : (payloads.map Text.encode).flatMap wrap = Reader.arriving events := by
    rw [cut, List.flatMap_map]
    rfl
  rw [input, List.map_map] at ahead
  have start : Reader.Sound limit lineLimit (Reader.arriving events ++ [])
      (payloads.map (outcome limit ∘ Text.encode) ++ [.finished]) { stream := { limit := lineLimit } } :=
    ⟨⟨rfl, rfl, fun h => absurd h Bool.false_ne_true⟩, _, rfl, by rw [List.append_nil]; exact ahead⟩
  exact Reader.results_finish (Reader.sound_after events rfl start)

/-- Two payloads, of which the second is beyond the limit; the header of the first is cut in two. -/
theorem read_encoded_two :
    let frames := ["é", "\x7b\"id\":1,\"result\":0\x7d"].flatMap encode
    let events := [.arrive (frames.take 17), .read, .arrive (frames.drop 17)]
    let r := (events.foldl (Reader.after (.int 2)) { stream := { limit := 18 } }).finish (.int 2)
    r.results = [.frame (Text.encode "é"), .fault (.messageTooLarge 19 (.int 2) (some (.int 1))), .finished] ∧
      r.phase = none := by
  intro frames events r
  have h := read_encoded ["é", "\x7b\"id\":1,\"result\":0\x7d"] (.int 2) 18 events
    (by decide +kernel) (by decide +kernel) (by decide +kernel)
  have id : Message.peekId? ((Text.encode "\x7b\"id\":1,\"result\":0\x7d").take 19) = some (.int 1) := by decide +kernel
  refine ⟨h.1.trans ?_, h.2⟩
  rw [← id]
  rfl

end LspClient.Frame
