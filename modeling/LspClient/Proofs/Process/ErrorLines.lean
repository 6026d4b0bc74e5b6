/-
The error streams of server processes. Whatever the chunks in which a stream arrives, and whenever the task that
forwards it goes on, one record is logged for each line that is not blank, in order, up to the first line that is too
long. There forwarding stops for good, with a record that says so; a stream without such a line is forwarded to its end.
-/
import LspClient.Client.Run
import LspClient.Proofs.Client.Does

namespace LspClient

open Client

/-! ## Definitions -/

namespace ErrorLines

/-- What ends a line. -/
def newline : UInt8 := 0x0a

/-- The lines of a stream with their ends; what follows the last end is a line as well, unless there is nothing. -/
def linesOf : Octets → List Octets
  | [] => []
  | b :: bs =>
    if b = newline then [b] :: linesOf bs
    else match linesOf bs with
      | [] => [[b]]
      | line :: lines => (b :: line) :: lines

/-- Whether a line, without its end, is within a limit. -/
def isShort (limit : Nat) (line : Octets) : Bool :=
  (line.takeWhile (· != newline)).length ≤ limit

/-- What a record of an error stream says. -/
abbrev Said := Log.Level × String

/-- The record of a line, unless the line is blank. -/
@[irreducible] def recordOf? (line : Octets) : Option Said :=
  let text := Text.stripEnd (Text.decodeLossy line)
  if text.isEmpty then none else some (.info, text)

/-- The record that says that forwarding stops. -/
def stopped : Said :=
  (.debug, "Unexpected error in stderr drain")

/-- The records of a stream that was forwarded as far as it can be. -/
@[irreducible] def recordsOf (limit : Nat) (octets : Octets) : List Said :=
  ((linesOf octets).takeWhile (isShort limit)).filterMap recordOf? ++
    if (linesOf octets).all (isShort limit) then [] else [stopped]

/-- What a note says, if it is a record of an error stream. -/
def said? : Note → Option Said
  | .log r => if r.source = .stderr then some (r.level, r.message) else none
  | _ => none

/-- What is said in the notes of a client, and not in those of an earlier one. -/
def saidSince (c c' : Client) : List Said :=
  (c'.notes.toList.drop c.notes.size).filterMap said?

/-- Where a task goes on, if it does. -/
def goesOnAt : Except Fault Next → Option Activity
  | .ok (.await _ k) => some k
  | .ok (.yield k) => some k
  | _ => none

/-- The forwarding of an error stream, with what has arrived, whether that was all, what has been logged, and where the
task goes on. -/
structure State where
  client : Client
  arrived : Octets := []
  ended : Bool := false
  logged : List Said := []
  next : Option Activity

/-- A stream in a pipe for which nobody but the forwarding task waits. -/
def Feeds (p : PipeId) (s : Stream) (next : Option Activity) (c : Client) : Prop :=
  ∃ waiter, c.pipes[p]? = some ⟨s, waiter⟩ ∧ (next = some (.drain p) → waiter = none)

/-- What may happen next: more octets arrive, and perhaps the end of the stream, or the task goes on. In between,
anything may happen that leaves the stream alone. -/
inductive Follows (E : Executor) (p : PipeId) : State → State → Prop
  | arrive {x : State} {s : Stream} (octets : Octets) (last : Bool) {c : Client} (feeds : Feeds p s x.next x.client)
    (more : x.ended = true → octets = [] ∧ last = false)
    (fed : Feeds p { s with buffer := s.buffer ++ octets, ended := s.ended || last } x.next c) :
    Follows E p x { x with client := c, arrived := x.arrived ++ octets, ended := x.ended || last }
  | turn {x : State} {a : Activity} (v : Value) (here : x.next = some a) :
    Follows E p x { x with
      client := (does E (goOn a (.ok v)) x.client).2
      logged := x.logged ++ saidSince x.client (does E (goOn a (.ok v)) x.client).2
      next := goesOnAt (does E (goOn a (.ok v)) x.client).1 }

/-- The states that may come after a state. -/
inductive Run (E : Executor) (p : PipeId) (x : State) : State → Prop
  | refl : Run E p x x
  | step {y z : State} (run : Run E p x y) (next : Follows E p y z) : Run E p x z

/-- A task that is about to forward a stream of which nothing has arrived. -/
structure State.IsNew (p : PipeId) (limit : Nat) (x : State) : Prop where
  pipe : x.client.pipes[p]? = some ⟨{ limit }, none⟩
  state : x.arrived = [] ∧ x.ended = false ∧ x.logged = []
  next : x.next = some (.drain p)

/-! ## Lines -/

variable {limit : Nat} {body line rest octets : Octets} {done : List Octets}

theorem linesOf_body (plain : newline ∉ body) (rest : Octets) :
    linesOf (body ++ newline :: rest) = (body ++ [newline]) :: linesOf rest := by
  induction body with
  | nil => rw [List.nil_append, linesOf, if_pos rfl, List.nil_append]
  | cons b body ih =>
    obtain ⟨ne, plain⟩ := not_or.1 (mt List.mem_cons.2 plain)
    rw [List.cons_append, linesOf, if_neg (Ne.symm ne), ih plain]
    rfl

/-- Without an end there is one line, or nothing. -/
theorem linesOf_plain (plain : newline ∉ octets) : linesOf octets = if octets = [] then [] else [octets] := by
  induction octets with
  | nil => rfl
  | cons b bs ih =>
    obtain ⟨ne, plain⟩ := not_or.1 (mt List.mem_cons.2 plain)
    rw [linesOf, if_neg (Ne.symm ne), ih plain]
    by_cases h : bs = []
    · simp [h]
    · simp [h]

/-- A line that is complete, and not too long. -/
def IsDone (limit : Nat) (line : Octets) : Prop :=
  ∃ body, line = body ++ [newline] ∧ newline ∉ body ∧ body.length ≤ limit

theorem takeWhile_body (plain : newline ∉ body) (rest : Octets) :
    (body ++ newline :: rest).takeWhile (· != newline) = body := by
  have all : ∀ b ∈ body, (b != newline) = true := fun b hb => bne_iff_ne.2 fun e => plain (e ▸ hb)
  rw [List.takeWhile_append_of_pos all]
  simp

theorem isShort_of_isDone (h : IsDone limit line) : isShort limit line = true := by
  obtain ⟨body, rfl, plain, short⟩ := h
  simpa [isShort, takeWhile_body plain] using short

/-- Lines that are complete come before those of the rest. -/
theorem linesOf_done (h : ∀ line ∈ done, IsDone limit line) (rest : Octets) :
    linesOf (done.flatten ++ rest) = done ++ linesOf rest := by
  induction done with
  | nil => rfl
  | cons line done ih =>
    obtain ⟨body, rfl, plain, _⟩ := h line (List.mem_cons_self ..)
    rw [List.flatten_cons, List.append_assoc, List.append_assoc, List.singleton_append, linesOf_body plain,
      ih fun line hl => h line (List.mem_cons_of_mem _ hl)]
    rfl

/-- What has been forwarded is forwarded first. -/
theorem recordsOf_done (h : ∀ line ∈ done, IsDone limit line) (rest : Octets) :
    recordsOf limit (done.flatten ++ rest) = done.filterMap recordOf? ++ recordsOf limit rest := by
  have short : ∀ line ∈ done, isShort limit line = true := fun line hl => isShort_of_isDone (h line hl)
  have all : done.all (isShort limit) = true := List.all_eq_true.2 short
  unfold recordsOf
  rw [linesOf_done h, List.takeWhile_append_of_pos short, List.filterMap_append, List.all_append, all,
    List.append_assoc, Bool.true_and]

theorem recordsOf_nil (limit : Nat) : recordsOf limit [] = [] := by
  unfold recordsOf
  rfl

/-- What is left at the end of a stream is a line. -/
theorem recordsOf_plain (plain : newline ∉ octets) (some : octets ≠ []) (h : octets.length ≤ limit) :
    recordsOf limit octets = (recordOf? octets).toList := by
  have short : isShort limit octets = true := by
    have all : ∀ b ∈ octets, (b != newline) = true := fun b hb => bne_iff_ne.2 fun e => plain (e ▸ hb)
    have whole : octets.takeWhile (· != newline) = octets := by
      have appended : (octets ++ []).takeWhile (· != newline) = octets ++ [].takeWhile (· != newline) :=
        List.takeWhile_append_of_pos all
      rwa [List.append_nil, List.takeWhile_nil, List.append_nil] at appended
    unfold isShort
    rw [whole]
    exact decide_eq_true h
  unfold recordsOf
  rw [linesOf_plain plain, if_neg some]
  cases h : recordOf? octets <;> simp [short, h]

/-- A line that is too long is the last that is looked at, however it goes on. -/
theorem recordsOf_long {long : Octets} (plain : newline ∉ long) (h : limit < long.length) (rest : Octets) :
    recordsOf limit (long ++ rest) = [stopped] ∧ ¬ (linesOf (long ++ rest)).all (isShort limit) = true := by
  have first : ∃ line lines, linesOf (long ++ rest) = line :: lines ∧ isShort limit line = false := by
    induction long generalizing limit with
    | nil => exact absurd h (Nat.not_lt_zero _)
    | cons b bs ih =>
      obtain ⟨ne, plain⟩ := not_or.1 (mt List.mem_cons.2 plain)
      rw [List.cons_append, linesOf, if_neg (Ne.symm ne)]
      cases limit with
      | zero =>
        cases linesOf (bs ++ rest) <;> exact ⟨_, _, rfl, by simp [isShort, Ne.symm ne]⟩
      | succ limit =>
        obtain ⟨line, lines, e, long⟩ := ih plain (Nat.lt_of_succ_lt_succ h)
        rw [e]
        refine ⟨_, _, rfl, ?_⟩
        simpa [isShort, Ne.symm ne] using long
  obtain ⟨line, lines, e, long⟩ := first
  unfold recordsOf
  simp [e, long]

/-- A stream begins with a complete line, or has none. -/
theorem offsetOf?_newline (octets : Octets) :
    (∃ body rest, octets = body ++ newline :: rest ∧ newline ∉ body ∧
      Stream.offsetOf? [newline] octets = some body.length) ∨
      newline ∉ octets ∧ Stream.offsetOf? [newline] octets = none := by
  induction octets with
  | nil => exact .inr ⟨nofun, rfl⟩
  | cons b bs ih =>
    by_cases e : b = newline
    · subst e
      exact .inl ⟨[], bs, rfl, nofun, by simp [Stream.offsetOf?, List.isPrefixOf]⟩
    · have other : [newline].isPrefixOf (b :: bs) = false := by simp [List.isPrefixOf, Ne.symm e]
      rw [Stream.offsetOf?, other]
      rcases ih with ⟨body, rest, rfl, plain, found⟩ | ⟨plain, none⟩
      · refine .inl ⟨b :: body, rest, rfl, ?_, by rw [found]; rfl⟩
        exact fun h => (List.mem_cons.1 h).elim (fun h => e h.symm) plain
      · exact .inr ⟨fun h => (List.mem_cons.1 h).elim (fun h => e h.symm) plain, by rw [none]; rfl⟩

/-! ## What is logged -/

/-- The notes of a client have grown by what says something. -/
def Tells (c c' : Client) (said : List Said) : Prop :=
  ∃ new, c'.notes.toList = c.notes.toList ++ new ∧ new.filterMap said? = said

variable {E : Executor} {p : PipeId} {c c' c'' : Client} {s : Stream} {said said' : List Said}

theorem filterMap_recordOf?_cons (line : Octets) (done : List Octets) :
    (line :: done).filterMap recordOf? = (recordOf? line).toList ++ done.filterMap recordOf? := by
  rw [List.filterMap_cons]
  cases recordOf? line <;> rfl

theorem Tells.of_notes (h : c'.notes = c.notes) : Tells c c' [] :=
  ⟨[], by rw [h, List.append_nil], rfl⟩

theorem Tells.trans (h : Tells c c' said) (h' : Tells c' c'' said') : Tells c c'' (said ++ said') := by
  obtain ⟨new, e, rfl⟩ := h
  obtain ⟨new', e', rfl⟩ := h'
  exact ⟨new ++ new', by rw [e', e, List.append_assoc], List.filterMap_append⟩

theorem Tells.saidSince (h : Tells c c' said) : saidSince c c' = said := by
  obtain ⟨new, e, rfl⟩ := h
  unfold ErrorLines.saidSince
  rw [e, ← Array.length_toList, List.drop_left]

theorem tells_log (message : String) (c : Client) :
    ∃ c', does E (log .info .stderr message) c = (.ok (), c') ∧ c'.pipes = c.pipes ∧ Tells c c' [(.info, message)] :=
  ⟨_, rfl, rfl, _, Array.toList_push, rfl⟩

theorem tells_logErrorLine (line : Octets) (c : Client) :
    ∃ c', does E (logErrorLine line) c = (.ok (), c') ∧ c'.pipes = c.pipes ∧ Tells c c' (recordOf? line).toList := by
  unfold logErrorLine recordOf?
  dsimp only
  cases (Text.stripEnd (Text.decodeLossy line)).isEmpty with
  | true => exact ⟨c, rfl, rfl, .of_notes rfl⟩
  | false => exact tells_log _ c

theorem tells_drainFailed (c : Client) :
    ∃ c', does E (drainFailed (.invalid "Separator is not found, and chunk exceed the limit")) c =
    (.ok (.done .null), c') ∧
      c'.pipes = c.pipes ∧ Tells c c' [stopped] :=
  ⟨_, rfl, rfl, _, Array.toList_push, rfl⟩

/-- How a turn of forwarding ends: all that has arrived is forwarded, and the task waits for more; or forwarding stops,
as nothing more can follow, or a line was too long. -/
inductive Forwarded (p : PipeId) (s : Stream) (c : Client) : Except Fault Next → Client → Prop
  | waits {c' : Client} {waiter : PromiseId} (done : List Octets) (rest : Octets)
    (split : s.buffer = done.flatten ++ rest) (lines : ∀ line ∈ done, IsDone s.limit line) (plain : newline ∉ rest)
    (short : rest.length ≤ s.limit) (more : s.ended = false)
    (pipe : c'.pipes[p]? = some ⟨{ s with buffer := rest }, some waiter⟩)
    (tells : Tells c c' (done.filterMap recordOf?)) : Forwarded p s c (.ok (.await waiter (.drainMore p))) c'
  | stops {c' : Client}
    (finished : s.ended = true ∨ ∀ rest, recordsOf s.limit (s.buffer ++ rest) = recordsOf s.limit s.buffer ∧
      ¬ (linesOf (s.buffer ++ rest)).all (isShort s.limit) = true)
    (tells : Tells c c' (recordsOf s.limit s.buffer)) : Forwarded p s c (.ok (.done .null)) c'

/-- A line is forwarded, and then what follows it. -/
theorem Forwarded.after_line {body rest : Octets} {r : Except Fault Next} (split : s.buffer = body ++ newline :: rest)
    (plain : newline ∉ body) (short : body.length ≤ s.limit) (tells : Tells c c' (recordOf? (body ++ [newline])).toList)
    (h : Forwarded p { s with buffer := rest } c' r c'') : Forwarded p s c r c'' := by
  have one : ∀ line ∈ [body ++ [newline]], IsDone s.limit line := fun line hl =>
    ⟨body, List.mem_singleton.1 hl, plain, short⟩
  have first : ∀ more, recordsOf s.limit (s.buffer ++ more) =
      (recordOf? (body ++ [newline])).toList ++ recordsOf s.limit (rest ++ more) ∧
        linesOf (s.buffer ++ more) = (body ++ [newline]) :: linesOf (rest ++ more) := fun more => by
    have same : s.buffer ++ more = [body ++ [newline]].flatten ++ (rest ++ more) := by
      rw [split]
      simp
    refine ⟨?_, by rw [same, linesOf_done one]; rfl⟩
    rw [same, recordsOf_done one, filterMap_recordOf?_cons, List.filterMap_nil, List.append_nil]
  cases h with
  | waits done rest' split' lines plain' short' more pipe tells' =>
    refine .waits ((body ++ [newline]) :: done) rest' ?_ (List.forall_mem_cons.2 ⟨one _ (List.mem_cons_self ..), lines⟩)
      plain' short' more pipe ?_
    · have split' : rest = done.flatten ++ rest' := split'
      rw [split, split', List.flatten_cons, List.append_assoc, List.append_assoc]
      rfl
    · rw [filterMap_recordOf?_cons]
      exact tells.trans tells'
  | stops finished tells' =>
    have whole := first []
    rw [List.append_nil, List.append_nil] at whole
    refine .stops (finished.imp_right fun long more => ?_) (whole.1 ▸ tells.trans tells')
    obtain ⟨same, long⟩ := long more
    refine ⟨by rw [(first more).1, whole.1]; exact congrArg _ same, ?_⟩
    rw [(first more).2, List.all_cons]
    exact fun h => long (Bool.and_eq_true_iff.1 h).2

theorem does_pipe {x : Pipe} (h : c.pipes[p]? = some x) : does E (pipe p) c = (.ok x, c) := by
  show ((.ok (c.pipes[p]?.getD default) : Except Fault Pipe), c) = _
  rw [h]
  rfl

/-- A pipe is changed, and nothing is said. -/
theorem does_onPipe {x : Pipe} (h : c.pipes[p]? = some x) (f : Pipe → Pipe) :
    ∃ c', does E (onPipe p f) c = (.ok (), c') ∧ c'.pipes[p]? = some (f x) ∧ Tells c c' [] :=
  ⟨{ c with pipes := c.pipes.modify p f }, rfl, by simp [Array.getElem?_modify, h], .of_notes rfl⟩

/-- More octets are waited for. -/
theorem does_awaitOctets (pipe : c.pipes[p]? = some ⟨s, none⟩) (k : Activity) :
    ∃ waiter c', does E (awaitOctets p "readuntil" k) c = (.ok (.await waiter k), c') ∧
      c'.pipes[p]? = some ⟨s, some waiter⟩ ∧ Tells c c' [] := by
  unfold awaitOctets
  rw [does_bind_of_ok (does_pipe pipe)]
  exact ⟨c.loop.promises.size, _, rfl, by simp [Array.getElem?_modify, pipe], .of_notes rfl⟩

/-- A turn of forwarding. The induction is on the fuel, which lasts as every line takes at least one octet. -/
theorem does_drainLines (fuel : Nat) {c : Client} {s : Stream} (pipe : c.pipes[p]? = some ⟨s, none⟩)
    (calm : s.fault = none) (enough : s.buffer.length + 2 ≤ fuel) :
    ∃ r c', does E (drainLines fuel p) c = (r, c') ∧ Forwarded p s c r c' := by
  induction fuel generalizing c s with
  | zero => omega
  | succ fuel ih =>
    unfold drainLines
    rw [does_bind_of_ok (does_pipe pipe)]
    dsimp only
    have start : s.buffer = [].flatten ++ s.buffer := rfl
    rcases offsetOf?_newline s.buffer with ⟨body, rest, split, plain, found⟩ | ⟨plain, none⟩
    · by_cases long : s.limit < body.length
      · -- The line is complete, but too long.
        have taken : s.takeLine? [0x0a] = some (.overrun, s) := by
          unfold Stream.takeLine?
          rw [show Stream.offsetOf? [0x0a] s.buffer = some body.length from found]
          simp [long]
        rw [taken]
        obtain ⟨c₁, h₁, -, tells₁⟩ := does_onPipe (E := E) pipe fun x => { x with stream := x.stream.dropLine [0x0a] }
        obtain ⟨c₂, h₂, -, tells₂⟩ := tells_drainFailed (E := E) c₁
        refine ⟨_, c₂, (does_bind_of_ok h₁ _).trans h₂, ?_⟩
        have ends : ∀ more, recordsOf s.limit (s.buffer ++ more) = [stopped] ∧
            ¬ (linesOf (s.buffer ++ more)).all (isShort s.limit) = true := fun more => by
          rw [split, List.append_assoc]
          exact recordsOf_long plain long _
        have whole := (ends []).1
        rw [List.append_nil] at whole
        refine .stops (.inr fun more => ⟨(ends more).1.trans whole.symm, (ends more).2⟩) ?_
        rw [whole]
        exact tells₁.trans tells₂
      · have taken : s.takeLine? [0x0a] = some (.line (body ++ [newline]), { s with buffer := rest }) := by
          have cut : s.buffer = (body ++ [newline]) ++ rest := by rw [split]; simp
          have length : body.length + 1 = (body ++ [newline]).length := by simp
          unfold Stream.takeLine?
          rw [show Stream.offsetOf? [0x0a] s.buffer = some body.length from found]
          dsimp only
          rw [if_neg long, List.length_singleton, length, cut, List.take_left, List.drop_left]
        rw [taken]
        dsimp only
        obtain ⟨c₁, h₁, pipe₁, tells₁⟩ :=
          does_onPipe (E := E) pipe fun x => { x with stream := { s with buffer := rest } }
        obtain ⟨c₂, h₂, same₂, tells₂⟩ := tells_logErrorLine (E := E) (body ++ [newline]) c₁
        rw [does_bind_of_ok h₁, does_bind_of_ok h₂, calm]
        have fewer : rest.length + 2 ≤ fuel := by
          rw [split, List.length_append, List.length_cons] at enough
          omega
        obtain ⟨r, c₃, h₃, forwarded⟩ :=
          ih (c := c₂) (s := { s with buffer := rest }) (by rw [same₂]; exact pipe₁) calm fewer
        exact ⟨r, c₃, h₃, forwarded.after_line split plain (Nat.le_of_not_lt long) (tells₁.trans tells₂)⟩
    · by_cases long : s.limit < s.buffer.length
      · -- The line is not complete, and too long already.
        have taken : s.takeLine? [0x0a] = some (.overrun, s) := by
          unfold Stream.takeLine?
          rw [show Stream.offsetOf? [0x0a] s.buffer = Option.none from none]
          have some : 1 ≤ s.buffer.length := by omega
          simp [long, some]
        rw [taken]
        obtain ⟨c₁, h₁, -, tells₁⟩ := does_onPipe (E := E) pipe fun x => { x with stream := x.stream.dropLine [0x0a] }
        obtain ⟨c₂, h₂, -, tells₂⟩ := tells_drainFailed (E := E) c₁
        refine ⟨_, c₂, (does_bind_of_ok h₁ _).trans h₂, ?_⟩
        have ends := recordsOf_long plain long
        have whole := (ends []).1
        rw [List.append_nil] at whole
        refine .stops (.inr fun more => ⟨(ends more).1.trans whole.symm, (ends more).2⟩) ?_
        rw [whole]
        exact tells₁.trans tells₂
      · have short : ∀ {x : Option (LineResult × Stream)},
            (if s.ended then some (LineResult.remainder s.buffer, { s with buffer := [] }) else Option.none) = x →
              s.takeLine? [0x0a] = x := fun h => by
          unfold Stream.takeLine?
          rw [show Stream.offsetOf? [0x0a] s.buffer = Option.none from none]
          simpa [long] using h
        cases ended : s.ended with
        | false =>
          rw [short (if_neg (by rw [ended]; exact Bool.false_ne_true))]
          obtain ⟨waiter, c₁, h₁, pipe₁, tells₁⟩ := does_awaitOctets (E := E) pipe (.drainMore p)
          exact ⟨_, c₁, h₁, .waits [] s.buffer start nofun plain (Nat.le_of_not_lt long) ended pipe₁ tells₁⟩
        | true =>
          rw [short (if_pos ended)]
          obtain ⟨c₁, h₁, pipe₁, tells₁⟩ :=
            does_onPipe (E := E) pipe fun x => { x with stream := { s with buffer := [] } }
          have finished : s.ended = true ∨ ∀ rest, recordsOf s.limit (s.buffer ++ rest) = recordsOf s.limit s.buffer ∧
              ¬ (linesOf (s.buffer ++ rest)).all (isShort s.limit) = true := .inl ended
          by_cases nothing : s.buffer = []
          · have ends : s.buffer.isEmpty = true := List.isEmpty_iff.2 nothing
            refine ⟨_, c₁, (does_bind_of_ok h₁ _).trans ?_, .stops finished ?_⟩
            · rw [ends]
              rfl
            · rw [nothing, recordsOf_nil]
              exact tells₁
          · obtain ⟨c₂, h₂, same₂, tells₂⟩ := tells_logErrorLine (E := E) s.buffer c₁
            have fewer : ([] : Octets).length + 2 ≤ fuel := by
              have := List.length_pos_iff.2 nothing
              simp only [List.length_nil]
              omega
            obtain ⟨r, c₃, h₃, forwarded⟩ :=
              ih (c := c₂) (s := { s with buffer := [] }) (by rw [same₂]; exact pipe₁) calm fewer
            have continues : s.buffer.isEmpty = false := List.isEmpty_eq_false_iff.2 nothing
            refine ⟨r, c₃, ?_, ?_⟩
            · rw [does_bind_of_ok h₁]
              simp only [continues]
              exact (does_bind_of_ok h₂ _).trans h₃
            · cases forwarded with
              | waits _ _ _ _ _ _ more => exact absurd (ended.symm.trans more) nofun
              | stops _ tells₃ =>
                refine .stops finished ?_
                rw [recordsOf_plain plain nothing (Nat.le_of_not_lt long),
                  ← List.append_nil (recordOf? s.buffer).toList, ← recordsOf_nil s.limit]
                exact (tells₁.trans tells₂).trans tells₃

/-! ## Turns -/

theorem Forwarded.after {r : Except Fault Next} (tells : Tells c c' []) (h : Forwarded p s c' r c'') :
    Forwarded p s c r c'' := by
  cases h with
  | waits done rest split lines plain short more pipe tells' =>
    exact .waits done rest split lines plain short more pipe (tells.trans tells')
  | stops finished tells' => exact .stops finished (tells.trans tells')

/-- The task goes on, and takes all that has arrived. -/
theorem does_goOn_drain {next : Option Activity} {a : Activity} (kind : a = .drain p ∨ a = .drainMore p)
    (here : next = some a) (feeds : Feeds p s next c) (calm : s.fault = none) (v : Value) :
    ∃ r c', does E (goOn a (.ok v)) c = (r, c') ∧ Forwarded p s c r c' := by
  obtain ⟨waiter, pipe, alone⟩ := feeds
  rcases kind with rfl | rfl
  · cases alone here
    obtain ⟨r, c', h, forwarded⟩ := does_drainLines (E := E) _ pipe calm (Nat.le_refl _)
    refine ⟨r, c', ?_, forwarded⟩
    show does E (drain p) c = (r, c')
    unfold drain
    rw [does_bind_of_ok (does_pipe pipe)]
    dsimp only
    rw [calm]
    exact h
  · obtain ⟨c₁, h₁, pipe₁, tells₁⟩ := does_onPipe (E := E) pipe fun x => { x with waiter := none }
    obtain ⟨r, c', h, forwarded⟩ := does_drainLines (E := E) _ pipe₁ calm (Nat.le_refl _)
    refine ⟨r, c', ?_, forwarded.after tells₁⟩
    show does E (drainMore p (.ok v)) c = (r, c')
    unfold drainMore stopWaiting
    rw [does_bind_of_ok h₁]
    exact (does_bind_of_ok (does_pipe pipe₁) _).trans h

/-! ## Runs -/

/-- A state of forwarding: the lines that are complete have been logged, and the rest is still in the pipe; or
forwarding has stopped. -/
inductive Fits (p : PipeId) (limit : Nat) (x : State) : Prop
  | goes {a : Activity} (done : List Octets) (rest : Octets) (kind : a = .drain p ∨ a = .drainMore p)
    (next : x.next = some a) (feeds : Feeds p { buffer := rest, ended := x.ended, limit } x.next x.client)
    (split : x.arrived = done.flatten ++ rest) (lines : ∀ line ∈ done, IsDone limit line)
    (logged : x.logged = done.filterMap recordOf?)
  | finished (next : x.next = none) (logged : x.logged = recordsOf limit x.arrived)
    (finished : x.ended = true ∨ ∀ rest, recordsOf limit (x.arrived ++ rest) = recordsOf limit x.arrived ∧
      ¬ (linesOf (x.arrived ++ rest)).all (isShort limit) = true)

variable {x y z : State}

theorem State.IsNew.fits (h : x.IsNew p limit) : Fits p limit x := by
  obtain ⟨arrived, ended, logged⟩ := h.state
  exact .goes [] [] (.inl rfl) h.next ⟨none, by rw [ended]; exact h.pipe, fun _ => rfl⟩ arrived nofun logged

/-- Octets arrive. -/
theorem Fits.arrive (h : Fits p limit x) {s : Stream} {last : Bool} {c : Client} (feeds : Feeds p s x.next x.client)
    (more : x.ended = true → octets = [] ∧ last = false)
    (fed : Feeds p { s with buffer := s.buffer ++ octets, ended := s.ended || last } x.next c) :
    Fits p limit { x with client := c, arrived := x.arrived ++ octets, ended := x.ended || last } := by
  cases h with
  | goes done rest kind next feeds' split lines logged =>
    obtain ⟨waiter, pipe, _⟩ := feeds
    obtain ⟨waiter', pipe', _⟩ := feeds'
    cases pipe.symm.trans pipe'
    exact .goes done (rest ++ octets) kind next fed (by rw [split, List.append_assoc]) lines logged
  | finished next logged finished =>
    rcases finished with ended | long
    · obtain ⟨rfl, rfl⟩ := more ended
      exact .finished next (by simpa using logged) (.inl (by simp [ended]))
    · have same := (long octets).1
      refine .finished next (logged.trans same.symm) (.inr fun rest => ?_)
      dsimp only
      rw [List.append_assoc, same]
      exact long _

/-- The task takes a turn: it waits for more, unless the stream has ended or one of its lines is too long. -/
theorem Fits.turn (h : Fits p limit x) {a : Activity} (here : x.next = some a) (v : Value) :
    Fits p limit { x with
        client := (does E (goOn a (.ok v)) x.client).2
        logged := x.logged ++ saidSince x.client (does E (goOn a (.ok v)) x.client).2
        next := goesOnAt (does E (goOn a (.ok v)) x.client).1 } ∧
      (goesOnAt (does E (goOn a (.ok v)) x.client).1 = none ↔
        x.ended = true ∨ ¬ (linesOf x.arrived).all (isShort limit) = true) := by
  cases h with
  | finished next => exact absurd (here.symm.trans next) nofun
  | goes done rest kind next feeds split lines logged =>
    cases here.symm.trans next
    obtain ⟨r, c', hx, forwarded⟩ := does_goOn_drain (E := E) kind next feeds rfl v
    rw [hx]
    have all : done.all (isShort limit) = true := List.all_eq_true.2 fun line hl => isShort_of_isDone (lines line hl)
    cases forwarded with
    | waits done' rest' split' lines' plain short more pipe tells =>
      have split' : rest = done'.flatten ++ rest' := split'
      have lines' : ∀ line ∈ done ++ done', IsDone limit line := fun line hl =>
        (List.mem_append.1 hl).elim (lines line) (lines' line)
      have whole : x.arrived = (done ++ done').flatten ++ rest' := by
        rw [split, split', List.flatten_append, List.append_assoc]
      refine ⟨.goes (done ++ done') rest' (.inr rfl) rfl ⟨_, pipe, nofun⟩ whole lines' ?_, nofun, fun finished => ?_⟩
      · show x.logged ++ saidSince x.client c' = _
        rw [logged, tells.saidSince, List.filterMap_append]
      · rcases finished with ended | long
        · exact absurd (ended.symm.trans more) nofun
        · refine absurd ?_ long
          have all' : (done ++ done').all (isShort limit) = true :=
            List.all_eq_true.2 fun line hl => isShort_of_isDone (lines' line hl)
          have last : (linesOf rest').all (isShort limit) = true := by
            rw [linesOf_plain plain]
            split
            · rfl
            · simpa [isShort] using Nat.le_trans (List.takeWhile_sublist _).length_le short
          rw [whole, linesOf_done lines', List.all_append, all', last]
          rfl
    | stops finished tells =>
      have records : ∀ more, recordsOf limit (x.arrived ++ more) = done.filterMap recordOf? ++
        recordsOf limit (rest ++ more) ∧
          ((linesOf (x.arrived ++ more)).all (isShort limit) =
          (linesOf (rest ++ more)).all (isShort limit)) := fun more => by
        rw [split, List.append_assoc, recordsOf_done lines, linesOf_done lines, List.all_append, all]
        exact ⟨rfl, rfl⟩
      have now := records []
      rw [List.append_nil, List.append_nil] at now
      have long : x.ended = true ∨ ∀ more, recordsOf limit (x.arrived ++ more) = recordsOf limit x.arrived ∧
          ¬ (linesOf (x.arrived ++ more)).all (isShort limit) = true := finished.imp_right fun long more => by
        rw [(records more).1, (records more).2, now.1]
        exact ⟨congrArg _ (long more).1, (long more).2⟩
      refine ⟨.finished rfl ?_ long, fun _ => long.imp_right fun h => ?_, fun _ => rfl⟩
      · show x.logged ++ saidSince x.client c' = _
        rw [logged, tells.saidSince, now.1]
      · have here := (h []).2
        rwa [List.append_nil] at here

theorem Run.fits (run : Run E p x y) (h : Fits p limit x) : Fits p limit y := by
  induction run with
  | refl => exact h
  | step _ next ih =>
    cases next with
    | arrive octets last feeds more fed => exact ih.arrive feeds more fed
    | turn v here => exact (ih.turn here v).1

/-- However an error stream arrives, one record is logged for each line that is not blank, in order, up to the first
line that is too long, and then one that says that forwarding stops. Each turn takes all that has arrived; the task
waits for more until the stream has ended or a line was too long. -/
theorem forwards_lines (new : x.IsNew p limit) (run : Run E p x y) :
    (y.next = none → y.logged = recordsOf limit y.arrived ∧
      (y.ended = true ∨ ¬ (linesOf y.arrived).all (isShort limit) = true)) ∧
    ∀ {a v}, y.next = some a →
      (goesOnAt (does E (goOn a (.ok v)) y.client).1 = none ↔
        y.ended = true ∨ ¬ (linesOf y.arrived).all (isShort limit) = true) := by
  have fits := run.fits new.fits
  refine ⟨fun stopped => ?_, fun here => (fits.turn here _).2⟩
  cases fits with
  | goes _ _ _ next => exact absurd (stopped.symm.trans next) nofun
  | finished _ logged finished =>
    refine ⟨logged, finished.imp_right fun h => ?_⟩
    have here := (h []).2
    rwa [List.append_nil] at here

/-- The lines after one that is too long are not logged. -/
example : recordsOf 8 (Text.encode "short\nmuch too long\nagain\n") = [(.info, "short"), stopped] := by
  decide +kernel

end ErrorLines

end LspClient
