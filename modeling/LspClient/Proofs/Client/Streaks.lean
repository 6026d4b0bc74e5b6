/-
Failures of a session in a row. Each is counted by one activity. If the policy lets it, and nobody waits for the session
to start, one new task is going to start the session again after the delay that the policy says; once there are more
failures in a row than the policy allows, no task is. A session that begins to run forgets its failures.
-/
import LspClient.Proofs.Client.Runs

namespace LspClient

open Client
open Activity (IsRoot)

/-! ## Definitions -/

/-- What happens to a session that its failures are about: it fails, and some task may be going to start it again after
a delay, or it begins to run. -/
inductive News
  | failed (restart : Option (PromiseId × Number))
  | runs

namespace News

/-- The task that is going to start the session again, and after which delay. -/
def restart? : News → Option (PromiseId × Number)
  | failed restart => restart
  | runs => none

/-- A policy that has heard the news. -/
def tell (p : RestartPolicy) : News → RestartPolicy
  | failed _ => p.countFailure
  | runs => p.reset

/-- A policy that has heard all news, the oldest first. -/
def tellAll (p : RestartPolicy) (log : List News) : RestartPolicy :=
  log.foldl tell p

/-- The tasks that are going to start the session again, the oldest first. -/
def restarters (log : List News) : List PromiseId :=
  (log.filterMap restart?).map (·.1)

/-- Every restart that is told is one that the policy allows after as many failures in a row, and it waits for as long
as the policy says. -/
def Obeys (p : RestartPolicy) : List News → Prop
  | [] => True
  | news :: log => (∀ task delay, news.restart? = some (task, delay) → (tell p news).exhausted = false ∧
      (tell p news).backoffFor (tell p news).failures = .ok delay) ∧ Obeys (tell p news) log

end News

namespace Moment

/-- The tasks that begin in a step and are going to start a session again: one, or none. -/
structure Restarts (s : SessionId) (restart : Option (PromiseId × Number)) (m m' : Moment) : Prop where
  new : ∀ x, restart = some x → m.client.loop.promises.size ≤ x.1
  only : ∀ q delay, m.client.loop.promises.size ≤ q → (m'.stack q = [.restart s delay] ↔ restart = some (q, delay))

/-- A failure of a session is counted in a step. If the policy lets the session be started again, a task is going to,
unless what counts the failure fails itself: an attempt of a user to start the session does. -/
structure Fails (E : Executor) (s : SessionId) (restart : Option (PromiseId × Number)) (m m' : Moment) : Prop where
  policy : (m'.client.sessionAt s).policy = (m.client.sessionAt s).policy.countFailure
  restarts : m.Restarts s restart m'
  again : ∀ task delay, restart = some (task, delay) → ∃ d : FailureDecision,
    (m.client.sessionAt s).policy.countFailure.decide = .ok d ∧ d.restart = true ∧ d.delay = delay ∧
      (m'.client.sessionAt s).restarting = some task ∧ (m'.client.sessionAt s).failureNotified = true
  left : restart = none → (m.client.sessionAt s).policy.countFailure.exhausted = true ∨
    ∃ p a rest o f c, m.turn = some ⟨p, a :: rest, o⟩ ∧ a.counts = some s ∧ does E (goOn a o) m.client = (.error f, c)

/-- What a step tells of the failures of a session. -/
inductive Tells (E : Executor) (s : SessionId) (m m' : Moment) : List News → Prop
  | nothing (same : (m'.client.sessionAt s).streak = (m.client.sessionAt s).streak) (quiet : m.Restarts s none m') :
    Tells E s m m' []
  | failed {restart : Option (PromiseId × Number)} (fails : m.Fails E s restart m') : Tells E s m m' [.failed restart]
  | runs (runs : (m.client.sessionAt s).Runs (m'.client.sessionAt s)) (quiet : m.Restarts s none m') :
    Tells E s m m' [.runs]

/-- A run, with what it tells of the failures of a session, the oldest first. -/
inductive Chronicle (E : Executor) (P : Moment → Prop) (s : SessionId) (m : Moment) :
    List LspClient.Step → List News → Moment → Prop
  | refl : Chronicle E P s m [] [] m
  | step {done acts : List LspClient.Step} {log news : List News} {m' m'' : Moment}
    (chronicle : Chronicle E P s m done log m') (here : P m') (next : Step E acts m' m'')
    (tells : m'.Tells E s m'' news) :
    Chronicle E P s m (done ++ acts) (log ++ news) m''

end Moment

/-! ## What policies allow -/

/-- What a policy decides on: whether there is a restart, and when, follows from the number of failures in a row. -/
theorem RestartPolicy.decide_eq_ok {p : RestartPolicy} {d : FailureDecision} (h : p.decide = .ok d) :
    d.attempt = p.failures ∧ d.restart = !p.exhausted ∧ (d.restart = true → p.backoffFor p.failures = .ok d.delay) := by
  unfold RestartPolicy.decide at h
  split at h
  · next spent =>
    cases h
    exact ⟨rfl, by rw [spent]; rfl, nofun⟩
  · next more =>
    cases hd : p.backoffFor p.failures with
    | error f =>
      rw [hd] at h
      cases h
    | ok delay =>
      rw [hd] at h
      cases h
      exact ⟨rfl, by simp [more], fun _ => rfl⟩

namespace News

variable {p : RestartPolicy} {log log' : List News}

theorem tellAll_append (p : RestartPolicy) (log log' : List News) :
    tellAll p (log ++ log') = tellAll (tellAll p log) log' :=
  List.foldl_append

theorem restarters_append (log log' : List News) : restarters (log ++ log') = restarters log ++ restarters log' := by
  unfold restarters
  rw [List.filterMap_append, List.map_append]

theorem settings_tell (p : RestartPolicy) (news : News) : (tell p news).settings = p.settings := by
  cases news <;> rfl

theorem settings_tellAll (p : RestartPolicy) (log : List News) : (tellAll p log).settings = p.settings := by
  induction log generalizing p with
  | nil => rfl
  | cons news log ih => exact (ih (tell p news)).trans (settings_tell p news)

theorem obeys_append : Obeys p (log ++ log') ↔ Obeys p log ∧ Obeys (tellAll p log) log' := by
  induction log generalizing p with
  | nil => exact ⟨fun h => ⟨trivial, h⟩, And.right⟩
  | cons news log ih =>
    rw [List.cons_append, Obeys, Obeys, ih, and_assoc]
    rfl

theorem failures_le_of_exhausted {n : Nat} (threshold : p.settings.maxConsecutiveFailures = .int n)
    (more : p.exhausted = false) :
    p.failures ≤ n := by
  unfold RestartPolicy.exhausted RestartPolicy.threshold at more
  rw [threshold] at more
  refine Nat.le_of_not_lt fun spent => ?_
  have less : compare (n : Int) (p.failures : Int) = .lt := by
    rw [Int.compare_eq_lt]
    exact_mod_cast spent
  simp [Number.lt, Number.compare?, less] at more

/-- Between two times that a session begins to run, it is started again no more often than the policy allows. -/
theorem Obeys.restarts_le (h : Obeys p log) (streak : .runs ∉ log) {n : Nat}
    (threshold : p.settings.maxConsecutiveFailures = .int n) : (restarters log).length ≤ n - p.failures := by
  unfold restarters
  rw [List.length_map]
  induction log generalizing p with
  | nil => exact Nat.zero_le _
  | cons news log ih =>
    obtain ⟨allowed, later⟩ := h
    have rest := ih later (fun hr => streak (List.mem_cons_of_mem _ hr)) (by rw [settings_tell]; exact threshold)
    cases news with
    | runs => exact absurd (List.mem_cons_self ..) streak
    | failed restart =>
      have counted : (tell p (.failed restart)).failures = p.failures + 1 := rfl
      rw [counted] at rest
      cases restart with
      | none =>
        rw [List.filterMap_cons_none rfl]
        omega
      | some x =>
        -- The policy still allows this one.
        have more := failures_le_of_exhausted (p := tell p (.failed (some x))) threshold (allowed x.1 x.2 rfl).1
        rw [counted] at more
        have one : ((News.failed (some x) :: log).filterMap restart?).length = (log.filterMap restart?).length + 1 :=
          rfl
        omega

end News

namespace Moment

variable {E : Executor} {P : Moment → Prop} {s : SessionId} {m m' : Moment} {p : PromiseId} {a : Activity}
  {rest : List Activity} {o : Outcome} {r : Except Fault Next} {c : Client} {acts : List LspClient.Step}
  {log : List News}

/-! ## Steps -/

theorem Sound.stack_of_size_le (sound : m.Sound) {q : PromiseId} (new : m.client.loop.promises.size ≤ q) :
    m.stack q = [] := by
  refine List.eq_nil_iff_forall_not_mem.2 fun b hb => ?_
  exact absurd (sound.unfinished hb).1 (Nat.not_lt_of_le new)

theorem not_isRoot_restart (delay : Number) : ¬ IsRoot (.restart s delay) := by
  rintro ⟨_, plain⟩
  cases plain

/-- New tasks that begin with certain activities do not start a session again. -/
theorem restarts_none {A : Activity → Prop}
    (tasks : ∀ q, m.client.loop.promises.size ≤ q → m'.stack q = [] ∨ ∃ b, A b ∧ m'.stack q = [b])
    (other : ∀ delay, ¬ A (.restart s delay)) : m.Restarts s none m' := by
  refine ⟨nofun, fun q delay new => ⟨fun begins => ?_, nofun⟩⟩
  rcases tasks q new with nothing | ⟨b, hb, only⟩
  · rw [begins] at nothing
    cases nothing
  · rw [begins] at only
    cases only
    exact absurd hb (other delay)

/-- A task that is new after an activity has gone on is one that the activity lets begin, or begins while the task of
the activity is put down. -/
theorem Proceeds.new_stack (hp : m.Proceeds m' p a rest o r c) (sound : m.Sound) {q : PromiseId}
    (new : m.client.loop.promises.size ≤ q) :
    m'.stack q = c.loop.stackOf q ∨ c.loop.stackOf q = [] ∧ ∃ b, IsRoot b ∧ m'.stack q = [b] := by
  have other : q ≠ p := by
    rintro rfl
    exact absurd (sound.unfinished hp.mem_before).1 (Nat.not_lt_of_le new)
  exact (hp.tasks q other).imp_right fun ⟨later, begins⟩ => ⟨Loop.stackOf_of_size_le later, begins⟩

/-- The loop has new tasks that begin with certain activities. -/
theorem stackOf_of_moves {A : Activity → Prop} {l l' : Loop Activity Event} (moves : l.Moves A none l') {q : PromiseId}
    (new : l.promises.size ≤ q) : l'.stackOf q = [] ∨ ∃ b, A b ∧ l'.stackOf q = [b] := by
  rcases moves.stackOf (p := q) (by simp) with old | ⟨_, begins⟩
  · exact .inl (old.trans (Loop.stackOf_of_size_le new))
  · exact .inr begins

/-- What new tasks begin with in a step in which an activity goes on. -/
theorem Proceeds.restarts_none {A : Activity → Prop} (hp : m.Proceeds m' p a rest o r c) (sound : m.Sound)
    (moves : m.client.loop.Moves A none c.loop) (other : ∀ delay, ¬ A (.restart s delay)) : m.Restarts s none m' := by
  refine Moment.restarts_none (A := fun b => A b ∨ IsRoot b) (fun q new => ?_) fun delay begins =>
    begins.elim (other delay) (not_isRoot_restart delay)
  rcases hp.new_stack sound new with same | ⟨_, b, root, only⟩
  · rw [same]
    exact (stackOf_of_moves moves new).imp_right fun ⟨b, hb, only⟩ => ⟨b, .inl hb, only⟩
  · exact .inr ⟨b, .inr root, only⟩

/-- A failure that is counted, after which no task starts the session again. -/
theorem Proceeds.fails_alone (hp : m.Proceeds m' p a rest o r c) (sound : m.Sound) (inside : s < m.client.sessions.size)
    (counts : m.client.Counts IsRoot s c) (fails : a.counts = some s)
    (left : (m.client.sessionAt s).policy.countFailure.exhausted = true ∨
      ∃ f, does E (goOn a o) m.client = (.error f, c)) :
    m.Fails E s none m' := by
  refine ⟨?_, hp.restarts_none sound counts.loop not_isRoot_restart, nofun, fun _ => ?_⟩
  · rw [hp.sessions]
    exact counts.policy inside
  · exact left.imp_right fun ⟨f, failed⟩ => ⟨p, a, rest, o, f, c, hp.turn, fails, failed⟩

/-- A failure that is counted, after which a new task is going to start the session again. -/
theorem Proceeds.fails_again (hp : m.Proceeds m' p a rest o r c) (sound : m.Sound) (inside : s < m.client.sessions.size)
    {d : FailureDecision} (decided : (m.client.sessionAt s).policy.countFailure.decide = .ok d)
    (again : d.restart = true) (schedules : m.client.Schedules s d.delay c) :
    ∃ task, m.Fails E s (some (task, d.delay)) m' := by
  obtain ⟨c₁, counts, sound₁, told, rfl⟩ := schedules
  have known : ((c₁.restarted s d.delay).sessionAt s).streak = (c₁.sessionAt s).streak :=
    ((still_restarted (A := fun _ => True) sound₁ trivial).1.stays s).streak
  refine ⟨c₁.loop.promises.size, ?_, ⟨?_, ?_⟩, ?_, nofun⟩
  · rw [hp.sessions]
    exact (congrArg Prod.fst known).trans (counts.policy inside)
  · rintro x ⟨⟩
    exact counts.loop.size
  · intro q delay new
    have stack := stackOf_restarted c₁ s d.delay q
    by_cases hq : q = c₁.loop.promises.size
    · rw [if_pos hq] at stack
      rcases hp.new_stack sound new with same | ⟨nothing, _⟩
      · rw [same, stack, hq]
        simp
      · rw [stack] at nothing
        cases nothing
    · -- All other new tasks begin with what concerns no session.
      have plain : m'.stack q = [] ∨ ∃ b, IsRoot b ∧ m'.stack q = [b] := by
        rcases hp.new_stack sound new with same | ⟨_, begins⟩
        · rw [same, stack, if_neg hq]
          exact stackOf_of_moves counts.loop new
        · exact .inr begins
      refine ⟨fun begins => ?_, fun same => ?_⟩
      · rcases plain with nothing | ⟨b, root, only⟩
        · rw [begins] at nothing
          cases nothing
        · rw [begins] at only
          cases only
          exact absurd root (not_isRoot_restart delay)
      · cases same
        exact absurd rfl hq
  · rintro task delay ⟨⟩
    refine ⟨d, decided, again, rfl, ?_, ?_⟩
    · rw [hp.sessions]
      exact restarting_restarted (by rw [counts.count]; exact inside) d.delay
    · rw [hp.sessions, ← told inside]
      exact congrArg Prod.snd known

/-- A step in which a failure of a session is counted. -/
theorem Proceeds.counts_failure (hp : m.Proceeds m' p a rest o r c) (sound : m.Sound)
    (hx : does E (goOn a o) m.client = (r, c)) (inside : s < m.client.sessions.size) (fails : a.counts = some s)
    (counted : m.client.Counted a s c) (decides : ∀ next, r = .ok next → m.client.Decides s true c) :
    ∃ restart, m.Fails E s restart m' := by
  cases counted with
  | again begins schedules =>
    -- What lets the task begin says what was decided.
    obtain ⟨_, _, d, same, decision⟩ := begins.of_stirs rfl
    cases same
    obtain ⟨decided, again⟩ := decision inside
    obtain ⟨task, fails⟩ := hp.fails_again sound inside decided again schedules
    exact ⟨_, fails⟩
  | alone counts =>
    cases r with
    | error f => exact ⟨none, hp.fails_alone sound inside counts fails (.inr ⟨f, hx⟩)⟩
    | ok next =>
      obtain ⟨d, decided, schedules⟩ := decides next rfl inside
      cases again : d.restart with
      | true =>
        obtain ⟨task, fails⟩ := hp.fails_again sound inside decided again (schedules again rfl)
        exact ⟨_, fails⟩
      | false =>
        -- Only a policy that is exhausted decides on no restart.
        have spent := (RestartPolicy.decide_eq_ok decided).2.1
        rw [again] at spent
        exact ⟨none, hp.fails_alone sound inside counts fails (.inl (by simpa using spent.symm))⟩

/-- What a step tells of the failures of a session. -/
theorem Step.tells (hE : E.IsTame) (sound : m.Sound) (inside : s < m.client.sessions.size) (next : Step E acts m m') :
    ∃ news, m.Tells E s m' news := by
  obtain ⟨_, _, passes | ⟨p, a, rest, o, r, c, hx, hp⟩⟩ := next.spec hE sound
  · refine ⟨[], .nothing (passes.stays s).streak (restarts_none (A := IsRoot) (fun q new => ?_) not_isRoot_restart)⟩
    rcases passes.tasks q with same | ⟨_, begins⟩
    · rw [same]
      exact .inl (sound.stack_of_size_le new)
    · exact .inr begins
  · have quiet : m.client.loop.Moves IsRoot none c.loop → m.Restarts s none m' :=
      fun moves => hp.restarts_none sound moves not_isRoot_restart
    have nothing : (c.sessionAt s).streak = (m.client.sessionAt s).streak → m.Restarts s none m' →
        ∃ news, m.Tells E s m' news :=
      fun same quiet => ⟨[], .nothing (by rw [hp.sessions, same]) quiet⟩
    cases alters_of_proceeds hp.proceeds with
    | still still =>
      refine nothing (still.stays s).streak (hp.restarts_none sound still.loop ?_)
      rintro delay ⟨_, calm⟩
      cases calm
    | @enters x target leads enters runs =>
      by_cases hs : s = x
      · cases hs
        by_cases running : target = .running
        · refine ⟨[.runs], .runs ?_ (quiet enters.loop)⟩
          rw [hp.sessions]
          exact runs running
        · exact nothing (enters.session.streak running) (quiet enters.loop)
      · exact nothing (enters.others s hs).streak (quiet enters.loop)
    | @counts x fails counted decides =>
      by_cases hs : s = x
      · cases hs
        obtain ⟨restart, fails⟩ := hp.counts_failure sound hx inside fails counted decides
        exact ⟨_, .failed fails⟩
      · -- Another session is going to be started again, at most.
        refine nothing (counted.counts.others s hs).streak
          (hp.restarts_none sound counted.counts.loop fun delay begins => hs ?_)
        obtain ⟨mine, _⟩ := begins.of_stirs rfl
        exact Option.some.inj (mine.symm.trans fails)
    | @reconnects x same changed =>
      by_cases hs : s = x
      · cases hs
        exact nothing same.session.2 (quiet same.loop)
      · exact nothing (same.others s hs).streak (quiet same.loop)
    | replies request ends writes => exact nothing (writes.stays s).streak (quiet writes.loop)

/-! ## Whole runs -/

theorem Chronicle.run (chronicle : Chronicle E P s m acts log m') : Run E P m acts m' := by
  induction chronicle with
  | refl => exact .refl
  | step _ here next _ ih => exact ih.step here next

/-- Every run tells of the failures of a session. -/
theorem Run.chronicle (hE : E.IsTame) (sound : m.Sound) (inside : s < m.client.sessions.size)
    (run : Run E P m acts m') :
    ∃ log, Chronicle E P s m acts log m' := by
  induction run with
  | refl => exact ⟨[], .refl⟩
  | step run here next ih =>
    obtain ⟨log, chronicle⟩ := ih
    obtain ⟨sound', after⟩ := run.spec hE sound
    obtain ⟨news, tells⟩ := next.tells hE sound' (by rw [after.count]; exact inside)
    exact ⟨log ++ news, chronicle.step here next tells⟩

/-- A session knows of the failures that are told. -/
theorem Chronicle.policy (chronicle : Chronicle E P s m acts log m') :
    (m'.client.sessionAt s).policy = News.tellAll (m.client.sessionAt s).policy log := by
  induction chronicle with
  | refl => rfl
  | step _ _ _ tells ih =>
    rw [News.tellAll_append, ← ih]
    cases tells with
    | nothing same _ => exact congrArg Prod.fst same
    | failed fails => exact fails.policy
    | runs runs _ => exact congrArg Prod.fst runs.2

/-- Every restart is one that the policy allows, with the delay that it says. -/
theorem Chronicle.obeys (chronicle : Chronicle E P s m acts log m') : News.Obeys (m.client.sessionAt s).policy log := by
  induction chronicle with
  | refl => trivial
  | step chronicle _ _ tells ih =>
    refine News.obeys_append.2 ⟨ih, ?_⟩
    -- The policy that decides in this step is the one that has heard all news so far.
    rw [← chronicle.policy]
    cases tells with
    | nothing => trivial
    | runs => exact ⟨nofun, trivial⟩
    | failed fails =>
      refine ⟨fun task delay restart => ?_, trivial⟩
      obtain ⟨d, decided, again, rfl, _⟩ := fails.again task delay restart
      obtain ⟨_, spent, known⟩ := RestartPolicy.decide_eq_ok decided
      rw [again] at spent
      exact ⟨by simpa [News.tell] using spent.symm, known again⟩

/-- The tasks that are going to start a session again are new, and no two restarts are by the same task. -/
theorem Chronicle.once (hE : E.IsTame) (sound : m.Sound) (chronicle : Chronicle E P s m acts log m') :
    (News.restarters log).Nodup ∧ ∀ task ∈ News.restarters log, task < m'.client.loop.promises.size := by
  induction chronicle with
  | refl => exact ⟨List.nodup_nil, nofun⟩
  | @step _ _ log news m' m'' chronicle _ next tells ih =>
    obtain ⟨once, known⟩ := ih
    obtain ⟨sound', after, _⟩ := next.spec hE (chronicle.run.spec hE sound).1
    have before : ∀ task ∈ News.restarters log, task < m''.client.loop.promises.size := fun task ht =>
      Nat.lt_of_lt_of_le (known task ht) after.size
    have alone : News.restarters news = [] → (News.restarters (log ++ news)).Nodup ∧
        ∀ task ∈ News.restarters (log ++ news), task < m''.client.loop.promises.size := by
      intro nothing
      rw [News.restarters_append, nothing, List.append_nil]
      exact ⟨once, before⟩
    cases tells with
    | nothing => exact alone rfl
    | runs => exact alone rfl
    | @failed restart fails =>
      cases restart with
      | none => exact alone rfl
      | some x =>
        have new := fails.restarts.new x rfl
        have begins := (fails.restarts.only x.1 x.2 new).2 rfl
        have inside := (sound'.unfinished (by rw [begins]; exact List.mem_cons_self ..)).1
        rw [News.restarters_append]
        -- The task is younger than all that were told before, and it is there now.
        refine ⟨List.nodup_append.2 ⟨once, by simp [News.restarters, News.restart?], ?_⟩, ?_⟩
        · rintro task old _ only rfl
          cases List.mem_singleton.1 only
          exact absurd (known _ old) (Nat.not_lt_of_le new)
        · intro task ht
          rcases List.mem_append.1 ht with old | only
          · exact before task old
          · cases List.mem_singleton.1 only
            exact inside

/-- Whatever is played to a new client, the failures of a session are told in such a way that the policy of the session
allows all restarts and waits for as long as it says before each, and that the session is started again no more often in
a row than the policy allows, unless a task goes on for too long. -/
theorem restarts_of_played {c : Client} (new : c.IsNew) (inside : s < c.sessions.size) {steps : List LspClient.Step}
    (h : ∀ step ∈ steps, IsPlayable step) :
    (∃ log,
      Chronicle (executor nesting) (fun _ => True) s ⟨c, none⟩ (steps.flatMap actsOf) log ⟨playedBy c steps, none⟩ ∧
      ((playedBy c steps).sessionAt s).policy = News.tellAll (c.sessionAt s).policy log ∧
      News.Obeys (c.sessionAt s).policy log ∧ (News.restarters log).Nodup ∧
      ∀ before streak after, log = before ++ streak ++ after → .runs ∉ streak → ∀ n : Nat,
        (c.sessionAt s).policy.settings.maxConsecutiveFailures = .int n → (News.restarters streak).length ≤ n) ∨
      Overlong (executor nesting) ⟨c, none⟩ (steps.flatMap actsOf) := by
  rcases leads_playedBy h c with run | overlong
  · left
    have hE := isTame_executor nesting
    have sound := sound_of_isNew new
    obtain ⟨log, chronicle⟩ := Run.chronicle hE sound inside run
    have obeys := chronicle.obeys
    refine ⟨log, chronicle, chronicle.policy, obeys, (chronicle.once hE sound).1, ?_⟩
    rintro before streak after rfl calm n threshold
    have part := (News.obeys_append.1 (News.obeys_append.1 obeys).1).2
    exact Nat.le_trans (part.restarts_le calm (by rw [News.settings_tellAll]; exact threshold)) (Nat.sub_le ..)
  · exact .inr overlong

end Moment

end LspClient
