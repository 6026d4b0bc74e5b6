/-
Restart policies over time. A policy counts the failures since its last reset, whatever it was told before that.
With settings in integers its delays are exact: they are multiplied from failure to failure until they reach the
longest delay, and there they stay.
-/
import LspClient.Proofs.Policy.Backoff
import Mathlib.Data.List.DropRight

namespace LspClient

/-! ## Numbers -/

theorem Number.min_int (a b : Int) : Number.min (.int a) (.int b) = .int (Min.min a b) := by
  unfold Number.min
  split
  case isTrue less =>
    have above : ¬ a ≤ b := by
      intro le
      rw [Number.lt_int_iff.2 le] at less
      cases less
    congr 1
    omega
  case isFalse less =>
    have le : a ≤ b := Number.lt_int_iff.1 (Bool.eq_false_iff.2 less)
    congr 1
    omega

namespace RestartPolicy

/-! ## What a policy is told -/

/-- What a policy is told. -/
inductive Report where
  /-- The connection has failed. -/
  | failure
  /-- A start has succeeded. -/
  | success
  deriving DecidableEq

/-- A policy that was told something. -/
def tell (p : RestartPolicy) : Report → RestartPolicy
  | .failure => p.countFailure
  | .success => p.reset

/-- A policy that was told several things, one after the other. -/
def tellAll (p : RestartPolicy) (reports : List Report) : RestartPolicy :=
  reports.foldl tell p

/-- What the policy decides on a failure after some reports. -/
def decisionAfter (p : RestartPolicy) (reports : List Report) : Except Fault FailureDecision :=
  (p.tellAll reports).countFailure.decide

/-- The number of failures since the last success. -/
def streak (reports : List Report) : Nat :=
  (reports.rtakeWhile (· ≠ .success)).length

variable {p : RestartPolicy} {reports between : List Report}

theorem tellAll_append (p : RestartPolicy) (reports more : List Report) :
    p.tellAll (reports ++ more) = (p.tellAll reports).tellAll more :=
  List.foldl_append

theorem streak_success (reports : List Report) : streak (reports ++ [.success]) = 0 := by
  unfold streak
  rw [List.rtakeWhile_concat_neg _ _ _ (by decide)]
  rfl

theorem streak_failure (reports : List Report) : streak (reports ++ [.failure]) = streak reports + 1 := by
  unfold streak
  rw [List.rtakeWhile_concat_pos _ _ _ (by decide), List.length_append]
  rfl

/-- Failures add up as long as no start succeeds. -/
theorem streak_append (h : .success ∉ between) : streak (reports ++ between) = streak reports + between.length := by
  induction between using List.reverseRecOn with
  | nil => simp
  | append_singleton between last ih =>
    have none : .success ∉ between := fun hm => h (List.mem_append_left _ hm)
    have failed : last = .failure := by
      cases last with
      | failure => rfl
      | success => exact absurd (List.mem_append_right _ (List.mem_singleton.2 rfl)) h
    rw [failed, ← List.append_assoc, streak_failure, ih none, List.length_append, List.length_singleton]
    omega

/-- A new policy counts the failures since the last success, and keeps its settings. -/
theorem tellAll_new (s : PolicySettings) (reports : List Report) : tellAll ⟨s, 0⟩ reports = ⟨s, streak reports⟩ := by
  induction reports using List.reverseRecOn with
  | nil => rfl
  | append_singleton reports last ih =>
    rw [tellAll_append, ih]
    cases last with
    | failure =>
      rw [streak_failure]
      rfl
    | success =>
      rw [streak_success]
      rfl

/-! ## Exact delays -/

/-- Settings that are integers. -/
def integers (threshold initial longest factor : Int) : PolicySettings where
  maxConsecutiveFailures := .int threshold
  backoffInitial := .int initial
  backoffMax := .int longest
  backoffFactor := .int factor

/-- The delay after so many failures in a row. -/
def exactDelay (initial longest factor : Int) (n : Nat) : Int :=
  min (initial * factor ^ (n - 1)) longest

section Exact

variable {threshold initial longest factor : Int} {m n : Nat}

/-- A longer streak waits no less. -/
theorem exactDelay_mono (hi : 0 ≤ initial) (hf : 1 ≤ factor) (h : m ≤ n) :
    exactDelay initial longest factor m ≤ exactDelay initial longest factor n := by
  have grown : factor ^ (m - 1) ≤ factor ^ (n - 1) := pow_le_pow_right₀ hf (by omega)
  have longer : initial * factor ^ (m - 1) ≤ initial * factor ^ (n - 1) := Int.mul_le_mul_of_nonneg_left grown hi
  unfold exactDelay
  omega

/-- A streak that has reached the longest delay keeps to it. -/
theorem exactDelay_of_longest (hi : 0 ≤ initial) (hf : 1 ≤ factor) (h : m ≤ n)
    (reached : exactDelay initial longest factor m = longest) : exactDelay initial longest factor n = longest := by
  have more : exactDelay initial longest factor m ≤ exactDelay initial longest factor n := exactDelay_mono hi hf h
  rw [reached] at more
  unfold exactDelay at more ⊢
  omega

theorem exhausted_integers :
    exhausted ⟨integers threshold initial longest factor, n⟩ = Decidable.decide (threshold < n) := by
  unfold exhausted RestartPolicy.threshold integers
  rw [Bool.eq_iff_iff, decide_eq_true_iff, ← Bool.not_eq_false, Number.lt_int_iff]
  exact Int.not_le

/-- The decision on a failure after `n` others in a row. -/
theorem decide_integers : RestartPolicy.decide ⟨integers threshold initial longest factor, n + 1⟩ =
    .ok ⟨n + 1, Decidable.decide (((n + 1 : Nat) : Int) ≤ threshold),
      if ((n + 1 : Nat) : Int) ≤ threshold then .int (exactDelay initial longest factor (n + 1)) else .float 0.0,
      .int threshold⟩ := by
  have delay : backoffFor ⟨integers threshold initial longest factor, n + 1⟩ ((n + 1 : Nat) : Int) = _ :=
    backoffFor_succ ⟨integers threshold initial longest factor, n + 1⟩ n
  rw [growth_of_isExact rfl rfl n] at delay
  unfold RestartPolicy.decide
  rw [exhausted_integers]
  by_cases within : ((n + 1 : Nat) : Int) ≤ threshold
  · rw [decide_eq_false (by omega), if_neg Bool.false_ne_true, delay, if_pos within, decide_eq_true within]
    simp only [integers, Number.min_int, exactDelay]
    rfl
  · rw [decide_eq_true (by omega), if_pos rfl, if_neg within, decide_eq_false within]
    rfl

/-- What a new policy decides on a failure after some reports. -/
theorem decisionAfter_integers (reports : List Report) :
    decisionAfter ⟨integers threshold initial longest factor, 0⟩ reports =
      .ok ⟨streak reports + 1, Decidable.decide (((streak reports + 1 : Nat) : Int) ≤ threshold),
        if ((streak reports + 1 : Nat) : Int) ≤ threshold then
          .int (exactDelay initial longest factor (streak reports + 1))
        else .float 0.0,
        .int threshold⟩ := by
  unfold decisionAfter
  rw [tellAll_new]
  exact decide_integers

end Exact

/-- What a policy with integer settings decides, whatever it was told before. The `n`-th failure since the last
success is told as such; the session is restarted exactly if `n` is at most the threshold, and then after the initial
delay times the `n - 1`-th power of the factor, cut to the longest delay. Within a streak no delay before a restart is
shorter than an earlier one, and once a delay is the longest one, so are all that come later. -/
theorem exact_backoff {threshold initial longest factor : Int}
    (accepted : ofSettings (integers threshold initial longest factor) = .ok p) :
    (∀ reports, ∃ d, p.decisionAfter reports = .ok d ∧ d.attempt = streak (reports ++ [.failure]) ∧
      (d.restart = true ↔ (d.attempt : Int) ≤ threshold) ∧
      (d.restart = true → d.delay = .int (min (initial * factor ^ (d.attempt - 1)) longest))) ∧
    ∀ reports between first later, .success ∉ between → p.decisionAfter reports = .ok first →
      p.decisionAfter (reports ++ .failure :: between) = .ok later → later.restart = true →
      ∃ a b : Int, first.restart = true ∧ first.delay = .int a ∧ later.delay = .int b ∧ a ≤ b ∧
        (a = longest → b = longest) := by
  obtain ⟨inRange, rfl⟩ := inRange_of_ofSettings accepted
  have hi : 0 ≤ initial := Number.lt_int_iff.1 inRange.initial
  have hf : 1 ≤ factor := Number.lt_int_iff.1 inRange.factor
  constructor
  · intro reports
    refine ⟨_, decisionAfter_integers reports, (streak_failure reports).symm, decide_eq_true_iff, ?_⟩
    intro restart
    exact if_pos (of_decide_eq_true restart)
  · intro reports between first later streak_goes_on hfirst hlater restart
    rw [decisionAfter_integers] at hfirst hlater
    cases hfirst
    cases hlater
    have longer : streak (reports ++ .failure :: between) = streak reports + (between.length + 1) :=
      streak_append (by simpa using streak_goes_on)
    have within := of_decide_eq_true restart
    have earlier : ((streak reports + 1 : Nat) : Int) ≤ threshold := by omega
    refine ⟨_, _, decide_eq_true earlier, if_pos earlier, if_pos within, ?_, ?_⟩
    · exact exactDelay_mono hi hf (by omega)
    · exact exactDelay_of_longest hi hf (by omega)

/-- Four failures, a start that succeeds, and two failures more. -/
theorem exact_backoff_again :
    let reports := [.failure, .failure, .failure, .failure, .success, .failure]
    ∃ p, ofSettings (integers 3 2 10 3) = .ok p ∧
      ∃ d, p.decisionAfter reports = .ok d ∧ d.attempt = 2 ∧ d.restart = true ∧ d.delay = .int 6 := by
  intro reports
  have accepted : ofSettings (integers 3 2 10 3) = .ok ⟨integers 3 2 10 3, 0⟩ := rfl
  refine ⟨_, accepted, ?_⟩
  obtain ⟨d, decided, attempt, restart, delay⟩ := (exact_backoff accepted).1 reports
  have second : d.attempt = 2 := attempt
  have restarts : d.restart = true := by
    rw [restart, second]
    decide
  refine ⟨d, decided, second, restarts, ?_⟩
  rw [delay restarts, second]
  rfl

end RestartPolicy

end LspClient
