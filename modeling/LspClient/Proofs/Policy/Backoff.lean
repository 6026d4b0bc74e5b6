/-
What a restart policy makes of a failure. No delay is above the longest one. A failure is left without a
decision in one way only: the delay is a power or a product of doubles, taken before it is compared with the
longest delay, and lies beyond them. Integers have no such bound: a policy that is set up with them decides
on every failure, however many there were.
-/
import LspClient.Policy
import Mathlib.Algebra.Order.Ring.Int
import Mathlib.Order.Compare

namespace LspClient

open Float.Model (UnpackedFloat)

/-! ## Numbers -/

namespace Number

theorem unpackedFloat_lt_self (x : UnpackedFloat) : x.lt x = false := by
  unfold UnpackedFloat.lt
  cases x with
  | notANumber => rfl
  | zero => rfl
  | infinity sign => cases sign <;> rfl
  | finite sign m e =>
    have same : (compare e e).then (compare m m) = .eq := by
      simp only [Std.ReflCmp.compare_self, Ordering.then_eq]
    cases sign with
    | negative =>
      change (some ((compare e e).then (compare m m)).swap == some .lt) = false
      rw [same]
      rfl
    | positive =>
      change (some ((compare e e).then (compare m m)) == some .lt) = false
      rw [same]
      rfl

theorem float_lt_irrefl (x : Float) : ¬ x < x := by
  intro less
  have less : x.toModel.lt x.toModel = true := of_decide_eq_true less
  have same : x.toModel.lt x.toModel = false := unpackedFloat_lt_self _
  rw [same] at less
  cases less

/-- No number is smaller than itself. -/
theorem lt_self (a : Number) : a.lt a = false := by
  unfold lt compare?
  cases a with
  | int n => simp
  | float x =>
    simp only [float_lt_irrefl x, if_false]
    split <;> rfl

theorem lt_int_iff {m n : Int} : lt (.int m) (.int n) = false ↔ n ≤ m := by
  simp [lt, compare?, Int.compare_eq_lt]

/-- What neither of two numbers is below, the smaller one is not below. -/
theorem min_lt {a b c : Number} (ha : a.lt c = false) (hb : b.lt c = false) : (a.min b).lt c = false := by
  unfold min
  split
  · exact hb
  · exact ha

/-- The smaller of two numbers is not above the second. -/
theorem lt_min_right (a b : Number) : b.lt (a.min b) = false := by
  unfold min
  split
  case isTrue => exact lt_self b
  case isFalse h => exact Bool.eq_false_iff.2 h

end Number

namespace RestartPolicy

open Number (RangeFault)

variable {p q : RestartPolicy} {s : PolicySettings}

/-! ## Settings -/

/-- Settings in range: no number is negative, and no delay is shorter than the one before it. -/
structure InRange (s : PolicySettings) : Prop where
  threshold : s.maxConsecutiveFailures.lt (.int 0) = false
  initial : s.backoffInitial.lt (.int 0) = false
  longest : s.backoffMax.lt (.int 0) = false
  factor : s.backoffFactor.lt (.int 1) = false

theorem inRange_of_ofSettings (h : ofSettings s = .ok p) : InRange s ∧ p = ⟨s, 0⟩ := by
  unfold ofSettings at h
  split at h
  case isTrue => cases h
  split at h
  case isTrue => cases h
  split at h
  case isTrue => cases h
  case isFalse threshold delays factor =>
    cases h
    rw [Bool.or_eq_true, not_or] at delays
    exact ⟨⟨Bool.eq_false_iff.2 threshold, Bool.eq_false_iff.2 delays.1, Bool.eq_false_iff.2 delays.2,
      Bool.eq_false_iff.2 factor⟩, rfl⟩

/-! ## Delays -/

/-- What is compared with the longest delay. -/
def growth (s : PolicySettings) (n : Nat) : Except RangeFault Number := do
  s.backoffInitial.mul (← s.backoffFactor.pow n)

/-- Delays that grow in integers. -/
def IsExact (s : PolicySettings) : Prop :=
  ∃ initial factor : Int, s.backoffInitial = .int initial ∧ s.backoffFactor = .int factor

theorem growth_of_isExact {initial factor : Int} (hi : s.backoffInitial = .int initial)
    (hf : s.backoffFactor = .int factor) (n : Nat) : growth s n = .ok (.int (initial * factor ^ n)) := by
  unfold growth
  rw [hi, hf]
  rfl

theorem backoffFor_succ (p : RestartPolicy) (n : Nat) : p.backoffFor ((n + 1 : Nat) : Int) =
    match growth p.settings n with
    | .ok delay => .ok (delay.min p.settings.backoffMax)
    | .error f => .error (.range f) := by
  have later : ¬ ((n + 1 : Nat) : Int) < 1 := by omega
  have before : (((n + 1 : Nat) : Int) - 1).toNat = n := by omega
  unfold backoffFor
  rw [if_neg later, before]
  rfl

/-! ## Decisions -/

/-- What follows from a failure. The session is given up once there were more failures than the threshold. Before
that it is started again, after a delay that is not above the longest one, unless what the delay grows to is
beyond the numbers. -/
theorem decide_countFailure (p : RestartPolicy) :
    (p.countFailure.exhausted = true ∧ p.countFailure.decide = .ok ⟨p.failures + 1, false, .float 0.0, p.threshold⟩) ∨
    (p.countFailure.exhausted = false ∧
      ((∃ delay, p.countFailure.decide = .ok ⟨p.failures + 1, true, delay, p.threshold⟩ ∧
          p.settings.backoffMax.lt delay = false) ∨
        ∃ f, growth p.settings p.failures = .error f ∧ p.countFailure.decide = .error (.range f))) := by
  unfold decide
  cases spent : p.countFailure.exhausted with
  | true => exact .inl ⟨rfl, rfl⟩
  | false =>
    refine .inr ⟨rfl, ?_⟩
    have delay : p.countFailure.backoffFor p.countFailure.failures = _ := backoffFor_succ p.countFailure p.failures
    simp only [Bool.false_eq_true, if_false, delay]
    have same : p.countFailure.settings = p.settings := rfl
    rw [same]
    cases grown : growth p.settings p.failures with
    | ok d => exact .inl ⟨_, rfl, Number.lt_min_right d _⟩
    | error f => exact .inr ⟨f, rfl, rfl⟩

/-- A policy that counts in integers decides on every failure, and its delays are in range. -/
theorem decide_of_isExact (accepted : ofSettings s = .ok p) (exact : IsExact s) (n : Nat) :
    ∃ d, RestartPolicy.decide ⟨s, n + 1⟩ = .ok d ∧ d.attempt = n + 1 ∧
      (d.restart = true → d.delay.lt (.int 0) = false ∧ s.backoffMax.lt d.delay = false) := by
  obtain ⟨initial, factor, hi, hf⟩ := exact
  obtain ⟨inRange, _⟩ := inRange_of_ofSettings accepted
  have grown := growth_of_isExact hi hf n
  have hi : 0 ≤ initial := Number.lt_int_iff.1 (hi ▸ inRange.initial)
  have hf : 1 ≤ factor := Number.lt_int_iff.1 (hf ▸ inRange.factor)
  have positive : Number.lt (.int (initial * factor ^ n)) (.int 0) = false :=
    Number.lt_int_iff.2 (Int.mul_nonneg hi (Int.pow_nonneg (Int.le_trans Int.one_nonneg hf)))
  have delay : backoffFor ⟨s, n + 1⟩ ((n + 1 : Nat) : Int) = _ := backoffFor_succ ⟨s, n + 1⟩ n
  rw [grown] at delay
  unfold decide
  split
  case isTrue => exact ⟨_, rfl, rfl, fun restart => Bool.noConfusion restart⟩
  case isFalse =>
    rw [delay]
    exact ⟨_, rfl, rfl, fun _ => ⟨Number.min_lt positive inRange.longest, Number.lt_min_right _ _⟩⟩

end RestartPolicy

end LspClient
