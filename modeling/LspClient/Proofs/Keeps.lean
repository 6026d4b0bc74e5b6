/-
What operations keep: an invariant of the state, whether they succeed or fail, with a property of the
faults that they raise and one of what they answer.
-/
import LspClient.Proofs.Exec

namespace LspClient

variable {ε σ α β : Type} {I : σ → Prop} {F : ε → Prop} {Q Q' : α → σ → Prop} {R : β → σ → Prop}
  {x : ExceptT ε (StateM σ) α} {s s' : σ}

/-- An operation that keeps an invariant at a state, raises only some faults there, and answers what has
some property in the state that it leaves. -/
structure KeepsAt (I : σ → Prop) (F : ε → Prop) (Q : α → σ → Prop) (op : ExceptT ε (StateM σ) α) (s : σ) : Prop where
  state : I (exec op s).2
  fault : ∀ e, (exec op s).1 = .error e → F e
  answer : ∀ a, (exec op s).1 = .ok a → Q a (exec op s).2

theorem KeepsAt.of_ok {a : α} (h : exec x s = (.ok a, s')) (hs : I s') (ha : Q a s') : KeepsAt I F Q x s := by
  constructor <;> rw [h]
  · exact hs
  · intro e he
    cases he
  · intro b hb
    cases hb
    exact ha

theorem KeepsAt.of_error {e : ε} (h : exec x s = (.error e, s')) (hs : I s') (he : F e) : KeepsAt I F Q x s := by
  constructor <;> rw [h]
  · exact hs
  · intro e' h'
    cases h'
    exact he
  · intro a ha
    cases ha

/-- An operation either answers or fails, and keeps what it keeps. -/
theorem KeepsAt.cases (h : KeepsAt I F Q x s) :
    (∃ a s', exec x s = (.ok a, s') ∧ I s' ∧ Q a s') ∨ ∃ e s', exec x s = (.error e, s') ∧ I s' ∧ F e := by
  obtain ⟨state, fault, answer⟩ := h
  rcases hx : exec x s with ⟨e | a, s'⟩ <;> rw [hx] at state fault answer
  · exact .inr ⟨e, s', rfl, state, fault e rfl⟩
  · exact .inl ⟨a, s', rfl, state, answer a rfl⟩

theorem KeepsAt.mono (h : KeepsAt I F Q x s) (w : ∀ a s, Q a s → Q' a s) : KeepsAt I F Q' x s :=
  ⟨h.state, h.fault, fun a ha => w a _ (h.answer a ha)⟩

theorem keepsAt_pure (hs : I s) {a : α} (ha : Q a s) : KeepsAt I F Q (pure a) s :=
  .of_ok (exec_pure a s) hs ha

theorem keepsAt_throw (hs : I s) {e : ε} (he : F e) : KeepsAt I F Q (throw e) s :=
  .of_error (exec_throw e s) hs he

/-- What follows keeps what it keeps at the state that the first operation leaves, where it answers. -/
theorem KeepsAt.bind {f : α → ExceptT ε (StateM σ) β} (h : KeepsAt I F Q x s)
    (hf : ∀ a s', Q a s' → I s' → KeepsAt I F R (f a) s') : KeepsAt I F R (x >>= f) s := by
  rcases h.cases with ⟨a, s', hx, hs', ha⟩ | ⟨e, s', hx, hs', he⟩
  · have next := hf a s' ha hs'
    have same : exec (x >>= f) s = exec (f a) s' := exec_bind_of_ok hx f
    exact ⟨by rw [same]; exact next.state, by rw [same]; exact next.fault, by rw [same]; exact next.answer⟩
  · refine .of_error ?_ hs' he
    rw [exec_bind, hx]

theorem KeepsAt.tryCatch {f : ε → ExceptT ε (StateM σ) α} (h : KeepsAt I F Q x s)
    (hf : ∀ e s', F e → I s' → KeepsAt I F Q (f e) s') : KeepsAt I F Q (tryCatch x f) s := by
  rcases h.cases with ⟨a, s', hx, hs', ha⟩ | ⟨e, s', hx, hs', he⟩
  · refine .of_ok ?_ hs' ha
    rw [exec_tryCatch, hx]
  · have handled := hf e s' he hs'
    have same : exec (MonadExcept.tryCatch x f) s = exec (f e) s' := by
      rw [exec_tryCatch, hx]
    exact ⟨by rw [same]; exact handled.state, by rw [same]; exact handled.fault, by rw [same]; exact handled.answer⟩

end LspClient
