/-
Operations that change a state and may fail, as functions from a state to an outcome and the state
afterwards. A failure keeps what was changed before it.
-/

namespace LspClient

/-- Runs an operation from a state. -/
def exec {ε σ α : Type} (op : ExceptT ε (StateM σ) α) (s : σ) : Except ε α × σ :=
  op.run s

variable {ε σ α β : Type}

@[simp] theorem exec_pure (a : α) (s : σ) : exec (pure a : ExceptT ε (StateM σ) α) s = (.ok a, s) := rfl

@[simp] theorem exec_throw (e : ε) (s : σ) :
    exec (throw e : ExceptT ε (StateM σ) α) s = (.error e, s) := rfl

@[simp] theorem exec_get (s : σ) : exec (get : ExceptT ε (StateM σ) σ) s = (.ok s, s) := rfl

@[simp] theorem exec_set (s s' : σ) : exec (set s' : ExceptT ε (StateM σ) PUnit) s = (.ok ⟨⟩, s') := rfl

@[simp] theorem exec_modify (f : σ → σ) (s : σ) :
    exec (modify f : ExceptT ε (StateM σ) PUnit) s = (.ok ⟨⟩, f s) := rfl

@[simp] theorem exec_modifyGet (f : σ → α × σ) (s : σ) :
    exec (modifyGet f : ExceptT ε (StateM σ) α) s = (.ok (f s).1, (f s).2) := rfl

/-- What follows runs where the first operation succeeds, and from what it leaves. -/
theorem exec_bind (x : ExceptT ε (StateM σ) α) (f : α → ExceptT ε (StateM σ) β) (s : σ) :
    exec (x >>= f) s = match exec x s with
      | (.ok a, s') => exec (f a) s'
      | (.error e, s') => (.error e, s') := by
  unfold exec
  show (ExceptT.bindCont f (x.run s).1) (x.run s).2 = _
  rcases x.run s with ⟨a | a, s'⟩ <;> rfl

theorem exec_bind_of_ok {x : ExceptT ε (StateM σ) α} {s s' : σ} {a : α} (h : exec x s = (.ok a, s'))
    (f : α → ExceptT ε (StateM σ) β) : exec (x >>= f) s = exec (f a) s' := by
  rw [exec_bind, h]

@[simp] theorem exec_map (f : α → β) (x : ExceptT ε (StateM σ) α) (s : σ) :
    exec (f <$> x) s = match exec x s with
      | (.ok a, s') => (.ok (f a), s')
      | (.error e, s') => (.error e, s') := by
  rw [← bind_pure_comp, exec_bind]
  rfl

/-- What is answered of an operation's answer leaves the state alone. -/
theorem exec_map_snd (f : α → β) (x : ExceptT ε (StateM σ) α) (s : σ) : (exec (f <$> x) s).2 = (exec x s).2 := by
  rw [exec_map]
  rcases exec x s with ⟨a | a, s'⟩ <;> rfl

@[simp] theorem exec_tryCatch (x : ExceptT ε (StateM σ) α) (f : ε → ExceptT ε (StateM σ) α) (s : σ) :
    exec (tryCatch x f) s = match exec x s with
      | (.ok a, s') => (.ok a, s')
      | (.error e, s') => exec (f e) s' := by
  unfold exec
  show (match (x.run s).1 with | .ok a => _ | .error e => _ : StateM σ (Except ε α)) (x.run s).2 = _
  rcases x.run s with ⟨a | a, s'⟩ <;> rfl

end LspClient
