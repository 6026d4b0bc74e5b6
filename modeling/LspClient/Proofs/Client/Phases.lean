/-
Conversations with a server, as the purposes of the messages that a session writes on a transport. The phase that a
conversation is in tells what may be written next, and what has been written is the beginning of a whole conversation as
long as every message was one that might be.
-/
import LspClient.Proofs.Client.Minor

namespace LspClient

/-! ## Definitions -/

/-- How far a conversation with a server has come. -/
inductive Phase where
  /-- Nothing is written yet. -/
  | fresh
  /-- The first request is written. -/
  | greeted
  /-- The server knows that the first request was answered. -/
  | inUse
  /-- The last request is written. -/
  | leaving
  /-- The last notification is written. -/
  | left
  deriving DecidableEq

/-- The phase after a message with a purpose, if it may be written. -/
def Phase.after : Phase → Purpose → Option Phase
  | .fresh, .handshake => some .greeted
  | .greeted, .initialized => some .inUse
  | .inUse, .request | .inUse, .notification | .inUse, .cancellation => some .inUse
  | .inUse, .shutdown => some .leaving
  | .leaving, .exit => some .left
  | .greeted, .answer => some .greeted
  | .inUse, .answer => some .inUse
  | .leaving, .answer => some .leaving
  | _, _ => none

/-- The phase that a conversation is in, if each of its messages could be written. -/
def phaseOf (w : List Purpose) : Option Phase :=
  w.foldlM Phase.after .fresh

/-- The last part of a conversation: answers to requests of the server, and the last notification. -/
def IsFarewell (w : List Purpose) : Prop :=
  ∃ n, w = List.replicate n .answer ++ [.exit]

/-- What follows once the server is in use: messages of users and answers in any order, and the last request. -/
def IsUsage (w : List Purpose) : Prop :=
  ∃ used rest, w = used ++ .shutdown :: rest ∧ (∀ q ∈ used, q.isUser = true ∨ q = .answer) ∧ IsFarewell rest

/-- What follows the first request: answers, and the first notification. -/
def IsReception (w : List Purpose) : Prop :=
  ∃ n rest, w = List.replicate n .answer ++ .initialized :: rest ∧ IsUsage rest

/-- A whole conversation: the first request begins it, and the last notification ends it. -/
def IsConversation (w : List Purpose) : Prop :=
  ∃ rest, w = .handshake :: rest ∧ IsReception rest

/-- What may follow in a phase until the conversation ends. -/
def Phase.Expects : Phase → List Purpose → Prop
  | .fresh => IsConversation
  | .greeted => IsReception
  | .inUse => IsUsage
  | .leaving => IsFarewell
  | .left => fun w => w = []

variable {p p' : Phase} {q : Purpose} {w rest : List Purpose}

/-! ## Messages one after another -/

theorem phaseOf_append (w w' : List Purpose) :
    phaseOf (w ++ w') = (phaseOf w).bind fun p => w'.foldlM Phase.after p := by
  unfold phaseOf
  rw [List.foldlM_append]
  rfl

theorem phaseOf_concat (w : List Purpose) (q : Purpose) : phaseOf (w ++ [q]) = (phaseOf w).bind fun p => p.after q := by
  rw [phaseOf_append]
  congr 1
  funext p
  exact bind_pure (p.after q)

/-- Nothing but the first request comes first. -/
theorem Phase.after_ne_fresh (h : p.after q = some p') : p' ≠ .fresh := by
  rintro rfl
  cases p <;> cases q <;> cases h

/-- A server that is in use stays so whatever its users send. -/
theorem Phase.after_inUse_of_isUser (user : q.isUser = true) : Phase.inUse.after q = some .inUse := by
  cases q <;> first | rfl | cases user

/-- What users write leaves a server in use. -/
theorem phaseOf_append_of_isUser (inUse : phaseOf w = some .inUse) (users : ∀ q ∈ rest, q.isUser = true) :
    phaseOf (w ++ rest) = some .inUse := by
  rw [phaseOf_append, inUse]
  show rest.foldlM Phase.after .inUse = some .inUse
  induction rest with
  | nil => rfl
  | cons q rest ih =>
    rw [List.foldlM_cons, Phase.after_inUse_of_isUser (users q (List.mem_cons_self ..))]
    exact ih fun x hx => users x (List.mem_cons_of_mem _ hx)

/-- An answer does not change the phase, where it may be written. -/
theorem Phase.after_answer (begun : p ≠ .fresh) (going : p ≠ .left) : p.after .answer = some p := by
  cases p with
  | fresh => exact absurd rfl begun
  | left => exact absurd rfl going
  | greeted => rfl
  | inUse => rfl
  | leaving => rfl

/-! ## Whole conversations -/

theorem isReception_answer (h : IsReception w) : IsReception (.answer :: w) := by
  obtain ⟨n, rest, rfl, usage⟩ := h
  exact ⟨n + 1, rest, rfl, usage⟩

theorem isFarewell_answer (h : IsFarewell w) : IsFarewell (.answer :: w) := by
  obtain ⟨n, rfl⟩ := h
  exact ⟨n + 1, rfl⟩

theorem isUsage_cons (may : q.isUser = true ∨ q = .answer) (h : IsUsage w) : IsUsage (q :: w) := by
  obtain ⟨used, rest, rfl, users, farewell⟩ := h
  refine ⟨q :: used, rest, rfl, fun x hx => ?_, farewell⟩
  rcases List.mem_cons.1 hx with rfl | hx
  · exact may
  · exact users x hx

/-- What a phase expects after a message, it expects the message to come before. -/
theorem Phase.Expects.cons (next : p.after q = some p') (h : p'.Expects w) : p.Expects (q :: w) := by
  cases p with
  | fresh =>
    cases q <;> cases next
    exact ⟨w, rfl, h⟩
  | greeted =>
    cases q <;> cases next
    · exact ⟨0, w, rfl, h⟩
    · exact isReception_answer h
  | inUse =>
    cases q <;> cases next
    · exact isUsage_cons (.inl rfl) h
    · exact isUsage_cons (.inl rfl) h
    · exact isUsage_cons (.inl rfl) h
    · exact ⟨[], w, rfl, by simp, h⟩
    · exact isUsage_cons (.inr rfl) h
  | leaving =>
    cases q <;> cases next
    · cases h
      exact ⟨0, rfl⟩
    · exact isFarewell_answer h
  | left => cases q <;> cases next

/-- Every conversation can be ended. -/
theorem Phase.exists_expects (p : Phase) : ∃ w, p.Expects w := by
  have farewell : IsFarewell [.exit] := ⟨0, rfl⟩
  have usage : IsUsage [.shutdown, .exit] := ⟨[], _, rfl, by simp, farewell⟩
  have reception : IsReception [.initialized, .shutdown, .exit] := ⟨0, _, rfl, usage⟩
  cases p with
  | fresh => exact ⟨_, _, rfl, reception⟩
  | greeted => exact ⟨_, reception⟩
  | inUse => exact ⟨_, usage⟩
  | leaving => exact ⟨_, farewell⟩
  | left => exact ⟨[], rfl⟩

/-- What was written in a phase, with what may follow it, may be written there. -/
theorem Phase.Expects.of_foldlM (goes : w.foldlM Phase.after p = some p') (h : p'.Expects rest) :
    p.Expects (w ++ rest) := by
  induction w generalizing p with
  | nil =>
    cases goes
    exact h
  | cons q w ih =>
    rw [List.foldlM_cons] at goes
    obtain ⟨p₁, first, goes⟩ := Option.bind_eq_some_iff.1 goes
    exact .cons first (ih goes)

/-- What was written while each message could be is the beginning of a whole conversation. -/
theorem isPrefix_of_phaseOf (h : phaseOf w = some p) : ∃ whole, IsConversation whole ∧ w <+: whole := by
  obtain ⟨rest, expects⟩ := p.exists_expects
  have whole : Phase.fresh.Expects (w ++ rest) := .of_foldlM h expects
  exact ⟨w ++ rest, whole, List.prefix_append w rest⟩

theorem foldlM_after_replicate_answer (begun : p ≠ .fresh) (going : p ≠ .left) (n : Nat) :
    (List.replicate n Purpose.answer).foldlM Phase.after p = some p := by
  induction n with
  | zero => rfl
  | succ n ih =>
    rw [List.replicate_succ, List.foldlM_cons, Phase.after_answer begun going]
    exact ih

theorem foldlM_after_of_used {used : List Purpose} (may : ∀ q ∈ used, q.isUser = true ∨ q = .answer) :
    used.foldlM Phase.after .inUse = some .inUse := by
  induction used with
  | nil => rfl
  | cons q used ih =>
    have same : Phase.inUse.after q = some .inUse := by
      rcases may q (List.mem_cons_self ..) with user | rfl
      · exact Phase.after_inUse_of_isUser user
      · rfl
    rw [List.foldlM_cons, same]
    exact ih fun x hx => may x (List.mem_cons_of_mem _ hx)

/-- A whole conversation ends in the last phase. -/
theorem phaseOf_of_isConversation (h : IsConversation w) : phaseOf w = some .left := by
  obtain ⟨_, rfl, n, _, rfl, used, _, rfl, may, k, rfl⟩ := h
  have greeted := foldlM_after_replicate_answer (p := .greeted) nofun nofun n
  have leaving := foldlM_after_replicate_answer (p := .leaving) nofun nofun k
  have inUse := foldlM_after_of_used may
  unfold phaseOf
  simp [List.foldlM_append, Phase.after, greeted, inUse, leaving]

/-- Messages could be written one after another if and only if they are the beginning of a whole conversation. -/
theorem phaseOf_isSome_iff : (phaseOf w).isSome = true ↔ ∃ whole, IsConversation whole ∧ w <+: whole := by
  constructor
  · intro h
    obtain ⟨p, hp⟩ := Option.isSome_iff_exists.1 h
    exact isPrefix_of_phaseOf hp
  · rintro ⟨_, conversation, rest, rfl⟩
    have whole := phaseOf_of_isConversation conversation
    rw [phaseOf_append] at whole
    obtain ⟨p, hp, _⟩ := Option.bind_eq_some_iff.1 whole
    rw [hp]
    rfl

end LspClient
