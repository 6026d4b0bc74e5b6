/-
What may happen in a client that uses the transports of processes. Users open, read, write and close them and cancel
tasks; servers write, end and break their streams, are scripted anew, and exit; the clock moves; and jobs are taken up
one after the other. Whatever happens, a task keeps its share to itself, and a process that has exited stays so.
-/
import LspClient.Proofs.Process.Escalating

namespace LspClient

open Client

/-! ## Definitions -/

/-- Something that a user of transports does, or that a server does. -/
inductive Occurrence where
  | openTransport (name : String) (t : TransportId)
  | read (name : String) (t : TransportId)
  | closeTransport (name : String) (t : TransportId)
  | cancel (name : String)
  | write (t : TransportId) (text : String)
  | feed (p : PipeId) (octets : Octets)
  | finish (p : PipeId)
  | breaks (p : PipeId) (f : Fault)
  | exit (i : ChildId) (code : Int)
  | setPeer (change : Peer → Peer)

namespace Occurrence

/-- What an act does to a client. -/
def perform : Occurrence → ClientM Unit
  | openTransport name t => do let _ ← spawnNamed name (.openTransport t)
  | read name t => do let _ ← spawnNamed name (.receive t)
  | closeTransport name t => do let _ ← spawnNamed name (.closeTransport t)
  | cancel name => do let _ ← cancelPromise (← named name (← get).tasks)
  | write t text => Client.write t text
  | feed p octets => feedPipe p octets
  | finish p => finishPipe p
  | breaks p f => breakPipe p f
  | exit i code => childExits i code
  | setPeer change => onPeer change

/-- The transport of an act is one of so many. -/
def Fits (n : Nat) : Occurrence → Prop
  | openTransport _ t | read _ t | closeTransport _ t | write t _ => t < n
  | _ => True

/-- An act does not cancel a task. -/
def Spares (p : PromiseId) (c : Client) : Occurrence → Prop
  | cancel name => c.tasks.lookup name ≠ some p
  | _ => True

end Occurrence

/-- Something happens in a client, and a job is taken up for it or not. Nobody cancels a task that is spared. -/
inductive Happens (E : Executor) (spared : Option PromiseId) (c : Client) : Option (Job Event) → Client → Prop
  | act (a : Occurrence) (fits : a.Fits c.transports.size) (spares : ∀ p, spared = some p → a.Spares p c) :
    Happens E spared c none (does E a.perform c).2
  | clock (now : Float) (later : Loop.isDue now c.loop.now = true) :
    Happens E spared c none { c with loop := { c.loop with now } }
  | job {job : Job Event} {l : Loop Activity Event} (next : c.loop.next? = some (job, l)) :
    Happens E spared c (some job) (does E (runJob job) { c with loop := l }).2

namespace Client

/-- A client in which nothing has happened yet, with transports of processes only. -/
structure IsFresh (c : Client) : Prop where
  loop : c.loop = {}
  pipes : c.pipes = #[]
  children : c.children = #[]
  tasks : c.tasks = []
  transports : ∀ x ∈ c.transports, x.carrier.isProcess = true ∧ x.link = none ∧ x.drain = none

/-- A client to which something has happened, and anything may have. -/
inductive Reached (E : Executor) : Client → Prop
  | fresh {c : Client} (h : c.IsFresh) : Reached E c
  | next {c c' : Client} {job : Option (Job Event)} (h : Reached E c) (happens : Happens E none c job c') : Reached E c'

end Client

/-- The share of a task that has nothing to itself. -/
def Share.nothing (p : PromiseId) (i : ChildId) (n : Nat) : Share where
  task := p
  child := i
  own := []
  heard := []
  timers := []
  transports := n

/-- A client in which nobody has anything to itself. -/
def Client.Free (n : Nat) (c : Client) : Prop :=
  ∀ p i, c.Apart (.nothing p i n)

/-- What stays as it is when something happens in a client, or changes only one way. -/
structure Continues (i : ChildId) (c c' : Client) : Prop where
  later : Loop.isDue c'.loop.now c.loop.now = true
  carriers : ∀ t, (c'.transportAt t).carrier = (c.transportAt t).carrier
  links : ∀ t link, (c'.transportAt t).link = some link →
    (c.transportAt t).link = some link ∨ ∃ j, link.child = some j ∧ c.children.size ≤ j
  launched : c.children.size ≤ c'.children.size
  exited : c.HasExited i → c'.HasExited i

/-- What happens in a client, as it concerns the share of a task. -/
inductive Affects (E : Executor) (S : Share) (c : Client) : Option (Job Event) → Client → Prop
  | aside {c' : Client} (b : c.Beside S c') : Affects E S c none c'
  | clock (now : Float) (later : Loop.isDue now c.loop.now = true) :
    Affects E S c none { c with loop := { c.loop with now } }
  | other {job : Job Event} {l : Loop Activity Event} {c' : Client} (begins : c.loop.BeginsRound S l)
    (b : Client.Beside S { c with loop := l } c') (others : job.concerns S.own = false) : Affects E S c (some job) c'
  | own {job : Job Event} {m l : Loop Activity Event} (begins : c.loop.BeginsRound S m) (pops : m.Pops S job l)
    (mine : job.concerns S.own = true) : Affects E S c (some job) (does E (runJob job) { c with loop := l }).2

variable {E : Executor} {S : Share} {c c' c'' : Client} {p : PromiseId} {spared : Option PromiseId}
  {n : Nat} {i : ChildId} {job : Option (Job Event)}

/-! ## Acts -/

theorem mem_label {α : Type} {name other : String} {a b : α} {xs : List (String × α)}
    (h : (other, b) ∈ label name a xs) :
    b = a ∨ (other, b) ∈ xs := by
  induction xs with
  | nil =>
    cases List.mem_singleton.1 h
    exact .inl rfl
  | cons x xs ih =>
    obtain ⟨n, d⟩ := x
    unfold label at h
    split at h
    · rcases List.mem_cons.1 h with h | h
      · cases h
        exact .inl rfl
      · exact .inr (List.mem_cons_of_mem _ h)
    · rcases List.mem_cons.1 h with h | h
      · exact .inr (h ▸ List.mem_cons_self ..)
      · exact (ih h).imp_right (List.mem_cons_of_mem _)

/-- A task of others is given a name. -/
theorem Client.Apart.label (h : c.Apart S) (name : String) {r : PromiseId} (known : c.loop.Known S r) :
    c.Beside S { c with tasks := label name r c.tasks } := by
  refine ⟨⟨.inl ⟨rfl, rfl, .refl S c.loop⟩, fun _ => rfl, fun _ _ hl => .inl hl, Nat.le_refl _⟩, h.loop,
    h.pipes, h.count, h.transports, h.links, h.children, fun mem => ?_⟩
  rcases mem_label mem with rfl | mem
  · exact ⟨known.1, fun own => absurd own known.2⟩
  · exact h.tasks mem

theorem aside_spawnNamed (name : String) {a : Activity} (minds : c.Minds S a) :
    Aside E S (spawnNamed name a) Untold c := by
  refine (aside_spawn minds).bind fun r c₁ _ known => ?_
  refine (aside_modify fun apart => apart.label name known).andThen fun _ c₂ b₂ => ?_
  exact (aside_observe (b₂.known known) (Job.fits_notify rfl) rfl).andThen fun _ _ _ => aside_pure _ trivial

/-- A named task is cancelled, which is not the one with the share. -/
theorem aside_cancelNamed (name : String) (spares : S.own = [] ∨ c.tasks.lookup name ≠ some S.task) :
    Aside E S (do let _ ← cancelPromise (← named name (← get).tasks)) Untold c := by
  have told : Aside E S (do named name (← get).tasks) (fun _ r => r ∉ S.own) c := by
    refine .of_apart fun apart => ⟨fun _ => ?_⟩
    have looks : does E (do named name (← get).tasks) c = does E (named name c.tasks) c :=
      does_bind_of_ok (does_get c) _
    rw [looks]
    unfold named
    cases found : c.tasks.lookup name with
    | none => exact ⟨apart.beside, nofun⟩
    | some r =>
      refine ⟨apart.beside, fun r' e mine => ?_⟩
      cases e
      rcases spares with none | ne
      · rw [none] at mine
        cases mine
      · obtain ⟨_, _, e, _⟩ := List.lookup_eq_some_iff.1 found
        have mem : (name, r) ∈ c.tasks := e ▸ List.mem_append_right _ (List.mem_cons_self ..)
        exact ne (found.trans (congrArg some ((apart.tasks mem).2 mine)))
  have cancelled : Aside E S (do let r ← (do named name (← get).tasks); let _ ← cancelPromise r) Untold c :=
    told.bind fun r _ _ other => (aside_cancelPromise other).andThen fun _ _ _ => aside_pure _ trivial
  rwa [bind_assoc] at cancelled

theorem aside_perform {a : Occurrence} (fits : a.Fits S.transports) (spares : S.own = [] ∨ a.Spares S.task c) :
    Aside E S a.perform Untold c := by
  cases a with
  | openTransport name t =>
    exact (aside_spawnNamed name (a := .openTransport t) fits).andThen fun _ _ _ => aside_pure _ trivial
  | read name t => exact (aside_spawnNamed name (a := .receive t) fits).andThen fun _ _ _ => aside_pure _ trivial
  | closeTransport name t =>
    exact (aside_spawnNamed name (a := .closeTransport t) fits).andThen fun _ _ _ => aside_pure _ trivial
  | cancel name => exact aside_cancelNamed name spares
  | write t text => exact aside_write fits text
  | feed p octets => exact aside_feedPipe octets
  | finish p => exact aside_finishPipe
  | breaks p f => exact aside_breakPipe f
  | exit i code => exact aside_childExits i code
  | setPeer change => exact aside_onPeer change

/-! ## What happens, as it concerns a share -/

/-- Taking a job that does nothing to the share leaves the share as it is. -/
theorem Loop.Pops.beside {l l' : Loop Activity Event} {job : Job Event} (h : l.Pops S job l')
    (others : job.concerns S.heard = false) : l.Beside S l' := by
  have ready := h.ready
  rw [others, if_neg nofun] at ready
  exact ⟨⟨fun r _ => by rw [h.promises], ready, h.timers, h.now, Nat.le_of_eq (by rw [h.promises]),
    Nat.le_of_eq h.nextTimer.symm⟩, h.apart⟩

theorem Happens.affects (h : Happens E spared c job c') (apart : c.Apart S)
    (spares : S.own = [] ∨ spared = some S.task) :
    Affects E S c job c' := by
  cases h with
  | act a fits spared =>
    exact .aside ((aside_perform (apart.count ▸ fits) (spares.imp_right fun e => spared _ e)).keeps apart).1
  | clock now later => exact .clock now later
  | @job job l next =>
    obtain ⟨m, begins, pops⟩ := apart.loop.next? next
    cases mine : job.concerns S.own with
    | true => exact .own begins pops mine
    | false =>
      have others : job.concerns S.heard = false :=
        Job.concerns_eq_false.2 fun r e heard => Job.concerns_eq_false.1 mine r e (apart.loop.heard r heard)
      have begun := apart.replace begins.apart (Nat.le_of_eq (by rw [begins.promises]))
      have popped := begun.withLoop (pops.beside others)
      have fits : job.Fits l.promises.size := by
        rw [pops.promises]
        exact pops.fits
      exact .other begins (popped.trans ((aside_runJob (c := { c with loop := l }) fits mine).keeps popped.apart).1)
        mine

/-! ## What stays -/

theorem Continues.trans (h : Continues i c c') (h' : Continues i c' c'') : Continues i c c'' := by
  refine ⟨Loop.isDue_trans h.later h'.later, fun t => (h'.carriers t).trans (h.carriers t), fun t link hl => ?_,
    Nat.le_trans h.launched h'.launched, fun e => h'.exited (h.exited e)⟩
  rcases h'.links t link hl with old | ⟨j, e, new⟩
  · exact h.links t link old
  · exact .inr ⟨j, e, Nat.le_trans h.launched new⟩

/-- The loop goes on, and its clock does not go back. -/
theorem continues_loop (i : ChildId) {l : Loop Activity Event} (later : Loop.isDue l.now c.loop.now = true) :
    Continues i c { c with loop := l } :=
  ⟨later, fun _ => rfl, fun _ _ h => .inl h, Nat.le_refl _, id⟩

theorem isDue_refl {x y : Float} (h : x = y) : Loop.isDue x y = true :=
  h ▸ Loop.isDue_iff.2 (Int.le_refl _)

theorem Client.Beside.continues (b : c.Beside S c') : Continues S.child c c' :=
  ⟨isDue_refl b.elsewhere.size.2.2, b.elsewhere.carriers, b.elsewhere.links, b.elsewhere.launched,
    b.elsewhere.hasExited⟩

/-- What happens as it concerns nobody. -/
theorem Affects.continues (h : Affects E (.nothing p i n) c job c') (apart : c.Apart (.nothing p i n)) :
    c'.Apart (.nothing p i n) ∧ Continues i c c' := by
  cases h with
  | aside b => exact ⟨b.apart, b.continues⟩
  | clock now later => exact ⟨apart.replace (apart.loop.setNow now) (Nat.le_refl _), continues_loop i later⟩
  | other begins b _ => exact ⟨b.apart, (continues_loop i (isDue_refl begins.now)).trans b.continues⟩
  | own _ _ mine =>
    obtain ⟨r, -, mine⟩ := Job.concerns_iff.1 mine
    cases mine

/-- Whatever happens, nobody has anything to itself that did not have it. -/
theorem Happens.free (h : Happens E spared c job c') (free : c.Free n) : c'.Free n :=
  fun p i => ((h.affects (free p i) (.inl rfl)).continues (free p i)).1

theorem Happens.continues (h : Happens E spared c job c') (free : c.Free n) (i : ChildId) : Continues i c c' :=
  ((h.affects (free 0 i) (.inl rfl)).continues (free 0 i)).2

theorem Client.IsFresh.free (h : c.IsFresh) : c.Free c.transports.size := by
  intro p i
  have loop : c.loop.Apart (.nothing p i c.transports.size) := by
    rw [h.loop]
    exact ⟨Loop.orderly_new, nofun, nofun, nofun, nofun, nofun, nofun⟩
  refine ⟨loop, fun hx => ?_, rfl, fun hx => ?_, fun hx hl => ?_, fun hx => ?_, fun ht => ?_⟩
  · rw [h.pipes] at hx
    cases hx
  · obtain ⟨process, -, drain⟩ := h.transports _ (Array.mem_of_getElem? hx)
    exact ⟨process, fun d hd => by rw [drain] at hd; cases hd⟩
  · rw [(h.transports _ (Array.mem_of_getElem? hx)).2.1] at hl
    cases hl
  · rw [h.children] at hx
    cases hx
  · rw [h.tasks] at ht
    cases ht

theorem Client.Reached.free (h : Reached E c) : c.Free c.transports.size := by
  induction h with
  | fresh h => exact h.free
  | next _ happens ih =>
    have free := happens.free ih
    rw [(free 0 0).count]
    exact free

end LspClient
