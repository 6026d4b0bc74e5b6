/-
What happens beside a task that closes a process: transports of other processes are opened, read and closed, servers
write, end their streams and exit. None of it touches what the task has to itself, but for the exit of its own process,
which lets the task go on if it waits for that.
-/
import LspClient.Client.Steps
import LspClient.Proofs.Client.Closing
import LspClient.Proofs.Process.Apart

namespace LspClient

open Client

/-! ## Definitions -/

/-- Whether a transport is one to a process. -/
def Carrier.isProcess : Carrier → Bool
  | .process _ => true
  | _ => false

namespace Loop

/-- Some promises of the share are settled one after another; nothing else of the share changes meanwhile. -/
inductive Settles (S : Share) : List PromiseId → Loop Activity Event → Loop Activity Event → Prop
  | done {l l' : Loop Activity Event} (respects : l.Respects S l') : Settles S [] l l'
  | next {w : PromiseId} {ws : List PromiseId} {l m l' : Loop Activity Event} (respects : l.Respects S m)
    (rest : Settles S ws (m.settle w (.ok .null)) l') : Settles S (w :: ws) l l'

end Loop

namespace Client

/-- A process of a client. -/
def childAt (c : Client) (i : ChildId) : Child :=
  c.children[i]?.getD default

/-- A process has exited. -/
def HasExited (c : Client) (i : ChildId) : Prop :=
  (c.childAt i).exitCode.isSome = true

/-- Those of the share who wait for the process to exit. -/
def waitersFor (S : Share) (c : Client) : List PromiseId :=
  (c.childAt S.child).waiters.filter S.own.contains

/-- A client in which a task has its share to itself, and all else has to do with the transports of processes. -/
structure Apart (S : Share) (c : Client) : Prop where
  loop : c.loop.Apart S
  pipes : ∀ {p : PipeId} {x : Pipe} {w : PromiseId}, c.pipes[p]? = some x → x.waiter = some w → c.loop.Known S w
  count : c.transports.size = S.transports
  transports : ∀ {t : TransportId} {x : Transport}, c.transports[t]? = some x →
    x.carrier.isProcess = true ∧ ∀ d, x.drain = some d → c.loop.Known S d
  links : ∀ {t : TransportId} {x : Transport} {l : Link} {j : ChildId}, c.transports[t]? = some x → x.link = some l →
    l.child = some j → j < c.children.size
  children : ∀ {j : ChildId} {x : Child} {w : PromiseId}, c.children[j]? = some x → w ∈ x.waiters →
    w < c.loop.promises.size ∧ (j ≠ S.child → w ∉ S.own)
  tasks : ∀ {name r}, (name, r) ∈ c.tasks → r < c.loop.promises.size ∧ (r ∈ S.own → r = S.task)

/-- A change beside a task: its process may exit, and the links of transports are given up, or new ones are made to
processes that are launched. -/
structure Elsewhere (S : Share) (c c' : Client) : Prop where
  loop : ((c'.childAt S.child).exitCode = (c.childAt S.child).exitCode ∧ c'.waitersFor S = c.waitersFor S ∧
      c.loop.Respects S c'.loop) ∨
    (¬ c.HasExited S.child ∧ c'.HasExited S.child ∧ c'.waitersFor S = [] ∧
      c.loop.Settles S (c.waitersFor S) c'.loop)
  carriers : ∀ t, (c'.transportAt t).carrier = (c.transportAt t).carrier
  links : ∀ t link, (c'.transportAt t).link = some link →
    (c.transportAt t).link = some link ∨ ∃ j, link.child = some j ∧ c.children.size ≤ j
  launched : c.children.size ≤ c'.children.size

/-- A change beside a task, which leaves it its share. -/
structure Beside (S : Share) (c c' : Client) : Prop where
  elsewhere : c.Elsewhere S c'
  apart : c'.Apart S

end Client

/-- An operation that does nothing to the share of a task; what it answers is told by `R`. -/
structure Aside {α : Type} (E : Executor) (S : Share) (op : ClientM α) (R : Client → α → Prop) (c : Client) : Prop where
  keeps : c.Apart S → c.Beside S (does E op c).2 ∧ ∀ a, (does E op c).1 = .ok a → R (does E op c).2 a

/-- Nothing is told of an answer. -/
def Untold {α : Type} (_ : Client) (_ : α) : Prop :=
  True

variable {E : Executor} {S : Share} {α β : Type} {c c' c'' : Client} {R : Client → α → Prop} {R' : Client → β → Prop}
  {r : PromiseId} {t : TransportId} {i : ChildId} {p : PipeId}

/-! ## Changes one after another -/

namespace Loop

variable {l m l' : Loop Activity Event} {ws : List PromiseId}

theorem Respects.settles (h : l.Respects S m) (h' : m.Settles S ws l') : l.Settles S ws l' := by
  cases h' with
  | done respects => exact .done (h.trans respects)
  | next respects rest => exact .next (h.trans respects) rest

theorem Settles.respects (h : l.Settles S ws m) (h' : m.Respects S l') : l.Settles S ws l' := by
  induction h with
  | done respects => exact .done (respects.trans h')
  | next respects _ ih => exact .next respects (ih h')

theorem size_settle (l : Loop Activity Event) (w : PromiseId) (o : Outcome) :
    (l.settle w o).promises.size = l.promises.size := by
  rcases settle_cases l w o with e | ⟨_, e⟩ <;> rw [e]
  unfold complete
  split
  · exact Array.size_modify ..
  · rfl

theorem nextTimer_settle (l : Loop Activity Event) (w : PromiseId) (o : Outcome) :
    (l.settle w o).nextTimer = l.nextTimer := by
  rcases settle_cases l w o with e | ⟨_, e⟩ <;> rw [e]
  unfold complete
  split <;> rfl

theorem Settles.size (h : l.Settles S ws l') :
    l.promises.size ≤ l'.promises.size ∧ l.nextTimer ≤ l'.nextTimer ∧ l'.now = l.now := by
  induction h with
  | done respects => exact ⟨respects.size, respects.nextTimer, respects.now⟩
  | next respects _ ih =>
    rw [size_settle, nextTimer_settle, now_settle] at ih
    exact ⟨Nat.le_trans respects.size ih.1, Nat.le_trans respects.nextTimer ih.2.1, ih.2.2.trans respects.now⟩

end Loop

namespace Client

theorem Elsewhere.size (h : c.Elsewhere S c') :
    c.loop.promises.size ≤ c'.loop.promises.size ∧ c.loop.nextTimer ≤ c'.loop.nextTimer ∧ c'.loop.now = c.loop.now := by
  rcases h.loop with ⟨_, _, respects⟩ | ⟨_, _, _, settles⟩
  · exact ⟨respects.size, respects.nextTimer, respects.now⟩
  · exact settles.size

theorem Elsewhere.known (h : c.Elsewhere S c') (known : c.loop.Known S r) : c'.loop.Known S r :=
  known.mono h.size.1

theorem Elsewhere.minds (h : c.Elsewhere S c') {a : Activity}
    (minds : a.Minds (c.loop.Known S) (c.loop.KnownTimer S) S.transports) :
    a.Minds (c'.loop.Known S) (c'.loop.KnownTimer S) S.transports :=
  minds.mono (fun _ k => k.mono h.size.1) fun _ k => k.mono h.size.2.1

/-- A process that has exited stays so. -/
theorem Elsewhere.hasExited (h : c.Elsewhere S c') (exited : c.HasExited S.child) : c'.HasExited S.child := by
  rcases h.loop with ⟨same, _⟩ | ⟨_, exits, _⟩
  · unfold HasExited
    rwa [same]
  · exact exits

theorem Elsewhere.refl (S : Share) (c : Client) : c.Elsewhere S c :=
  ⟨.inl ⟨rfl, rfl, .refl S c.loop⟩, fun _ => rfl, fun _ _ h => .inl h, Nat.le_refl _⟩

theorem Elsewhere.trans (h : c.Elsewhere S c') (h' : c'.Elsewhere S c'') : c.Elsewhere S c'' := by
  refine ⟨?_, fun t => (h'.carriers t).trans (h.carriers t), fun t link hl => ?_, Nat.le_trans h.launched h'.launched⟩
  · rcases h.loop with ⟨same, waiters, respects⟩ | ⟨alive, exits, none, settles⟩
    · rcases h'.loop with ⟨same', waiters', respects'⟩ | ⟨alive', exits', none', settles'⟩
      · exact .inl ⟨same'.trans same, waiters'.trans waiters, respects.trans respects'⟩
      · refine .inr ⟨?_, exits', none', respects.settles (waiters ▸ settles')⟩
        unfold HasExited at alive' ⊢
        rwa [← same]
    · rcases h'.loop with ⟨same', waiters', respects'⟩ | ⟨alive', _⟩
      · refine .inr ⟨alive, ?_, waiters'.trans none, settles.respects respects'⟩
        unfold HasExited
        rwa [same']
      · exact absurd exits alive'
  · rcases h'.links t link hl with old | ⟨j, e, new⟩
    · exact h.links t link old
    · exact .inr ⟨j, e, Nat.le_trans h.launched new⟩

theorem Beside.trans (h : c.Beside S c') (h' : c'.Beside S c'') : c.Beside S c'' :=
  ⟨h.elsewhere.trans h'.elsewhere, h'.apart⟩

theorem Apart.beside (h : c.Apart S) : c.Beside S c :=
  ⟨.refl S c, h⟩

end Client

/-! ## Operations one after another -/

theorem aside_pure (a : α) (h : R c a) : Aside E S (pure a) R c :=
  ⟨fun apart => ⟨apart.beside, fun _ e => by cases e; exact h⟩⟩

theorem aside_throw (f : Fault) : Aside E S (throw f : ClientM α) R c :=
  ⟨fun apart => ⟨apart.beside, nofun⟩⟩

theorem Aside.bind {x : ClientM α} {f : α → ClientM β} (hx : Aside E S x R c)
    (hf : ∀ a c', c.Beside S c' → R c' a → Aside E S (f a) R' c') : Aside E S (x >>= f) R' c := by
  refine ⟨fun apart => ?_⟩
  obtain ⟨beside, told⟩ := hx.keeps apart
  rw [does_bind]
  rcases hx : does E x c with ⟨e | a, d⟩
  · rw [hx] at beside
    exact ⟨beside, nofun⟩
  · rw [hx] at beside told
    obtain ⟨beside', told'⟩ := (hf a d beside (told a rfl)).keeps beside.apart
    exact ⟨beside.trans beside', told'⟩

/-- That a task has its share to itself may be assumed. -/
theorem Aside.of_apart {x : ClientM α} (h : c.Apart S → Aside E S x R c) : Aside E S x R c :=
  ⟨fun apart => (h apart).keeps apart⟩

theorem Aside.mono {R' : Client → α → Prop} {x : ClientM α} (h : Aside E S x R c)
    (w : ∀ c' a, c.Beside S c' → R c' a → R' c' a) :
    Aside E S x R' c :=
  ⟨fun apart => ⟨(h.keeps apart).1, fun a e => w _ a (h.keeps apart).1 ((h.keeps apart).2 a e)⟩⟩

/-- What follows depends on nothing that is told. -/
theorem Aside.andThen {x : ClientM α} {f : α → ClientM β} (hx : Aside E S x R c)
    (hf : ∀ a c', c.Beside S c' → Aside E S (f a) R' c') : Aside E S (x >>= f) R' c :=
  hx.bind fun a c' b _ => hf a c' b

theorem Aside.tryCatch {x : ClientM α} {f : Fault → ClientM α} (hx : Aside E S x R c)
    (hf : ∀ e c', c.Beside S c' → Aside E S (f e) R c') : Aside E S (tryCatch x f) R c := by
  refine ⟨fun apart => ?_⟩
  obtain ⟨beside, told⟩ := hx.keeps apart
  rw [does_tryCatch]
  rcases hx : does E x c with ⟨e | a, d⟩
  · rw [hx] at beside
    obtain ⟨beside', told'⟩ := (hf e d beside).keeps beside.apart
    exact ⟨beside.trans beside', told'⟩
  · rw [hx] at beside told
    exact ⟨beside, told⟩

theorem aside_get : Aside E S get (fun c' a => a = c') c :=
  ⟨fun apart => ⟨apart.beside, fun _ e => by cases e; rfl⟩⟩

theorem aside_valueOf (o : Outcome) : Aside E S (valueOf o) Untold c := by
  cases o with
  | ok v => exact aside_pure _ trivial
  | error f => exact aside_throw f

/-! ## The parts of a client -/

namespace Client

/-- What has to do with no share. -/
theorem Apart.same (h : c.Apart S) (loop : c'.loop = c.loop) (pipes : c'.pipes = c.pipes)
    (transports : c'.transports = c.transports) (children : c'.children = c.children) (tasks : c'.tasks = c.tasks) :
    c.Beside S c' := by
  refine ⟨⟨.inl ⟨?_, ?_, ?_⟩, ?_, ?_, ?_⟩, ?_, ?_, ?_, ?_, ?_, ?_, ?_⟩
  · unfold childAt
    rw [children]
  · unfold waitersFor childAt
    rw [children]
  · rw [loop]
    exact .refl S c.loop
  · intro t
    unfold transportAt
    rw [transports]
  · intro t link hl
    unfold transportAt at hl ⊢
    rw [transports] at hl
    exact .inl hl
  · rw [children]
  · rw [loop]
    exact h.loop
  · rw [loop, pipes]
    exact h.pipes
  · rw [transports]
    exact h.count
  · rw [loop, transports]
    exact h.transports
  · rw [transports, children]
    exact h.links
  · rw [loop, children]
    exact h.children
  · rw [loop, tasks]
    exact h.tasks

/-- Another task runs, or none does. -/
theorem Apart.running (h : c.Apart S) (running : Option PromiseId) : c.Beside S { c with running } :=
  h.same rfl rfl rfl rfl rfl

/-- Something happens in the loop of a client, where the share stays a share. -/
theorem Apart.replace (h : c.Apart S) {l : Loop Activity Event} (apart : l.Apart S)
    (le : c.loop.promises.size ≤ l.promises.size) : ({ c with loop := l } : Client).Apart S :=
  ⟨apart, fun hx hw => (h.pipes hx hw).mono le, h.count,
    fun hx => ⟨(h.transports hx).1, fun d hd => ((h.transports hx).2 d hd).mono le⟩, h.links,
    fun hx hw => ⟨Nat.lt_of_lt_of_le (h.children hx hw).1 le, (h.children hx hw).2⟩,
    fun ht => ⟨Nat.lt_of_lt_of_le (h.tasks ht).1 le, (h.tasks ht).2⟩⟩

/-- The loop of a client goes on. -/
theorem Apart.withLoop (h : c.Apart S) {l : Loop Activity Event} (b : c.loop.Beside S l) :
    c.Beside S { c with loop := l } :=
  ⟨⟨.inl ⟨rfl, rfl, b.respects⟩, fun _ => rfl, fun _ _ hl => .inl hl, Nat.le_refl _⟩, h.replace b.apart b.respects.size⟩

/-- A pipe is changed. -/
theorem Apart.modifyPipe (h : c.Apart S) (p : PipeId) {f : Pipe → Pipe}
    (waiter : ∀ x w, c.pipes[p]? = some x → (f x).waiter = some w → c.loop.Known S w) :
    c.Beside S { c with pipes := c.pipes.modify p f } := by
  refine ⟨⟨.inl ⟨rfl, rfl, .refl S c.loop⟩, fun _ => rfl, fun _ _ hl => .inl hl, Nat.le_refl _⟩, h.loop, ?_, h.count,
    h.transports, h.links, h.children, h.tasks⟩
  intro q x w hx hw
  have hx : (c.pipes.modify p f)[q]? = some x := hx
  rw [Array.getElem?_modify] at hx
  split at hx
  · next e =>
    subst e
    obtain ⟨y, hy, rfl⟩ := Option.map_eq_some_iff.1 hx
    exact waiter y w hy hw
  · exact h.pipes hx hw

/-- A pipe is made. -/
theorem Apart.pushPipe (h : c.Apart S) (s : Stream) : c.Beside S { c with pipes := c.pipes.push { stream := s } } := by
  refine ⟨⟨.inl ⟨rfl, rfl, .refl S c.loop⟩, fun _ => rfl, fun _ _ hl => .inl hl, Nat.le_refl _⟩, h.loop, ?_, h.count,
    h.transports, h.links, h.children, h.tasks⟩
  intro q x w hx hw
  have hx : (c.pipes.push { stream := s })[q]? = some x := hx
  rw [Array.getElem?_push] at hx
  split at hx
  · cases hx
    cases hw
  · exact h.pipes hx hw

/-- A transport is changed, but not what it is made of; it is linked to nothing, to what it was, or to a process that
was launched since. -/
theorem Apart.modifyTransport (h : c.Apart S) (t : TransportId) {f : Transport → Transport}
    (carrier : ∀ x, (f x).carrier = x.carrier)
    (drain : ∀ x d, c.transports[t]? = some x → (f x).drain = some d → c.loop.Known S d)
    (link : ∀ x l, (f x).link = some l → x.link = some l) :
    c.Beside S { c with transports := c.transports.modify t f } := by
  refine ⟨⟨.inl ⟨rfl, rfl, .refl S c.loop⟩, fun u => ?_, fun u l hl => .inl ?_, Nat.le_refl _⟩, h.loop,
    h.pipes, ?_, ?_, ?_, h.children, h.tasks⟩
  · rcases transportAt_modify c u t f with e | e <;> rw [e]
    exact carrier _
  · rcases transportAt_modify c u t f with e | e <;> rw [e] at hl
    · exact hl
    · exact link _ l hl
  · exact (Array.size_modify ..).trans h.count
  · intro u x hx
    have hx : (c.transports.modify t f)[u]? = some x := hx
    rw [Array.getElem?_modify] at hx
    split at hx
    · next e =>
      subst e
      obtain ⟨y, hy, rfl⟩ := Option.map_eq_some_iff.1 hx
      exact ⟨by rw [carrier]; exact (h.transports hy).1, fun d hd => drain y d hy hd⟩
    · exact h.transports hx
  · intro u x l j hx hl hj
    have hx : (c.transports.modify t f)[u]? = some x := hx
    rw [Array.getElem?_modify] at hx
    split at hx
    · next e =>
      subst e
      obtain ⟨y, hy, rfl⟩ := Option.map_eq_some_iff.1 hx
      exact h.links hy (link y l hl) hj
    · exact h.links hx hl hj

theorem childAt_modify (c : Client) (i j : ChildId) (f : Child → Child) :
    ({ c with children := c.children.modify i f } : Client).childAt j =
      if i = j ∧ j < c.children.size then f (c.childAt j) else c.childAt j := by
  unfold childAt
  rw [Array.getElem?_modify]
  by_cases e : i = j
  · by_cases known : j < c.children.size
    · simp [e, known]
    · simp [e, known]
  · simp [e]

theorem mem_waiters_childAt {w : PromiseId} (hw : w ∈ (c.childAt i).waiters) :
    ∃ x, c.children[i]? = some x ∧ w ∈ x.waiters := by
  unfold childAt at hw
  cases hx : c.children[i]? with
  | none =>
    rw [hx] at hw
    cases hw
  | some x =>
    rw [hx] at hw
    exact ⟨x, rfl, hw⟩

/-- One more waits for a process to exit. -/
theorem Apart.await (h : c.Apart S) (i : ChildId) {w : PromiseId} (known : c.loop.Known S w) :
    c.Beside S { c with children := c.children.modify i fun x => { x with waiters := x.waiters ++ [w] } } := by
  have same : ∀ j,
    ({ c with children := c.children.modify i fun x => { x with waiters := x.waiters ++ [w] } } : Client).childAt j =
      c.childAt j ∨
      ({ c with children := c.children.modify i fun x => { x with waiters := x.waiters ++ [w] } } : Client).childAt j =
        { c.childAt j with waiters := (c.childAt j).waiters ++ [w] } := fun j => by
    rw [childAt_modify]
    split
    · exact .inr rfl
    · exact .inl rfl
  refine ⟨⟨.inl ⟨?_, ?_, .refl S c.loop⟩, fun _ => rfl, fun _ _ hl => .inl hl,
    Nat.le_of_eq (Array.size_modify ..).symm⟩, h.loop, h.pipes, h.count, h.transports, fun hx hl hj => ?_, ?_, h.tasks⟩
  · rcases same S.child with e | e <;> rw [e]
  · unfold waitersFor
    rcases same S.child with e | e <;> rw [e]
    simp [List.filter_append, known.2]
  · exact Nat.lt_of_lt_of_eq (h.links hx hl hj) (Array.size_modify ..).symm
  · intro j x w' hx hw
    have hx : (c.children.modify i _)[j]? = some x := hx
    rw [Array.getElem?_modify] at hx
    split at hx
    · obtain ⟨y, hy, rfl⟩ := Option.map_eq_some_iff.1 hx
      rcases List.mem_append.1 hw with hw | hw
      · exact h.children hy hw
      · cases List.mem_singleton.1 hw
        exact ⟨known.1, fun _ => known.2⟩
    · exact h.children hx hw

end Client

/-! ## Small operations -/

theorem aside_modify {f : Client → Client} (h : c.Apart S → c.Beside S (f c)) :
    Aside E S (modify f : ClientM Unit) Untold c :=
  ⟨fun apart => ⟨h apart, fun _ _ => trivial⟩⟩

theorem aside_note (n : Note) : Aside E S (note n) Untold c :=
  aside_modify fun h => h.same rfl rfl rfl rfl rfl

theorem aside_log (level : Log.Level) (source : Log.Source) (message : String) (fields : List (String × Value))
    (f : Option Fault) :
    Aside E S (log level source message fields f) Untold c :=
  aside_get.andThen fun _ _ _ => aside_note _

theorem aside_logTransport (level : Log.Level) (message : String) : Aside E S (logTransport level message) Untold c :=
  aside_log ..

theorem aside_onLoop {f : Loop Activity Event → Loop Activity Event} (h : c.Apart S → c.loop.Beside S (f c.loop)) :
    Aside E S (onLoop f) Untold c :=
  aside_modify fun apart => apart.withLoop (h apart)

theorem aside_withLoop {f : Loop Activity Event → α × Loop Activity Event}
    (h : c.Apart S → c.loop.Beside S (f c.loop).2 ∧ R { c with loop := (f c.loop).2 } (f c.loop).1) :
    Aside E S (withLoop f) R c :=
  ⟨fun apart => ⟨apart.withLoop (h apart).1, fun _ e => by cases e; exact (h apart).2⟩⟩

theorem aside_newPromise : Aside E S newPromise (fun c' r => c'.loop.Known S r) c :=
  aside_withLoop fun apart => apart.loop.newPromise .plain trivial

theorem aside_spawn {a : Activity} (minds : a.Minds (c.loop.Known S) (c.loop.KnownTimer S) S.transports) :
    Aside E S (spawn a) (fun c' r => c'.loop.Known S r) c :=
  aside_withLoop fun apart => apart.loop.spawn minds

theorem aside_gather {members : List PromiseId} (known : ∀ m ∈ members, c.loop.Known S m) (k : Activity) :
    Aside E S (gather members k) (fun c' next => ∃ g, c'.loop.Known S g ∧ next = .await g k) c :=
  (aside_withLoop (R := fun c' g => c'.loop.Known S g) fun apart => apart.loop.gather known).bind fun g _ _ known =>
    aside_pure _ ⟨g, known, rfl⟩

theorem aside_settle {o : Outcome} (known : r ∉ S.own) : Aside E S (onLoop fun l => l.settle r o) Untold c :=
  aside_onLoop fun apart => apart.loop.beside_settle known o

theorem aside_observe {job : Job Event} (known : c.loop.Known S r) (fits : job.Fits c.loop.promises.size)
    (other : job.concerns S.own = false) : Aside E S (onLoop fun l => l.observe r job) Untold c :=
  aside_onLoop fun apart => apart.loop.beside_observe known.2 fits
    (Job.concerns_eq_false.2 fun q e own => Job.concerns_eq_false.1 other q e (apart.loop.heard q own))

theorem aside_unobserve {target : PromiseId} (known : r ∉ S.own) :
    Aside E S (onLoop fun l => l.unobserve r target) Untold c :=
  aside_onLoop fun apart => apart.loop.beside_unobserve known target

theorem aside_cancelTimer {k : TimerId} (known : k ∉ S.timers) : Aside E S (onLoop fun l => l.cancelTimer k) Untold c :=
  aside_onLoop fun apart => apart.loop.cancelTimer known

theorem aside_cancelPromise (known : r ∉ S.own) : Aside E S (cancelPromise r) Untold c :=
  aside_withLoop fun apart => ⟨apart.loop.cancel known, trivial⟩

theorem aside_isSettled (r : PromiseId) : Aside E S (isSettled r) Untold c :=
  aside_get.andThen fun _ _ _ => aside_pure _ trivial

theorem aside_outcomeOf (r : PromiseId) : Aside E S (outcomeOf r) Untold c := by
  refine aside_get.andThen fun _ _ _ => ?_
  split
  · exact aside_valueOf _
  · exact aside_throw _

theorem aside_callLater {delay : Number} {job : Job Event} (fits : job.Fits c.loop.promises.size)
    (other : job.concerns S.own = false) :
    Aside E S (callLater delay job) (fun c' k => c'.loop.KnownTimer S k) c := by
  have exact_ : Aside E S (seconds delay) Untold c := by
    unfold seconds
    split
    · exact aside_pure _ trivial
    · exact aside_throw _
  refine exact_.bind fun s c' b _ => aside_withLoop fun apart =>
    apart.loop.callLater s (fits.mono b.elsewhere.size.1) ?_
  exact Job.concerns_eq_false.2 fun q e own => Job.concerns_eq_false.1 other q e (apart.loop.heard q own)

theorem aside_transport (t : TransportId) : Aside E S (transport t) (fun c' x => x = c'.transportAt t) c :=
  aside_get.bind fun _ _ _ e => aside_pure _ (by rw [e]; rfl)

theorem aside_pipe (p : PipeId) : Aside E S (pipe p) (fun c' x => ∀ w, x.waiter = some w → c'.loop.Known S w) c := by
  refine aside_get.bind fun a c' _ e => .of_apart fun apart => aside_pure _ fun w hw => ?_
  subst e
  cases hx : a.pipes[p]? with
  | none =>
    rw [hx] at hw
    cases hw
  | some x =>
    rw [hx] at hw
    exact apart.pipes hx hw

theorem aside_onPipe {f : Pipe → Pipe} (waiter : ∀ x, (f x).waiter = x.waiter ∨ (f x).waiter = none) :
    Aside E S (onPipe p f) Untold c := by
  refine aside_modify fun apart => apart.modifyPipe p fun x w hx hw => ?_
  rcases waiter x with e | e <;> rw [e] at hw
  · exact apart.pipes hx hw
  · cases hw

theorem aside_newPipe (lineLimit : Nat) : Aside E S (newPipe lineLimit) Untold c :=
  ⟨fun apart => ⟨apart.pushPipe _, fun _ _ => trivial⟩⟩

theorem aside_child (i : ChildId) : Aside E S (child i) (fun c' x => x = c'.childAt i) c :=
  aside_get.bind fun _ _ _ e => aside_pure _ (by rw [e]; rfl)

theorem aside_childPeer (i : ChildId) : Aside E S (childPeer i) Untold c :=
  (aside_child i).andThen fun _ _ _ => aside_get.andThen fun _ _ _ => aside_pure _ trivial

theorem aside_onPeer (f : Peer → Peer) : Aside E S (onPeer f) Untold c :=
  aside_modify fun h => h.same rfl rfl rfl rfl rfl

/-! ## Pipes -/

theorem aside_wakeReader (o : Outcome) : Aside E S (wakeReader p o) Untold c := by
  unfold wakeReader
  refine (aside_pipe p).bind fun x c' b known => ?_
  split
  · next w hw =>
    refine (aside_onPipe ?_).andThen fun _ _ _ => aside_settle (known w hw).2
    exact fun _ => .inr rfl
  · exact aside_pure _ trivial

theorem aside_feedPipe (octets : Octets) : Aside E S (feedPipe p octets) Untold c := by
  unfold feedPipe
  refine (aside_pipe p).andThen fun x c' b => ?_
  split
  · exact aside_pure _ trivial
  · refine (aside_onPipe ?_).andThen fun _ _ _ => aside_wakeReader _
    exact fun _ => .inl rfl

theorem aside_finishPipe : Aside E S (finishPipe p) Untold c := by
  unfold finishPipe
  refine (aside_onPipe ?_).andThen fun _ _ _ => aside_wakeReader _
  exact fun _ => .inl rfl

theorem aside_breakPipe (f : Fault) : Aside E S (breakPipe p f) Untold c := by
  unfold breakPipe
  refine (aside_onPipe ?_).andThen fun _ _ _ => aside_wakeReader _
  exact fun _ => .inl rfl

theorem aside_stopWaiting : Aside E S (stopWaiting p) Untold c :=
  aside_onPipe fun _ => .inr rfl

/-! ## Processes that exit -/

namespace Loop

/-- Some promises are settled one after another. -/
def settleAll (ws : List PromiseId) (l : Loop Activity Event) : Loop Activity Event :=
  ws.foldl (fun l w => l.settle w (.ok .null)) l

/-- Of the promises that are settled, those of the share are the ones that matter to it. -/
theorem Apart.settleAll (ws : List PromiseId) {l : Loop Activity Event} (h : l.Apart S) :
    (l.settleAll ws).Apart S ∧ l.Settles S (ws.filter S.own.contains) (l.settleAll ws) := by
  induction ws generalizing l with
  | nil => exact ⟨h, .done (.refl S l)⟩
  | cons w ws ih =>
    obtain ⟨apart, settles⟩ := ih (h.settle w (.ok .null))
    refine ⟨apart, ?_⟩
    by_cases own : w ∈ S.own
    · rw [List.filter_cons_of_pos (by simpa using own)]
      exact .next (.refl S l) settles
    · rw [List.filter_cons_of_neg (by simpa using own)]
      exact (h.beside_settle own _).respects.settles settles

end Loop

namespace Client

/-- Some who wait are let go on. -/
theorem Apart.settleAll (ws : List PromiseId) (h : c.Apart S) :
    ({ c with loop := c.loop.settleAll ws } : Client).Apart S :=
  h.replace (h.loop.settleAll ws).1 (h.loop.settleAll ws).2.size.1

/-- A process has exited, and those who waited for it are forgotten. -/
def exited (i : ChildId) (code : Int) (c : Client) : Client :=
  { c with children := c.children.modify i fun x => { x with exitCode := some code, waiters := [] } }

theorem hasExited_exited (inside : i < c.children.size) (code : Int) : (c.exited i code).HasExited i := by
  have child : (c.exited i code).childAt i = _ := childAt_modify c i i _
  unfold HasExited
  rw [child, if_pos ⟨rfl, inside⟩]
  rfl

theorem Apart.exited (h : c.Apart S) (i : ChildId) (code : Int) : (c.exited i code).Apart S := by
  refine ⟨h.loop, h.pipes, h.count, h.transports, fun hx hl hj => ?_, ?_, h.tasks⟩
  · exact Nat.lt_of_lt_of_eq (h.links hx hl hj) (Array.size_modify ..).symm
  intro j x w hx hw
  have hx : (c.children.modify i _)[j]? = some x := hx
  rw [Array.getElem?_modify] at hx
  split at hx
  · obtain ⟨y, hy, rfl⟩ := Option.map_eq_some_iff.1 hx
    cases hw
  · exact h.children hx hw

end Client

theorem does_settleAll (ws : List PromiseId) (c : Client) :
    does E (forIn ws PUnit.unit fun w _ => do
      onLoop fun l => l.settle w (.ok .null)
      pure (.yield PUnit.unit)) c = (.ok PUnit.unit, { c with loop := c.loop.settleAll ws }) := by
  induction ws generalizing c with
  | nil => rfl
  | cons w ws ih =>
    rw [List.forIn_cons]
    exact (does_bind_of_ok (a := ForInStep.yield PUnit.unit) rfl _).trans
      (ih { c with loop := c.loop.settle w (.ok .null) })

/-- A pipe ends, which does not fail. -/
theorem does_finishPipe (p : PipeId) (c : Client) :
    ∃ d, does E (finishPipe p) c = (.ok (), d) ∧ d.notes = c.notes ∧ ∀ S, c.Apart S → c.Beside S d := by
  have woken : ∀ c : Client, (does E (wakeReader p (.ok .null)) c).1 = .ok () ∧
      (does E (wakeReader p (.ok .null)) c).2.notes = c.notes := fun c => by
    have first : does E (pipe p) c = (.ok (c.pipes[p]?.getD default), c) := rfl
    unfold wakeReader
    rw [does_bind_of_ok first]
    split <;> exact ⟨rfl, rfl⟩
  obtain ⟨done, notes⟩ := woken { c with pipes := c.pipes.modify p fun x => { x with stream := x.stream.finish } }
  exact ⟨_, Prod.ext done rfl, notes, fun S h => (aside_finishPipe.keeps h).1⟩

/-- What a process that has not exited yet does when it exits: its streams end, and then those who wait for it go on. -/
theorem does_childExits (i : ChildId) (code : Int) (alive : (c.childAt i).exitCode = none) :
    ∃ d, does E (childExits i code) c = (.ok (), { d with loop := d.loop.settleAll (c.childAt i).waiters }) ∧
      d.notes = c.notes ∧ ∀ S, c.Apart S → (c.exited i code).Beside S d := by
  have first : does E (child i) c = (.ok (c.childAt i), c) := rfl
  obtain ⟨d, h, notes, beside⟩ := does_finishPipe (E := E) (c.childAt i).output (c.exited i code)
  have exits : does E (onChild i fun x => { x with exitCode := some code, waiters := [] }) c =
      (.ok (), c.exited i code) := rfl
  unfold childExits
  rw [does_bind_of_ok first, alive]
  simp only [Option.isNone_none, if_true]
  rw [does_bind_of_ok exits, does_bind_of_ok h]
  cases (c.childAt i).errors with
  | none =>
    refine ⟨d, ?_, notes, fun S apart => beside S (apart.exited i code)⟩
    exact (does_bind_of_ok (does_settleAll (E := E) (c.childAt i).waiters d) _).trans rfl
  | some q =>
    obtain ⟨d', h', notes', beside'⟩ := does_finishPipe (E := E) q d
    refine ⟨d', ?_, notes'.trans notes, fun S apart => ?_⟩
    · exact (does_bind_of_ok h' _).trans
        ((does_bind_of_ok (does_settleAll (E := E) (c.childAt i).waiters d') _).trans rfl)
    · have ends := beside S (apart.exited i code)
      exact ends.trans (beside' S ends.apart)

/-- A process exits only once. -/
theorem does_childExits_again (code : Int) (exited : c.HasExited i) : does E (childExits i code) c = (.ok (), c) := by
  have first : does E (child i) c = (.ok (c.childAt i), c) := rfl
  obtain ⟨before, exited⟩ := Option.isSome_iff_exists.1 exited
  unfold childExits
  rw [does_bind_of_ok first, exited]
  rfl

theorem aside_childExits (i : ChildId) (code : Int) : Aside E S (childExits i code) Untold c := by
  refine .of_apart fun apart => ?_
  cases alive : (c.childAt i).exitCode with
  | some before =>
    have nothing := does_childExits_again (E := E) (c := c) code (Option.isSome_iff_exists.2 ⟨before, alive⟩)
    exact ⟨fun apart => by rw [nothing]; exact ⟨apart.beside, fun _ _ => trivial⟩⟩
  | none =>
    obtain ⟨d, h, -, beside⟩ := does_childExits (E := E) i code alive
    refine ⟨fun apart => ?_⟩
    have ended := beside S apart
    obtain ⟨apart', settles⟩ := ended.apart.loop.settleAll (c.childAt i).waiters
    rw [h]
    refine ⟨?_, fun _ _ => trivial⟩
    have children : (c.exited i code).childAt S.child = _ := childAt_modify c i S.child _
    by_cases own : i = S.child ∧ S.child < c.children.size
    · -- It is the process of the share: those of the share who wait for it go on.
      rw [if_pos own] at children
      have exited : (c.exited i code).HasExited S.child := own.1 ▸ hasExited_exited (own.1 ▸ own.2) code
      rcases ended.elsewhere.loop with ⟨same, waiters, respects⟩ | ⟨alive', _⟩
      · have size : (c.exited i code).children.size = c.children.size := Array.size_modify ..
        refine ⟨⟨.inr ⟨?_, ?_, ?_, ?_⟩, ended.elsewhere.carriers, fun t l hl => ?_, ?_⟩, ended.apart.settleAll _⟩
        · unfold HasExited
          rw [← own.1, alive]
          nofun
        · unfold HasExited at exited ⊢
          exact same ▸ exited
        · refine waiters.trans ?_
          unfold waitersFor
          rw [children]
          rfl
        · unfold waitersFor
          rw [← own.1]
          exact respects.settles settles
        · exact (ended.elsewhere.links t l hl).imp_right fun ⟨j, e, new⟩ => ⟨j, e, size ▸ new⟩
        · exact size ▸ ended.elsewhere.launched
      · exact absurd exited alive'
    · -- It is another one: nobody of the share waits for it.
      rw [if_neg own] at children
      have first : c.Elsewhere S (c.exited i code) := by
        refine ⟨.inl ⟨by rw [children], ?_, .refl S c.loop⟩, fun _ => rfl, fun _ _ hl => .inl hl,
          Nat.le_of_eq (Array.size_modify ..).symm⟩
        unfold waitersFor
        rw [children]
      have others : (c.childAt i).waiters.filter S.own.contains = [] := by
        refine List.filter_eq_nil_iff.2 fun w hw => ?_
        obtain ⟨x, hx, hw⟩ := mem_waiters_childAt hw
        have ne : i ≠ S.child := fun e => own ⟨e, e ▸ (Array.getElem?_eq_some_iff.1 hx).1⟩
        simpa using (apart.children hx hw).2 ne
      rw [others] at settles
      have respects : d.loop.Respects S (d.loop.settleAll (c.childAt i).waiters) := by
        cases settles with
        | done respects => exact respects
      exact (⟨first, apart.exited i code⟩ : c.Beside S _).trans (ended.trans (ended.apart.withLoop ⟨respects, apart'⟩))

theorem aside_childExitsLater (i : ChildId) (p : Peer) : Aside E S (childExitsLater i p) Untold c := by
  unfold childExitsLater
  split
  · exact aside_childExits i _
  · exact (aside_callLater (Job.fits_notify rfl) rfl).andThen fun _ _ _ => aside_pure _ trivial

end LspClient
