/-
What a task that closes a process asks of it in each of its turns: first its input is closed; if its time is over, the
process is asked to terminate; and if its time is over again, it is killed. After the first two of them the task waits
again, and after the last one it does not.
-/
import LspClient.Proofs.Process.Ending

namespace LspClient

open Client

variable {E : Executor} {S : Share} {c c' d : Client} {p q : PromiseId} {i : ChildId} {t : TransportId} {m n : Nat}
  {o : Outcome} {a k : Activity} {l : Launch} {texts : List String} {stack : List Activity}

/-! ## A whole turn beside a share -/

/-- A turn of a task is beside the share of another one. -/
theorem Advances.beside (h : Advances E q m stack o c d) (apart : c.Apart S) (known : c.loop.Known S q)
    (minds : ∀ a ∈ stack, c.Minds S a) : c.Beside S d := by
  induction h with
  | ends => exact apart.withLoop (apart.loop.finish known.2 _)
  | @step _ _ _ _ o _ _ _ _ goes _ ih =>
    obtain ⟨beside, left⟩ := (aside_runActivity (E := E) known minds o).keeps apart
    rw [does_runActivity_of goes] at beside left
    exact beside.trans (ih beside.apart (beside.known known) (left _ rfl _ _ rfl))
  | @waits _ _ _ o _ _ goes =>
    have beside := ((aside_runActivity (E := E) known minds o).keeps apart).1
    rw [does_runActivity_of goes] at beside
    exact beside

/-! ## Waiting again -/

/-- An activity that hands on that a time cannot be measured. -/
def Activity.HandsOn (E : Executor) (k : Activity) : Prop :=
  ∀ g c, does E (goOn k (.error (.range g))) c = (.error (.range g), c)

/-- A task begins to wait for the exit of its process, or ends because the time for that cannot be measured. -/
theorem Client.Alone.waits (h : c.Alone p i n) (launched : i < c.children.size) (hands : k.HandsOn E) (limit : Number) :
    ∃ d m, m ≤ 3 ∧ Advances E p m [.within (.awaitExit i) (some limit), k] (.ok .null) c d ∧ d.asked = c.asked ∧
      (Stays p i n limit c.loop.now k d.atRest ∨ Over p i n [limit] d.atRest) := by
  rcases h.within (E := E) launched limit k with ⟨d, m, le, goes, stays, notes⟩ | ⟨g, d, widen, goes, alone, notes⟩
  · exact ⟨d, m, Nat.le_succ_of_le le, goes, asked_congr notes, .inl stays⟩
  · exact ⟨_, 3, Nat.le_refl 3, .step goes (.step (by rw [hands]; exact .fault ..) .ends), asked_congr notes,
      .inr (alone.runs.finish (.inr ⟨_, ⟨limit, List.mem_singleton_self _, g, widen, rfl⟩, rfl⟩))⟩

/-- How a turn ends in which a task asks for something and then waits: what it asks for, and what it leaves of the share
of others. -/
structure AsksAndWaits (E : Executor) (p : PromiseId) (i : ChildId) (n : Nat) (t : TransportId) (limit : Number)
    (k : Activity) (texts : List String) (stack : List Activity) (o : Outcome) (c c' d : Client) (m : Nat) : Prop where
  short : m ≤ 5
  goes : Advances E p m stack o c d
  asked : d.asked = c'.asked ++ texts
  left : Stays p i n limit c'.loop.now k d.atRest ∨ Over p i n [limit, c'.exitDelay i] d.atRest
  beside : ∀ S, c'.Apart S → c'.loop.Known S p → t < S.transports → c'.Beside S d

/-- A task asks for something, and waits for the exit of its process then. -/
theorem Client.Alone.proceeds (h : c'.Alone p i n) (carrier : (c'.transportAt t).carrier = .process l)
    (launched : i < c'.children.size) (hands : k.HandsOn E)
    (minds : ∀ (S : Share) (c : Client), t < S.transports → c.Minds S k) {x : ClientM Unit}
    (aside : ∀ S c, Aside E S x Untold c) (asks : Asks texts (c'.exitDelay i) c' (does E x c'))
    (goes : does E (goOn a o) c = does E (x >>= fun _ => awaitExitWithin t i k) c') :
    ∃ d m, AsksAndWaits E p i n t l.closeTimeout k texts [a] o c c' d m := by
  obtain ⟨v, shows, -⟩ := id h
  have b : ∀ S, c'.Apart S → c'.Beside S (does E x c').2 := fun S apart => ((aside S c').keeps apart).1
  have after := h.beside (b _ shows.apart)
  rcases hx : does E x c' with ⟨f | ⟨⟩, e⟩
  · rw [hx] at b after asks
    rw [does_bind_of_error hx] at goes
    have ends : Advances E p 1 [] (.error f) e _ := .ends
    exact ⟨_, 2, by omega, .step (by rw [goes]; exact .fault ..) ends, asks.asked, .inr ((after.runs.finish (.inr ⟨f, asks.fault f rfl, rfl⟩)).mono (List.subset_cons_self ..)),
      fun S apart known _ => (b S apart).trans (ends.beside (b S apart).apart ((b S apart).known known) nofun)⟩
  · rw [hx] at b after asks
    have only := (b _ shows.apart).elsewhere
    have calls : does E (goOn a o) c = (.ok (.call (.within (.awaitExit i) (some l.closeTimeout)) k), e) := by
      have first : does E (transport t) e = (.ok (e.transportAt t), e) := rfl
      have same : (e.transportAt t).carrier = .process l := (only.carriers t).trans carrier
      rw [goes, does_bind_of_ok hx]
      unfold awaitExitWithin
      rw [does_bind_of_ok first, same]
      rfl
    obtain ⟨d, m, le, waits, asked, left⟩ :=
      after.waits (Nat.lt_of_lt_of_le launched only.launched) hands l.closeTimeout
    refine ⟨d, m + 1, by omega, .step (by rw [calls]; exact .call ..) waits, asked.trans asks.asked, ?_,
      fun S apart known lt => ?_⟩
    · rw [only.size.2.2] at left
      exact left.imp_right fun finished => finished.mono (List.cons_subset_cons _ (List.nil_subset _))
    · exact (b S apart).trans (waits.beside (b S apart).apart ((b S apart).known known)
        (List.forall_mem_cons.2 ⟨⟨i, rfl⟩, List.forall_mem_singleton.2 (minds S e lt)⟩))

/-! ## The first turn -/

/-- A client in which a transport is linked to nothing. -/
def Client.unlinked (c : Client) (t : TransportId) : Client :=
  { c with transports := c.transports.modify t fun x => { x with link := none } }

theorem link_unlinked (c : Client) (t : TransportId) : ((c.unlinked t).transportAt t).link = none := by
  unfold unlinked transportAt
  rw [Array.getElem?_modify, if_pos rfl]
  cases c.transports[t]? <;> rfl

theorem beside_unlinked (apart : c.Apart S) (t : TransportId) : c.Beside S (c.unlinked t) :=
  ((aside_unlink (E := fun _ => pure default) t).keeps apart).1

/-- The transport of a process is closed: it is linked to nothing at once. -/
theorem Client.Alone.closes (h : c.Alone p i n) (carrier : (c.transportAt t).carrier = .process l) {pipe : PipeId}
    (link : (c.transportAt t).link = some ⟨pipe, some i⟩) (launched : i < c.children.size) :
    ∃ d m texts, (texts = [] ∨ texts = ["close"]) ∧
      AsksAndWaits E p i n t l.closeTimeout (.closeAwaited t i) texts [.closeTransport t] (.ok .null) c
      (c.unlinked t) d m := by
  obtain ⟨v, shows, -⟩ := id h
  have b := beside_unlinked shows.apart t
  have begins : does E (goOn (.closeTransport t) (.ok .null)) c =
      does E (closeInput i >>= fun _ => awaitExitWithin t i (.closeAwaited t i)) (c.unlinked t) := by
    have first : does E (transport t) c = (.ok (c.transportAt t), c) := rfl
    have unlinks : does E (onTransport t fun x => { x with link := none }) c = (.ok ⟨⟩, c.unlinked t) := rfl
    show does E (closeTransport t) c = _
    unfold closeTransport
    rw [does_bind_of_ok first, carrier, link]
    exact does_bind_of_ok unlinks _
  obtain ⟨texts, one, asks⟩ := asks_closeInput (E := E) i (c.unlinked t)
  obtain ⟨d, m, proceeds⟩ :=
    (h.beside b).proceeds (k := .closeAwaited t i) ((b.elsewhere.carriers t).trans carrier) launched (fun _ _ => rfl)
    (fun _ _ lt => lt) (fun _ _ => aside_closeInput i) asks begins
  exact ⟨d, m, texts, one, proceeds⟩

/-! ## Time is over -/

/-- The time of a task is over: its process is asked to terminate. -/
theorem Client.Alone.terminates (h : c.Alone p i n) (carrier : (c.transportAt t).carrier = .process l)
    (launched : i < c.children.size) : ∃ d m, m ≤ 5 ∧ Advances E p m [.closeAwaited t i] (.error .timedOut) c d ∧
      d.asked = c.asked ++ ["terminate"] ∧
      (Stays p i n l.closeTimeout c.loop.now (.closeTerminated t i) d.atRest ∨
        Over p i n [l.closeTimeout, c.exitDelay i] d.atRest) := by
  obtain ⟨v, shows, -⟩ := id h
  obtain ⟨e, logs, asked, delay⟩ :=
    does_logTransport (E := E) .warning "Server process pid=1000 did not exit, terminating" c
  have b : c.Beside (.only p i n) e := by
    have beside :=
      ((aside_logTransport (E := E) .warning "Server process pid=1000 did not exit, terminating").keeps shows.apart).1
    rwa [logs] at beside
  have goes : does E (goOn (.closeAwaited t i) (.error .timedOut)) c =
      does E (terminate i >>= fun _ => awaitExitWithin t i (.closeTerminated t i)) e := does_bind_of_ok logs _
  obtain ⟨d, m, short, goes, asks, left, -⟩ :=
    (h.beside b).proceeds (k := .closeTerminated t i) ((b.elsewhere.carriers t).trans carrier)
    (Nat.lt_of_lt_of_le launched b.elsewhere.launched) (fun _ _ => rfl) (fun _ _ lt => lt)
      (fun _ _ => aside_terminate i)
    (asks_terminate (E := E) i e) goes
  rw [asked] at asks
  rw [b.elsewhere.size.2.2, delay] at left
  exact ⟨d, m, short, goes, asks, left⟩

/-- The time of a task is over once more: its process is killed. -/
theorem Client.Alone.kills (h : c.Alone p i n) (lt : t < n) (launched : i < c.children.size) :
    ∃ d m, m ≤ 5 ∧ Advances E p m [.closeTerminated t i] (.error .timedOut) c d ∧ d.asked = c.asked ++ ["kill"] ∧
      Over p i n [] d.atRest := by
  obtain ⟨v, shows, -⟩ := id h
  obtain ⟨e, killed, asked, exited⟩ := does_kill (E := E) shows.apart launched
  have b : c.Beside (.only p i n) e := by
    have beside := ((aside_kill (E := E) i).keeps shows.apart).1
    rwa [show does E (kill i) c = _ from killed] at beside
  have calls :
      does E (goOn (.closeTerminated t i) (.error .timedOut)) c = (.ok (.call (.awaitExit i) (.closeKilled t i)), e) :=
    does_bind_of_ok killed _
  obtain ⟨d, m, le, drains, finished, same⟩ := (h.beside b).runs.drains (E := E) (k := .closeKilled t i) lt exited rfl
  refine ⟨d, m + 2, by omega, .step (by rw [calls]; exact .call ..) (.step ?_ drains), same.trans asked, finished⟩
  rw [goOn_awaitExit_done (i := i) exited]
  exact .done ..

end LspClient
