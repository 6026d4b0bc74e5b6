/-
Timers belong to registrations. A ledger holds a registry, its loop, and what is known of every registration so far: the
entry that it made, with the timer that is its own, the timeout, and when it was made. Requests are registered, settled,
cancelled, rejected and registered again under the same ids, while time goes on, the loop takes its turns, and other
things happen in it. In every ledger that is reached from an empty registry, whatever its memory has room for, the
timers that are armed are those of the pending requests with a timeout, one for each; a request is rejected because its
time is up only by its own timer, with its own method and timeout, and not before its time is up; and when the loop has
nothing left to do, no pending request is overdue.
-/
import LspClient.Proofs.Loop.Alarms
import LspClient.Proofs.Registry.Settlement

namespace LspClient.Registry

open Loop (Disarms)

/-! ## Definitions -/

/-- What is known of a registration. -/
structure Ticket where
  /-- The entry that it made, with the timer that is its own. -/
  entry : Pending CancelHook
  timeout : Option Number
  /-- When it was made. -/
  since : Float

/-- When the time of a request is up, if it ever is. -/
def Ticket.due? (t : Ticket) : Option Float :=
  t.timeout.bind fun n => n.widen.toOption.map (t.since + ·)

/-- What tells the registry that the time of a request is up. -/
def alarm (owner : Owner) (id : RequestId) (timeout : Number) : Job Event :=
  .notify (.requestExpired owner id timeout)

def IsAlarm (owner : Owner) (job : Job Event) : Prop :=
  ∃ id timeout, job = alarm owner id timeout

/-- What an alarm of an owner tells of: its timer, the request, and the timeout. -/
def told? (owner : Owner) : Option TimerId × Job Event → Option (Option TimerId × RequestId × Number)
  | (timer, .notify (.requestExpired o id timeout)) => if o = owner then some (timer, id, timeout) else none
  | _ => none

/-- The alarms of an owner that are armed, whether their time has come or not. -/
def alarms (owner : Owner) (l : Loop Activity Event) : List (Option TimerId × RequestId × Number) :=
  l.ahead.filterMap (told? owner)

/-- The promises of the tickets stay what they are, and no alarm waits for them that did not wait before. -/
def Steady (owner : Owner) (tickets : List Ticket) (l l' : Loop Activity Event) : Prop :=
  ∀ t ∈ tickets, (l.role? t.entry.promise = some .plain → l'.role? t.entry.promise = some .plain) ∧
    ∀ job ∈ l'.observers t.entry.promise, IsAlarm owner job → job ∈ l.observers t.entry.promise

/-- A registry, its loop, and the registrations so far. -/
structure Ledger where
  registry : Registry CancelHook
  loop : Loop Activity Event
  tickets : List Ticket := []

namespace Ledger

/-- The tickets once a call has been answered: a registration that succeeds adds one. -/
def ticketsAfter (w : Ledger) (registry : Registry CancelHook) : Call → Except Fault Answer → List Ticket
  | .register id _ timeout _, .ok _ =>
    w.tickets ++ (registry.find? id).toList.map fun entry => ⟨entry, timeout, w.loop.now⟩
  | _, _ => w.tickets

/-- The ledger after a call. -/
def perform (owner : Owner) (c : Call) (w : Ledger) : Ledger :=
  let (answer, registry, loop) := exec (c.operation owner) (w.registry, w.loop)
  { registry, loop, tickets := w.ticketsAfter registry c answer }

/-- What the registry does when the turn of a job has come. -/
def hear (owner : Owner) (s : Registry CancelHook × Loop Activity Event) :
    Job Event → Registry CancelHook × Loop Activity Event
  | .notify (.requestExpired o id timeout) => if o = owner then (exec (expire id timeout) s).2 else s
  | .notify (.requestSettled o id promise) => if o = owner then (exec (forgetCancelled id promise) s).2 else s
  | _ => s

/-- The ledger after the turn of a job, which has been taken from the loop. -/
def afterTurn (owner : Owner) (w : Ledger) (job : Job Event) (l : Loop Activity Event) : Ledger :=
  let (registry, loop) := hear owner (w.registry, l) job
  { w with registry, loop }

/-- What makes something happen in a ledger. -/
inductive Cause where
  | call (c : Call)
  /-- The turn of a job has come; it may come from a timer. -/
  | turn (timer : Option TimerId)
  /-- A promise is cancelled behind the registry's back. -/
  | cancelled (promise : PromiseId)
  /-- Time goes on. -/
  | clock
  | elsewhere

/-- One thing that happens in a ledger. -/
inductive Step (owner : Owner) : Cause → Ledger → Ledger → Prop where
  /-- Anything is asked of the registry, but that it let a request expire: only timers do that. -/
  | call (w : Ledger) (c : Call) (own : ∀ id timeout, c ≠ .expire id timeout) :
    Step owner (.call c) w (w.perform owner c)
  | turn (w : Ledger) (job : Job Event) (l : Loop Activity Event) (next : w.loop.next? = some (job, l)) :
    Step owner (.turn w.loop.nextTimer?) w (w.afterTurn owner job l)
  | cancelled (w : Ledger) (t : Ticket) (mem : t ∈ w.tickets) :
    Step owner (.cancelled t.entry.promise) w { w with loop := (w.loop.cancel t.entry.promise).2 }
  | clock (w : Ledger) (now : Float) (later : Loop.isDue now w.loop.now = true) :
    Step owner .clock w { w with loop := { w.loop with now } }
  /-- Other things happen in the loop, with other jobs, timers and promises. -/
  | elsewhere (w : Ledger) (l : Loop Activity Event) (now : l.now = w.loop.now)
    (alarms : Disarms (IsAlarm owner) none w.loop l) (steady : Steady owner w.tickets w.loop l)
    (same : ∀ t ∈ w.tickets, l.outcome? t.entry.promise = w.loop.outcome? t.entry.promise) :
    Step owner .elsewhere w { w with loop := l }

/-- The ledgers that may come of a ledger. -/
inductive Reaches (owner : Owner) (w : Ledger) : Ledger → Prop where
  | refl : Reaches owner w w
  | step {w' w'' : Ledger} {cause : Cause} (h : Reaches owner w w') (s : Step owner cause w' w'') : Reaches owner w w''

/-- The registrations whose requests are pending. -/
def waiting (w : Ledger) : List Ticket :=
  w.tickets.filter fun t => w.registry.pending.any fun e => e.promise = t.entry.promise

/-- A registration under an id that is not pending enters a pending request with a ticket of its own, unless no double
is near its timeout. -/
def Enters (owner : Owner) (w : Ledger) : Prop :=
  ∀ id method timeout hook, w.registry.contains id = false → (∀ n f, timeout = some n → n.widen ≠ .error f) →
    ∃ t ∈ (w.perform owner (.register id method timeout hook)).waiting,
      (w.perform owner (.register id method timeout hook)).tickets = w.tickets ++ [t] ∧
      t.entry.id = id ∧ t.entry.method = method ∧ t.timeout = timeout ∧ t.since = w.loop.now ∧
      (w.perform owner (.register id method timeout hook)).loop.outcome? t.entry.promise = none

end Ledger

/-! ## The invariant -/

/-- The job of a timer that belongs to a registration. -/
def Ticket.Owns (owner : Owner) (t : Ticket) (x : Option TimerId × Job Event) : Prop :=
  ∃ n timer, t.timeout = some n ∧ t.entry.timer = some timer ∧ x = (some timer, alarm owner t.entry.id n)

/-- What holds between pending requests, their loop and the registrations so far. -/
structure Timely (owner : Owner) (pending : List (Pending CancelHook)) (l : Loop Activity Event)
    (tickets : List Ticket) : Prop where
  orderly : l.Orderly
  distinct : (pending.map (·.id)).Nodup
  apart : (tickets.map (·.entry.promise)).Nodup
  plain : ∀ t ∈ tickets, l.role? t.entry.promise = some .plain
  deaf : ∀ t ∈ tickets, ∀ job ∈ l.observers t.entry.promise, ¬ IsAlarm owner job
  ticketed : ∀ e ∈ pending, ∃ t ∈ tickets, t.entry = e
  untimed : ∀ t ∈ tickets, t.timeout = none → t.entry.timer = none
  /-- A pending request with a timeout has a timer, which rings when its time is up. -/
  timed : ∀ t ∈ tickets, ∀ n, t.timeout = some n → ∃ timer due, t.entry.timer = some timer ∧ t.due? = some due ∧
    (t.entry ∈ pending → l.Rings timer due (alarm owner t.entry.id n))
  /-- Every alarm is that of a pending request. -/
  belong : ∀ x ∈ l.ahead, IsAlarm owner x.2 → ∃ t ∈ tickets, t.entry ∈ pending ∧ t.Owns owner x

variable {owner : Owner} {pending : List (Pending CancelHook)} {l l' : Loop Activity Event} {tickets : List Ticket}
  {p : Pending CancelHook} {r : Registry CancelHook} {s' : Registry CancelHook × Loop Activity Event} {o : Outcome}
  {t u : Ticket}

/-! ### Alarms -/

theorem alarm_inj {id id' : RequestId} {n m : Number} (e : alarm owner id n = alarm owner id' m) :
    id = id' ∧ n = m := by
  unfold alarm at e
  cases e
  exact ⟨rfl, rfl⟩

theorem not_isAlarm_notice (owner o : Owner) (h : Issued) : ¬ IsAlarm owner (notice o h) := by
  rintro ⟨_, _, e⟩
  cases e

theorem not_isAlarm_idle (owner : Owner) : ¬ IsAlarm owner .idle := by
  rintro ⟨_, _, e⟩
  cases e

theorem steady_of_promises (h : l'.promises = l.promises) : Steady owner tickets l l' := by
  intro t _
  unfold Loop.role? Loop.observers
  rw [h]
  exact ⟨id, fun _ hj _ => hj⟩

/-- Nobody waits for a promise that is settled. -/
theorem steady_settle (tickets : List Ticket) (l : Loop Activity Event) (q : PromiseId) (o : Outcome) :
    Steady owner tickets l (l.settle q o) := by
  intro t _
  rcases Loop.settle_cases l q o with e | ⟨role, e⟩
  · rw [e]
    exact ⟨id, fun _ hj _ => hj⟩
  · rw [e, Loop.role?_complete]
    refine ⟨id, fun job hj _ => ?_⟩
    by_cases same : t.entry.promise = q
    · cases ho : l.isSettled q with
      | true => rwa [Loop.complete_of_settled ho] at hj
      | false =>
        rw [same, (Loop.complete_of_role? role (Loop.isSettled_eq_false.1 ho) o).2.1] at hj
        cases hj
    · rwa [Loop.observers_congr (Loop.getElem?_complete_of_ne same o)] at hj

theorem gains_watching (owner : Owner) (id : RequestId) (l : Loop Activity Event) :
    l.Gains [] (Registry.watching (Client.registryEvents owner) id l) := by
  refine (Loop.gains_newPromise l .plain).trans (Loop.gains_observe ?_ _)
  rw [Loop.outcome?_newPromise]
  exact Loop.outcome?_eq_none (Nat.le_refl _)

theorem role?_watching (owner : Owner) (id : RequestId) (l : Loop Activity Event) :
    (Registry.watching (Client.registryEvents owner) id l).role? l.promises.size = some .plain :=
  congrArg (Option.map _) (getElem?_issue_self owner id l)

theorem observers_watching (owner : Owner) (id : RequestId) (l : Loop Activity Event) :
    (Registry.watching (Client.registryEvents owner) id l).observers l.promises.size =
      [notice owner (id, l.promises.size)] :=
  congrArg (fun x => (x.map (·.observers)).getD []) (getElem?_issue_self owner id l)

theorem disarms_stopped (p : Pending CancelHook) (h : l.Orderly) :
    Disarms (IsAlarm owner) p.timer l (stopped p l) := by
  unfold stopped
  split
  · next timer own =>
    rw [own]
    exact Loop.disarms_cancelTimer h (not_isAlarm_idle owner) timer
  · next none =>
    rw [none]
    exact .refl _ h

namespace Timely

/-- The loop has no alarm yet. -/
theorem empty (orderly : l.Orderly) (silent : ∀ x ∈ l.ahead, ¬ IsAlarm owner x.2) : Timely owner [] l [] where
  orderly := orderly
  distinct := by simp
  apart := by simp
  plain := by simp
  deaf := by simp
  ticketed := by simp
  untimed := by simp
  timed := by simp
  belong x hx kind := absurd kind (silent x hx)

theorem eq_of_id (s : Timely owner pending l tickets) {d e : Pending CancelHook} (hd : d ∈ pending) (he : e ∈ pending)
    (h : d.id = e.id) : d = e :=
  List.inj_on_of_nodup_map s.distinct hd he h

theorem eq_of_promise (s : Timely owner pending l tickets) (ht : t ∈ tickets) (hu : u ∈ tickets)
    (h : t.entry.promise = u.entry.promise) : t = u :=
  List.inj_on_of_nodup_map s.apart ht hu h

/-- The timer of a pending request with a timeout is that of no other. -/
theorem eq_of_timer (s : Timely owner pending l tickets) (ht : t ∈ tickets) (pt : t.entry ∈ pending) (pp : p ∈ pending)
    {n : Number} {timer : TimerId} (timeout : t.timeout = some n) (own : t.entry.timer = some timer)
    (same : p.timer = some timer) : t.entry = p := by
  obtain ⟨u, hu, rfl⟩ := s.ticketed p pp
  cases um : u.timeout with
  | none =>
    rw [s.untimed u hu um] at same
    cases same
  | some m =>
    obtain ⟨timer', due', own', _, rings'⟩ := s.timed u hu m um
    obtain ⟨timer'', due, own'', _, rings⟩ := s.timed t ht n timeout
    cases own.symm.trans own''
    cases same.symm.trans own'
    exact s.eq_of_id pt pp (alarm_inj (s.orderly.eq_of_timer (rings pt).mem_ahead (rings' pp).mem_ahead)).1

/-! ### What keeps it -/

/-- Nothing that is armed is disarmed. -/
theorem alter (s : Timely owner pending l tickets) (d : Disarms (IsAlarm owner) none l l')
    (st : Steady owner tickets l l') : Timely owner pending l' tickets where
  orderly := d.orderly
  distinct := s.distinct
  apart := s.apart
  plain t ht := (st t ht).1 (s.plain t ht)
  deaf t ht job hj kind := s.deaf t ht job ((st t ht).2 job hj kind) kind
  ticketed := s.ticketed
  untimed := s.untimed
  timed t ht n timeout := by
    obtain ⟨timer, due, own, hd, rings⟩ := s.timed t ht n timeout
    exact ⟨timer, due, own, hd, fun pt => d.rings ⟨_, _, rfl⟩ nofun (rings pt)⟩
  belong x hx kind := s.belong x (d.old x hx kind).1 kind

/-- An entry is taken out and its timer disarmed. -/
theorem drop (s : Timely owner pending l tickets) (hp : p ∈ pending) (d : Disarms (IsAlarm owner) p.timer l l')
    (st : Steady owner tickets l l') : Timely owner (pending.filter fun q => q.id ≠ p.id) l' tickets := by
  have left : ∀ {q}, q ∈ pending.filter (fun q => q.id ≠ p.id) ↔ q ∈ pending ∧ q ≠ p := fun {q} => by
    rw [List.mem_filter, decide_eq_true_iff]
    exact and_congr_right fun hq => not_congr ⟨s.eq_of_id hq hp, congrArg _⟩
  refine ⟨d.orderly, ?_, s.apart, fun t ht => (st t ht).1 (s.plain t ht),
    fun t ht job hj kind => s.deaf t ht job ((st t ht).2 job hj kind) kind, fun e he => s.ticketed e (left.1 he).1,
    s.untimed, fun t ht n timeout => ?_, fun x hx kind => ?_⟩
  · exact s.distinct.sublist (List.filter_sublist.map _)
  · obtain ⟨timer, due, own, hd, rings⟩ := s.timed t ht n timeout
    refine ⟨timer, due, own, hd, fun pt => d.rings ⟨_, _, rfl⟩ (fun same => ?_) (rings (left.1 pt).1)⟩
    exact (left.1 pt).2 (s.eq_of_timer ht (left.1 pt).1 hp timeout own same)
  · obtain ⟨old, other⟩ := d.old x hx kind
    obtain ⟨t, ht, pt, n, timer, timeout, own, rfl⟩ := s.belong x old kind
    refine ⟨t, ht, left.2 ⟨pt, fun same => ?_⟩, n, timer, timeout, own, rfl⟩
    rw [← same] at other
    exact other timer own rfl

/-- The promise of a registration is settled. -/
theorem settle (s : Timely owner pending l tickets) (ht : t ∈ tickets) (o : Outcome) :
    Timely owner pending (l.settle t.entry.promise o) tickets := by
  obtain ⟨jobs, sub, gains⟩ := Loop.gains_settle l t.entry.promise o
  exact s.alter (gains.disarms s.orderly fun job hj => s.deaf t ht job (sub hj)) (steady_settle _ _ _ _)

/-- A request ends, whose timer may have been taken from the loop before. -/
theorem ends (s : Timely owner r.pending l tickets) (hp : p ∈ r.pending) (promises : l'.promises = l.promises)
    (d : Disarms (IsAlarm owner) p.timer l (stopped p l')) (e : Ends p o r l' s') :
    Timely owner s'.1.pending s'.2 tickets := by
  obtain ⟨t, ht, rfl⟩ := s.ticketed p hp
  have dropped : Timely owner s'.1.pending (stopped t.entry l') tickets := by
    rw [e.pending]
    exact s.drop hp d (steady_of_promises ((promises_stopped _ _).trans promises))
  rcases e.loop with hl | ⟨_, hl⟩
  · rw [hl]
    exact dropped
  · rw [hl]
    exact dropped.settle ht o

theorem ends_of_find? (s : Timely owner r.pending l tickets) {id : RequestId} (hp : r.find? id = some p)
    (e : Ends p o r l s') : Timely owner s'.1.pending s'.2 tickets :=
  s.ends (mem_of_find? hp).1 rfl (disarms_stopped p s.orderly) e

/-- Requests are rejected one after another. -/
theorem rejectAll (s : Timely owner pending l tickets) (reason : Fault) :
    Timely owner [] (pending.foldl (rejected reason) l) tickets := by
  induction pending generalizing l with
  | nil => exact s
  | cons p rest ih =>
    have rejects : Ends p (.error reason) ⟨p :: rest, .empty 0⟩ l (⟨rest, .empty 0⟩, rejected reason l p) := by
      refine ⟨(filter_ne_head s.distinct).symm, ?_⟩
      unfold rejected
      split
      · exact .inl rfl
      · next ho => exact .inr ⟨Loop.isSettled_eq_false.1 (Bool.eq_false_iff.2 ho), rfl⟩
    exact ih (s.ends (r := ⟨p :: rest, .empty 0⟩) (List.mem_cons_self ..) rfl (disarms_stopped p s.orderly) rejects)

/-- A promise is made for a registration. -/
theorem watching (s : Timely owner pending l tickets) (id : RequestId) :
    Timely owner pending (watching (Client.registryEvents owner) id l) tickets := by
  refine s.alter ((gains_watching owner id l).disarms s.orderly nofun) fun t ht => ?_
  have old := Loop.lt_size_of_role? (s.plain t ht)
  have same := getElem?_issue_of_lt owner id old
  exact ⟨fun plain => (Loop.role?_congr same).trans plain, fun job hj _ => by rwa [← Loop.observers_congr same]⟩

/-- A registration is entered with its promise. The loop has a timer for it, if it has a timeout, and no other new
alarm. -/
theorem enter (s : Timely owner pending l tickets) (fresh : t.entry.id ∉ pending.map (·.id))
    (promise : t.entry.promise = l.promises.size) (orderly : l'.Orderly)
    (promises : l'.promises = (Registry.watching (Client.registryEvents owner) t.entry.id l).promises)
    (kept : ∀ {timer due job}, (Registry.watching (Client.registryEvents owner) t.entry.id l).Rings timer due job →
      l'.Rings timer due job)
    (untimed : t.timeout = none → t.entry.timer = none)
    (timed : ∀ n, t.timeout = some n → ∃ timer due, t.entry.timer = some timer ∧ t.due? = some due ∧
      l'.Rings timer due (alarm owner t.entry.id n))
    (belong : ∀ x ∈ l'.ahead,
      x ∈ (Registry.watching (Client.registryEvents owner) t.entry.id l).ahead ∨ t.Owns owner x) :
    Timely owner (pending ++ [t.entry]) l' (tickets ++ [t]) := by
  have new : t.entry.promise ∉ tickets.map (·.entry.promise) := by
    rintro mem
    obtain ⟨u, hu, same⟩ := List.mem_map.1 mem
    exact Nat.ne_of_lt (Loop.lt_size_of_role? (s.plain u hu)) (same.trans promise)
  have own : ∀ {u}, u ∈ [t] → u = t := List.mem_singleton.1
  have s := s.watching t.entry.id
  have st : Steady owner (tickets ++ [t]) _ l' := steady_of_promises promises
  constructor
  case orderly => exact orderly
  case distinct =>
    rw [List.map_append]
    exact List.nodup_append.2 ⟨s.distinct, List.nodup_singleton _, by simpa using fresh⟩
  case apart =>
    rw [List.map_append]
    exact List.nodup_append.2 ⟨s.apart, List.nodup_singleton _, by simpa using new⟩
  case plain =>
    refine fun u hu => (st u hu).1 ?_
    rcases List.mem_append.1 hu with hu | hu
    · exact s.plain u hu
    · rw [own hu, promise]
      exact role?_watching owner t.entry.id l
  case deaf =>
    intro u hu job hj kind
    have hj := (st u hu).2 job hj kind
    rcases List.mem_append.1 hu with hu | hu
    · exact s.deaf u hu job hj kind
    · rw [own hu, promise, observers_watching, List.mem_singleton] at hj
      rw [hj] at kind
      exact not_isAlarm_notice owner owner _ kind
  case ticketed =>
    intro e he
    rcases List.mem_append.1 he with he | he
    · obtain ⟨u, hu, same⟩ := s.ticketed e he
      exact ⟨u, List.mem_append_left _ hu, same⟩
    · exact ⟨t, List.mem_append_right _ (List.mem_singleton.2 rfl), (List.mem_singleton.1 he).symm⟩
  case untimed => exact List.forall_mem_append.2 ⟨s.untimed, List.forall_mem_singleton.2 untimed⟩
  case timed =>
    intro u hu n timeout
    rcases List.mem_append.1 hu with hu | hu
    · obtain ⟨timer, due, set, hd, rings⟩ := s.timed u hu n timeout
      refine ⟨timer, due, set, hd, fun pu => ?_⟩
      rcases List.mem_append.1 pu with pu | pu
      · exact kept (rings pu)
      · -- The new entry has a promise of its own.
        refine absurd (List.mem_map.2 ⟨u, hu, ?_⟩) new
        rw [List.mem_singleton.1 pu]
    · cases own hu
      obtain ⟨timer, due, set, hd, rings⟩ := timed n timeout
      exact ⟨timer, due, set, hd, fun _ => rings⟩
  case belong =>
    intro x hx kind
    rcases belong x hx with hx | owns
    · obtain ⟨u, hu, pu, owns⟩ := s.belong x hx kind
      exact ⟨u, List.mem_append_left _ hu, List.mem_append_left _ pu, owns⟩
    · exact ⟨t, List.mem_append_right _ (List.mem_singleton.2 rfl),
        List.mem_append_right _ (List.mem_singleton.2 rfl), owns⟩

end Timely

/-! ## Steps -/

namespace Ledger

variable {w w' : Ledger} {id : RequestId} {job : Job Event} {cause : Cause}

/-- The invariant of a ledger. -/
def Timely (owner : Owner) (w : Ledger) : Prop :=
  Registry.Timely owner w.registry.pending w.loop w.tickets

/-- A new entry is found under its id. -/
theorem find?_entered {r : Registry CancelHook} (fresh : r.contains id = false) (method : String) (q : PromiseId)
    (timer : Option TimerId) (hook : Option CancelHook) :
    find? { r with pending := r.pending ++ [⟨id, method, q, timer, hook⟩] } id = some ⟨id, method, q, timer, hook⟩ := by
  have none : r.pending.find? (fun p => p.id = id) = none := by
    simpa [contains] using fresh
  simp [find?, none]

/-- How a registration goes. -/
theorem perform_register (owner : Owner) (w : Ledger) (id : RequestId) (method : String) (timeout : Option Number)
    (hook : Option CancelHook) :
    w.registry.contains id = true ∧ w.perform owner (.register id method timeout hook) = w ∨
      w.registry.contains id = false ∧
        ((∃ n f, timeout = some n ∧ n.widen = .error f) ∧
            w.perform owner (.register id method timeout hook) =
              { w with loop := watching (Client.registryEvents owner) id w.loop } ∨
          ∃ timer l, w.perform owner (.register id method timeout hook) =
              ⟨{ w.registry with pending := w.registry.pending ++ [⟨id, method, w.loop.promises.size, timer, hook⟩] },
                l, w.tickets ++ [⟨⟨id, method, w.loop.promises.size, timer, hook⟩, timeout, w.loop.now⟩]⟩ ∧
            (timeout = none ∧ timer = none ∧ l = watching (Client.registryEvents owner) id w.loop ∨
              ∃ n seconds, timeout = some n ∧ n.widen = .ok seconds ∧
                timer = some (watching (Client.registryEvents owner) id w.loop).nextTimer ∧
                l = ((watching (Client.registryEvents owner) id w.loop).callLater seconds (alarm owner id n)).2)) := by
  unfold perform ticketsAfter
  rw [Call.operation, exec_map]
  cases fresh : w.registry.contains id with
  | true =>
    rw [exec_register_duplicate _ fresh]
    exact .inl ⟨rfl, rfl⟩
  | false =>
    rw [exec_register_fresh _ fresh]
    refine .inr ⟨rfl, ?_⟩
    cases timeout with
    | none =>
      refine .inr ⟨none, _, ?_, .inl ⟨rfl, rfl, rfl⟩⟩
      simp only
      rw [find?_entered fresh]
      rfl
    | some n =>
      cases hn : n.widen with
      | error f =>
        refine .inl ⟨⟨n, f, rfl, hn⟩, ?_⟩
        simp only [hn]
      | ok seconds =>
        refine .inr ⟨_, _, ?_, .inr ⟨n, seconds, rfl, hn, rfl, rfl⟩⟩
        simp only [hn]
        rw [find?_entered fresh]
        rfl

theorem timely_register (s : w.Timely owner) (id : RequestId) (method : String) (timeout : Option Number)
    (hook : Option CancelHook) : (w.perform owner (.register id method timeout hook)).Timely owner := by
  have watched := s.watching id
  rcases perform_register owner w id method timeout hook with ⟨_, e⟩ | ⟨fresh, ⟨_, e⟩ | ⟨timer, l, e, timed⟩⟩
  · rw [e]
    exact s
  · rw [e]
    exact watched
  have new : id ∉ w.registry.pending.map (·.id) := fun mem => by
    obtain ⟨p, hp, same⟩ := List.mem_map.1 mem
    rw [contains_eq_true.2 ⟨p, hp, same⟩] at fresh
    cases fresh
  rw [e]
  rcases timed with ⟨rfl, rfl, rfl⟩ | ⟨n, seconds, rfl, hn, rfl, rfl⟩
  · exact s.enter (t := ⟨⟨id, method, _, none, hook⟩, none, w.loop.now⟩) new rfl watched.orderly rfl (fun hj => hj)
      (fun _ => rfl) (fun _ hn => by cases hn) fun _ hx => .inl hx
  · have now := (gains_watching owner id w.loop).now
    refine s.enter (t := ⟨⟨id, method, _, some _, hook⟩, some n, w.loop.now⟩) new rfl
      (watched.orderly.callLater seconds _) rfl (fun hj => hj.callLater seconds _) (fun none => by cases none)
      (fun m hm => ?_) fun x hx => ?_
    · cases hm
      refine ⟨_, _, rfl, ?_, Loop.rings_callLater _ seconds _⟩
      simp only [Ticket.due?, Option.bind_some, hn, now]
      rfl
    · exact (Loop.mem_ahead_callLater.1 hx).symm.imp_right fun e => ⟨n, _, rfl, rfl, e⟩

theorem timely_settlement (s : w.Timely owner) {c : Call} (hc : c.settlement? = some (id, o)) :
    (w.perform owner c).Timely owner := by
  have tickets : (w.perform owner c).tickets = w.tickets := by
    cases c with
    | register => cases hc
    | resolve | resolveError | reject | cancel | rejectAll | expire => rfl
  unfold Timely
  rw [tickets]
  show Registry.Timely owner (exec (c.operation owner) _).2.1.pending (exec (c.operation owner) _).2.2 w.tickets
  cases h : w.registry.find? id with
  | none =>
    rw [exec_operation_unknown hc h]
    exact s
  | some p =>
    obtain ⟨t, ht, own⟩ := s.ticketed p (mem_of_find? h).1
    exact s.ends_of_find? h (ends_operation hc h (by rw [← own]; exact s.plain t ht))

theorem timely_perform (s : w.Timely owner) (c : Call) (own : ∀ id timeout, c ≠ .expire id timeout) :
    (w.perform owner c).Timely owner := by
  cases c with
  | register id method timeout hook => exact timely_register s id method timeout hook
  | resolve | resolveError | reject | cancel => exact timely_settlement s rfl
  | rejectAll reason =>
    show Registry.Timely owner (exec (_ <$> rejectAll _) _).2.1.pending (exec (_ <$> rejectAll _) _).2.2 w.tickets
    have hx := exec_rejectAll_fold reason w.registry w.loop
    rw [exec_map_snd, hx]
    exact s.rejectAll reason
  | expire id timeout => exact absurd rfl (own id timeout)

/-- The turn of an alarm: it is that of a pending request, and comes from its timer. -/
theorem alarm_next (s : w.Timely owner) {n : Number} (next : w.loop.next? = some (alarm owner id n, l)) :
    ∃ t ∈ w.tickets, w.registry.find? id = some t.entry ∧ t.entry.id = id ∧ t.timeout = some n ∧
      ∃ timer, t.entry.timer = some timer ∧ w.loop.nextTimer? = some timer := by
  obtain ⟨_, _, _, all, _⟩ := s.orderly.next? next
  obtain ⟨t, ht, pt, m, timer, timeout, own, e⟩ :=
    s.belong (w.loop.nextTimer?, alarm owner id n) (by rw [all]; exact List.mem_cons_self ..) ⟨_, _, rfl⟩
  obtain ⟨from?, same⟩ := Prod.mk.inj e
  obtain ⟨rfl, rfl⟩ := alarm_inj same
  exact ⟨t, ht, find?_of_mem s.distinct pt, rfl, timeout, timer, own, from?⟩

/-- The turn of a job that is no alarm: it is taken from the loop. -/
theorem timely_taken (s : w.Timely owner) (next : w.loop.next? = some (job, l)) (other : ¬ IsAlarm owner job) :
    Registry.Timely owner w.registry.pending l w.tickets :=
  s.alter (Loop.disarms_next?_of_not s.orderly next other) (steady_of_promises (s.orderly.next? next).2.1)

theorem timely_turn (s : w.Timely owner) (next : w.loop.next? = some (job, l)) :
    (w.afterTurn owner job l).Timely owner := by
  unfold Timely afterTurn hear
  dsimp only
  split
  · next o id n =>
    split
    · next same =>
      subst same
      obtain ⟨t, ht, found, _, _, timer, own, from?⟩ := alarm_next s next
      have d := Loop.disarms_next? (A := IsAlarm o) s.orderly next
      rw [from?, ← own] at d
      exact s.ends (mem_of_find? found).1 (s.orderly.next? next).2.1
        (d.trans (disarms_stopped t.entry d.orderly) (.inr rfl)) (ends_expire found n)
    · next other =>
      refine timely_taken s next ?_
      rintro ⟨_, _, e⟩
      cases e
      exact other rfl
  · next o id q =>
    have taken := timely_taken s next (not_isAlarm_notice owner o (id, q))
    split
    · rcases ends_forgetCancelled w.registry l id q with e | ⟨p, found, pending, loop⟩
      · rw [e]
        exact taken
      · exact taken.ends_of_find? found (o := .ok .null) ⟨pending, .inl loop⟩
    · exact taken
  · next others _ =>
    refine timely_taken s next ?_
    rintro ⟨id, n, e⟩
    exact others owner id n e

/-- What one step preserves. -/
theorem Step.timely (h : Step owner cause w w') (s : w.Timely owner) : w'.Timely owner := by
  cases h with
  | call w c own => exact timely_perform s c own
  | turn w job l next => exact timely_turn s next
  | cancelled w t mem =>
    cases ho : w.loop.isSettled t.entry.promise with
    | true =>
      rw [Loop.cancel_of_settled ho]
      exact s
    | false =>
      have hp := Loop.getElem?_of_role? (s.plain t mem)
      rw [Loop.isSettled_eq_false.1 ho] at hp
      rw [Loop.cancel_of_plain hp]
      exact s.settle mem _
  | clock w now later => exact s.alter (Loop.disarms_setNow s.orderly later) (steady_of_promises rfl)
  | elsewhere w l now alarms steady same => exact s.alter alarms steady

/-- What a run preserves. -/
theorem Reaches.timely (h : Reaches owner w w') (s : w.Timely owner) : w'.Timely owner := by
  induction h with
  | refl => exact s
  | step _ step ih => exact step.timely ih

/-! ## What the timers do -/

theorem mem_waiting (s : w.Timely owner) : t ∈ w.waiting ↔ t ∈ w.tickets ∧ t.entry ∈ w.registry.pending := by
  unfold waiting
  rw [List.mem_filter, List.any_eq_true]
  refine and_congr_right fun ht => ⟨fun ⟨e, he, same⟩ => ?_, fun pt => ⟨_, pt, decide_eq_true rfl⟩⟩
  obtain ⟨u, hu, rfl⟩ := s.ticketed e he
  rwa [← s.eq_of_promise hu ht (of_decide_eq_true same)]

theorem Timely.enters (s : w.Timely owner) : w.Enters owner := by
  intro id method timeout hook fresh accepted
  have s' := timely_register s id method timeout hook
  have settled := outcome?_register owner w.registry w.loop w.loop.promises.size id method timeout hook
  rcases perform_register owner w id method timeout hook with ⟨known, _⟩ | ⟨_, ⟨⟨n, f, hn, hf⟩, _⟩ | ⟨timer, l, e, _⟩⟩
  · rw [fresh] at known
    cases known
  · exact absurd hf (accepted n f hn)
  · refine ⟨⟨⟨id, method, w.loop.promises.size, timer, hook⟩, timeout, w.loop.now⟩, (mem_waiting s').2 ⟨?_, ?_⟩, ?_,
      rfl, rfl, rfl, rfl, settled.trans (Loop.outcome?_eq_none (Nat.le_refl _))⟩
    · rw [e]
      exact List.mem_append_right _ (List.mem_singleton.2 rfl)
    · rw [e]
      exact List.mem_append_right _ (List.mem_singleton.2 rfl)
    · rw [e]

end Ledger

end LspClient.Registry
