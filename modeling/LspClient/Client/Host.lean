/-
Hosts, and the closing of what they own: a host makes sessions, looks for conflicting components
when it is activated, and stops its sessions and closes its telemetry when it is deactivated.
-/
import LspClient.Client.Lifecycle
import LspClient.Settings.Transport

namespace LspClient.Client

open Telemetry (Backend)

/-! ## Posting telemetry -/

/-- Whether a value has no number that is infinite or undefined. -/
def isFinite : Value → Bool
  | .float x => !x.isNaN && !x.isInf
  | .list items => items.attach.all fun ⟨v, _⟩ => isFinite v
  | .object members => members.attach.all fun ⟨(_, v), _⟩ => isFinite v
  | _ => true
decreasing_by
  all_goals simp_wf
  · next h => have := List.sizeOf_lt_of_mem h; omega
  · next h =>
    have := List.sizeOf_lt_of_mem h
    simp at this
    omega

/-- Posts a batch to the collector. The value of the answer is the place of its result. -/
def post (index : Nat) (batch : List Telemetry.Record) : ClientM Next := do
  match ← poster? index with
  | none => return .done .null
  | some p =>
    let body := Value.list (batch.map Telemetry.posted)
    match Json.print body with
    | .error f => throw f.toFault
    | .ok _ =>
      if !isFinite body then
        throw (.invalid "Out of range float values are not JSON compliant")
      note (.posted p.endpoint p.headers body)
      let answer := (← get).collector.headD { result := .ok 204 }
      modify fun c => { c with collector := c.collector.drop 1 }
      if answer.delay.le (.int 0) then return .become (.posted batch answer.result)
      else return .call (.sleep answer.delay) (.posted batch answer.result)

/-- The collector has answered. -/
def posted (batch : List Telemetry.Record) (answer : Except String Nat) (o : Outcome) :
    ClientM Next := do
  let _ ← valueOf o
  match answer with
  | .ok status =>
    if 300 ≤ status && status < 600 then
      log .warning .backends ("Telemetry collector rejected " ++ toString batch.length
        ++ " records (HTTP " ++ toString status ++ ")")
  | .error message =>
    log .warning .backends ("Failed to post " ++ toString batch.length ++ " telemetry records: "
      ++ message)
  return .done .null

/-- Posts what a poster has in its buffer. -/
def flush (index : Nat) : ClientM Next := do
  match ← poster? index with
  | none => return .done .null
  | some p =>
    setBackend index (.http { p with buffer := [] })
    if p.buffer.isEmpty then return .done .null
    return .become (.post index p.buffer)

/-- Begins to close a backend. -/
def closeBackend (index : Nat) : ClientM Next := do
  match (← get).sink.backends[index]? with
  | some (.http p) =>
    if p.posts.isEmpty then return .become (.flush index)
    gather p.posts (.flush index)
  | some (.file path _) =>
    setBackend index (.file path false)
    return .done .null
  | some .broken => throw (.runtime "close failed")
  | _ => return .done .null

/-- Closes the backends of the sink from a place on. -/
def closeSink (index : Nat) : ClientM Next := do
  if index < (← get).sink.backends.length then
    return .call (.closeBackend index) (.closeSinkOne index)
  return .done .null

/-- A backend is closed, or closing it failed. -/
def closeSinkOne (index : Nat) (o : Outcome) : ClientM Next := do
  match o with
  | .ok _ => pure ()
  | .error f =>
    if f.isCancellation then throw f
    let kind := match (← get).sink.backends[index]? with
      | some b => b.kind
      | none => ""
    log .warning .sink ("Failed to close telemetry backend " ++ kind) [] (some f)
  return .become (.closeSink (index + 1))

/-! ## Hosts -/

/-- A client with a host. Unless other telemetry is given, the host has its own, to which `extra`
backends may be added. -/
def withHost (c : Client) (settings : Settings) (messenger : Messenger)
    (extra : Option (List Backend)) : Except Fault Client := do
  let c ← match extra with
    | none => pure c
    | some extra => do
      let sink ← settings.telemetry.sink
      pure ({ c with sink := { enabled := sink.enabled } }.withBackends (sink.backends ++ extra))
  return { c with
    messenger
    host := some ⟨settings,
      .new settings.conflicts.componentId settings.conflicts.capability, []⟩
    output := some ⟨settings.label, true, []⟩ }

/-- The message about conflicting components. -/
def conflictMessage (r : ConflictReport) : String :=
  "Conflicting components handle " ++ Text.quoted r.capability ++ " files: " ++ r.names
    ++ ". Uninstall them to avoid unexpected behavior."

/-- Looks for conflicts among installed components. -/
def checkConflicts (installed : List Component) : ClientM ConflictReport := do
  match (← get).host with
  | none => return ⟨"", []⟩
  | some host =>
    let (report, conflicts) := host.conflicts.check installed
    modify fun c => { c with host := c.host.map fun h => { h with conflicts } }
    report.announce fun r => do
      log .warning .conflicts (conflicts.logMessage r)
      tellUser (conflictMessage r)
    return report

/-- Makes a session of the host. -/
def createSession : ClientM SessionId := do
  let c ← get
  let settings := (c.host.getD default).settings
  match RestartPolicy.ofSettings settings.restart with
  | .error f => throw f
  | .ok policy =>
    set { c with sessions := c.sessions.push { settings := settings.session c.processId, policy } }
    return c.sessions.size

/-- Subscribes a listener that logs the server's answers to resyncs. -/
def listenResync (s : SessionId) : ClientM SubscriptionRef :=
  subscribe (.session s .notification) Session.resyncMethod (.logResync s)

/-- Begins to activate the host. -/
def activate (installed : List Component) : ClientM Next := do
  let _ ← checkConflicts installed
  let s ← createSession
  let _ ← listenResync s
  return .call (.start s) (.activated s)

/-- The session of the host has started, or not. -/
def activated (s : SessionId) (o : Outcome) : ClientM Next := do
  match o with
  | .ok _ => return .done (← stateName s)
  | .error f =>
    if f.isTransport then
      log .error .host ("Language server initialization failed with " ++ f.message)
      return .done (← stateName s)
    else throw f

/-- Stops the sessions of the host from one on, and closes its telemetry at last. -/
def deactivate (s : SessionId) : ClientM Next := do
  if s < (← get).sessions.size then return .call (.stop s false) (.deactivateOne s)
  return .become (.closeSink 0)

/-- A session of the host is stopped. -/
def deactivateOne (s : SessionId) (o : Outcome) : ClientM Next := do
  let _ ← valueOf o
  return .become (.deactivate (s + 1))

/-! ## Running until the session is given up -/

/-- The host is activated: the program runs until its session is given up. -/
def runActivated (resyncs : Bool) (o : Outcome) : ClientM Next := do
  match o with
  | .error f => return .call (.deactivate 0) (.runDeactivated (.error f))
  | .ok _ =>
    let s ← lastSession
    if !(← session s).lifecycle.isRunning then
      return .call (.deactivate 0) (.runDeactivated (.ok (.int 1)))
    let givenUp ← newPromise
    modify fun c => { c with givenUp := some givenUp }
    let prepared ← attempt do
      let _ ← subscribe (.session s .event) Session.fatalEvent .giveUp
      if resyncs then
        let _ ← resync s
    match prepared with
    | .ok () => return .await givenUp .runGivenUp
    | .error f => return .call (.deactivate 0) (.runDeactivated (.error f))

/-- The session is given up, or the program is interrupted. -/
def runGivenUp (o : Outcome) : ClientM Next := do
  match o with
  | .ok _ => return .call (.deactivate 0) (.runDeactivated (.ok (.int 1)))
  | .error f => return .call (.deactivate 0) (.runDeactivated (.error f))

/-- The host is deactivated: the program ends. -/
def runDeactivated (outcome o : Outcome) : ClientM Next := do
  let _ ← valueOf o
  return .done (← valueOf outcome)

end LspClient.Client
