/-
Installed components that claim the same capability as this one. Reports are remembered for the
installed sets seen most recently.
-/
import LspClient.Recency
import LspClient.Text.Quoted

namespace LspClient

/-- An installed component and the capabilities it declares. -/
structure Component where
  id : String
  capabilities : List String
  deriving DecidableEq, Inhabited

namespace Component

/-- The elements of a list in ascending order, without repetitions. -/
def sortedSet (xs : List String) : List String :=
  (xs.mergeSort fun a b => decide (a ≤ b)).eraseDups

/-- A component with its capabilities as a set: in ascending order, without repetitions. -/
def normal (c : Component) : Component :=
  { c with capabilities := sortedSet c.capabilities }

/-- An order of components, by id and then by capabilities. -/
def le (a b : Component) : Bool :=
  if a.id = b.id then !decide (b.capabilities < a.capabilities) else decide (a.id ≤ b.id)

/-- Installed components as a set: in order, without repetitions. -/
def normalSet (installed : List Component) : List Component :=
  ((installed.map normal).mergeSort le).eraseDups

end Component

/-- The components other than this one that declare the capability, by id in ascending order. -/
structure ConflictReport where
  capability : String
  ids : List String
  deriving DecidableEq, Inhabited

namespace ConflictReport

/-- Whether there is a conflict. -/
def hasConflicts (r : ConflictReport) : Bool :=
  !r.ids.isEmpty

/-- Hands the report to a listener if it has conflicts. -/
def announce {m : Type → Type} [Monad m] (r : ConflictReport) (listener : ConflictReport → m Unit) :
    m Unit :=
  if r.hasConflicts then listener r else pure ()

/-- The ids with commas between them. -/
def names (r : ConflictReport) : String :=
  ", ".intercalate r.ids

/-- Looks for conflicts among installed components. -/
def find (installed : List Component) (selfId capability : String) : ConflictReport :=
  let conflicting := installed.filter fun c =>
    c.id ≠ selfId && c.capabilities.contains capability
  ⟨capability, Component.sortedSet (conflicting.map (·.id))⟩

end ConflictReport

/-- Looks for conflicts whenever the installed set changes, and remembers the reports. -/
structure ConflictMonitor where
  selfId : String
  capability : String
  reports : Recency (List Component) ConflictReport
  last : Option ConflictReport := none

namespace ConflictMonitor

/-- How many reports are remembered. -/
def memory : Nat := 32

/-- A monitor that has seen nothing yet. -/
def new (selfId capability : String) : ConflictMonitor :=
  { selfId, capability, reports := .empty memory }

/-- Looks at an installed set. -/
def check (m : ConflictMonitor) (installed : List Component) : ConflictReport × ConflictMonitor :=
  let key := Component.normalSet installed
  match m.reports.get? key with
  | some report => (report, { m with reports := m.reports.touch key, last := some report })
  | none =>
    let report := ConflictReport.find key m.selfId m.capability
    (report, { m with reports := m.reports.insert key report, last := some report })

/-- The log message for a report with conflicts. -/
def logMessage (m : ConflictMonitor) (report : ConflictReport) : String :=
  "Components conflicting on " ++ Text.quoted m.capability ++ ": " ++ report.names

end ConflictMonitor

end LspClient
