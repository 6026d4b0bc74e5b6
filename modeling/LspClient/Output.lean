/-
The channel that shows users what a server reports.
-/
import LspClient.Fault

namespace LspClient

structure OutputChannel where
  /-- The name that stands in front of each line. -/
  name : String
  /-- Whether lines that report errors go to telemetry, too. -/
  reportsErrors : Bool
  /-- The latest lines, the oldest first. -/
  lines : List String := []
  deriving Inhabited

namespace OutputChannel

/-- How many lines are kept. -/
def memory : Nat := 500

/-- What lines that report errors start with. -/
def errorPrefix : String := "[Error"

/-- Keeps a line. -/
def append (c : OutputChannel) (text : String) : OutputChannel :=
  let lines := c.lines ++ [text]
  { c with lines := lines.drop (lines.length - memory) }

/-- What is written for a line. -/
def written (c : OutputChannel) (text : String) : String :=
  "[" ++ c.name ++ "] " ++ text ++ "\n"

/-- Whether telemetry is told about a line. -/
def reports (c : OutputChannel) (text : String) : Bool :=
  c.reportsErrors && text.startsWith errorPrefix

/-- Forgets the lines. -/
def clear (c : OutputChannel) : OutputChannel :=
  { c with lines := [] }

theorem length_append_le (c : OutputChannel) (text : String) :
    (c.append text).lines.length ≤ memory := by
  simp [append]
  omega

end OutputChannel

end LspClient
