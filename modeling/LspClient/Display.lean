/-
What an operation shows of its result: values, faults, and groups of them.
-/
import LspClient.Loop

namespace LspClient

inductive Display where
  | value (v : Value)
  | fault (f : Fault)
  | items (ds : List Display)
  | fields (ds : List (String × Display))
  deriving Inhabited

namespace Display

/-- Nothing to show. -/
def none : Display :=
  .value .null

/-- Whether there is nothing to show. -/
def isNone : Display → Bool
  | .value .null => true
  | _ => false

/-- A text. -/
def text (s : String) : Display :=
  .value (.str s)

/-- A list of texts. -/
def texts (ss : List String) : Display :=
  .value (.list (ss.map .str))

/-- What a promise was settled with. -/
def ofOutcome : Outcome → Display
  | .ok v => .fields [("result", .value v)]
  | .error .cancelled => .fields [("cancelled", .value (.bool true))]
  | .error f => .fault f

end Display

end LspClient
