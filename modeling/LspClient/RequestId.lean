/-
The ids that tie responses to requests.
-/
import LspClient.Value.Literal

namespace LspClient

/-- The id of a request; `null` stands in responses to requests that could not be read. -/
inductive RequestId where
  | null
  | int (n : Int)
  | str (s : String)
  deriving DecidableEq, Inhabited

namespace RequestId

/-- An id as a value. -/
def toValue : RequestId → Value
  | null => .null
  | int n => .int n
  | str s => .str s

/-- The id that a value is: an integer or a string. -/
def ofValue? : Value → Option RequestId
  | .int n => some (int n)
  | .str s => some (str s)
  | _ => none

/-- An id as text. -/
def text (id : RequestId) : String :=
  id.toValue.text

/-- An id as messages show it. -/
def literal (id : RequestId) : String :=
  id.toValue.literal

/-- Reading an id back from its value: `null` is the only id that is not accepted. -/
theorem ofValue?_toValue (id : RequestId) (h : id ≠ null) : ofValue? id.toValue = some id := by
  cases id <;> simp_all [toValue, ofValue?]

end RequestId

end LspClient
