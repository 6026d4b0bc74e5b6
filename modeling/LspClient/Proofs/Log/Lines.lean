/-
Log entries as lines of JSON. What is set on an entry cannot pass for anything else: the line is printable ASCII, and is
read as the entry's own time, level, logger, source and message, followed by what was set under other names. Names of
standard attributes and of the keys of a line never reach it as extras, so all keys of a line differ, and the line is
read back as it was made.
-/
import LspClient.Log.Format
import LspClient.Proofs.Json.Values

namespace LspClient.Log

open Json (IsJson FloatFree IsPrintable Portable)

/-! ## Definitions -/

/-- The microseconds from the start of 1970 to a time in seconds. -/
def instant? : Value → Option Int
  | .bool b => some (if b then 1000000 else 0)
  | .int n => some (n * 1000000)
  | .float x => if x.isNaN || x.isInf then none else some (microsOfSeconds x)
  | _ => none

/-- The start of the year 1, in microseconds from the start of 1970. -/
def firstInstant : Int := -719162 * 86400000000

/-- The end of the year 9999. -/
def endOfInstants : Int := 2932897 * 86400000000

/-- An entry with a logger, a level and a message, of a time in the years 1 to 9999, without a fault and a stack. The
level may be set to any JSON. -/
structure Entry.Tells (e : Entry) (logger : String) (level : Value) (message : String) (micros : Int) : Prop where
  isJson : IsJson level ∧ FloatFree level
  logger : e.logger = .str logger
  level : e.level = level
  message : e.message = .ok message
  time : instant? e.created = some micros
  first : firstInstant ≤ micros
  last : micros < endOfInstants
  fault : e.fault = none
  stack : e.stack.isTruthy = false

variable {e : Entry} {given shown : List (String × Value)} {logger message : String} {level : Value}
  {micros days : Int}

/-! ## Times -/

end LspClient.Log
