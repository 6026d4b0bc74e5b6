/-
The lines that log entries are written as: plain text, or a JSON object in which nothing that an
entry carries can take the place of its time, level, logger, source or message.
-/
import LspClient.Calendar
import LspClient.Json.Printer
import LspClient.Log.Entry

namespace LspClient.Log

/-! ## Times -/

/-- The seconds from the start of 1970 that numbers of the system can count. -/
def maxSeconds : Int := Nat.pow 2 63

/-- A point in time, checked to lie in the years 1 to 9999. -/
def timestampOfMicros (micros : Int) : Except Fault String :=
  let seconds := micros.fdiv 1000000
  let year := CalendarDate.yearOfDays (seconds.fdiv 86400)
  if seconds < -maxSeconds || maxSeconds ≤ seconds then
    .error (.other "OverflowError" "timestamp out of range for platform time_t")
  else if year < 1 || 9999 < year then
    if year.natAbs < Nat.pow 2 31 then .error (.invalid ("year " ++ toString year ++ " is out of range"))
    else .error (.system .general [.int 75, .str "Value too large for defined data type"])
  else .ok (timestampMillis micros)

/-- The timestamp of a time in seconds, cut to milliseconds. -/
def timestampOf (created : Value) : Except Fault String :=
  match created with
  | .bool b => timestampOfMicros (if b then 1000000 else 0)
  | .int n => timestampOfMicros (n * 1000000)
  | .float x =>
    if x.isNaN then .error (.invalid "Invalid value NaN (not a number)")
    else if x.isInf then
      .error (.other "OverflowError" "timestamp out of range for platform time_t")
    else timestampOfMicros (microsOfSeconds x)
  | _ => .error (.type "an integer is required")

/-! ## Faults -/

/-- The kind of a fault with the module that defines it, if that is not a standard one. -/
def qualifiedKind (f : Fault) : String :=
  if f.isSession then "ls_session.exceptions." ++ f.kind
  else if f.isCancellation then "asyncio.exceptions." ++ f.kind
  else f.kind

/-- A fault as the last line of its report. -/
def faultLine (f : Fault) : String :=
  if f.message.isEmpty then qualifiedKind f else qualifiedKind f ++ ": " ++ f.message

/-! ## JSON -/

/-- The extras that come right behind the message. -/
def contextNames : List String :=
  ["session", "request_id", "method"]

/-- The keys that no extra may use. -/
def reservedKeys : List String :=
  ["timestamp", "level", "logger", "source", "message", "exception", "stack_info"]

/-- The extras of an entry that a line shows. -/
def shownExtras (extras : List (String × Value)) : List (String × Value) :=
  extras.filter fun (name, _) => !standardNames.contains name && !reservedKeys.contains name

/-- The extras in the order in which a line shows them. -/
def orderedExtras (extras : List (String × Value)) : List (String × Value) :=
  let shown := shownExtras extras
  contextNames.filterMap (fun name => (Value.lookup name shown).map fun v => (name, v))
    ++ shown.filter fun (name, _) => !contextNames.contains name

/-- Whether a logger is that of the server's error stream. -/
def sourceOf (logger : String) : String :=
  if logger.startsWith stderrLogger then "server" else "client"

/-- What a line shows of an entry. -/
def members (e : Entry) : Except Fault (List (String × Value)) := do
  let message ← e.message
  let timestamp ← timestampOf e.created
  let source ← match e.logger with
    | .str s => pure (sourceOf s)
    | _ => throw (.other "AttributeError" "object has no attribute 'startswith'")
  let fault := match e.fault with
    | some f => [("exception", Value.str (faultLine f))]
    | none => []
  let stack := if e.stack.isTruthy then [("stack_info", e.stack)] else []
  return [("timestamp", .str timestamp), ("level", e.level), ("logger", e.logger),
    ("source", .str source), ("message", .str message)] ++ orderedExtras e.extras ++ fault ++ stack

/-- An entry as a line of JSON, without its end. -/
def jsonLine (e : Entry) : Except Fault String := do
  match Json.printLenient (.object (← members e)) with
  | .ok s => return s
  | .error f => throw f.toFault

/-! ## Plain text -/

/-- Puts a text on lines of its own behind another one. -/
def below (s more : String) : String :=
  if s.endsWith "\n" then s ++ more else s ++ "\n" ++ more

/-- The seconds of a time. -/
def secondsOf (created : Value) : Float :=
  match Number.ofValue? created with
  | some n => n.toFloat
  | none => 0.0

/-- An entry as plain text, without the end of its last line. -/
def plainLine (e : Entry) : Except Fault String := do
  let message ← e.message
  let line := timestampPlain (secondsOf e.created) ++ " " ++ e.level.text ++ " " ++ e.logger.text
    ++ ": " ++ message
  let line := match e.fault with
    | some f => below line (faultLine f)
    | none => line
  return if e.stack.isTruthy then below line e.stack.text else line

/-- An entry in one of the two forms. -/
def line (json : Bool) (e : Entry) : Except Fault String :=
  if json then jsonLine e else plainLine e

end LspClient.Log
