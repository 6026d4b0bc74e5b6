/-
How messages show values: strings in quotes, lists in brackets, the members of a mapping in
braces, in the order of insertion.
-/
import LspClient.Decimal.Shortest
import LspClient.Text.Quoted
import LspClient.Value

namespace LspClient

/-- A day as `2024-01-15`. -/
def CalendarDate.iso (d : CalendarDate) : String :=
  String.ofList (Decimal.padLeft 4 (Decimal.natDigits d.year) ++ '-' ::
    (Decimal.padLeft 2 (Decimal.natDigits d.month) ++ '-' ::
      Decimal.padLeft 2 (Decimal.natDigits d.day)))

/-- A number with two digits at least. -/
def twoDigits (n : Nat) : String :=
  String.ofList (Decimal.padLeft 2 (Decimal.natDigits n))

namespace CalendarTime

/-- The time of day as `10:30:00`, with six decimal places unless it is whole seconds. -/
def clock (t : CalendarTime) : String :=
  let whole := twoDigits t.hour ++ ":" ++ twoDigits t.minute ++ ":" ++ twoDigits t.second
  if t.micros = 0 then whole
  else whole ++ "." ++ String.ofList (Decimal.padLeft 6 (Decimal.natDigits t.micros))

/-- The offset of the time zone as `+02:00`. -/
def zone (t : CalendarTime) : String :=
  match t.offset with
  | none => ""
  | some m =>
    (if m < 0 then "-" else "+") ++ twoDigits (m.natAbs / 60) ++ ":" ++ twoDigits (m.natAbs % 60)

/-- Day, time of day and zone, with the given separator between day and time. -/
def iso (separator : String) (t : CalendarTime) : String :=
  t.date.iso ++ separator ++ t.clock ++ t.zone

/-- Minutes as the literal of a span of time. -/
def deltaLiteral (minutes : Int) : String :=
  let seconds := minutes * 60
  let days := seconds.fdiv 86400
  let rest := seconds - days * 86400
  let parts :=
    if days = 0 then "seconds=" ++ toString rest
    else if rest = 0 then "days=" ++ toString days
    else "days=" ++ toString days ++ ", seconds=" ++ toString rest
  "datetime.timedelta(" ++ parts ++ ")"

/-- The time zone inside a literal. -/
def zoneLiteral : Int → String
  | 0 => "datetime.timezone.utc"
  | m => "datetime.timezone(" ++ deltaLiteral m ++ ")"

/-- A point in time as a literal; seconds and microseconds are left out when both are zero. -/
def literal (t : CalendarTime) : String :=
  let numbers := [t.date.year, t.date.month, t.date.day, t.hour, t.minute]
  let fine :=
    if t.micros = 0 then (if t.second = 0 then [] else [t.second]) else [t.second, t.micros]
  let zone := match t.offset with
    | none => []
    | some m => ["tzinfo=" ++ zoneLiteral m]
  "datetime.datetime(" ++ ", ".intercalate ((numbers ++ fine).map toString ++ zone) ++ ")"

end CalendarTime

namespace Value

/-- Two texts with a separator between them, the first alone when the second is missing. -/
def joinWith (first : String) : Option String → String
  | none => first
  | some rest => first ++ ", " ++ rest

mutual

/-- A value as messages show it. -/
def literal : Value → String
  | null => "None"
  | bool b => if b then "True" else "False"
  | int n => toString n
  | float x => Decimal.plain x
  | str s => Text.quoted s
  | bytes b => Text.quotedOctets b
  | date d => "datetime.date(" ++ ", ".intercalate ([d.year, d.month, d.day].map toString) ++ ")"
  | dateTime t => t.literal
  | list items => "[" ++ (literalItems items).getD "" ++ "]"
  | set items =>
    match literalItems items with
    | none => "set()"
    | some body => "\x7b" ++ body ++ "\x7d"
  | object members => "\x7b" ++ (literalMembers members).getD "" ++ "\x7d"
  | map entries => "\x7b" ++ (literalEntries entries).getD "" ++ "\x7d"

/-- The items of a list with commas between them; nothing for no items. -/
def literalItems : List Value → Option String
  | [] => none
  | v :: rest => some (joinWith v.literal (literalItems rest))

/-- The members of an object with commas between them. -/
def literalMembers : List (String × Value) → Option String
  | [] => none
  | (k, v) :: rest => some (joinWith (Text.quoted k ++ ": " ++ v.literal) (literalMembers rest))

/-- The entries of a mapping with commas between them. -/
def literalEntries : List (Value × Value) → Option String
  | [] => none
  | (k, v) :: rest => some (joinWith (k.literal ++ ": " ++ v.literal) (literalEntries rest))

end

/-- A value as text: a string as it stands, a date in its usual form, others as shown. -/
def text : Value → String
  | str s => s
  | date d => d.iso
  | dateTime t => t.iso " "
  | v => v.literal

end Value

end LspClient
