/-
Days of the Gregorian calendar counted from 1970, and points in time counted in microseconds.
-/
import LspClient.Decimal.Double
import LspClient.Value.Literal

namespace LspClient

/-- Whether a year has a 29 February. -/
def isLeapYear (year : Nat) : Bool :=
  (year % 4 == 0 && year % 100 != 0) || year % 400 == 0

/-- How many days a month has. -/
def daysInMonth (year month : Nat) : Nat :=
  match month with
  | 2 => if isLeapYear year then 29 else 28
  | 4 | 6 | 9 | 11 => 30
  | _ => 31

namespace CalendarDate

/-- Whether the numbers name a day of the years 1 to 9999. -/
def isValid (d : CalendarDate) : Bool :=
  1 ≤ d.year && d.year ≤ 9999 && 1 ≤ d.month && d.month ≤ 12 && 1 ≤ d.day
    && d.day ≤ daysInMonth d.year d.month

/-- The year of the day with a number, which may lie before the year 1. The number 0 is that of
1 January 1970. Years are counted from March, so that a leap day ends its year. -/
def yearOfDays (days : Int) : Int :=
  let z := days + 719468
  let era := z.fdiv 146097
  let doe := (z - era * 146097).toNat
  let yoe := (doe - doe / 1460 + doe / 36524 - doe / 146096) / 365
  let doy := doe - (365 * yoe + yoe / 4 - yoe / 100)
  (yoe : Int) + era * 400 + if 306 ≤ doy then 1 else 0

/-- The day with a number. -/
def ofDays (days : Int) : CalendarDate :=
  let z := days + 719468
  let era := z.fdiv 146097
  let doe := (z - era * 146097).toNat
  let yoe := (doe - doe / 1460 + doe / 36524 - doe / 146096) / 365
  let doy := doe - (365 * yoe + yoe / 4 - yoe / 100)
  let mp := (5 * doy + 2) / 153
  let day := doy - (153 * mp + 2) / 5 + 1
  let month := if mp < 10 then mp + 3 else mp - 9
  ⟨(yearOfDays days).toNat, month, day⟩

/-- The number of a day. -/
def toDays (d : CalendarDate) : Int :=
  let y : Int := (d.year : Int) - if d.month ≤ 2 then 1 else 0
  let era := y.fdiv 400
  let yoe := y - era * 400
  let mp : Int := (((d.month + 9) % 12 : Nat) : Int)
  let doy := (153 * mp + 2) / 5 + d.day - 1
  let doe := yoe * 365 + yoe / 4 - yoe / 100 + doy
  era * 146097 + doe - 719468

end CalendarDate

namespace CalendarTime

/-- The point in time that lies some microseconds after the start of 1970, without a zone. -/
def ofMicros (micros : Int) : CalendarTime :=
  let days := micros.fdiv 86400000000
  let rest := (micros - days * 86400000000).toNat
  let seconds := rest / 1000000
  { date := .ofDays days
    hour := seconds / 3600
    minute := seconds / 60 % 60
    second := seconds % 60
    micros := rest % 1000000
    offset := none }

/-- The microseconds of the clock from the start of 1970. -/
def toMicros (t : CalendarTime) : Int :=
  ((t.date.toDays * 24 + t.hour) * 60 + t.minute) * 60000000 + t.second * 1000000 + t.micros

/-- The same point in time, some minutes later on the clock. -/
def addMinutes (t : CalendarTime) (minutes : Int) : CalendarTime :=
  { ofMicros (t.toMicros + minutes * 60000000) with offset := t.offset }

end CalendarTime

/-- Seconds as whole microseconds, a half going to the even neighbour. The whole seconds are kept
apart from the fraction, so that only the fraction is rounded. -/
def microsOfSeconds (seconds : Float) : Int :=
  let whole := Decimal.truncate seconds
  let rest := seconds - Float.ofInt whole
  whole * 1000000 + Decimal.roundToInt (rest * 1000000.0)

/-- A timestamp as `2024-01-15T10:30:00Z`. -/
def timestamp (micros : Int) : String :=
  (CalendarTime.ofMicros micros).iso "T" ++ "Z"

/-- A timestamp cut to milliseconds, as `2024-01-15T10:30:00.000+00:00`. -/
def timestampMillis (micros : Int) : String :=
  let t := CalendarTime.ofMicros micros
  let whole := { t with micros := 0 }
  whole.iso "T" ++ "."
    ++ String.ofList (Decimal.padLeft 3 (Decimal.natDigits (t.micros / 1000))) ++ "+00:00"

/-- A timestamp of a plain log line, as `2024-01-15 10:30:00,000`. The milliseconds are cut from the
difference to the whole seconds. -/
def timestampPlain (seconds : Float) : String :=
  let whole := Decimal.truncate seconds
  let millis := Decimal.truncate ((seconds - Float.ofInt whole) * 1000.0)
  (CalendarTime.ofMicros (Decimal.floor seconds * 1000000)).iso " " ++ ","
    ++ String.ofList (Decimal.padLeft 3 (Decimal.natDigits millis.toNat))

/-- The time of day as `10:30:00`. -/
def clockOfMicros (micros : Int) : String :=
  let t := CalendarTime.ofMicros micros
  { t with micros := 0 }.clock

end LspClient
