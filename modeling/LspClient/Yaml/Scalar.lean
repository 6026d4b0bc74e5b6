/-
What scalars stand for. The form of a plain scalar decides its tag; the text of a scalar with a
tag is then read as the tag says. Integers may be written in several bases and in groups of sixty,
and a date may have a time of day and a time zone.
-/
import LspClient.Calendar
import LspClient.Text.Integer
import LspClient.Yaml.Problem
import LspClient.Yaml.Tag

namespace LspClient.Yaml.Scalar

/-! ## Forms of plain scalars -/

/-- A text without a sign in front of it. -/
def unsigned : List Char → List Char
  | '-' :: rest | '+' :: rest => rest
  | cs => cs

/-- Whether a text has characters, all of a kind. -/
def allOf (test : Char → Bool) (cs : List Char) : Bool :=
  !cs.isEmpty && cs.all test

/-- Whether the character is a digit of a base up to ten, or an underscore. -/
def isDigitOf (base : Nat) (c : Char) : Bool :=
  c = '_' || (Json.isDigit c && c.toNat - '0'.toNat < base)

/-- Whether the character is a hexadecimal digit or an underscore. -/
def isHexDigit (c : Char) : Bool :=
  c = '_' || (Json.hexDigit? c).isSome

/-- Whether a text is the part of a number in groups of sixty behind its first colon or a later
one: up to two digits in each group. -/
def isSixtieths : List Char → Bool
  | [a] => Json.isDigit a
  | [a, b] => '0' ≤ a && a ≤ '5' && Json.isDigit b
  | a :: ':' :: rest => Json.isDigit a && isSixtieths rest
  | a :: b :: ':' :: rest => '0' ≤ a && a ≤ '5' && Json.isDigit b && isSixtieths rest
  | _ => false

/-- Whether a text is a number in at least two groups of sixty, the first one as `leads` says. -/
def isGrouped (leads : List Char → Bool) (cs : List Char) : Bool :=
  let first := cs.takeWhile (· != ':')
  match cs.drop first.length with
  | _ :: rest => leads first && isSixtieths rest
  | [] => false

/-- Whether a text has the digits of an integer that does not start with a zero. -/
def isPositive : List Char → Bool
  | [] => false
  | c :: rest => '1' ≤ c && c ≤ '9' && rest.all (isDigitOf 10)

/-- Whether a text has digits and underscores, a digit first. -/
def isDigits : List Char → Bool
  | [] => false
  | c :: rest => Json.isDigit c && rest.all (isDigitOf 10)

/-- Whether a plain scalar is an integer. -/
def isInteger (cs : List Char) : Bool :=
  match unsigned cs with
  | ['0'] => true
  | '0' :: 'b' :: rest => allOf (isDigitOf 2) rest
  | '0' :: 'x' :: rest => allOf isHexDigit rest
  | '0' :: rest => allOf (isDigitOf 8) rest
  | body => isPositive body || isGrouped isPositive body

/-- Whether a text is empty or an exponent with a sign. -/
def isExponent : List Char → Bool
  | [] => true
  | e :: s :: rest => (e = 'e' || e = 'E') && (s = '-' || s = '+') && allOf Json.isDigit rest
  | _ => false

/-- Whether the text behind a point ends a number. -/
def isFraction (cs : List Char) : Bool :=
  isExponent (cs.dropWhile (isDigitOf 10))

/-- Whether a plain scalar is a number with a point, or one that is not finite. -/
def isFloat (cs : List Char) : Bool :=
  let body := unsigned cs
  let whole := body.takeWhile (· != '.')
  match body.drop whole.length with
  | [] => false
  | _ :: fraction =>
    if !whole.isEmpty then
      (isDigits whole && isFraction fraction)
        || (isGrouped isDigits whole && fraction.all (isDigitOf 10))
    else if fraction = "inf".toList || fraction = "Inf".toList || fraction = "INF".toList then true
    else if body.length = cs.length then
      fraction = "nan".toList || fraction = "NaN".toList || fraction = "NAN".toList
        || (startsWith Json.isDigit fraction && isFraction fraction)
    else false

/-- The digits at the front of a text, and the rest, if there is a number of them in a range. -/
def takeNumber? (least most : Nat) (cs : List Char) : Option (Nat × List Char) :=
  let digits := (cs.take most).takeWhile Json.isDigit
  if digits.length < least then none else some (Json.digitsValue digits, cs.drop digits.length)

/-- The rest of a text behind a character. -/
def behind? (c : Char) : List Char → Option (List Char)
  | [] => none
  | x :: rest => if x = c then some rest else none

/-- A point in time as it is written; its parts may be out of range. -/
structure WrittenTime where
  hour : Nat
  minute : Nat
  second : Nat
  micros : Nat
  /-- Minutes from universal time, if a zone is written. -/
  offset : Option Int
  deriving Inhabited

/-- The microseconds of the digits behind the point of a second. -/
def microsOf (digits : List Char) : Nat :=
  let six := digits.take 6
  Json.digitsValue (six ++ List.replicate (6 - six.length) '0')

/-- The zone at the end of a time: minutes from universal time. -/
def zone? (cs : List Char) : Option (Option Int) :=
  match cs.dropWhile isSpace with
  | [] => if cs.isEmpty then some none else none
  | ['Z'] => some (some 0)
  | sign :: rest =>
    if sign = '-' || sign = '+' then do
      let (hours, rest) ← takeNumber? 1 2 rest
      let minutes ← match rest with
        | [] => some 0
        | ':' :: rest => do
          let (minutes, rest) ← takeNumber? 2 2 rest
          if rest.isEmpty then some minutes else none
        | _ => none
      let total : Int := (hours * 60 + minutes : Nat)
      return some (if sign = '-' then -total else total)
    else none

/-- The time behind a date, from the separator on. -/
def time? (cs : List Char) : Option WrittenTime := do
  let rest ← match cs with
    | 'T' :: rest | 't' :: rest => some rest
    | c :: _ => if isSpace c then some (cs.dropWhile isSpace) else none
    | [] => none
  let (hour, rest) ← takeNumber? 1 2 rest
  let (minute, rest) ← takeNumber? 2 2 (← behind? ':' rest)
  let (second, rest) ← takeNumber? 2 2 (← behind? ':' rest)
  let (digits, rest) := match rest with
    | '.' :: rest => (rest.takeWhile Json.isDigit, rest.dropWhile Json.isDigit)
    | _ => ([], rest)
  let offset ← zone? rest
  return ⟨hour, minute, second, microsOf digits, offset⟩

/-- A day as it is written, with the time behind it. -/
def day? (cs : List Char) : Option (CalendarDate × Option WrittenTime) := do
  let (year, rest) ← takeNumber? 4 4 cs
  let (month, rest) ← takeNumber? 1 2 (← behind? '-' rest)
  let (day, rest) ← takeNumber? 1 2 (← behind? '-' rest)
  if rest.isEmpty then return (⟨year, month, day⟩, none)
  return (⟨year, month, day⟩, some (← time? rest))

/-- Whether a plain scalar is a date: month and day have two digits unless a time follows. -/
def isTimestamp (cs : List Char) : Bool :=
  match day? cs with
  | some (_, none) => cs.length = 10
  | some (_, some _) => true
  | none => false

/-- The spellings of truth values. -/
def truths : List (String × Bool) :=
  [("yes", true), ("no", false), ("true", true), ("false", false), ("on", true), ("off", false)]

/-- Whether a text is a word in lower case, in upper case, or in lower case but for its start. -/
def isSpelling (cs : List Char) (word : String) : Bool :=
  let upper := word.toList.map Char.toUpper
  cs = word.toList || cs = upper || cs = upper.take 1 ++ word.toList.drop 1

/-- The tag of a plain scalar. -/
def resolve (cs : List Char) : Tag :=
  if truths.any fun (word, _) => isSpelling cs word then .bool
  else if isFloat cs then .float
  else if isInteger cs then .int
  else if cs = ['<', '<'] then .merge
  else if cs.isEmpty || cs = ['~'] || isSpelling cs "null" then .null
  else if isTimestamp cs then .timestamp
  else if cs = ['='] then .value
  else .str

/-! ## Values -/

/-- A text without underscores. -/
def compact (cs : List Char) : List Char :=
  cs.filter (· != '_')

/-- Whether a minus stands in front of a text. -/
def isNegative (cs : List Char) : Bool :=
  cs.head? = some '-'

/-- The fault of a text that is no integer in a base. -/
def notInteger (base : Nat) (cs : List Char) : ReadFault :=
  .scalar (.invalid ("invalid literal for int() with base " ++ toString base ++ ": "
    ++ Text.quoted (String.ofList cs)))

/-- The value of a digit in bases up to sixteen. -/
def digitOf? (base : Nat) (c : Char) : Option Nat :=
  (Json.hexDigit? c).bind fun d => if d < base then some d else none

/-- The integer that a text writes in a base, after the letter that stands for the base, if there
is one, or blanks and a sign. -/
def radix (base : Nat) (letter : Char) (cs : List Char) : Except ReadFault Int :=
  let trimmed := Text.trimBoth Text.isBlank cs
  let body := unsigned trimmed
  let digits := match body with
    | '0' :: c :: rest => if c.toLower = letter then rest else body
    | _ => body
  match digits with
  | [] => .error (notInteger base cs)
  | _ =>
    match digits.foldlM (fun (n : Nat) c => (digitOf? base c).map fun d => n * base + d) 0 with
    | some n => .ok (if isNegative trimmed then -(n : Int) else n)
    | none => .error (notInteger base cs)

/-- The integer that a text writes in base ten. -/
def decimal (cs : List Char) : Except ReadFault Int :=
  match Text.integer? (String.ofList cs) with
  | some n => .ok n
  | none =>
    let digits := unsigned (Text.trimBoth Text.isBlank cs)
    if allOf Json.isDigit digits then
      .error (.scalar (.invalid ((Json.ReadFault.tooManyDigits digits.length).message [])))
    else .error (notInteger 10 cs)

/-- The parts of a text between colons. -/
def groups : List Char → List (List Char)
  | [] => [[]]
  | c :: rest =>
    if c = ':' then [] :: groups rest
    else
      match groups rest with
      | first :: others => (c :: first) :: others
      | [] => [[c]]

/-- The fault of looking at the first character of an empty text. -/
def emptyNumber : ReadFault :=
  .scalar (.other "IndexError" "string index out of range")

/-- Reads an integer. -/
def integer (text : List Char) : Except ReadFault Int := do
  let cs := compact text
  let body := unsigned cs
  if cs.isEmpty then throw emptyNumber
  let n ← match body with
    | [] => throw emptyNumber
    | ['0'] => pure 0
    | '0' :: 'b' :: rest => radix 2 'b' rest
    | '0' :: 'x' :: rest => radix 16 'x' rest
    | '0' :: _ => radix 8 'o' body
    | _ =>
      if body.contains ':' then do
        let parts ← (groups body).mapM decimal
        pure (parts.foldl (fun n d => n * 60 + d) 0)
      else decimal body
  return if isNegative cs then -n else n

/-- The fault of a text that is no number. -/
def notFloat (cs : List Char) : ReadFault :=
  .scalar (.invalid ("could not convert string to float: " ++ Text.quoted (String.ofList cs)))

/-- The double of a text in lower case: digits with a point and an exponent, or a name. -/
def double? (cs : List Char) : Option Float :=
  let trimmed := Text.trimBoth Text.isBlank cs
  let body := unsigned trimmed
  let negative := isNegative trimmed
  let sign (x : Float) := if negative then -x else x
  if body = "inf".toList || body = "infinity".toList then some (sign (1.0 / 0.0))
  else if body = "nan".toList then some (0.0 / 0.0)
  else
    let (whole, rest) := Json.takeDigits body
    let (fraction, rest) := match rest with
      | '.' :: rest => Json.takeDigits rest
      | _ => ([], rest)
    let (exponent, rest) := Json.exponentPart rest
    if (whole.isEmpty && fraction.isEmpty) || !rest.isEmpty then none
    else
      some (Json.decimalFloat negative (Json.digitsValue (whole ++ fraction))
        (exponent.getD 0 - fraction.length))

/-- Reads a double without sign. -/
def double (cs : List Char) : Except ReadFault Float :=
  match double? cs with
  | some x => .ok x
  | none => .error (notFloat cs)

/-- Reads a number with a point. -/
def float (text : List Char) : Except ReadFault Float := do
  let cs := (compact text).map Char.toLower
  let body := unsigned cs
  if body.isEmpty then
    if cs.isEmpty then throw emptyNumber else throw (notFloat [])
  let x ←
    if body = ".inf".toList then pure (1.0 / 0.0)
    else if body = ".nan".toList then pure (0.0 / 0.0)
    else if body.contains ':' then do
      let parts ← (groups body).mapM double
      let sum (acc : Float × Nat) (x : Float) := (acc.1 + x * Float.ofNat acc.2, acc.2 * 60)
      pure (parts.reverse.foldl sum (0.0, 1)).1
    else double body
  return if isNegative cs then -x else x

/-- Reads a truth value. -/
def truth (text : String) : Except ReadFault Bool :=
  match truths.lookup (String.ofList (text.toList.map Char.toLower)) with
  | some b => .ok b
  | none => .error (.scalar (.missingKey (.str (String.ofList (text.toList.map Char.toLower)))))

/-- The fault of a part of a date that is out of range. -/
def outOfRange (message : String) : ReadFault :=
  .scalar (.invalid message)

/-- Checks a day. -/
def checkDay (d : CalendarDate) : Except ReadFault Unit :=
  if d.year = 0 then .error (outOfRange "year 0 is out of range")
  else if d.month < 1 || 12 < d.month then .error (outOfRange "month must be in 1..12")
  else if d.day < 1 || daysInMonth d.year d.month < d.day then
    .error (outOfRange "day is out of range for month")
  else .ok ()

/-- The minutes of a day, which are more than any zone is away from universal time. -/
def dayMinutes : Nat := 1440

/-- Checks the parts of a time. -/
def checkTime (t : WrittenTime) : Except ReadFault Unit :=
  if 23 < t.hour then .error (outOfRange "hour must be in 0..23")
  else if 59 < t.minute then .error (outOfRange "minute must be in 0..59")
  else if 59 < t.second then .error (outOfRange "second must be in 0..59")
  else .ok ()

/-- Checks the zone of a time. -/
def checkZone (t : WrittenTime) : Except ReadFault Unit :=
  match t.offset with
  | some m =>
    if m.natAbs < dayMinutes then .ok ()
    else
      .error (outOfRange ("offset must be a timedelta strictly between -timedelta(hours=24) and "
        ++ "timedelta(hours=24), not " ++ CalendarTime.deltaLiteral m ++ "."))
  | none => .ok ()

/-- Reads a date. -/
def timestamp (text : String) : Except ReadFault Value :=
  match day? text.toList with
  | none => .error (.scalar (.other "AttributeError" "'NoneType' object has no attribute 'groupdict'"))
  | some (d, none) => do
    checkDay d
    return .date d
  | some (d, some t) => do
    checkZone t
    checkDay d
    checkTime t
    return .dateTime ⟨d, t.hour, t.minute, t.second, t.micros, t.offset⟩

end LspClient.Yaml.Scalar
