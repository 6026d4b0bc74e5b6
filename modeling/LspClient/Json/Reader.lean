/-
Reading JSON text. The reader also takes the names of the numbers that are not finite; of members
with the same name the last value counts, at the place of the first. A fault says what was
expected and where.
-/
import LspClient.Fault
import LspClient.Json.Encoding

namespace LspClient.Json

/-- What is wrong with a text. -/
inductive Expectation where
  | value
  | propertyName
  | colon
  | comma
  | endOfText
  | closingQuote
  | noControl
  | escape
  | unicodeEscape
  | noByteOrderMark
  deriving DecidableEq, Inhabited

/-- The wording of what is wrong. -/
def Expectation.text : Expectation → String
  | value => "Expecting value"
  | propertyName => "Expecting property name enclosed in double quotes"
  | colon => "Expecting ':' delimiter"
  | comma => "Expecting ',' delimiter"
  | endOfText => "Extra data"
  | closingQuote => "Unterminated string starting at"
  | noControl => "Invalid control character at"
  | escape => "Invalid \\escape"
  | unicodeEscape => "Invalid \\uXXXX escape"
  | noByteOrderMark => "Unexpected UTF-8 BOM (decode using utf-8-sig)"

/-- A fault in JSON text. Places are counted from the end of the text, as the number of characters
that are left there. -/
inductive ReadFault where
  | malformed (what : Expectation) (left : Nat)
  | tooManyDigits (count : Nat)
  deriving DecidableEq, Inhabited

/-- A reader takes characters from the front and leaves the others. -/
abbrev Read (α : Type) := Except ReadFault (α × List Char)

/-- The largest number of digits that an integer may have. -/
def maxIntegerDigits : Nat := 4300

/-- The blanks of JSON. -/
def isBlank (c : Char) : Bool :=
  c = ' ' || c = '\t' || c = '\n' || c = '\r'

/-- Passes over blanks. -/
def skipBlanks : List Char → List Char
  | [] => []
  | c :: rest => if isBlank c then skipBlanks rest else c :: rest

/-! ## Strings -/

/-- The value of a hexadecimal digit. -/
def hexDigit? (c : Char) : Option Nat :=
  if '0' ≤ c && c ≤ '9' then some (c.toNat - '0'.toNat)
  else if 'a' ≤ c && c ≤ 'f' then some (c.toNat - 'a'.toNat + 10)
  else if 'A' ≤ c && c ≤ 'F' then some (c.toNat - 'A'.toNat + 10)
  else none

/-- The number of four hexadecimal digits. -/
def hexNumber? : List Char → Option Nat
  | [a, b, c, d] => do
    return (((← hexDigit? a) * 16 + (← hexDigit? b)) * 16 + (← hexDigit? c)) * 16 + (← hexDigit? d)
  | _ => none

/-- The character that a letter after a backslash stands for. -/
def simpleEscape? (c : Char) : Option Char :=
  if c = '"' || c = '\\' || c = '/' then some c
  else if c = 'b' then some '\x08'
  else if c = 'f' then some '\x0c'
  else if c = 'n' then some '\n'
  else if c = 'r' then some '\r'
  else if c = 't' then some '\t'
  else none

/-- The character of a `\u` escape whose digits and rest are given, and how many characters after
the `u` it takes. A high surrogate joins a low one that follows at once. -/
def unicodeEscape (afterU : List Char) : Except ReadFault (Char × Nat) :=
  let digits := afterU.take 4
  let rest := afterU.drop 4
  if rest.isEmpty then .error (.malformed .unicodeEscape (afterU.length + 1))
  else
    match hexNumber? digits with
    | none => .error (.malformed .unicodeEscape (afterU.length + 1))
    | some high =>
      if 0xd800 ≤ high && high < 0xdc00 then
        match rest with
        | '\\' :: 'u' :: tail =>
          if (tail.drop 4).isEmpty then .ok (Text.charOf high, 4)
          else
            match hexNumber? (tail.take 4) with
            | none => .error (.malformed .unicodeEscape (tail.length + 1))
            | some low =>
              if 0xdc00 ≤ low && low < 0xe000 then
                .ok (Text.charOf (0x10000 + (high - 0xd800) * 1024 + (low - 0xdc00)), 10)
              else .ok (Text.charOf high, 4)
        | _ => .ok (Text.charOf high, 4)
      else .ok (Text.charOf high, 4)

/-- Reads the rest of a string whose opening quote has `opening` characters from itself on. The
first argument counts characters that belong to an escape already read. -/
def readString (opening : Nat) : Nat → List Char → List Char → Read String
  | _, _, [] => .error (.malformed .closingQuote opening)
  | skip + 1, done, _ :: rest => readString opening skip done rest
  | 0, done, c :: rest =>
    if c = '"' then .ok (String.ofList done.reverse, rest)
    else if c = '\\' then
      match rest with
      | [] => .error (.malformed .closingQuote opening)
      | e :: tail =>
        if e = 'u' then
          match unicodeEscape tail with
          | .error f => .error f
          | .ok (u, n) => readString opening (n + 1) (u :: done) rest
        else
          match simpleEscape? e with
          | some u => readString opening 1 (u :: done) rest
          | none => .error (.malformed .escape (rest.length + 1))
    else if c.toNat < 0x20 then .error (.malformed .noControl (rest.length + 1))
    else readString opening 0 (c :: done) rest

/-! ## Numbers -/

/-- Whether a character is one of the ten ASCII digits. -/
def isDigit (c : Char) : Bool :=
  '0' ≤ c && c ≤ '9'

/-- Takes the digits from the front. -/
def takeDigits (cs : List Char) : List Char × List Char :=
  (cs.takeWhile isDigit, cs.dropWhile isDigit)

/-- The number that digits write. -/
def digitsValue (ds : List Char) : Nat :=
  ds.foldl (fun n c => n * 10 + (c.toNat - '0'.toNat)) 0

/-- The digits before the point: a single zero, or digits that start with none. -/
def wholePart : List Char → Option (List Char × List Char)
  | [] => none
  | c :: rest =>
    if c = '0' then some ([c], rest)
    else if isDigit c then some (takeDigits (c :: rest))
    else none

/-- The digits behind the point, if a point with digits follows. -/
def fractionPart : List Char → List Char × List Char
  | '.' :: rest =>
    match takeDigits rest with
    | ([], _) => ([], '.' :: rest)
    | (ds, tail) => (ds, tail)
  | cs => ([], cs)

/-- The exponent, if an `e` with digits follows. -/
def exponentPart (cs : List Char) : Option Int × List Char :=
  match cs with
  | c :: rest =>
    if c = 'e' || c = 'E' then
      let (negative, digits) := match rest with
        | '-' :: tail => (true, tail)
        | '+' :: tail => (false, tail)
        | tail => (false, tail)
      match takeDigits digits with
      | ([], _) => (none, cs)
      | (ds, tail) =>
        let n : Int := digitsValue ds
        (some (if negative then -n else n), tail)
    else (none, cs)
  | [] => (none, cs)

/-- The double nearest to `digits * 10 ^ e`; exponents that cannot matter are cut off. -/
def decimalFloat (negative : Bool) (digits : Nat) (e : Int) : Float :=
  let x :=
    if digits = 0 then 0.0
    else if e ≥ 0 then
      if e > 400 then Float.ofScientific digits false 400 else Float.ofScientific digits false e.toNat
    else
      let size := (Nat.log2 digits : Int) * 30103 / 100000 + 1
      if e + size < -400 then 0.0 else Float.ofScientific digits true (-e).toNat
  if negative then -x else x

/-- Reads a number, if the text starts with one. -/
def readNumber (cs : List Char) : Option (Except ReadFault (Value × List Char)) :=
  let (negative, body) := match cs with
    | '-' :: rest => (true, rest)
    | _ => (false, cs)
  (wholePart body).map fun (whole, afterWhole) =>
    let (frac, afterFrac) := fractionPart afterWhole
    let (exponent, rest) := exponentPart afterFrac
    if frac.isEmpty && exponent.isNone then
      if whole.length > maxIntegerDigits then .error (.tooManyDigits whole.length)
      else
        let n : Int := digitsValue whole
        .ok (.int (if negative then -n else n), rest)
    else
      let x := decimalFloat negative (digitsValue (whole ++ frac)) (exponent.getD 0 - frac.length)
      .ok (.float x, rest)

/-- Reads one of the fixed words, if the text starts with one. -/
def readWord (cs : List Char) : Option (Value × List Char) :=
  match cs with
  | 'n' :: 'u' :: 'l' :: 'l' :: rest => some (.null, rest)
  | 't' :: 'r' :: 'u' :: 'e' :: rest => some (.bool true, rest)
  | 'f' :: 'a' :: 'l' :: 's' :: 'e' :: rest => some (.bool false, rest)
  | 'N' :: 'a' :: 'N' :: rest => some (.float (0.0 / 0.0), rest)
  | 'I' :: 'n' :: 'f' :: 'i' :: 'n' :: 'i' :: 't' :: 'y' :: rest => some (.float (1.0 / 0.0), rest)
  | '-' :: 'I' :: 'n' :: 'f' :: 'i' :: 'n' :: 'i' :: 't' :: 'y' :: rest =>
    some (.float (-(1.0 / 0.0)), rest)
  | _ => none

/-- Reads a word or a number. -/
def readScalar (cs : List Char) : Read Value :=
  match readWord cs with
  | some r => .ok r
  | none =>
    match readNumber cs with
    | some r => r
    | none => .error (.malformed .value cs.length)

/-! ## Values -/

/-- The members in the order of the text, a repeated name keeping its first place. -/
def gather (members : List (String × Value)) : List (String × Value) :=
  members.foldl (fun done (k, v) => Value.store k v done) []

mutual

/-- Reads a value from its first character on. -/
def readValue : Nat → List Char → Except ReadFault (Value × List Char)
  | 0, cs => .error (.malformed .value cs.length)
  | fuel + 1, cs =>
    match cs with
    | '"' :: rest => do
      let (s, rest) ← readString cs.length 0 [] rest
      return (.str s, rest)
    | '[' :: rest =>
      match skipBlanks rest with
      | ']' :: rest => .ok (.list [], rest)
      | cs => do
        let (items, rest) ← readItems fuel [] cs
        return (.list items, rest)
    | '{' :: rest =>
      match skipBlanks rest with
      | '}' :: rest => .ok (.object [], rest)
      | cs => do
        let (members, rest) ← readMembers fuel [] cs
        return (.object (gather members), rest)
    | _ => readScalar cs

/-- Reads the items of a list from the first character of an item up to the closing bracket. -/
def readItems : Nat → List Value → List Char → Except ReadFault (List Value × List Char)
  | 0, _, cs => .error (.malformed .value cs.length)
  | fuel + 1, done, cs => do
    let (v, rest) ← readValue fuel cs
    match skipBlanks rest with
    | ']' :: rest => return ((v :: done).reverse, rest)
    | ',' :: rest => readItems fuel (v :: done) (skipBlanks rest)
    | cs => throw (.malformed .comma cs.length)

/-- Reads the members of an object from the opening quote of a name up to the closing brace. -/
def readMembers : Nat → List (String × Value) → List Char →
    Except ReadFault (List (String × Value) × List Char)
  | 0, _, cs => .error (.malformed .value cs.length)
  | fuel + 1, done, cs =>
    match cs with
    | '"' :: rest => do
      let (name, rest) ← readString cs.length 0 [] rest
      match skipBlanks rest with
      | ':' :: rest =>
        let (v, rest) ← readValue fuel (skipBlanks rest)
        match skipBlanks rest with
        | '}' :: rest => return (((name, v) :: done).reverse, rest)
        | ',' :: rest => readMembers fuel ((name, v) :: done) (skipBlanks rest)
        | cs => throw (.malformed .comma cs.length)
      | cs => throw (.malformed .colon cs.length)
    | _ => .error (.malformed .propertyName cs.length)

end

/-- Reads a whole text: blanks, one value, blanks. Each character is the start of at most one
collection and of one item in it. -/
def readText (cs : List Char) : Except ReadFault Value := do
  let (v, rest) ← readValue (2 * cs.length + 2) (skipBlanks cs)
  match skipBlanks rest with
  | [] => return v
  | rest => throw (.malformed .endOfText rest.length)

/-- The line and column of a place, both counted from 1. -/
def lineColumn (before : List Char) : Nat × Nat :=
  (before.count '\n' + 1, (before.reverse.takeWhile (· != '\n')).length + 1)

/-- The wording of a fault in a text. -/
def ReadFault.message (text : List Char) : ReadFault → String
  | malformed what left =>
    let pos := text.length - left
    let (line, column) := lineColumn (text.take pos)
    what.text ++ ": line " ++ toString line ++ " column " ++ toString column ++ " (char "
      ++ toString pos ++ ")"
  | tooManyDigits count =>
    "Exceeds the limit (" ++ toString maxIntegerDigits ++ " digits) for integer string conversion: "
      ++ "value has " ++ toString count
      ++ " digits; use sys.set_int_max_str_digits() to increase the limit"

/-- Why a message body could not be read as JSON. -/
inductive BodyFault where
  /-- The text is not JSON, or not text at all; the wording says why. -/
  | unreadable (wording : String)
  /-- The text is JSON, but a number in it has too many digits. -/
  | oversized (wording : String)

/-- Turns a fault in a text into that of a body. -/
def bodyFault (text : List Char) (f : ReadFault) : BodyFault :=
  match f with
  | .malformed .. => .unreadable (f.message text)
  | .tooManyDigits _ => .oversized (f.message text)

/-- Reads a text; a byte order mark at its start is a fault. -/
def readChars (cs : List Char) : Except BodyFault Value :=
  if cs.head? = some '\ufeff' then
    .error (bodyFault cs (.malformed .noByteOrderMark cs.length))
  else (readText cs).mapError (bodyFault cs)

/-- Reads octets. -/
def readOctets (bs : Octets) : Except BodyFault Value :=
  match decodeOctets bs with
  | .error f => .error (.unreadable f.message)
  | .ok cs => (readText cs).mapError (bodyFault cs)

end LspClient.Json
