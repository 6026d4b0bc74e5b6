/-
JSON text of values: one blank after commas and colons, members in the order of insertion, all
but printable ASCII escaped. Dates, byte strings and sets have no JSON text; a lenient printer
writes them as strings. Integers that a reader would refuse for the number of their digits have none
either.
-/
import LspClient.Json.Reader
import LspClient.Value.Literal

namespace LspClient.Json

open Text (hex)

/-- One unit of two octets as an escape. -/
def escapeUnit (n : Nat) : List Char :=
  '\\' :: 'u' :: hex 4 n

/-- One character inside a JSON string. -/
def escapeChar (c : Char) : List Char :=
  if c = '"' then ['\\', '"']
  else if c = '\\' then ['\\', '\\']
  else if c = '\n' then ['\\', 'n']
  else if c = '\r' then ['\\', 'r']
  else if c = '\t' then ['\\', 't']
  else if c.toNat = 0x08 then ['\\', 'b']
  else if c.toNat = 0x0c then ['\\', 'f']
  else if 0x20 ≤ c.toNat && c.toNat ≤ 0x7e then [c]
  else if c.toNat < 0x10000 then escapeUnit c.toNat
  else
    let n := c.toNat - 0x10000
    escapeUnit (0xd800 + n / 1024) ++ escapeUnit (0xdc00 + n % 1024)

/-- A JSON string. -/
def renderString (s : String) : List Char :=
  '"' :: (s.toList.flatMap escapeChar ++ ['"'])

/-- An integer. -/
def renderInt (n : Int) : List Char :=
  if n < 0 then '-' :: Decimal.natDigits n.natAbs else Decimal.natDigits n.natAbs

/-- The text of a key that is not a string, and of keys that have none the text they are shown
as. -/
def keyText : Value → String
  | .str s => s
  | .null => "null"
  | .bool b => if b then "true" else "false"
  | .int n => String.ofList (renderInt n)
  | .float x => Decimal.jsonNotation.render x
  | v => v.text

mutual

/-- The JSON text of a value; what has none is written as a string. -/
def render : Value → List Char
  | .null => ['n', 'u', 'l', 'l']
  | .bool b => if b then ['t', 'r', 'u', 'e'] else ['f', 'a', 'l', 's', 'e']
  | .int n => renderInt n
  | .float x => (Decimal.jsonNotation.render x).toList
  | .str s => renderString s
  | .list items => '[' :: (renderItems items ++ [']'])
  | .object members => '{' :: (renderMembers members ++ ['}'])
  | .map entries => '{' :: (renderEntries entries ++ ['}'])
  | .bytes b => renderString (Value.bytes b).text
  | .date d => renderString (Value.date d).text
  | .dateTime t => renderString (Value.dateTime t).text
  | .set items => renderString (Value.set items).text

/-- Items with commas between them. -/
def renderItems : List Value → List Char
  | [] => []
  | [v] => render v
  | v :: rest => render v ++ ',' :: ' ' :: renderItems rest

/-- Members with commas between them. -/
def renderMembers : List (String × Value) → List Char
  | [] => []
  | [(k, v)] => renderString k ++ ':' :: ' ' :: render v
  | (k, v) :: rest => renderString k ++ ':' :: ' ' :: (render v ++ ',' :: ' ' :: renderMembers rest)

/-- Entries with commas between them. -/
def renderEntries : List (Value × Value) → List Char
  | [] => []
  | [(k, v)] => renderString (keyText k) ++ ':' :: ' ' :: render v
  | (k, v) :: rest =>
    renderString (keyText k) ++ ':' :: ' ' :: (render v ++ ',' :: ' ' :: renderEntries rest)

end

/-- Why a value has no JSON text. -/
inductive PrintFault where
  | unsupported (type : String)
  | unsupportedKey (type : String)
  | tooManyDigits
  deriving DecidableEq, Inhabited

/-- The wording of a fault. -/
def PrintFault.message : PrintFault → String
  | unsupported type => "Object of type " ++ type ++ " is not JSON serializable"
  | unsupportedKey type => "keys must be str, int, float, bool or None, not " ++ type
  | tooManyDigits => "Exceeds the limit (" ++ toString maxIntegerDigits ++ " digits) for integer string "
      ++ "conversion; use sys.set_int_max_str_digits() to increase the limit"

/-- What a value without JSON text raises. -/
def PrintFault.toFault (f : PrintFault) : Fault :=
  match f with
  | tooManyDigits => .invalid f.message
  | _ => .type f.message

/-- The name of the type of a value that has no JSON text. -/
def foreignType? : Value → Option String
  | .bytes _ => some "bytes"
  | .date _ => some "date"
  | .dateTime _ => some "datetime"
  | .set _ => some "set"
  | _ => none

/-- An integer with too many digits has no text. -/
def digitsFault? (n : Int) : Option PrintFault :=
  if maxIntegerDigits < (Decimal.natDigits n.natAbs).length then some .tooManyDigits else none

/-- Why a key has no text. -/
def keyFault? : Value → Option PrintFault
  | .int n => digitsFault? n
  | k => (foreignType? k).map .unsupportedKey

mutual

/-- The first part of a value that has no JSON text. A lenient printer minds keys and integers only. -/
def fault? (lenient : Bool) : Value → Option PrintFault
  | .int n => digitsFault? n
  | .list items => faultItems? lenient items
  | .object members => faultMembers? lenient members
  | .map entries => faultEntries? lenient entries
  | v => if lenient then none else (foreignType? v).map .unsupported

/-- The first fault among items. -/
def faultItems? (lenient : Bool) : List Value → Option PrintFault
  | [] => none
  | v :: rest => (fault? lenient v).or (faultItems? lenient rest)

/-- The first fault among members. -/
def faultMembers? (lenient : Bool) : List (String × Value) → Option PrintFault
  | [] => none
  | (_, v) :: rest => (fault? lenient v).or (faultMembers? lenient rest)

/-- The first fault among entries, a key coming before its value. -/
def faultEntries? (lenient : Bool) : List (Value × Value) → Option PrintFault
  | [] => none
  | (k, v) :: rest =>
    (keyFault? k).or ((fault? lenient v).or (faultEntries? lenient rest))

end

/-- The JSON text of a value, if it has one. -/
def print (v : Value) : Except PrintFault String :=
  match fault? false v with
  | some f => .error f
  | none => .ok (String.ofList (render v))

/-- The JSON text of a value, dates and the like written as strings. -/
def printLenient (v : Value) : Except PrintFault String :=
  match fault? true v with
  | some f => .error f
  | none => .ok (String.ofList (render v))

end LspClient.Json
