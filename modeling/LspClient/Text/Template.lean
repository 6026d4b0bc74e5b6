/-
Templates of messages: a percent sign and a letter stand for an argument, as text, as it is shown
in messages, or as a whole number. Between the two may stand the name of an argument in a mapping,
flags, a width and a precision.
-/
import LspClient.Fault

namespace LspClient.Text.Template

inductive Arguments where
  | many (values : List Value)
  /-- One argument, which may be a mapping of named ones. -/
  | one (value : Value)
  deriving Inhabited

namespace Arguments

/-- The arguments of a message: a single mapping that is not empty is one of named arguments. -/
def ofValues (values : List Value) : Arguments :=
  match values with
  | [v] => if v.isMapping && v.isTruthy then one v else many values
  | _ => many values

/-- Whether there is anything to fill in. -/
def isPresent : Arguments → Bool
  | many values => !values.isEmpty
  | one v => v.isTruthy

/-- The value whose members can be named. -/
def named? : Arguments → Option Value
  | one (.str _) | many _ => none
  | one v => if v.isMapping then some v else match v with
    | .list _ | .bytes _ => some v
    | _ => none

end Arguments

/-- How an argument is laid out. -/
structure Layout where
  left : Bool := false
  zero : Bool := false
  plus : Bool := false
  space : Bool := false
  width : Nat := 0
  precision : Option Nat := none
  deriving Inhabited

/-- Takes flags from the front. -/
def flags : Layout → List Char → Layout × List Char
  | l, [] => (l, [])
  | l, c :: rest =>
    if c = '-' then flags { l with left := true } rest
    else if c = '0' then flags { l with zero := true } rest
    else if c = '+' then flags { l with plus := true } rest
    else if c = ' ' then flags { l with space := true } rest
    else if c = '#' then flags l rest
    else (l, c :: rest)

/-- The number that digits write. -/
def number (ds : List Char) : Nat :=
  ds.foldl (fun n c => n * 10 + (c.toNat - '0'.toNat)) 0

/-- Takes flags, width, precision and size letters from the front. -/
def layout (cs : List Char) : Layout × List Char :=
  let (l, cs) := flags {} cs
  let width := cs.takeWhile Char.isDigit
  let cs := cs.drop width.length
  let l := { l with width := number width }
  let (l, cs) := match cs with
    | '.' :: rest =>
      let digits := rest.takeWhile Char.isDigit
      ({ l with precision := some (number digits) }, rest.drop digits.length)
    | _ => (l, cs)
  match cs with
  | c :: rest => if c = 'h' || c = 'l' || c = 'L' then (l, rest) else (l, cs)
  | [] => (l, [])

/-- Blanks that fill a text up to a width. -/
def filled (l : Layout) (text : List Char) : List Char :=
  let blanks := List.replicate (l.width - text.length) ' '
  if l.left then text ++ blanks else blanks ++ text

/-- A text laid out. -/
def textual (l : Layout) (s : String) : List Char :=
  filled l (match l.precision with | some n => s.toList.take n | none => s.toList)

/-- A whole number laid out. -/
def whole (l : Layout) (n : Int) : List Char :=
  let sign := if n < 0 then ['-'] else if l.plus then ['+'] else if l.space then [' '] else []
  let digits := (toString n.natAbs).toList
  let digits := List.replicate (l.precision.getD 0 - digits.length) '0' ++ digits
  if l.zero && !l.left then
    sign ++ List.replicate (l.width - sign.length - digits.length) '0' ++ digits
  else filled l (sign ++ digits)

/-- The whole number of a value. -/
def wholeOf (v : Value) : Except Fault Int :=
  match v with
  | .int n => .ok n
  | .bool b => .ok (if b then 1 else 0)
  | .float x =>
    if x.isNaN then .error (.invalid "cannot convert float NaN to integer")
    else if x.isInf then .error (.other "OverflowError" "cannot convert float infinity to integer")
    else .ok (Decimal.truncate x)
  | _ => .error (.type "a real number is required")

/-- What stands for an argument, by the letter of its place. The place counts from the start of the
template. -/
def shown (l : Layout) (letter : Char) (place : Nat) (v : Value) : Except Fault (List Char) :=
  if letter = 's' then .ok (textual l v.text)
  else if letter = 'r' then .ok (textual l v.literal)
  else if letter = 'd' || letter = 'i' || letter = 'u' then (wholeOf v).map (whole l)
  else
    let visible := if 31 < letter.toNat && letter.toNat < 127 then letter else '?'
    .error (.invalid ("unsupported format character '" ++ visible.toString ++ "' (0x"
      ++ String.ofList (Nat.toDigits 16 letter.toNat) ++ ") at index " ++ toString place))

/-- The name of an argument, whose opening parenthesis has been passed, and the rest. -/
def name? : Nat → List Char → Option (List Char × List Char)
  | _, [] => none
  | depth, c :: rest =>
    if c = ')' && depth = 0 then some ([], rest)
    else
      let depth := if c = '(' then depth + 1 else if c = ')' then depth - 1 else depth
      (name? depth rest).map fun (name, rest) => (c :: name, rest)

/-- The argument with a name. -/
def member (names : Option Value) (name : String) : Except Fault Value :=
  match names with
  | none => .error (.type "format requires a mapping")
  | some (.list _) | some (.bytes _) => .error (.type "indices must be integers or slices, not str")
  | some (.map entries) =>
    match entries.find? fun e => e.1.asString? = some name with
    | some e => .ok e.2
    | none => .error (.missingKey (.str name))
  | some v =>
    match v.get? name with
    | some x => .ok x
    | none => .error (.missingKey (.str name))

/-- The arguments for the next place, and what follows the name of an argument if one is given. -/
def select (names : Option Value) (values : List Value) (cs : List Char) :
    Except Fault (List Value × List Char) :=
  match cs with
  | '(' :: rest =>
    match name? 0 rest, names with
    | none, none => .error (.type "format requires a mapping")
    | none, some _ => .error (.invalid "incomplete format key")
    | some (name, rest), _ => do return ([← member names (String.ofList name)], rest)
  | _ => .ok (values, cs)

/-- The first argument and the others. -/
def takeFirst : List Value → Except Fault (Value × List Value)
  | [] => .error (.type "not enough arguments for format string")
  | v :: values => .ok (v, values)

/-- Fills in the arguments. Given are the length of the whole template, the named values, a bound
on the number of steps, and the arguments that are left. -/
def fillFrom (length : Nat) (names : Option Value) :
    Nat → List Value → List Char → Except Fault (List Char)
  | 0, _, _ => .ok []
  | _ + 1, values, [] =>
    if values.isEmpty || names.isSome then .ok []
    else .error (.type "not all arguments converted during string formatting")
  | fuel + 1, values, c :: rest => do
    if c != '%' then return c :: (← fillFrom length names fuel values rest)
    let (values, rest) ← select names values rest
    let (l, rest) := layout rest
    match rest with
    | [] => throw (.invalid "incomplete format")
    | letter :: rest =>
      if letter = '%' then return '%' :: (← fillFrom length names fuel values rest)
      let (v, values) ← takeFirst values
      let text ← shown l letter (length - rest.length - 1) v
      return text ++ (← fillFrom length names fuel values rest)

/-- A template with its arguments filled in. -/
def fill (template : String) (arguments : Arguments) : Except Fault String := do
  let values := match arguments with
    | .many values => values
    | .one v => [v]
  let cs := template.toList
  return String.ofList (← fillFrom cs.length arguments.named? (cs.length + 1) values cs)

end LspClient.Text.Template
