/-
Quoted scalars. Between single quotes only the quote itself is written in another way, twice;
between double quotes a backslash begins an escape. In both, lines are folded: a line end and the
blanks around it become a space, or line feeds for the empty lines that follow.
-/
import LspClient.Json.Reader
import LspClient.Yaml.Plain
import LspClient.Yaml.Problem

namespace LspClient.Yaml.Quoted

/-- What makes a quoted scalar unreadable. -/
inductive Defect where
  | malformed (problem : Problem)
  | character (fault : Fault)
  deriving Inhabited

/-- A part of a scalar and the number of characters that it takes. -/
structure Part where
  text : List Char
  size : Nat
  deriving Inhabited

namespace Part

/-- A part that takes some characters more, in front of it. -/
def after (n : Nat) (p : Part) : Part :=
  { p with size := n + p.size }

/-- A part behind another one. -/
def append (p q : Part) : Part :=
  ⟨p.text ++ q.text, p.size + q.size⟩

end Part

/-- The line ends after one, with the blanks between them. A marker at the start of a line may not
stand inside quotes. -/
def lineEnds : Bool → List Char → Except Defect Part
  | lineStart, cs =>
    if lineStart && atMarker cs then .error (.malformed .markerInQuotes)
    else
      match cs with
      | [] => .ok ⟨[], 0⟩
      | c :: rest =>
        if isSpace c then return (← lineEnds false rest).after 1
        else if isBreak c then return Part.append ⟨[breakText c], 1⟩ (← lineEnds true rest)
        else .ok ⟨[], 0⟩

/-- The blanks at the front of a text, folded if a line ends there. -/
def blanks (cs : List Char) : Except Defect Part :=
  let spaces := cs.takeWhile isSpace
  match cs.drop spaces.length with
  | [] => .error (.malformed .unclosedQuote)
  | c :: rest =>
    if isBreak c then do
      let p ← lineEnds true rest
      return ⟨Plain.folded c p.text, spaces.length + 1 + p.size⟩
    else .ok ⟨spaces, spaces.length⟩

/-- The character that a letter after a backslash stands for. -/
def simpleEscape? (c : Char) : Option Char :=
  match c with
  | '0' => some '\x00'
  | 'a' => some '\x07'
  | 'b' => some '\x08'
  | 't' | '\t' => some '\t'
  | 'n' => some '\n'
  | 'v' => some '\x0b'
  | 'f' => some '\x0c'
  | 'r' => some '\r'
  | 'e' => some '\x1b'
  | ' ' => some ' '
  | '"' => some '"'
  | '\\' => some '\\'
  | '/' => some '/'
  | 'N' => some '\x85'
  | '_' => some '\xa0'
  | 'L' => some '\u2028'
  | 'P' => some '\u2029'
  | _ => none

/-- The number of hexadecimal digits after a letter that begins a numeric escape. -/
def escapeDigits? (c : Char) : Option Nat :=
  match c with
  | 'x' => some 2
  | 'u' => some 4
  | 'U' => some 8
  | _ => none

/-- The number that hexadecimal digits write. -/
def hexValue? (ds : List Char) : Option Nat :=
  ds.foldlM (fun n d => (Json.hexDigit? d).map fun x => n * 16 + x) 0

/-- The character with a number. -/
def characterOf (code : Nat) : Except Defect Char :=
  if code < 0x110000 then .ok (Text.charOf code)
  else if code < Nat.pow 2 31 then .error (.character (.invalid "chr() arg not in range(0x110000)"))
  else .error (.character (.other "OverflowError" "Python int too large to convert to C int"))

/-- The part that an escape stands for, from behind its backslash on. -/
def escape : List Char → Except Defect Part
  | [] => .error (.malformed .escape)
  | c :: rest =>
    match simpleEscape? c, escapeDigits? c with
    | some x, _ => .ok ⟨[x], 1⟩
    | none, some n =>
      let digits := rest.take n
      if digits.length < n then .error (.malformed .escape)
      else
        match hexValue? digits with
        | some code => return ⟨[← characterOf code], n + 1⟩
        | none => .error (.malformed .escape)
    | none, none =>
      if isBreak c then return (← lineEnds true rest).after 1
      else .error (.malformed .escape)

/-- The part at the front of a text inside quotes; none at the closing quote. -/
def part? (double : Bool) (cs : List Char) : Except Defect (Option Part) :=
  match cs with
  | [] => .error (.malformed .unclosedQuote)
  | c :: rest =>
    if isGap c then return some (← blanks cs)
    else if double then
      if c = '"' then return none
      else if c = '\\' then return some ((← escape rest).after 1)
      else return some ⟨[c], 1⟩
    else if c = '\'' then
      if rest.head? = some '\'' then return some ⟨['\''], 2⟩ else return none
    else return some ⟨[c], 1⟩

/-- The parts up to the closing quote, which is counted, too. -/
def partsFrom (double : Bool) : Nat → List Char → Except Defect Part
  | 0, _ => .error (.malformed .unclosedQuote)
  | fuel + 1, cs => do
    match ← part? double cs with
    | none => return ⟨[], 1⟩
    | some p => return p.append (← partsFrom double fuel (cs.drop p.size))

/-- The scalar behind an opening quote. -/
def scan (double : Bool) (cs : List Char) : Except Defect Part :=
  partsFrom double (cs.length + 1) cs

end LspClient.Yaml.Quoted
