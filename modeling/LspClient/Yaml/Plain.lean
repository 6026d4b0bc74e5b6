/-
Plain scalars: words without quotes, with single spaces for the line ends between them. They end
before a comment, a colon that ends a key, a marker, or a line that is indented less.
-/
import LspClient.Yaml.Cursor

namespace LspClient.Yaml.Plain

/-- Whether a character has a meaning of its own inside flow collections. -/
def isFlowMark (c : Char) : Bool :=
  c = ',' || c = '?' || c = '[' || c = ']' || c = '{' || c = '}'

/-- Whether what follows a colon lets the colon end a key. -/
def endsKey (inFlow : Bool) (afterColon : List Char) : Bool :=
  endsBefore (fun c => isGap c || (inFlow && c != '?' && isFlowMark c)) afterColon

/-- The word at the front of a text. -/
def word (inFlow : Bool) : List Char → List Char
  | [] => []
  | c :: rest =>
    if isGap c || (c = ':' && endsKey inFlow rest) || (inFlow && isFlowMark c) then []
    else c :: word inFlow rest

/-- The line ends that follow one, as far as only spaces stand between them, how many characters
they take, and whether a marker stands behind one of them. -/
def lineEnds : List Char → List Char × Nat × Bool
  | [] => ([], 0, false)
  | c :: rest =>
    if c = ' ' then
      let (ends, n, marked) := lineEnds rest
      (ends, n + 1, marked)
    else if isBreak c then
      if atMarker rest then ([breakText c], 1, true)
      else
        let (ends, n, marked) := lineEnds rest
        (breakText c :: ends, n + 1, marked)
    else ([], 0, false)

/-- What stands for a line end and those that follow it: a line feed alone becomes a space. -/
def folded (first : Char) (others : List Char) : List Char :=
  if breakText first = '\n' then (if others.isEmpty then [' '] else others)
  else breakText first :: others

/-- What separates two words. -/
structure Separator where
  text : List Char
  /-- The number of characters it takes. -/
  size : Nat
  /-- Whether it has a line end. -/
  hasBreak : Bool
  deriving Inhabited

/-- The separator at the front of a text; one without text ends the scalar. -/
def separator (cs : List Char) : Separator :=
  let spaces := cs.takeWhile (· = ' ')
  match cs.drop spaces.length with
  | [] => ⟨spaces, spaces.length, false⟩
  | c :: rest =>
    if !isBreak c then ⟨spaces, spaces.length, false⟩
    else if atMarker rest then ⟨[], spaces.length + 1, true⟩
    else
      let (others, n, marked) := lineEnds rest
      ⟨if marked then [] else folded c others, spaces.length + 1 + n, true⟩

/-- A scalar with the place behind it, and whether a line has ended since its last word. -/
structure Scanned where
  text : List Char
  cursor : Cursor
  hasBreak : Bool

/-- The words from a place on, after a separator. -/
def scanFrom (inFlow : Bool) (indent : Int) : Nat → Separator → Cursor → Scanned
  | 0, before, c => ⟨[], c, before.hasBreak⟩
  | fuel + 1, before, c =>
    let w := if c.rest.head? = some '#' then [] else word inFlow c.rest
    if w.isEmpty then ⟨[], c, before.hasBreak⟩
    else
      let c := c.pass w.length
      let s := separator c.rest
      let c := c.pass s.size
      if s.text.isEmpty || (!inFlow && (c.column : Int) < indent) then
        ⟨before.text ++ w, c, s.hasBreak⟩
      else
        let r := scanFrom inFlow indent fuel s c
        { r with text := before.text ++ w ++ r.text }

/-- The scalar at a place. -/
def scan (inFlow : Bool) (indent : Int) (c : Cursor) : Scanned :=
  scanFrom inFlow indent (c.rest.length + 1) ⟨[], 0, false⟩ c

end LspClient.Yaml.Plain
