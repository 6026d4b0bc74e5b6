/-
Places in the text of a settings file, and the kinds of characters that its layout is made of.
Lines end at a line feed, a next line, or one of the two separators of Unicode.
-/

namespace LspClient.Yaml

/-- Whether a line ends at the character. -/
def isBreak (c : Char) : Bool :=
  c = '\n' || c = '\x85' || c = '\u2028' || c = '\u2029'

/-- Whether the character is a space or a tab. -/
def isSpace (c : Char) : Bool :=
  c = ' ' || c = '\t'

/-- Whether the character separates words. -/
def isGap (c : Char) : Bool :=
  isSpace c || isBreak c

/-- What the end of a line becomes in a scalar: a separator of Unicode stays as it is. -/
def breakText (c : Char) : Char :=
  if c = '\x85' then '\n' else c

/-- Whether a text starts with a character of a kind, or has ended. -/
def endsBefore (test : Char → Bool) : List Char → Bool
  | [] => true
  | c :: _ => test c

/-- Whether a text starts with a character of a kind. -/
def startsWith (test : Char → Bool) : List Char → Bool
  | [] => false
  | c :: _ => test c

/-- Whether a text starts with three of the characters and a gap, as the marker of a document. -/
def startsMarker (mark : Char) : List Char → Bool
  | a :: b :: c :: rest => a = mark && b = mark && c = mark && endsBefore isGap rest
  | _ => false

/-- Whether a text starts with the marker of the start or the end of a document. -/
def atMarker (cs : List Char) : Bool :=
  startsMarker '-' cs || startsMarker '.' cs

/-- A line and a column, both counted from 0. -/
structure Mark where
  line : Nat := 0
  column : Nat := 0
  deriving DecidableEq, Inhabited

/-- A place in a text: what follows, and how far it is from the start. -/
structure Cursor where
  rest : List Char
  /-- The number of characters before the place. -/
  passed : Nat := 0
  line : Nat := 0
  column : Nat := 0
  deriving Inhabited

namespace Cursor

/-- Line and column of a place. -/
def mark (c : Cursor) : Mark :=
  ⟨c.line, c.column⟩

/-- The place after the next character. Byte order marks have no width. -/
def next (c : Cursor) : Cursor :=
  match c.rest with
  | [] => c
  | x :: rest =>
    if isBreak x then { rest, passed := c.passed + 1, line := c.line + 1, column := 0 }
    else if x = '\ufeff' then { c with rest, passed := c.passed + 1 }
    else { c with rest, passed := c.passed + 1, column := c.column + 1 }

/-- The place after some characters. -/
def pass : Nat → Cursor → Cursor
  | 0, c => c
  | n + 1, c => pass n c.next

/-- The characters of a kind that follow. -/
def word (test : Char → Bool) (c : Cursor) : List Char :=
  c.rest.takeWhile test

/-- The place after the characters of a kind that follow. -/
def passWhile (test : Char → Bool) (c : Cursor) : Cursor :=
  c.pass (c.word test).length

end Cursor

end LspClient.Yaml
