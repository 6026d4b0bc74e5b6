/-
Block scalars: lines that are indented alike, kept as they are or folded into one. A header says
how the last line ends are treated and, if it has a number, how far the lines are indented.
-/
import LspClient.Yaml.Cursor

namespace LspClient.Yaml.Block

/-- What happens to the line ends behind the last line. -/
inductive Chomping where
  /-- None is kept. -/
  | strip
  /-- The first one is kept. -/
  | clip
  /-- All are kept. -/
  | keep
  deriving DecidableEq, Inhabited

structure Header where
  chomping : Chomping := .clip
  /-- How much further than their parent the lines are indented. -/
  increment : Option Nat := none
  deriving Inhabited

/-- The chomping that a character asks for. -/
def chomping? (c : Char) : Option Chomping :=
  if c = '+' then some .keep else if c = '-' then some .strip else none

/-- The increment that a digit asks for. -/
def increment? (c : Char) : Option Nat :=
  if '1' ≤ c && c ≤ '9' then some (c.toNat - '0'.toNat) else none

/-- The header at the front of a text, and the number of characters it takes. -/
def header : List Char → Header × Nat
  | [] => ({}, 0)
  | a :: rest =>
    match chomping? a, increment? a with
    | some chomping, _ =>
      match rest.head?.bind increment? with
      | some n => (⟨chomping, some n⟩, 2)
      | none => (⟨chomping, none⟩, 1)
    | none, some n =>
      match rest.head?.bind chomping? with
      | some chomping => (⟨chomping, some n⟩, 2)
      | none => (⟨.clip, some n⟩, 1)
    | none, none => ({}, 0)

/-- The rest of a header's line: spaces and a comment, and the line end. The result is the number
of characters, unless there is something else. -/
def headerEnd? (cs : List Char) : Option Nat :=
  if endsBefore (fun c => c = ' ' || isBreak c) cs then
    let spaces := (cs.takeWhile (· = ' ')).length
    let after := cs.drop spaces
    let comment := if after.head? = some '#' then (after.takeWhile fun c => !isBreak c).length else 0
    match after.drop comment with
    | [] => some (spaces + comment)
    | c :: _ => if isBreak c then some (spaces + comment + 1) else none
  else none

/-- Line ends and the spaces in front of a line. -/
structure Gap where
  breaks : List Char := []
  /-- The largest column that spaces lead to. -/
  widest : Nat := 0
  size : Nat := 0
  deriving Inhabited

/-- The empty lines in front of the first line. -/
def leading : Nat → List Char → Gap
  | _, [] => {}
  | column, c :: rest =>
    if c = ' ' then
      let g := leading (column + 1) rest
      { g with widest := max (column + 1) g.widest, size := g.size + 1 }
    else if isBreak c then
      let g := leading 0 rest
      { g with breaks := breakText c :: g.breaks, size := g.size + 1 }
    else {}

/-- The empty lines in front of a line that is indented to a column. -/
def between (indent : Nat) : Nat → List Char → Gap
  | _, [] => {}
  | column, c :: rest =>
    if c = ' ' && column < indent then
      let g := between indent (column + 1) rest
      { g with size := g.size + 1 }
    else if isBreak c then
      let g := between indent 0 rest
      { g with breaks := breakText c :: g.breaks, size := g.size + 1 }
    else {}

/-- What is read of a block scalar: its text so far, and the line ends behind its last line. -/
structure Lines where
  text : List Char
  /-- The end of the last line. -/
  ending : List Char
  /-- The line ends behind that. -/
  breaks : List Char
  cursor : Cursor

/-- Whether a line of the scalar starts at a place. -/
def atLine (indent : Nat) (c : Cursor) : Bool :=
  c.column = indent && !c.rest.isEmpty

/-- Reads lines. -/
def linesFrom (folded : Bool) (indent : Nat) : Nat → List Char → Cursor → Lines
  | 0, breaks, c => ⟨[], [], breaks, c⟩
  | fuel + 1, breaks, c =>
    if !atLine indent c then ⟨[], [], breaks, c⟩
    else
      let line := c.word fun x => !isBreak x
      let afterLine := c.pass line.length
      let ending := (afterLine.rest.take 1).map breakText
      let afterEnding := afterLine.pass ending.length
      let gap := between indent afterEnding.column afterEnding.rest
      let next := afterEnding.pass gap.size
      if atLine indent next then
        let joins := folded && ending == ['\n'] && !startsWith isSpace c.rest
          && !startsWith isSpace next.rest
        let joint := if !joins then ending else if gap.breaks.isEmpty then [' '] else []
        let r := linesFrom folded indent fuel gap.breaks next
        { r with text := breaks ++ line ++ joint ++ r.text }
      else ⟨breaks ++ line, ending, gap.breaks, next⟩

/-- The scalar at a place behind its header, inside a block that is indented to a column. -/
def scan (folded : Bool) (h : Header) (parent : Int) (c : Cursor) : List Char × Cursor :=
  let least := (max (parent + 1) 1).toNat
  let (indent, gap) := match h.increment with
    | none =>
      let gap := leading c.column c.rest
      (max least gap.widest, gap)
    | some n =>
      let indent := least + n - 1
      (indent, between indent c.column c.rest)
  let r := linesFrom folded indent (c.rest.length + 1) gap.breaks (c.pass gap.size)
  let tail := match h.chomping with
    | .strip => []
    | .clip => r.ending
    | .keep => r.ending ++ r.breaks
  (r.text ++ tail, r.cursor)

end LspClient.Yaml.Block
