/-
The tokens of a settings file. Indentation becomes tokens, too: a block starts where a line is
indented more, and ends where one is indented less. A key is only known as such by the colon
behind it, so places where keys may have started are kept until their lines end.
-/
import LspClient.Yaml.Block
import LspClient.Yaml.Quoted
import LspClient.Yaml.Tag

namespace LspClient.Yaml

inductive Token where
  | streamEnd
  | version (major : Nat)
  | tagHandle (handle name : String)
  | otherDirective
  | documentStart
  | documentEnd
  | blockSequenceStart
  | blockMappingStart
  | blockEnd
  | flowSequenceStart
  | flowSequenceEnd
  | flowMappingStart
  | flowMappingEnd
  | flowEntry
  | blockEntry
  | key
  | value
  | alias (name : String)
  | anchor (name : String)
  | tag (written : Tag.Written)
  | scalar (text : String) (plain : Bool)
  deriving DecidableEq, Inhabited

/-- A token with its place. -/
structure PlacedToken where
  token : Token
  mark : Mark
  deriving Inhabited

/-- A place where a key may have started. -/
structure PossibleKey where
  /-- The number of tokens in front of it. -/
  index : Nat
  /-- Whether a block needs a key here. -/
  required : Bool
  passed : Nat
  mark : Mark
  deriving Inhabited

structure Scanner where
  cursor : Cursor
  /-- How many flow collections are open. -/
  flow : Nat := 0
  /-- The column of the innermost block. -/
  indent : Int := -1
  /-- The columns of the blocks around it. -/
  outer : List Int := []
  keyAllowed : Bool := true
  /-- Possible keys with the numbers of flow collections they stand in. -/
  keys : List (Nat × PossibleKey) := []
  tokens : Array PlacedToken := #[]
  deriving Inhabited

/-- An operation of the scanner that may fail. -/
abbrev Scan := StateT Scanner (Except ReadFault)

namespace Scanner

/-! ## Places -/

/-- Fails because of what stands at the place of the scanner. -/
def refuse {α : Type} (problem : Problem) : Scan α := do
  throw (.malformed problem (← get).cursor.mark)

/-- Passes over some characters. -/
def pass (n : Nat) : Scan Unit :=
  modify fun s => { s with cursor := s.cursor.pass n }

/-- Adds a token. -/
def add (token : Token) (mark : Mark) : Scan Unit :=
  modify fun s => { s with tokens := s.tokens.push ⟨token, mark⟩ }

/-- Adds a token at the place of the scanner. -/
def addHere (token : Token) : Scan Unit := do
  add token (← get).cursor.mark

/-- Allows or forbids keys. -/
def allowKey (allowed : Bool) : Scan Unit :=
  modify fun s => { s with keyAllowed := allowed }

/-- Whether the scanner is inside a flow collection. -/
def inFlow : Scan Bool := do
  return 0 < (← get).flow

/-! ## Possible keys -/

/-- Forgets the possible key at the current depth. A key that is required may not be forgotten. -/
def dropKey : Scan Unit := do
  let s ← get
  match s.keys.lookup s.flow with
  | none => pure ()
  | some k =>
    if k.required then refuse .missingColon
    set { s with keys := s.keys.filter fun (depth, _) => depth != s.flow }

/-- The largest number of characters of a key. -/
def maxKeySize : Nat := 1024

/-- Whether a key can no longer have started at a place. -/
def isStale (s : Scanner) (k : PossibleKey) : Bool :=
  k.mark.line != s.cursor.line || s.cursor.passed - k.passed > maxKeySize

/-- Forgets the possible keys whose lines have ended. -/
def dropStaleKeys : Scan Unit := do
  let s ← get
  if s.keys.any fun (_, k) => isStale s k && k.required then refuse .missingColon
  set { s with keys := s.keys.filter fun (_, k) => !isStale s k }

/-- Keeps the place of the scanner as one where a key may start. -/
def saveKey : Scan Unit := do
  let s ← get
  if s.keyAllowed then
    dropKey
    let required := s.flow == 0 && s.indent == s.cursor.column
    let k : PossibleKey := ⟨s.tokens.size, required, s.cursor.passed, s.cursor.mark⟩
    modify fun s => { s with keys := (s.flow, k) :: s.keys }

/-! ## Indentation -/

/-- Ends the blocks that are indented more than a column. -/
def endBlocks (column : Int) : List Int → Scan Unit
  | [] => pure ()
  | outer :: rest => do
    if column < (← get).indent then
      addHere .blockEnd
      modify fun s => { s with indent := outer, outer := rest }
      endBlocks column rest

/-- Ends blocks unless the scanner is inside a flow collection. -/
def unwind (column : Int) : Scan Unit := do
  if !(← inFlow) then endBlocks column (← get).outer

/-- Begins a block at a column, if that is indented more. Tells whether it does. -/
def indentTo (column : Int) : Scan Bool := do
  let s ← get
  if s.indent < column then
    set { s with indent := column, outer := s.indent :: s.outer }
    return true
  return false

/-! ## Gaps -/

/-- How many characters separate the next token, comments included, and whether a line ends among
them. -/
def gap : Bool → List Char → Nat × Bool
  | _, [] => (0, false)
  | inComment, c :: rest =>
    if isBreak c then ((gap false rest).1 + 1, true)
    else if inComment || c = ' ' then
      let (n, ended) := gap inComment rest
      (n + 1, ended)
    else if c = '#' then
      let (n, ended) := gap true rest
      (n + 1, ended)
    else (0, false)

/-- Passes over what separates the next token. -/
def toNextToken : Scan Unit := do
  let s ← get
  if s.cursor.passed = 0 && s.cursor.rest.head? = some '\ufeff' then pass 1
  let (n, ended) := gap false (← get).cursor.rest
  pass n
  if ended && !(← inFlow) then allowKey true

/-! ## Tokens of one kind -/

/-- The directive in a line. -/
def directiveOf (name : String) (cs : List Char) : Option (Token × Nat) :=
  let spaces := (cs.takeWhile (· = ' ')).length
  let cs := cs.drop spaces
  if name = "YAML" then
    let major := cs.takeWhile Json.isDigit
    match major, cs.drop major.length with
    | _ :: _, '.' :: rest =>
      let minor := rest.takeWhile Json.isDigit
      if !minor.isEmpty then
        some (.version (Json.digitsValue major), spaces + major.length + 1 + minor.length)
      else none
    | _, _ => none
  else if name = "TAG" then do
    let (handle, n) ← Tag.handle? cs
    if (cs.drop n).head? != some ' ' then none
    let more := ((cs.drop n).takeWhile (· = ' ')).length
    let (uri, m) ← Tag.uri? (cs.drop (n + more))
    some (.tagHandle handle uri, spaces + n + more + m)
  else some (.otherDirective, spaces + (cs.takeWhile fun c => !isBreak c).length)

/-- Whether a text starts with a space or a line end, or has ended. -/
def endsPlainly (cs : List Char) : Bool :=
  endsBefore (fun c => c = ' ' || isBreak c) cs

/-- Reads a directive. -/
def directive : Scan Unit := do
  unwind (-1)
  dropKey
  allowKey false
  let mark := (← get).cursor.mark
  let cs := (← get).cursor.rest.drop 1
  let name := cs.takeWhile Tag.isNameCharacter
  let after := cs.drop name.length
  if name.isEmpty || !endsPlainly after then refuse .directive
  match directiveOf (String.ofList name) after with
  | none => refuse .directive
  | some (token, n) =>
    if !endsPlainly (after.drop n) then refuse .directive
    match Block.headerEnd? (after.drop n) with
    | none => refuse .directive
    | some m =>
      pass (1 + name.length + n + m)
      add token mark

/-- Reads a marker of a document. -/
def documentMarker (token : Token) : Scan Unit := do
  unwind (-1)
  dropKey
  allowKey false
  addHere token
  pass 3

/-- Reads the start of a flow collection. -/
def flowStart (token : Token) : Scan Unit := do
  saveKey
  modify fun s => { s with flow := s.flow + 1 }
  allowKey true
  addHere token
  pass 1

/-- Reads the end of a flow collection. -/
def flowEnd (token : Token) : Scan Unit := do
  dropKey
  modify fun s => { s with flow := s.flow - 1 }
  allowKey false
  addHere token
  pass 1

/-- Reads the comma between entries of a flow collection. -/
def flowEntry : Scan Unit := do
  allowKey true
  dropKey
  addHere .flowEntry
  pass 1

/-- Begins a block at the column of the scanner, if it is indented more. -/
def beginBlock (token : Token) : Scan Unit := do
  if ← indentTo (← get).cursor.column then addHere token

/-- Reads the dash in front of an entry of a block. -/
def blockEntry : Scan Unit := do
  if !(← inFlow) then
    if !(← get).keyAllowed then refuse .entryNotAllowed
    beginBlock .blockSequenceStart
  allowKey true
  dropKey
  addHere .blockEntry
  pass 1

/-- Reads the question mark in front of a key. -/
def explicitKey : Scan Unit := do
  let inFlow ← inFlow
  if !inFlow then
    if !(← get).keyAllowed then refuse .keyNotAllowed
    beginBlock .blockMappingStart
  allowKey (!inFlow)
  dropKey
  addHere .key
  pass 1

/-- Puts tokens in front of those from a place on. -/
def insertAt (index : Nat) (placed : PlacedToken) (tokens : Array PlacedToken) :
    Array PlacedToken :=
  tokens.extract 0 index ++ #[placed] ++ tokens.extract index tokens.size

/-- Reads the colon behind a key. -/
def keyEnd : Scan Unit := do
  let s ← get
  match s.keys.lookup s.flow with
  | some k =>
    set { s with
      keys := s.keys.filter fun (depth, _) => depth != s.flow
      tokens := insertAt k.index ⟨.key, k.mark⟩ s.tokens }
    if s.flow == 0 then
      if ← indentTo k.mark.column then
        modify fun s => { s with tokens := insertAt k.index ⟨.blockMappingStart, k.mark⟩ s.tokens }
    allowKey false
  | none =>
    if s.flow == 0 then
      if !s.keyAllowed then refuse .valueNotAllowed
      beginBlock .blockMappingStart
    allowKey (s.flow == 0)
    dropKey
  addHere .value
  pass 1

/-- Whether what follows the name of an anchor or alias may follow it. -/
def endsName (cs : List Char) : Bool :=
  endsBefore (fun c => isGap c || "?:,]\x7d%@`".toList.contains c) cs

/-- Reads the name of an anchor or alias. -/
def named (token : String → Token) : Scan Unit := do
  saveKey
  allowKey false
  let mark := (← get).cursor.mark
  let cs := (← get).cursor.rest.drop 1
  let name := cs.takeWhile Tag.isNameCharacter
  if name.isEmpty || !endsName (cs.drop name.length) then refuse .anchorName
  pass (name.length + 1)
  add (token (String.ofList name)) mark

/-- Reads a tag. -/
def tag : Scan Unit := do
  saveKey
  allowKey false
  let c := (← get).cursor
  match Tag.read? c.rest with
  | none => refuse .tag
  | some (written, n) =>
    pass n
    add (.tag written) c.mark

/-- Reads a block scalar. -/
def blockScalar (folded : Bool) : Scan Unit := do
  allowKey true
  dropKey
  let s ← get
  let mark := s.cursor.mark
  let cs := s.cursor.rest.drop 1
  let (header, n) := Block.header cs
  match Block.headerEnd? (cs.drop n) with
  | none => refuse .blockHeader
  | some m =>
    let (text, cursor) := Block.scan folded header s.indent (s.cursor.pass (1 + n + m))
    set { s with cursor }
    add (.scalar (String.ofList text) false) mark

/-- Reads a quoted scalar. -/
def quotedScalar (double : Bool) : Scan Unit := do
  saveKey
  allowKey false
  let c := (← get).cursor
  match Quoted.scan double (c.rest.drop 1) with
  | .ok p =>
    pass (p.size + 1)
    add (.scalar (String.ofList p.text) false) c.mark
  | .error (.malformed problem) => refuse problem
  | .error (.character f) => throw (.scalar f)

/-- Reads a plain scalar. -/
def plainScalar : Scan Unit := do
  saveKey
  let s ← get
  let r := Plain.scan (0 < s.flow) (s.indent + 1) s.cursor
  set { s with cursor := r.cursor, keyAllowed := r.hasBreak }
  add (.scalar (String.ofList r.text) true) s.cursor.mark

/-- Reads the end of the text. -/
def streamEnd : Scan Unit := do
  unwind (-1)
  dropKey
  modify fun s => { s with keyAllowed := false, keys := [] }
  addHere .streamEnd

/-! ## All tokens -/

/-- Whether a plain scalar may start with the characters. -/
def startsPlain (inFlow : Bool) (c : Char) (rest : List Char) : Bool :=
  !(isGap c || "-?:,[]\x7b\x7d#&*!|>'\"%@`".toList.contains c)
    || (!endsBefore isGap rest && (c = '-' || (!inFlow && (c = '?' || c = ':'))))

/-- Reads the next token from its first character on. -/
def token (c : Char) (rest : List Char) : Scan Unit := do
  let s ← get
  let inFlow := 0 < s.flow
  let atStart := s.cursor.column = 0
  let separated := inFlow || endsBefore isGap rest
  if c = '%' && atStart then directive
  else if atStart && startsMarker '-' (c :: rest) then documentMarker .documentStart
  else if atStart && startsMarker '.' (c :: rest) then documentMarker .documentEnd
  else if c = '[' then flowStart .flowSequenceStart
  else if c = '{' then flowStart .flowMappingStart
  else if c = ']' then flowEnd .flowSequenceEnd
  else if c = '}' then flowEnd .flowMappingEnd
  else if c = ',' then flowEntry
  else if c = '-' && endsBefore isGap rest then blockEntry
  else if c = '?' && separated then explicitKey
  else if c = ':' && separated then keyEnd
  else if c = '*' then named .alias
  else if c = '&' then named .anchor
  else if c = '!' then tag
  else if c = '|' && !inFlow then blockScalar false
  else if c = '>' && !inFlow then blockScalar true
  else if c = '\'' then quotedScalar false
  else if c = '"' then quotedScalar true
  else if startsPlain inFlow c rest then plainScalar
  else refuse .badStart

/-- Reads tokens up to the end of the text. -/
def run : Nat → Scan Unit
  | 0 => pure ()
  | fuel + 1 => do
    toNextToken
    dropStaleKeys
    unwind (← get).cursor.column
    match (← get).cursor.rest with
    | [] => streamEnd
    | c :: rest =>
      token c rest
      run fuel

end Scanner

/-- Whether a character may stand in a settings file. -/
def isPrintable (c : Char) : Bool :=
  let n := c.toNat
  n == 0x09 || n == 0x0a || n == 0x0d || (0x20 ≤ n && n ≤ 0x7e) || n == 0x85
    || (0xa0 ≤ n && n ≤ 0xfffd) || 0x10000 ≤ n

/-- The tokens of a text. -/
def tokens (cs : List Char) : Except ReadFault (List PlacedToken) := do
  if !cs.all isPrintable then throw (.malformed .unprintable {})
  let ((), s) ← (Scanner.run (cs.length + 1)).run { cursor := { rest := cs } }
  return s.tokens.toList

end LspClient.Yaml
