/-
The nodes of a settings file: scalars, sequences and mappings, each with a tag. Aliases stand for
the nodes that their anchors name, so a node occurs as often as it is referred to.
-/
import LspClient.Yaml.Scalar
import LspClient.Yaml.Token

namespace LspClient.Yaml

inductive Node where
  | scalar (place : Mark) (tag : Tag) (text : String)
  | sequence (place : Mark) (tag : Tag) (items : List Node)
  | mapping (place : Mark) (tag : Tag) (entries : List (Node × Node))
  deriving Inhabited

namespace Node

/-- Where a node starts. -/
def place : Node → Mark
  | scalar place _ _ | sequence place _ _ | mapping place _ _ => place

/-- The tag of a node. -/
def tag : Node → Tag
  | scalar _ tag _ | sequence _ tag _ | mapping _ tag _ => tag

/-- The node of an empty place. -/
def empty (place : Mark) : Node :=
  .scalar place .null ""

end Node

/-- What is left to read, and what has been named so far. -/
structure Composer where
  tokens : List PlacedToken
  handles : List (String × String) := Tag.handles
  /-- The nodes of anchors; none while a node is still open. -/
  anchors : List (String × Option Node) := []
  deriving Inhabited

/-- An operation that reads nodes. -/
abbrev Compose := StateT Composer (Except ReadFault)

namespace Composer

/-! ## Tokens -/

/-- The next token; a text without tokens has ended. -/
def peek : Compose PlacedToken := do
  return (← get).tokens.headD ⟨.streamEnd, {}⟩

/-- Passes over the next token. -/
def skip : Compose Unit :=
  modify fun s => { s with tokens := s.tokens.drop 1 }

/-- Fails because of the next token. -/
def refuse {α : Type} (problem : Problem) : Compose α := do
  throw (.malformed problem (← peek).mark)

/-- Whether the next token is one of some. -/
def isNext (choices : List Token) : Compose Bool := do
  return choices.contains (← peek).token

/-- Passes over a token if it comes next, and tells whether it does. -/
def accept (token : Token) : Compose Bool := do
  if ← isNext [token] then
    skip
    return true
  return false

/-- Passes over a token that has to come next. -/
def expect (token : Token) (problem : Problem) : Compose Unit := do
  if !(← accept token) then refuse problem

/-! ## Properties of nodes -/

/-- The anchor that comes next, if there is one. -/
def anchor? : Compose (Option String) := do
  match (← peek).token with
  | .anchor name =>
    skip
    return some name
  | _ => return none

/-- The full name of a tag. -/
def nameOf (t : Tag.Written) : Compose String := do
  match t.handle with
  | none => return t.suffix
  | some handle =>
    match (← get).handles.lookup handle with
    | some start => return start ++ t.suffix
    | none => refuse .unknownHandle

/-- The name of the tag that comes next, if there is one. -/
def tagName? : Compose (Option Tag.Written) := do
  match (← peek).token with
  | .tag t =>
    skip
    return some t
  | _ => return none

/-- The anchor and the name of the tag in front of a node, in any order. -/
def properties : Compose (Option String × Option String) := do
  let first ← anchor?
  let tag ← tagName?
  let second ← if first.isNone && tag.isSome then anchor? else pure none
  let name ← tag.mapM nameOf
  return (first.or second, name)

/-- Names a node that has an anchor. -/
def name (anchor : Option String) (node : Option Node) : Compose Unit :=
  match anchor with
  | none => pure ()
  | some a => modify fun s => { s with anchors := (a, node) :: s.anchors }

/-- Checks that an anchor is new. -/
def checkAnchor (anchor : Option String) : Compose Unit := do
  match anchor with
  | none => pure ()
  | some a => if ((← get).anchors.lookup a).isSome then refuse .repeatedAnchor

/-- The tag of a scalar. -/
def scalarTag (tagName : Option String) (text : String) (plain : Bool) : Tag :=
  match tagName with
  | none => if plain then Scalar.resolve text.toList else .str
  | some n => if n = "!" then Scalar.resolve text.toList else .ofName n

/-- The tag of a collection. -/
def collectionTag (tagName : Option String) (usual : Tag) : Tag :=
  match tagName with
  | none => usual
  | some n => if n = "!" then usual else .ofName n

/-! ## Nodes -/

/-- Which nodes may come next. -/
inductive Context where
  | flow
  | block
  /-- A block, or a sequence that is not indented. -/
  | value
  deriving DecidableEq, Inhabited

mutual

/-- Reads a node. -/
def node : Nat → Context → Compose Node
  | 0, _ => refuse .nodeContent
  | fuel + 1, context => do
    let first ← peek
    if let .alias a := first.token then
      skip
      match (← get).anchors.lookup a with
      | some (some n) => return n
      | some none => throw (.malformed .openAlias first.mark)
      | none => throw (.malformed .unknownAlias first.mark)
    let (anchor, tagName) ← properties
    checkAnchor anchor
    let next ← peek
    let sequence (items : Compose (List Node)) : Compose Node := do
      name anchor none
      let n := .sequence first.mark (collectionTag tagName .seq) (← items)
      name anchor (some n)
      return n
    let mapping (entries : Compose (List (Node × Node))) : Compose Node := do
      name anchor none
      let n := .mapping first.mark (collectionTag tagName .map) (← entries)
      name anchor (some n)
      return n
    match next.token, context with
    | .blockEntry, .value => sequence (indentlessItems fuel)
    | .scalar text plain, _ =>
      skip
      let n := .scalar first.mark (scalarTag tagName text plain) text
      name anchor (some n)
      return n
    | .flowSequenceStart, _ =>
      skip
      sequence (flowItems true fuel)
    | .flowMappingStart, _ =>
      skip
      mapping (flowEntries true fuel)
    | .blockSequenceStart, .block | .blockSequenceStart, .value =>
      skip
      sequence (blockItems fuel)
    | .blockMappingStart, .block | .blockMappingStart, .value =>
      skip
      mapping (blockEntries fuel)
    | _, _ =>
      if anchor.isNone && tagName.isNone then refuse .nodeContent
      let n := .scalar first.mark (scalarTag tagName "" true) ""
      name anchor (some n)
      return n

/-- Reads a node unless one of some tokens comes next, which stands for an empty one. -/
def nodeUnless : Nat → Context → List Token → Compose Node
  | 0, _, _ => refuse .nodeContent
  | fuel + 1, context, ends => do
    if ← isNext ends then return .empty (← peek).mark
    node fuel context

/-- Reads the items of a block sequence. -/
def blockItems : Nat → Compose (List Node)
  | 0 => refuse .blockEnd
  | fuel + 1 => do
    if ← accept .blockEntry then
      let n ← nodeUnless fuel .block [.blockEntry, .blockEnd]
      return n :: (← blockItems fuel)
    expect .blockEnd .blockEnd
    return []

/-- Reads the items of a sequence that is not indented. -/
def indentlessItems : Nat → Compose (List Node)
  | 0 => refuse .blockEnd
  | fuel + 1 => do
    if ← accept .blockEntry then
      let n ← nodeUnless fuel .block [.blockEntry, .key, .value, .blockEnd]
      return n :: (← indentlessItems fuel)
    return []

/-- Reads the entries of a block mapping. -/
def blockEntries : Nat → Compose (List (Node × Node))
  | 0 => refuse .blockEnd
  | fuel + 1 => do
    let start ← peek
    if ← accept .key then
      let ends := [Token.key, .value, .blockEnd]
      let key ← nodeUnless fuel .value ends
      let value ← if ← accept .value then nodeUnless fuel .value ends else pure (.empty start.mark)
      return (key, value) :: (← blockEntries fuel)
    expect .blockEnd .blockEnd
    return []

/-- Reads the items of a flow sequence. An item with a key is a mapping with one entry. -/
def flowItems : Bool → Nat → Compose (List Node)
  | _, 0 => refuse .sequenceEnd
  | first, fuel + 1 => do
    if ← accept .flowSequenceEnd then return []
    if !first then expect .flowEntry .sequenceEnd
    let start ← peek
    if ← accept .key then
      let ends := [Token.flowEntry, .flowSequenceEnd]
      let key ← nodeUnless fuel .flow (.value :: ends)
      let value ← if ← accept .value then nodeUnless fuel .flow ends else pure (.empty start.mark)
      return .mapping start.mark .map [(key, value)] :: (← flowItems false fuel)
    if ← accept .flowSequenceEnd then return []
    let n ← node fuel .flow
    return n :: (← flowItems false fuel)

/-- Reads the entries of a flow mapping. An entry without a key mark has no value. -/
def flowEntries : Bool → Nat → Compose (List (Node × Node))
  | _, 0 => refuse .mappingEnd
  | first, fuel + 1 => do
    if ← accept .flowMappingEnd then return []
    if !first then expect .flowEntry .mappingEnd
    let start ← peek
    let ends := [Token.flowEntry, .flowMappingEnd]
    if ← accept .key then
      let key ← nodeUnless fuel .flow (.value :: ends)
      let value ← if ← accept .value then nodeUnless fuel .flow ends else pure (.empty start.mark)
      return (key, value) :: (← flowEntries false fuel)
    if ← accept .flowMappingEnd then return []
    let key ← node fuel .flow
    return (key, .empty start.mark) :: (← flowEntries false fuel)

end

/-! ## Documents -/

/-- Passes over the ends of documents. -/
def skipEnds : Nat → Compose Unit
  | 0 => pure ()
  | fuel + 1 => do
    if ← accept .documentEnd then skipEnds fuel

/-- Reads the directives of a document. -/
def directives : Nat → Bool → List (String × String) → Compose Unit
  | 0, _, _ => refuse .directive
  | fuel + 1, hasVersion, own => do
    match (← peek).token with
    | .version major =>
      if hasVersion then refuse .repeatedVersion
      if major != 1 then refuse .version
      skip
      directives fuel true own
    | .tagHandle handle start =>
      if (own.lookup handle).isSome then refuse .repeatedHandle
      skip
      directives fuel hasVersion ((handle, start) :: own)
    | .otherDirective =>
      skip
      directives fuel hasVersion own
    | _ => modify fun s => { s with handles := own ++ Tag.handles }

/-- Reads the root of a document; none if the text has no document. -/
def root (fuel : Nat) : Compose (Option Node) := do
  match (← peek).token with
  | .streamEnd => return none
  | .version _ | .tagHandle _ _ | .otherDirective | .documentStart =>
    directives fuel false []
    expect .documentStart .documentStart
    match (← peek).token with
    | .version _ | .tagHandle _ _ | .otherDirective => return some (.empty (← peek).mark)
    | _ => return some (← nodeUnless fuel .block [.documentStart, .documentEnd, .streamEnd])
  | _ => return some (← node fuel .block)

/-- Reads the only document of a text. -/
def document (fuel : Nat) : Compose (Option Node) := do
  let n ← root fuel
  skipEnds fuel
  if n.isSome && !(← isNext [.streamEnd]) then refuse .severalDocuments
  return n

end Composer

/-- The root of the only document of a text; none if the text has no document. -/
def Node.ofTokens? (tokens : List PlacedToken) : Except ReadFault (Option Node) := do
  let (n, _) ← (Composer.document (3 * tokens.length + 4)).run { tokens }
  return n

end LspClient.Yaml
