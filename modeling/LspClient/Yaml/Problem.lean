/-
What can be wrong with the text of a settings file: it is malformed at some place, or a scalar in
it has the form of a number or a date and no value.
-/
import LspClient.Fault
import LspClient.Yaml.Cursor

namespace LspClient.Yaml

inductive Problem where
  | unprintable
  | badStart
  | missingColon
  | entryNotAllowed
  | keyNotAllowed
  | valueNotAllowed
  | directive
  | anchorName
  | tag
  | blockHeader
  | escape
  | unclosedQuote
  | markerInQuotes
  | documentStart
  | repeatedVersion
  | version
  | repeatedHandle
  | unknownHandle
  | nodeContent
  | blockEnd
  | sequenceEnd
  | mappingEnd
  | unknownAlias
  | openAlias
  | repeatedAnchor
  | severalDocuments
  | unknownTag
  | nodeKind
  | listKey
  | merge
  | binary
  deriving DecidableEq, Inhabited

/-- The wording of a problem. -/
def Problem.text : Problem → String
  | unprintable => "special characters are not allowed"
  | badStart => "found a character that cannot start any token"
  | missingColon => "could not find expected ':'"
  | entryNotAllowed => "sequence entries are not allowed here"
  | keyNotAllowed => "mapping keys are not allowed here"
  | valueNotAllowed => "mapping values are not allowed here"
  | directive => "malformed directive"
  | anchorName => "malformed name of an anchor or alias"
  | tag => "malformed tag"
  | blockHeader => "malformed header of a block scalar"
  | escape => "unknown escape"
  | unclosedQuote => "quoted scalar without end"
  | markerInQuotes => "document separator inside a quoted scalar"
  | documentStart => "expected the start of a document"
  | repeatedVersion => "repeated version directive"
  | version => "incompatible version"
  | repeatedHandle => "repeated tag handle"
  | unknownHandle => "undefined tag handle"
  | nodeContent => "expected the content of a node"
  | blockEnd => "expected the end of a block"
  | sequenceEnd => "expected ',' or ']'"
  | mappingEnd => "expected ',' or '\x7d'"
  | unknownAlias => "undefined alias"
  | openAlias => "alias inside of what it stands for"
  | repeatedAnchor => "repeated anchor"
  | severalDocuments => "expected a single document"
  | unknownTag => "unknown tag"
  | nodeKind => "node of the wrong kind for its tag"
  | listKey => "collection as a key"
  | merge => "expected a mapping or a list of mappings to merge"
  | binary => "malformed binary data"

/-- Why a text has no value. -/
inductive ReadFault where
  | malformed (problem : Problem) (place : Mark)
  /-- A scalar has the form of a value and is none. -/
  | scalar (fault : Fault)
  deriving Inhabited

/-- The wording of a malformation. -/
def malformation (problem : Problem) (place : Mark) : String :=
  problem.text ++ " in line " ++ toString (place.line + 1) ++ ", column "
    ++ toString (place.column + 1)

end LspClient.Yaml
