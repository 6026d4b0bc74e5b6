/-
Values under keys that look like secrets are replaced before records leave the process. Objects
inside objects are searched too, lists are not.
-/
import LspClient.Value

namespace LspClient.Telemetry

/-- A part of a pattern: one of some letters, or an optional one. -/
inductive PatternPart where
  | oneOf (letters : List Char)
  | optional (letters : List Char)
  deriving DecidableEq, Inhabited

/-- The letters that are the same as a lower-case one when case does not matter: among them the
dotless and the dotted I, the long S and the sign for kelvin. -/
def foldedLetters (c : Char) : List Char :=
  match c with
  | 'i' => ['i', 'I', '\u0130', '\u0131']
  | 'k' => ['k', 'K', '\u212a']
  | 's' => ['s', 'S', '\u017f']
  | c => [c, c.toUpper]

/-- The pattern of a word, in which a hyphen stands for an optional `_` or `-`. -/
def patternOf (word : String) : List PatternPart :=
  word.toList.map fun c => if c = '-' then .optional ['_', '-'] else .oneOf (foldedLetters c)

/-- The words that mark a key as sensitive. -/
def sensitiveWords : List String :=
  ["password", "secret", "api-key", "token", "auth", "credential", "private-key"]

/-- Whether a text starts with a pattern. -/
def startsWith : List PatternPart → List Char → Bool
  | [], _ => true
  | .oneOf letters :: rest, c :: cs => letters.contains c && startsWith rest cs
  | .oneOf _ :: _, [] => false
  | .optional letters :: rest, cs =>
    (match cs with
      | c :: cs => letters.contains c && startsWith rest cs
      | [] => false) || startsWith rest cs

/-- Whether a pattern stands anywhere in a text. -/
def occursIn (pattern : List PatternPart) : List Char → Bool
  | [] => startsWith pattern []
  | c :: cs => startsWith pattern (c :: cs) || occursIn pattern cs

/-- Whether a key marks its value as a secret. -/
def isSensitiveKey (key : String) : Bool :=
  sensitiveWords.any fun word => occursIn (patternOf word) key.toList

/-- What stands in place of a secret. -/
def redacted : Value :=
  .str "[REDACTED]"

mutual

/-- Redacts the members of an object; other values are kept. -/
def redactValue : Value → Value
  | .object members => .object (redact members)
  | v => v

/-- Redacts members. -/
def redact : List (String × Value) → List (String × Value)
  | [] => []
  | (k, v) :: rest => (k, if isSensitiveKey k then redacted else redactValue v) :: redact rest

end

end LspClient.Telemetry
