/-
Tags: the kinds of nodes, and how they are written. A tag is a handle, which stands for the start
of a name, and the rest of the name.
-/
import LspClient.Json.Reader
import LspClient.Text.Utf8
import LspClient.Yaml.Cursor

namespace LspClient.Yaml

inductive Tag where
  | null
  | bool
  | int
  | float
  | binary
  | timestamp
  | orderedMap
  | pairs
  | set
  | str
  | seq
  | map
  /-- A key whose value is merged into its mapping. -/
  | merge
  /-- A key that is a plain equals sign. -/
  | value
  | other (name : String)
  deriving DecidableEq, Inhabited

namespace Tag

/-- What the names of the known tags start with. -/
def standard : String := "tag:yaml.org,2002:"

/-- The known tags with the ends of their names. -/
def names : List (String × Tag) :=
  [("null", null), ("bool", bool), ("int", int), ("float", float), ("binary", binary),
    ("timestamp", timestamp), ("omap", orderedMap), ("pairs", pairs), ("set", set), ("str", str),
    ("seq", seq), ("map", map), ("merge", merge), ("value", value)]

/-- The tag with a name. -/
def ofName (name : String) : Tag :=
  match names.find? fun (suffix, _) => standard ++ suffix = name with
  | some (_, tag) => tag
  | none => other name

/-- The handles that need no directive. -/
def handles : List (String × String) :=
  [("!", "!"), ("!!", standard)]

/-! ## Written tags -/

/-- Whether a character may stand in the name of an anchor, a directive or a handle. -/
def isNameCharacter (c : Char) : Bool :=
  c.isAlphanum || c = '-' || c = '_'

/-- Whether a character may stand in the rest of a tag. -/
def isUriCharacter (c : Char) : Bool :=
  c.isAlphanum || "-;/?:@&=+$,_.!~*'()[]%".toList.contains c

/-- The octets of the escapes at the front of a text; none if one of them is malformed. -/
def escapedOctets? : List Char → Option Octets
  | '%' :: a :: b :: rest => do
    let x ← Json.hexDigit? a
    let y ← Json.hexDigit? b
    return UInt8.ofNat (x * 16 + y) :: (← escapedOctets? rest)
  | '%' :: _ => none
  | _ => some []

/-- The text that part of a tag stands for; none if its escapes are no text. -/
def uriText? : Nat → List Char → Option (List Char)
  | _, [] => some []
  | 0, _ => none
  | fuel + 1, c :: rest => do
    if c = '%' then
      let octets ← escapedOctets? (c :: rest)
      let text ← Text.decode? octets
      return text.toList ++ (← uriText? fuel ((c :: rest).drop (3 * octets.length)))
    else return c :: (← uriText? fuel rest)

/-- The rest of a tag at the front of a text, and the number of characters it takes. -/
def uri? (cs : List Char) : Option (String × Nat) :=
  let written := cs.takeWhile isUriCharacter
  if written.isEmpty then none
  else (uriText? (written.length + 1) written).map fun text => (String.ofList text, written.length)

/-- The handle at the front of a text, and the number of characters it takes. -/
def handle? : List Char → Option (String × Nat)
  | '!' :: rest =>
    if rest.head? = some ' ' then some ("!", 1)
    else
      let name := rest.takeWhile isNameCharacter
      if (rest.drop name.length).head? = some '!' then
        some (String.ofList ('!' :: name ++ ['!']), name.length + 2)
      else none
  | _ => none

/-- A tag as it is written. -/
structure Written where
  /-- None for a name that is written in full. -/
  handle : Option String
  suffix : String
  deriving DecidableEq, Inhabited

/-- Whether a handle of more than one character is used, from behind the first character on. -/
def hasHandle (cs : List Char) : Bool :=
  (cs.takeWhile fun c => c != ' ' && !isBreak c).contains '!'

/-- The tag at the front of a text, and the number of characters it takes. -/
def read? (cs : List Char) : Option (Written × Nat) := do
  let after := cs.drop 1
  let (tag, size) ←
    if after.head? = some '<' then do
      let (suffix, n) ← uri? (cs.drop 2)
      if (cs.drop (2 + n)).head? = some '>' then some (Written.mk none suffix, n + 3) else none
    else if endsBefore isGap after then some (⟨none, "!"⟩, 1)
    else if hasHandle after then do
      let (handle, n) ← handle? cs
      let (suffix, m) ← uri? (cs.drop n)
      return (⟨some handle, suffix⟩, n + m)
    else do
      let (suffix, m) ← uri? after
      return (⟨some "!", suffix⟩, m + 1)
  if endsBefore (fun c => c = ' ' || isBreak c) (cs.drop size) then some (tag, size) else none

end Tag

end LspClient.Yaml
