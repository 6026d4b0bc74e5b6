/-
Finding the id of a response from the first octets of its text, for responses that are too large
to be parsed. Only responses that write the id before the result or error are recognised.
-/
import LspClient.Json.Reader
import LspClient.Text.Blank

namespace LspClient.Message

/-- Passes over blank octets. -/
def skipBlankOctets (bs : Octets) : Octets :=
  bs.dropWhile Text.isBlankOctet

/-- What follows the given octets, if the text starts with them. -/
def after? : Octets → Octets → Option Octets
  | [], bs => some bs
  | p :: ps, b :: bs => if p = b then after? ps bs else none
  | _ :: _, [] => none

/-- The octets of a word of the format. -/
def word (s : String) : Octets :=
  Text.encode s

/-- Passes over a word with blanks on both sides. -/
def token? (s : String) (bs : Octets) : Option Octets :=
  (after? (word s) (skipBlankOctets bs)).map skipBlankOctets

/-- Passes over the member that marks a message and the comma behind it, if they are next. -/
def skipVersion (bs : Octets) : Octets :=
  let found := do
    let bs ← token? "\"jsonrpc\"" bs
    let bs ← token? ":" bs
    let bs ← token? "\"2.0\"" bs
    token? "," bs
  found.getD bs

/-- Whether an octet is an ASCII digit. -/
def isDigitOctet (b : UInt8) : Bool :=
  0x30 ≤ b && b ≤ 0x39

/-- The octets of a string after its opening quote, up to and with the closing one; a backslash
covers the octet after it, which is not a line feed. -/
def stringBody? : Bool → Octets → Option (Octets × Octets)
  | _, [] => none
  | true, b :: bs =>
    if b = 0x0a then none else (stringBody? false bs).map fun (s, rest) => (b :: s, rest)
  | false, b :: bs =>
    if b = 0x22 then some ([b], bs)
    else (stringBody? (b == 0x5c) bs).map fun (s, rest) => (b :: s, rest)

/-- The octets of an id, an integer or a string, and those after it. -/
def idText? (bs : Octets) : Option (Octets × Octets) :=
  match bs with
  | 0x22 :: rest => (stringBody? false rest).map fun (s, rest) => (0x22 :: s, rest)
  | _ =>
    let (sign, digits) : Octets × Octets := match bs with
      | 0x2d :: rest => ([0x2d], rest)
      | _ => ([], bs)
    let number := digits.takeWhile isDigitOctet
    if number.isEmpty then none else some (sign ++ number, digits.dropWhile isDigitOctet)

/-- The octets of the id of a response that writes it before its result or error. -/
def leadingIdText? (bs : Octets) : Option Octets := do
  let bs ← token? "\x7b" bs
  let bs ← token? "\"id\"" (skipVersion bs)
  let bs ← token? ":" bs
  let (id, bs) ← idText? bs
  let bs ← token? "," bs
  let bs := skipVersion bs
  let _ ← (after? (word "\"result\"") bs).or (after? (word "\"error\"") bs)
  return id

/-- The id of the request that a text starts to answer, if it shows one. -/
def peekId? (head : Octets) : Option RequestId :=
  (leadingIdText? head).bind fun id =>
    match Json.readOctets id with
    | .ok v => RequestId.ofValue? v
    | .error _ => none

end LspClient.Message
