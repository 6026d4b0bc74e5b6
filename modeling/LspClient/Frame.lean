/-
Frames: a header with the length of the body in octets, a blank line, and the body.
-/
import LspClient.Text.Utf8

namespace LspClient.Frame

/-- The end of a header line. -/
def separator : Octets := [0x0d, 0x0a]

/-- The frame around a body. -/
def wrap (body : Octets) : Octets :=
  Text.encode ("Content-Length: " ++ toString body.length) ++ separator ++ separator ++ body

/-- The frame around a text. -/
def encode (text : String) : Octets :=
  wrap (Text.encode text)

end LspClient.Frame
