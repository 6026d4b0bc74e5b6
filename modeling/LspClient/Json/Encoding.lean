/-
JSON text as octets: the encoding is told by a byte order mark or by where zero octets stand among
the first four.
-/
import LspClient.Text.Units

namespace LspClient.Json

open Text

/-- The characters of JSON text given as octets without a byte order mark. -/
def decodeUnmarked (bs : Octets) : Except DecodeFault (List Char) :=
  match bs with
  | [a, b] =>
    if a == 0 then decode16From .big 0 none [] bs
    else if b == 0 then decode16From .little 0 none [] bs
    else decode true bs
  | a :: b :: c :: d :: _ =>
    if a == 0 then
      if b == 0 then decode32From .big 0 [] bs else decode16From .big 0 none [] bs
    else if b == 0 then
      if c == 0 && d == 0 then decode32From .little 0 [] bs else decode16From .little 0 none [] bs
    else decode true bs
  | _ => decode true bs

/-- The characters of JSON text given as octets. -/
def decodeOctets (bs : Octets) : Except DecodeFault (List Char) :=
  if [0x00, 0x00, 0xfe, 0xff].isPrefixOf bs then decode32From .big 4 [] (bs.drop 4)
  else if [0xff, 0xfe, 0x00, 0x00].isPrefixOf bs then decode32From .little 4 [] (bs.drop 4)
  else if [0xfe, 0xff].isPrefixOf bs then decode16From .big 2 none [] (bs.drop 2)
  else if [0xff, 0xfe].isPrefixOf bs then decode16From .little 2 none [] (bs.drop 2)
  else if [0xef, 0xbb, 0xbf].isPrefixOf bs then decode true (bs.drop 3)
  else decodeUnmarked bs

end LspClient.Json
