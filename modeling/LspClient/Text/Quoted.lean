/-
Texts and byte strings in quotes, as messages show them. A text stands in single quotes unless it
holds a single quote and no double quote; the quote in use, the backslash and all that is not
printable are escaped.
-/
import LspClient.Value
import LspClient.Text.Printable

namespace LspClient.Text

/-- The lower-case hexadecimal digits of a number, padded with zeros to a width. -/
def hex (width n : Nat) : List Char :=
  let ds := Nat.toDigits 16 n
  List.replicate (width - ds.length) '0' ++ ds

/-- The escape of a character that is not shown as it is. -/
def escapeHidden (n : Nat) : List Char :=
  if n < 0x100 then '\\' :: 'x' :: hex 2 n
  else if n < 0x10000 then '\\' :: 'u' :: hex 4 n
  else '\\' :: 'U' :: hex 8 n

/-- The quote for a text: double only if the text holds a single quote and no double quote. -/
def chooseQuote (cs : List Char) : Char :=
  if cs.contains '\'' && !cs.contains '"' then '"' else '\''

/-- One character inside quotes. -/
def quoteChar (quote c : Char) : List Char :=
  if c = quote || c = '\\' then ['\\', c]
  else if c = '\n' then ['\\', 'n']
  else if c = '\r' then ['\\', 'r']
  else if c = '\t' then ['\\', 't']
  else if isPrintable c then [c]
  else escapeHidden c.toNat

/-- A text in quotes. -/
def quoted (s : String) : String :=
  let cs := s.toList
  let quote := chooseQuote cs
  String.ofList (quote :: (cs.flatMap (quoteChar quote) ++ [quote]))

/-- One octet inside quotes. -/
def quoteOctet (quote : Char) (b : UInt8) : List Char :=
  let c := Char.ofNat b.toNat
  if c = quote || c = '\\' then ['\\', c]
  else if c = '\n' then ['\\', 'n']
  else if c = '\r' then ['\\', 'r']
  else if c = '\t' then ['\\', 't']
  else if 0x20 ≤ b && b < 0x7f then [c]
  else '\\' :: 'x' :: hex 2 b.toNat

/-- A byte string in quotes, with the mark of byte strings in front. -/
def quotedOctets (bs : Octets) : String :=
  let quote := chooseQuote (bs.map fun b => Char.ofNat b.toNat)
  String.ofList ('b' :: quote :: (bs.flatMap (quoteOctet quote) ++ [quote]))

end LspClient.Text
