/-
Blank characters and the trimming of text. There are three sets: the six blank octets of byte
strings, the blanks around a number, and the blanks of Unicode.
-/
import LspClient.Value

namespace LspClient.Text

/-- The blank octets: space, tab, line feed, vertical tab, form feed and carriage return. -/
def isBlankOctet (b : UInt8) : Bool :=
  b == 0x20 || (0x09 ≤ b && b ≤ 0x0d)

/-- The blank characters of Unicode, among them the four ASCII information separators. -/
def isBlank (c : Char) : Bool :=
  let n := c.toNat
  n == 0x20 || (0x09 ≤ n && n ≤ 0x0d) || (0x1c ≤ n && n ≤ 0x1f) || n == 0x85 || n == 0xa0
    || n == 0x1680 || (0x2000 ≤ n && n ≤ 0x200a) || n == 0x2028 || n == 0x2029 || n == 0x202f
    || n == 0x205f || n == 0x3000

/-- Drops the elements at both ends for which the test holds. -/
def trimBoth {α : Type} (test : α → Bool) (xs : List α) : List α :=
  ((xs.dropWhile test).reverse.dropWhile test).reverse

/-- Drops the elements at the end for which the test holds. -/
def trimEnd {α : Type} (test : α → Bool) (xs : List α) : List α :=
  (xs.reverse.dropWhile test).reverse

/-- A text without the blanks at its ends. -/
def strip (s : String) : String :=
  String.ofList (trimBoth isBlank s.toList)

/-- A text without the blanks at its end. -/
def stripEnd (s : String) : String :=
  String.ofList (trimEnd isBlank s.toList)

end LspClient.Text
