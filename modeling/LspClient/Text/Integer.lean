/-
Integers as people write them: a sign, ASCII digits with single underscores between them, and
blanks around the whole.
-/
import LspClient.Json.Reader
import LspClient.Text.Blank

namespace LspClient.Text

/-- The digits of a text that starts with a digit and has at most one underscore between two of
them. -/
def groupedDigits? : List Char → Option (List Char)
  | [] => none
  | [c] => if Json.isDigit c then some [c] else none
  | c :: '_' :: rest => if Json.isDigit c then (groupedDigits? rest).map (c :: ·) else none
  | c :: rest => if Json.isDigit c then (groupedDigits? rest).map (c :: ·) else none

/-- Whether a number has the sign of negative ones, and what follows its sign. -/
def signOf : List Char → Bool × List Char
  | '-' :: rest => (true, rest)
  | '+' :: rest => (false, rest)
  | cs => (false, cs)

/-- The integer that a text writes, unless it has too many digits. -/
def integer? (s : String) : Option Int :=
  let (negative, digits) := signOf (trimBoth isBlank s.toList)
  match groupedDigits? digits with
  | some ds =>
    if ds.length > Json.maxIntegerDigits then none
    else
      let n : Int := Json.digitsValue ds
      some (if negative then -n else n)
  | none => none

end LspClient.Text
