/-
Text in units of two or four octets, in either octet order. Half a surrogate pair is read as the
replacement character.
-/
import LspClient.Text.Utf8

namespace LspClient.Text

/-- The octet order of units. -/
inductive Endian where
  | little
  | big
  deriving DecidableEq, Inhabited

/-- The ending of a codec's name. -/
def Endian.suffix : Endian → String
  | little => "le"
  | big => "be"

/-- The number written by the octets of one unit. -/
def Endian.number (e : Endian) (unit : Octets) : Nat :=
  let ordered := match e with
    | .little => unit.reverse
    | .big => unit
  ordered.foldl (fun n b => n * 256 + b.toNat) 0

/-- Reads units of two octets; `high` is the first half of a pair that waits for its second. -/
def decode16From (e : Endian) : Nat → Option Nat → List Char → Octets →
    Except DecodeFault (List Char)
  | _, high, acc, [] =>
    .ok ((if high.isSome then replacement :: acc else acc).reverse)
  | pos, _, _, [b] => .error ⟨"utf-16-" ++ e.suffix, b, pos, pos + 1, .truncated⟩
  | pos, high, acc, a :: b :: rest =>
    let n := e.number [a, b]
    let acc' := if high.isSome then replacement :: acc else acc
    if 0xd800 ≤ n && n < 0xdc00 then decode16From e (pos + 2) (some n) acc' rest
    else
      match high with
      | some h =>
        if 0xdc00 ≤ n && n < 0xe000 then
          let c := charOf (0x10000 + (h - 0xd800) * 1024 + (n - 0xdc00))
          decode16From e (pos + 2) none (c :: acc) rest
        else decode16From e (pos + 2) none (charOf n :: acc') rest
      | none => decode16From e (pos + 2) none (charOf n :: acc) rest

/-- Reads units of four octets. -/
def decode32From (e : Endian) : Nat → List Char → Octets → Except DecodeFault (List Char)
  | _, acc, [] => .ok acc.reverse
  | pos, acc, a :: b :: c :: d :: rest =>
    let n := e.number [a, b, c, d]
    if n < 0x110000 then decode32From e (pos + 4) (charOf n :: acc) rest
    else .error ⟨"utf-32-" ++ e.suffix, a, pos, pos + 4, .outOfRange⟩
  | pos, _, a :: rest =>
    .error ⟨"utf-32-" ++ e.suffix, a, pos, pos + 1 + rest.length, .truncated⟩

end LspClient.Text
