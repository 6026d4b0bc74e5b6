/-
The fewest decimal digits that read back as a given double, and the way such digits are laid out
as text. The digits come from exact arithmetic on natural numbers; of two candidates with equally
few digits the nearer one wins.
-/
import LspClient.Decimal.Double

namespace LspClient.Decimal

/-- Digits `d₁ d₂ … dₙ` with the value `0.d₁d₂…dₙ * 10 ^ point`. -/
structure Digits where
  digits : List Char
  point : Int
  deriving Inhabited

/-- Whether `a * 2 ^ q` is below `10 ^ p`. -/
def belowPowerOfTen (a : Nat) (q p : Int) : Bool :=
  a * Nat.pow 2 q.toNat * Nat.pow 10 (-p).toNat < Nat.pow 10 p.toNat * Nat.pow 2 (-q).toNat

/-- The `k` with `10 ^ (k - 1) ≤ a * 2 ^ q < 10 ^ k`, for a positive `a`. -/
def decimalPoint (a : Nat) (q : Int) : Int :=
  let guess := ((Nat.log2 a : Int) + q) * 30103 / 100000 + 1
  if belowPowerOfTen a q (guess - 1) then guess - 1
  else if belowPowerOfTen a q guess then guess
  else guess + 1

/-- The multiple of `10 ^ p` inside the rounding interval of a double that is nearest to it, if
the two multiples around the double are not both outside the interval. -/
def onGrid (b : Binary) (p : Int) : Option Nat :=
  let up := Nat.pow 2 (b.exponent - 2).toNat * Nat.pow 10 (-p).toNat
  let down := Nat.pow 2 (2 - b.exponent).toNat * Nat.pow 10 p.toNat
  let value := 4 * b.mantissa * up
  let low := (4 * b.mantissa - if b.lowerGapHalved then 1 else 2) * up
  let high := (4 * b.mantissa + 2) * up
  let inside (c : Nat) : Bool :=
    if b.mantissa % 2 = 0 then low ≤ c * down && c * down ≤ high
    else low < c * down && c * down < high
  let c := value / down
  match inside c, inside (c + 1) with
  | true, true =>
    let below := value - c * down
    let above := (c + 1) * down - value
    if below < above then some c
    else if above < below then some (c + 1)
    else if c % 2 = 0 then some c else some (c + 1)
  | true, false => some c
  | false, true => some (c + 1)
  | false, false => none

/-- A number's decimal digits, most significant first. -/
def natDigits (n : Nat) : List Char :=
  Nat.toDigits 10 n

/-- Drops the zeros at the end. -/
def dropTrailingZeros (ds : List Char) : List Char :=
  (ds.reverse.dropWhile (· == '0')).reverse

/-- The shortest digits of a positive finite double. -/
def shortest (x : Float) : Digits :=
  let b := binary x
  let k := decimalPoint b.mantissa b.exponent
  let found := (List.range 17).findSome? fun n =>
    let p := k - (n + 1 : Nat)
    (onGrid b p).map fun c => (c, p)
  let (c, p) := found.getD (0, 0)
  let ds := natDigits c
  ⟨dropTrailingZeros ds, ds.length + p⟩

/-- How digits become text. -/
structure Notation where
  /-- The smallest exponent of ten written without an exponent part. -/
  least : Int
  /-- The smallest exponent of ten above those written without an exponent part. -/
  bound : Int
  /-- The least number of digits in an exponent. -/
  exponentDigits : Nat
  notANumber : String
  infinity : String

/-- Pads digits with zeros on the left. -/
def padLeft (width : Nat) (ds : List Char) : List Char :=
  List.replicate (width - ds.length) '0' ++ ds

/-- Positional text: at least one digit on each side of the point. -/
def positional (d : Digits) : List Char :=
  if d.point ≤ 0 then
    '0' :: '.' :: (List.replicate (-d.point).toNat '0' ++ d.digits)
  else
    let whole := d.digits.take d.point.toNat
    let rest := d.digits.drop d.point.toNat
    whole ++ List.replicate (d.point.toNat - whole.length) '0' ++ '.' ::
      (if rest.isEmpty then ['0'] else rest)

/-- Scientific text: one digit, the others behind a point if there are any, and the exponent. -/
def scientific (f : Notation) (d : Digits) : List Char :=
  let e := d.point - 1
  let exponent := padLeft f.exponentDigits (natDigits e.natAbs)
  let tail := 'e' :: (if e < 0 then '-' else '+') :: exponent
  match d.digits with
  | [] => '0' :: tail
  | [c] => c :: tail
  | c :: rest => c :: '.' :: (rest ++ tail)

/-- The text of a double in the given notation. -/
def Notation.render (f : Notation) (x : Float) : String :=
  if x.isNaN then f.notANumber
  else
    let sign := if isNegative x then "-" else ""
    if x.isInf then sign ++ f.infinity
    else if x == 0.0 then sign ++ "0.0"
    else
      let d := shortest x
      let e := d.point - 1
      sign ++ String.ofList
        (if f.least ≤ e && e < f.bound then positional d else scientific f d)

/-- Numbers in messages for people: positional from `1e-4` up to below `1e16`. -/
def plainNotation : Notation :=
  ⟨-4, 16, 2, "nan", "inf"⟩

/-- Numbers in JSON text. -/
def jsonNotation : Notation :=
  { plainNotation with notANumber := "NaN", infinity := "Infinity" }

/-- The text of a double for people. -/
def plain (x : Float) : String :=
  plainNotation.render x

/-- A number with a fixed count of decimal places, at least one, rounded to even at a half. -/
def fixed (places : Nat) (x : Float) : String :=
  if x.isNaN then "nan"
  else
    let sign := if isNegative x then "-" else ""
    if x.isInf then sign ++ "inf"
    else
      let (num, den) := fraction x
      let scaled := (roundEven (num.natAbs * Nat.pow 10 places) den).toNat
      let ds := padLeft (places + 1) (natDigits scaled)
      let whole := ds.take (ds.length - places)
      sign ++ String.ofList (whole ++ '.' :: ds.drop (ds.length - places))

end LspClient.Decimal
