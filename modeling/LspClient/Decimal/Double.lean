/-
Exact views of double-precision numbers: a finite double is a sign and `m * 2 ^ q`, so it can be
compared with integers, split into whole and fractional part and rounded without any error.
-/

namespace LspClient.Decimal

/-- The size of a finite double: `mantissa * 2 ^ exponent`. -/
structure Binary where
  mantissa : Nat
  exponent : Int
  /-- Whether the next smaller double is only half as far away as the next larger one. -/
  lowerGapHalved : Bool
  deriving Inhabited

/-- Whether the sign bit is set; so negative zero counts as negative. -/
def isNegative (x : Float) : Bool :=
  x.toBits.toNat / Nat.pow 2 63 == 1

/-- The size of a finite double. -/
def binary (x : Float) : Binary :=
  let bits := x.toBits.toNat % Nat.pow 2 63
  let field : Nat := bits / Nat.pow 2 52
  let fraction : Nat := bits % Nat.pow 2 52
  if field = 0 then ⟨fraction, -1074, false⟩
  else ⟨Nat.pow 2 52 + fraction, (field : Int) - 1075, fraction == 0 && 1 < field⟩

/-- A finite double as an exact fraction; the denominator is positive. -/
def fraction (x : Float) : Int × Nat :=
  let b := binary x
  let size := b.mantissa * Nat.pow 2 b.exponent.toNat
  (if isNegative x then -size else size, Nat.pow 2 (-b.exponent).toNat)

/-- Compares an integer with a double; a NaN has no order. -/
def compareInt (n : Int) (x : Float) : Option Ordering :=
  if x.isNaN then none
  else if x.isInf then some (if isNegative x then .gt else .lt)
  else
    let (num, den) := fraction x
    some (compare (n * den) num)

/-- Rounds a fraction to the nearest integer, a half to the even neighbour. -/
def roundEven (num : Int) (den : Nat) : Int :=
  let low := num.fdiv den
  let rest := 2 * (num - low * den)
  if rest < den then low
  else if rest > den then low + 1
  else if low % 2 = 0 then low
  else low + 1

/-- The integer nearest to a finite double, a half going to the even neighbour. -/
def roundToInt (x : Float) : Int :=
  let (num, den) := fraction x
  roundEven num den

/-- A finite double without its fractional part. -/
def truncate (x : Float) : Int :=
  let (num, den) := fraction x
  num.tdiv den

/-- The largest integer that is not above a finite double. -/
def floor (x : Float) : Int :=
  let (num, den) := fraction x
  num.fdiv den

/-- Whether a double stands for an integer. -/
def isWhole (x : Float) : Bool :=
  if x.isNaN || x.isInf then false
  else
    let (num, den) := fraction x
    num % den == 0

/-- The double nearest to an integer, if the integer is not too large to have one. -/
def ofInt? (n : Int) : Option Float :=
  let x := Float.ofInt n
  if x.isInf then none else some x

/-- A key whose order as an integer is the order of doubles; both zeros have the key 0. -/
def orderKey (x : Float) : Int :=
  let size : Int := (x.toBits.toNat % Nat.pow 2 63 : Nat)
  if isNegative x then -size else size

end LspClient.Decimal
