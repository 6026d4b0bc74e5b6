/-
Settings hold numbers of two kinds, integers of any size and doubles, and keep them apart: sums
and products of integers are exact, and a double makes the result a double.
-/
import LspClient.Decimal.Shortest
import LspClient.Value

namespace LspClient

inductive Number where
  | int (n : Int)
  | float (x : Float)
  deriving Inhabited

namespace Number

/-- The number that a value is; booleans are not numbers. -/
def ofValue? : Value → Option Number
  | .int n => some (.int n)
  | .float x => some (.float x)
  | _ => none

/-- A number as a value. -/
def toValue : Number → Value
  | int n => .int n
  | float x => .float x

/-- The text of a number in messages. -/
def text : Number → String
  | int n => toString n
  | float x => Decimal.plain x

/-- The text of a number without its fractional part. -/
def wholeText : Number → String
  | int n => toString n
  | float x => toString (Decimal.truncate x)

/-- The nearest double; an integer beyond the range of doubles becomes infinite. -/
def toFloat : Number → Float
  | int n => Float.ofInt n
  | float x => x

/-- How two numbers compare, exactly; a NaN does not compare. -/
def compare? : Number → Number → Option Ordering
  | int a, int b => some (compare a b)
  | int a, float y => Decimal.compareInt a y
  | float x, int b => (Decimal.compareInt b x).map Ordering.swap
  | float x, float y =>
    if x < y then some .lt else if x == y then some .eq else if x > y then some .gt else none

/-- Whether the first number is smaller. -/
def lt (a b : Number) : Bool :=
  a.compare? b == some .lt

/-- Whether the first number is smaller or the same. -/
def le (a b : Number) : Bool :=
  a.compare? b == some .lt || a.compare? b == some .eq

/-- Why a product or power does not exist. -/
inductive RangeFault where
  /-- The integer has no double near it. -/
  | integerTooLarge
  /-- The power lies beyond the range of doubles. -/
  | resultTooLarge
  deriving DecidableEq, Inhabited

/-- The wording of a range fault. -/
def RangeFault.message : RangeFault → String
  | integerTooLarge => "int too large to convert to float"
  | resultTooLarge => "(34, 'Numerical result out of range')"

/-- The double of a number that meets another double. -/
def widen : Number → Except RangeFault Float
  | int n =>
    match Decimal.ofInt? n with
    | some x => .ok x
    | none => .error .integerTooLarge
  | float x => .ok x

/-- The product of two numbers. -/
def mul : Number → Number → Except RangeFault Number
  | int a, int b => .ok (int (a * b))
  | a, b => do return float ((← a.widen) * (← b.widen))

/-- The power of a number to a natural exponent. -/
def pow : Number → Nat → Except RangeFault Number
  | int a, n => .ok (int (Int.pow a n))
  | float x, n => do
    let y := x.pow (← widen (.int n))
    if y.isInf && !x.isInf then throw .resultTooLarge
    return float y

/-- The smaller of two numbers, the first one when they are the same. -/
def min (a b : Number) : Number :=
  if b.lt a then b else a

end Number

end LspClient
