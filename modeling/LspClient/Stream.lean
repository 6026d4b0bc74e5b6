/-
The reading end of a byte stream: what has arrived and not been taken yet, and whether more can
follow. Taking answers nothing as long as more octets are needed.
-/
import LspClient.Fault

namespace LspClient

/-- Octets that have arrived, in order. -/
structure Stream where
  buffer : Octets := []
  /-- No more octets will follow. -/
  ended : Bool := false
  /-- The fault that ended the stream; every later take raises it. -/
  fault : Option Fault := none
  /-- How many octets a line may have before its separator. -/
  limit : Nat := 65536
  deriving Inhabited

/-- The result of looking for a line. -/
inductive LineResult where
  /-- A line with its separator. -/
  | line (octets : Octets)
  /-- What was left at the end of the stream, without a separator. -/
  | remainder (octets : Octets)
  /-- The line is longer than the limit; nothing was taken. -/
  | overrun
  deriving DecidableEq, Inhabited

namespace Stream

/-- Adds octets at the end. -/
def feed (s : Stream) (bs : Octets) : Stream :=
  { s with buffer := s.buffer ++ bs }

/-- Says that no more octets follow. -/
def finish (s : Stream) : Stream :=
  { s with ended := true }

/-- The number of octets before the first separator. -/
def offsetOf? (separator : Octets) : Octets → Option Nat
  | [] => none
  | b :: bs =>
    if separator.isPrefixOf (b :: bs) then some 0
    else (offsetOf? separator bs).map (· + 1)

/-- Takes a line up to and with its separator. -/
def takeLine? (separator : Octets) (s : Stream) : Option (LineResult × Stream) :=
  match offsetOf? separator s.buffer with
  | some i =>
    if s.limit < i then some (.overrun, s)
    else
      let n := i + separator.length
      some (.line (s.buffer.take n), { s with buffer := s.buffer.drop n })
  | none =>
    if separator.length ≤ s.buffer.length && s.limit < s.buffer.length + 1 - separator.length then
      some (.overrun, s)
    else if s.ended then some (.remainder s.buffer, { s with buffer := [] })
    else none

/-- Drops a line that is too long: the line if it is complete, else all that has arrived. -/
def dropLine (separator : Octets) (s : Stream) : Stream :=
  match offsetOf? separator s.buffer with
  | some i => { s with buffer := s.buffer.drop (i + separator.length) }
  | none => { s with buffer := [] }

/-- Takes exactly so many octets; if the stream ends before, what is left is lost. -/
def takeExactly? (n : Nat) (s : Stream) : Option (Option Octets × Stream) :=
  if n ≤ s.buffer.length then some (some (s.buffer.take n), { s with buffer := s.buffer.drop n })
  else if s.ended then some (none, { s with buffer := [] })
  else none

/-- Takes at least one octet and at most so many; none at the end of the stream. -/
def takeSome? (n : Nat) (s : Stream) : Option (Octets × Stream) :=
  if s.buffer.isEmpty && !s.ended then none
  else some (s.buffer.take n, { s with buffer := s.buffer.drop n })

end Stream

end LspClient
