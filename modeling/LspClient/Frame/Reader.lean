/-
Reading frames from a stream. A reader is between two takes from the stream at any time, so it can
stop where octets are missing and go on when more have arrived. A body beyond the limit is passed
over, so that the stream stays aligned with the next frame.
-/
import LspClient.Frame
import LspClient.Message.Peek
import LspClient.Message
import LspClient.Stream
import LspClient.Text.Integer

namespace LspClient.Frame

/-- Where a reader stands within a frame. -/
inductive Phase where
  /-- Among the header lines; the length is the last one that a line gave. -/
  | headers (length : Option Nat) (first : Bool)
  /-- Before the head of a body beyond the limit. -/
  | head (size : Nat)
  /-- Passing over the rest of a body beyond the limit. -/
  | discard (size left : Nat) (head : Octets)
  /-- Before the body. -/
  | body (size : Nat)
  deriving DecidableEq, Inhabited

/-- A reader before a frame. -/
def Phase.start : Phase :=
  .headers none true

/-- Whether a reader in this phase takes from the stream. -/
def Phase.takes : Phase → Bool
  | .discard _ 0 _ => false
  | _ => true

/-- What reading a frame comes to. -/
inductive Result where
  | frame (body : Octets)
  /-- The stream ended between two frames. -/
  | finished
  | fault (f : Fault)
  deriving Inhabited

/-- What one take from the stream leads to. -/
inductive Progress where
  /-- More octets are needed. -/
  | waiting
  /-- The next take follows. -/
  | next (phase : Phase) (s : Stream)
  | done (r : Result) (s : Stream)

/-- The name of the header that gives the length. -/
def lengthHeader : String := "content-length"

/-- How many octets are passed over at a time. -/
def discardSize : Nat := 65536

/-- The stream ended inside a body. -/
def cutShort : Fault :=
  .connection "Connection closed in the middle of a message"

/-- The length that a header line gives, if it is the header for it. -/
def headerLength? (line : Octets) : Except Fault (Option Nat) :=
  let cs := Text.decodeAscii line
  let name := cs.takeWhile (· != ':')
  match cs.drop name.length with
  | _ :: value =>
    if String.ofList ((Text.trimBoth Text.isBlank name).map Char.toLower) = lengthHeader then
      let value := Text.strip (String.ofList value)
      match Text.integer? value with
      | some n =>
        if n < 0 then .error (.connection ("Invalid Content-Length: " ++ toString n))
        else .ok (some n.toNat)
      | none => .error (.connection ("Invalid Content-Length: " ++ Text.quoted value))
    else .ok none
  | [] => .error (.connection ("Malformed header line: " ++ Text.quotedOctets line))

/-- What follows a complete header line. -/
def afterLine (limit : Number) (length : Option Nat) (line : Octets) (s : Stream) : Progress :=
  if line = separator then
    match length with
    | none => .done (.fault (.connection "Missing Content-Length header")) s
    | some n => if limit.lt (.int n) then .next (.head n) s else .next (.body n) s
  else
    match headerLength? line with
    | .error f => .done (.fault f) s
    | .ok found => .next (.headers (found.or length) false) s

/-- The fault for a body beyond the limit. -/
def tooLarge (limit : Number) (size : Nat) (head : Octets) : Result :=
  .fault (.messageTooLarge size limit (Message.peekId? head))

/-- Takes from the stream once. -/
def advance (limit : Number) (phase : Phase) (s : Stream) : Progress :=
  match phase with
  | .headers length first =>
    match s.takeLine? separator with
    | none => .waiting
    | some (.line line, s) => afterLine limit length line s
    | some (.remainder rest, s) =>
      if first && rest.all Text.isBlankOctet then .done .finished s
      else .done (.fault (.connection "Connection closed while reading headers")) s
    | some (.overrun, s) => .done (.fault (.connection "Header line exceeds stream limit")) s
  | .head size =>
    match s.takeExactly? (min size Message.headSize) with
    | none => .waiting
    | some (none, s) => .done (.fault cutShort) s
    | some (some head, s) => .next (.discard size (size - head.length) head) s
  | .discard size left head =>
    if left = 0 then .done (tooLarge limit size head) s
    else
      match s.takeSome? (min left discardSize) with
      | none => .waiting
      | some ([], s) => .done (.fault cutShort) s
      | some (chunk, s) => .next (.discard size (left - chunk.length) head) s
  | .body size =>
    match s.takeExactly? size with
    | none => .waiting
    | some (none, s) => .done (.fault cutShort) s
    | some (some body, s) => .done (.frame body) s

/-- Where reading stops for now. -/
inductive Stop where
  | waiting (phase : Phase) (s : Stream)
  | done (r : Result) (s : Stream)

/-- Takes from the stream until octets are missing or the frame is done. Each take begins with a
look at the fault of the stream, except for one that has been waiting already. -/
def runFrom (limit : Number) : Nat → Bool → Phase → Stream → Stop
  | 0, _, phase, s => .waiting phase s
  | fuel + 1, resumed, phase, s =>
    match (if resumed || !phase.takes then none else s.fault) with
    | some f => .done (.fault f) s
    | none =>
      match advance limit phase s with
      | .waiting => .waiting phase s
      | .next phase s => runFrom limit fuel false phase s
      | .done r s => .done r s

/-- How many takes a stream can allow: every take but three needs an octet of its own. -/
def takesOf (s : Stream) : Nat :=
  s.buffer.length + 4

/-- Goes on with a frame; `resumed` says that octets were missing before. -/
def run (limit : Number) (resumed : Bool) (phase : Phase) (s : Stream) : Stop :=
  runFrom limit (takesOf s) resumed phase s

/-- A reader of all frames of a stream: what it has found, and where it stands, unless it has
stopped for good. -/
structure Reader where
  results : List Result := []
  phase : Option Phase := some .start
  stream : Stream := {}
  deriving Inhabited

/-- Whether a reader goes on after a result. -/
def Result.continues : Result → Bool
  | .frame _ => true
  | .finished => false
  | .fault f => f.isProtocol

/-- Reads frames until octets are missing or nothing can follow. -/
def Reader.drainFrom (limit : Number) : Nat → Bool → Reader → Reader
  | 0, _, r => r
  | fuel + 1, resumed, r =>
    match r.phase with
    | none => r
    | some phase =>
      match run limit resumed phase r.stream with
      | .waiting phase s => { r with phase := some phase, stream := s }
      | .done result s =>
        let next := if result.continues then some .start else none
        drainFrom limit fuel false
          { results := r.results ++ [result], phase := next, stream := s }

/-- Goes on reading with what has arrived. -/
def Reader.drain (limit : Number) (r : Reader) : Reader :=
  drainFrom limit (r.stream.buffer.length + 2) true r

/-- Reads on after more octets have arrived. -/
def Reader.feed (limit : Number) (r : Reader) (bs : Octets) : Reader :=
  drain limit { r with stream := r.stream.feed bs }

/-- Reads on after the stream has ended. -/
def Reader.finish (limit : Number) (r : Reader) : Reader :=
  drain limit { r with stream := r.stream.finish }

end LspClient.Frame
