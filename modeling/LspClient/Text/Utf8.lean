/-
Text as octets and back. Encoding is total; decoding names the first octets that are no text, the
place where they stand and what is wrong with them, or puts the replacement character there.
-/
import LspClient.Value
import LspClient.Text.Quoted

namespace LspClient.Text

/-- Why octets are no text. -/
inductive DecodeReason where
  | invalidStart
  | invalidContinuation
  | unexpectedEnd
  | truncated
  | outOfRange
  deriving DecidableEq, Inhabited

/-- The wording of a reason. -/
def DecodeReason.text : DecodeReason → String
  | invalidStart => "invalid start byte"
  | invalidContinuation => "invalid continuation byte"
  | unexpectedEnd => "unexpected end of data"
  | truncated => "truncated data"
  | outOfRange => "code point not in range(0x110000)"

/-- The octets from `start` up to `stop`, the first of them `first`, are no text. -/
structure DecodeFault where
  codec : String
  first : UInt8
  start : Nat
  stop : Nat
  reason : DecodeReason
  deriving DecidableEq, Inhabited

/-- The message for a fault: a single octet is shown, several are counted. -/
def DecodeFault.message (f : DecodeFault) : String :=
  let place :=
    if f.stop = f.start + 1 then
      "byte 0x" ++ String.ofList (hex 2 f.first.toNat) ++ " in position " ++ toString f.start
    else
      "bytes in position " ++ toString f.start ++ "-" ++ toString (f.stop - 1)
  "'" ++ f.codec ++ "' codec can't decode " ++ place ++ ": " ++ f.reason.text

/-- The character put in place of octets that are no text, and of half a surrogate pair. -/
def replacement : Char := '\ufffd'

/-- The octets of a text. -/
def encode (s : String) : Octets :=
  s.toList.flatMap String.utf8EncodeChar

/-- What stands at the head of octets: a character of some length, or a fault of some length. -/
inductive Scan where
  | char (c : Char) (length : Nat)
  | fault (length : Nat) (reason : DecodeReason)

/-- Whether an octet continues a character. -/
def isContinuation (b : UInt8) : Bool :=
  0x80 ≤ b && b < 0xc0

/-- The character with the given number, the replacement character for a surrogate. -/
def charOf (n : Nat) : Char :=
  if h : n.isValidChar then Char.ofNatAux n h else replacement

/-- Looks at a lead octet and those after it. Encoded surrogates are faults unless `surrogates`. -/
def scanUtf8 (surrogates : Bool) (lead : UInt8) (rest : Octets) : Scan :=
  let b := lead.toNat
  if b < 0x80 then .char (charOf b) 1
  else if b < 0xc2 then .fault 1 .invalidStart
  else if b < 0xe0 then
    match rest with
    | c :: _ =>
      if isContinuation c then .char (charOf ((b - 0xc0) * 64 + (c.toNat - 0x80))) 2
      else .fault 1 .invalidContinuation
    | [] => .fault 1 .unexpectedEnd
  else if b < 0xf0 then
    match rest with
    | [] => .fault 1 .unexpectedEnd
    | c :: rest =>
      if !isContinuation c || (b == 0xe0 && c < 0xa0) then .fault 1 .invalidContinuation
      else if b == 0xed && 0xa0 ≤ c && !(surrogates && rest.head?.any isContinuation) then
        .fault 1 .invalidContinuation
      else
        match rest with
        | [] => .fault 2 .unexpectedEnd
        | d :: _ =>
          if isContinuation d then
            .char (charOf ((b - 0xe0) * 4096 + (c.toNat - 0x80) * 64 + (d.toNat - 0x80))) 3
          else .fault 2 .invalidContinuation
  else if b < 0xf5 then
    match rest with
    | [] => .fault 1 .unexpectedEnd
    | c :: rest =>
      if !isContinuation c || (b == 0xf0 && c < 0x90) || (b == 0xf4 && 0x90 ≤ c) then
        .fault 1 .invalidContinuation
      else
        match rest with
        | [] => .fault 2 .unexpectedEnd
        | d :: rest =>
          if !isContinuation d then .fault 2 .invalidContinuation
          else
            match rest with
            | [] => .fault 3 .unexpectedEnd
            | e :: _ =>
              if isContinuation e then
                .char (charOf ((b - 0xf0) * 262144 + (c.toNat - 0x80) * 4096
                  + (d.toNat - 0x80) * 64 + (e.toNat - 0x80))) 4
              else .fault 3 .invalidContinuation
  else .fault 1 .invalidStart

/-- Reads characters from the octet at `pos` on, after passing over the next `skip` octets. -/
def decodeFrom (surrogates : Bool) : Nat → Nat → List Char → Octets → Except DecodeFault (List Char)
  | _, _, acc, [] => .ok acc.reverse
  | pos, skip + 1, acc, _ :: rest => decodeFrom surrogates (pos + 1) skip acc rest
  | pos, 0, acc, b :: rest =>
    match scanUtf8 surrogates b rest with
    | .char c n => decodeFrom surrogates (pos + 1) (n - 1) (c :: acc) rest
    | .fault n reason => .error ⟨"utf-8", b, pos, pos + n, reason⟩

/-- The characters that octets stand for. -/
def decode (surrogates : Bool) (bs : Octets) : Except DecodeFault (List Char) :=
  decodeFrom surrogates 0 0 [] bs

/-- The text that octets stand for, if they stand for one. -/
def decode? (bs : Octets) : Option String :=
  match decode false bs with
  | .ok cs => some (String.ofList cs)
  | .error _ => none

/-- Reads characters after passing over some octets, with the replacement character for faults. -/
def decodeLossyFrom : Nat → List Char → Octets → List Char
  | _, acc, [] => acc.reverse
  | skip + 1, acc, _ :: rest => decodeLossyFrom skip acc rest
  | 0, acc, b :: rest =>
    match scanUtf8 false b rest with
    | .char c n => decodeLossyFrom (n - 1) (c :: acc) rest
    | .fault n _ => decodeLossyFrom (n - 1) (replacement :: acc) rest

/-- The text of octets, every fault shown as one replacement character. -/
def decodeLossy (bs : Octets) : String :=
  String.ofList (decodeLossyFrom 0 [] bs)

/-- The text of octets read as ASCII, every other octet shown as one replacement character. -/
def decodeAscii (bs : Octets) : List Char :=
  bs.map fun b => if b < 0x80 then Char.ofNat b.toNat else replacement

end LspClient.Text
