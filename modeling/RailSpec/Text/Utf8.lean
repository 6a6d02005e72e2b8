import RailSpec.Text.Digit

/-!
Strict UTF-8. A reader that stands inside a character knows which bytes may come next; the first
byte that may not, or the end of the data there, is the fault.
-/

namespace RailSpec.Text.Utf8

inductive Reason where
  | invalidStart
  | invalidContinuation
  | unexpectedEnd
  deriving DecidableEq, Repr

/-- Where decoding stopped: the positions of the bytes of the unfinished character. -/
structure Fault where
  first : Nat
  last : Nat
  byte : UInt8
  reason : Reason
  deriving DecidableEq, Repr

def Reason.message : Reason → String
  | .invalidStart => "invalid start byte"
  | .invalidContinuation => "invalid continuation byte"
  | .unexpectedEnd => "unexpected end of data"

def Fault.message (fault : Fault) : String :=
  let place :=
    if fault.first = fault.last then
      "byte 0x" ++ String.ofList (hexDigits 2 fault.byte.toNat) ++ " in position "
        ++ toString fault.first
    else "bytes in position " ++ toString fault.first ++ "-" ++ toString fault.last
  "'utf-8' codec can't decode " ++ place ++ ": " ++ fault.reason.message

/-- What a lead byte announces: the continuation bytes still owed, the range of the first of them,
and the bits that the lead byte itself holds. -/
structure Lead where
  owed : Nat
  low : Nat
  high : Nat
  bits : Nat

/-- The two-, three- and four-byte forms, without overlong forms and surrogates. -/
def lead? (byte : Nat) : Option Lead :=
  if 0xC2 ≤ byte && byte ≤ 0xDF then some ⟨1, 0x80, 0xBF, byte - 0xC0⟩
  else if byte = 0xE0 then some ⟨2, 0xA0, 0xBF, 0⟩
  else if byte = 0xED then some ⟨2, 0x80, 0x9F, 13⟩
  else if 0xE1 ≤ byte && byte ≤ 0xEF then some ⟨2, 0x80, 0xBF, byte - 0xE0⟩
  else if byte = 0xF0 then some ⟨3, 0x90, 0xBF, 0⟩
  else if 0xF1 ≤ byte && byte ≤ 0xF3 then some ⟨3, 0x80, 0xBF, byte - 0xF0⟩
  else if byte = 0xF4 then some ⟨3, 0x80, 0x8F, 4⟩
  else none

/-- A reader's place: between characters, or inside the character that began at `start` with the
byte `first`, of which `read` bytes are read and `pending` is still owed. -/
inductive Place where
  | between
  | inside (start : Nat) (first : UInt8) (read : Nat) (pending : Lead)

def decodeFrom (position : Nat) : Place → List UInt8 → Except Fault (List Char)
  | .between, [] => .ok []
  | .inside start first read _, [] => .error ⟨start, start + read - 1, first, .unexpectedEnd⟩
  | .between, byte :: rest =>
    if byte.toNat < 0x80 then
      (decodeFrom (position + 1) .between rest).map (Char.ofNat byte.toNat :: ·)
    else
      match lead? byte.toNat with
      | none => .error ⟨position, position, byte, .invalidStart⟩
      | some pending => decodeFrom (position + 1) (.inside position byte 1 pending) rest
  | .inside start first read pending, byte :: rest =>
    if pending.low ≤ byte.toNat && byte.toNat ≤ pending.high then
      let bits := pending.bits * 64 + (byte.toNat - 0x80)
      if pending.owed ≤ 1 then
        (decodeFrom (position + 1) .between rest).map (Char.ofNat bits :: ·)
      else
        decodeFrom (position + 1)
          (.inside start first (read + 1) ⟨pending.owed - 1, 0x80, 0xBF, bits⟩) rest
    else .error ⟨start, start + read - 1, first, .invalidContinuation⟩

/-- The text that a sequence of bytes encodes, or the first fault in it. -/
def decode (bytes : ByteArray) : Except Fault String :=
  (decodeFrom 0 .between bytes.toList).map String.ofList

/-- The bytes of a text. -/
def encode (text : String) : ByteArray :=
  text.toUTF8

/-- Bytes in the encoded form of one character. -/
def width (c : Char) : Nat :=
  c.utf8Size

end RailSpec.Text.Utf8
