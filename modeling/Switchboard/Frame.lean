import Switchboard.MessagePack.Read
import Switchboard.MessagePack.Write

/-!
# Length-prefixed frames

On a binary connection every request and every reply is a frame: four bytes with the length of
the body, most significant byte first, and the body. A length that reads as the beginning of an
HTTP request line is over a gigabyte, so a frame of any sensible size is not taken for one.
-/

namespace Switchboard.Frame

/-- The size of the length in front of a body. -/
def prefixLength : Nat := 4

/-- The length of the whole frame that the first bytes announce, once all four are there. -/
def length? (buf : Bytes) : Option Nat :=
  if prefixLength ≤ buf.length then
    some (prefixLength + Bytes.toNat (buf.take prefixLength))
  else none

/-- Why bytes are not a frame with the expected value in it. -/
inductive Fault
  /-- Fewer bytes than the frame has. -/
  | truncated (expected actual : Nat)
  /-- The body is not the binary form of such a value. -/
  | malformed (fault : MessagePack.Fault)
  /-- The body is too long for its length to be announced. -/
  | tooLong (length : Nat)
  deriving DecidableEq, Repr

/-- The sentence about a fault. -/
def Fault.message : Fault → String
  | .truncated expected actual =>
    "truncated frame: expected " ++ Text.decimal expected ++ " bytes, got " ++ Text.decimal actual
  | .malformed fault => "msgpack decode failed: " ++ fault.message
  | .tooLong length =>
    "frame body of " ++ Text.decimal length ++ " bytes does not fit a u32 length prefix"

/-- The frame of a body. -/
def encode (body : Bytes) : Except Fault Bytes :=
  if body.length < 2 ^ 32 then .ok (Bytes.bigEndian prefixLength body.length ++ body)
  else .error (.tooLong body.length)

/-- The body of the frame at the front of the bytes. -/
def body (buf : Bytes) : Except Fault Bytes :=
  match length? buf with
  | none => .error (.truncated prefixLength buf.length)
  | some total =>
    if total ≤ buf.length then .ok ((buf.take total).drop prefixLength)
    else .error (.truncated total buf.length)

/-- The frame with the binary form of a value. -/
def ofValue {α : Type} [Payload α] (a : α) : Except Fault Bytes :=
  encode (toBinary a)

/-- The value in the frame at the front of the bytes. -/
def value {α : Type} [Payload α] (buf : Bytes) : Except Fault α := do
  let body ← body buf
  match ofBinary body with
  | .ok a => .ok a
  | .error fault => .error (.malformed fault)

end Switchboard.Frame
