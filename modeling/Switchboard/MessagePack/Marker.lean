import Switchboard.Text.Numeral

/-!
# Markers

The first byte of a MessagePack value is its marker. It tells the kind of the value and holds
either a small value or length itself or the number of bytes in which that follows.
-/

namespace Switchboard.MessagePack

/-- What a marker says. A `width` is a number of bytes. -/
inductive Marker
  | fixPos (value : Nat)
  | fixMap (size : Nat)
  | fixArray (size : Nat)
  | fixStr (size : Nat)
  | null
  | reserved
  | flag (value : Bool)
  | bin (width : Nat)
  | ext (width : Nat)
  | float (width : Nat)
  | unsigned (width : Nat)
  | signed (width : Nat)
  | fixExt (size : Nat)
  | str (width : Nat)
  | array (width : Nat)
  | map (width : Nat)
  | fixNeg (value : Int)
  deriving DecidableEq, Repr

/-- The marker of a byte. -/
def Marker.ofByte (b : UInt8) : Marker :=
  let n := b.toNat
  if n < 0x80 then .fixPos n
  else if n < 0x90 then .fixMap (n - 0x80)
  else if n < 0xA0 then .fixArray (n - 0x90)
  else if n < 0xC0 then .fixStr (n - 0xA0)
  else if n = 0xC0 then .null
  else if n = 0xC1 then .reserved
  else if n < 0xC4 then .flag (n = 0xC3)
  else if n < 0xC7 then .bin (2 ^ (n - 0xC4))
  else if n < 0xCA then .ext (2 ^ (n - 0xC7))
  else if n < 0xCC then .float (2 ^ (n - 0xCA + 2))
  else if n < 0xD0 then .unsigned (2 ^ (n - 0xCC))
  else if n < 0xD4 then .signed (2 ^ (n - 0xD0))
  else if n < 0xD9 then .fixExt (2 ^ (n - 0xD4))
  else if n < 0xDC then .str (2 ^ (n - 0xD9))
  else if n < 0xDE then .array (2 ^ (n - 0xDC + 1))
  else if n < 0xE0 then .map (2 ^ (n - 0xDE + 1))
  else .fixNeg ((n : Int) - 256)

/-- How a message names a marker. -/
def Marker.describe : Marker → String
  | .fixPos n => "FixPos(" ++ Text.decimal n ++ ")"
  | .fixMap n => "FixMap(" ++ Text.decimal n ++ ")"
  | .fixArray n => "FixArray(" ++ Text.decimal n ++ ")"
  | .fixStr n => "FixStr(" ++ Text.decimal n ++ ")"
  | .null => "Null"
  | .reserved => "Reserved"
  | .flag b => if b then "True" else "False"
  | .bin w => "Bin" ++ Text.decimal (8 * w)
  | .ext w => "Ext" ++ Text.decimal (8 * w)
  | .float w => "F" ++ Text.decimal (8 * w)
  | .unsigned w => "U" ++ Text.decimal (8 * w)
  | .signed w => "I" ++ Text.decimal (8 * w)
  | .fixExt n => "FixExt" ++ Text.decimal n
  | .str w => "Str" ++ Text.decimal (8 * w)
  | .array w => "Array" ++ Text.decimal (8 * w)
  | .map w => "Map" ++ Text.decimal (8 * w)
  | .fixNeg i => "FixNeg(" ++ Text.signedDecimal i ++ ")"

end Switchboard.MessagePack
