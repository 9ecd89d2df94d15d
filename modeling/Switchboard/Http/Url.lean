import Switchboard.Dict
import Switchboard.Text.Ascii
import Switchboard.Text.Numeral
import Switchboard.Text.Pieces
import Switchboard.Text.Utf8

/-!
# Percent escapes

In paths, arguments and cookies a byte may be written as a percent sign and two digits of base
sixteen. Writing escapes every byte that is not the code of a letter, a digit or one of `-_.~`.
Reading also takes a plus sign for a space and fails if a percent sign is not followed by two
digits; bytes that are no UTF-8 after that are replaced.
-/

namespace Switchboard.Url

/-! ## Writing -/

/-- Whether a character is written as it is. -/
def isUnreserved (c : Char) : Bool :=
  Text.isAlphanumeric c || c == '-' || c == '_' || c == '.' || c == '~'

/-- A byte as it is written. -/
def encodeByte (b : UInt8) : List Char :=
  let c := Char.ofNat b.toNat
  if isUnreserved c then [c]
  else ['%', Text.hexDigitUpper (b.toNat / 16), Text.hexDigitUpper (b.toNat % 16)]

/-- A text with escapes for everything but unreserved characters. -/
def encode (s : String) : String :=
  String.ofList ((Utf8.ofString s).flatMap encodeByte)

/-! ## Reading -/

/-- The value of two digits. -/
def escaped? (high low : UInt8) : Option UInt8 := do
  let h ← Text.hexValue? (Char.ofNat high.toNat)
  let l ← Text.hexValue? (Char.ofNat low.toNat)
  return UInt8.ofNat (h * 16 + l)

/-- The bytes that stand for themselves or are escaped. -/
def decodeBytes : Bytes → Option Bytes
  | [] => some []
  | b :: bs =>
    if b = 0x25 then
      match bs with
      | high :: low :: rest => do
        let c ← escaped? high low
        return c :: (← decodeBytes rest)
      | _ => none
    else if b = 0x2B then (decodeBytes bs).map (0x20 :: ·)
    else (decodeBytes bs).map (b :: ·)

/-- The text that is written with escapes, if the escapes are well-formed. -/
def decode (s : String) : Option String :=
  (decodeBytes (Utf8.ofString s)).map Utf8.toStringLossy

/-! ## Arguments -/

/-- One argument: a key, and behind an equals sign its value. -/
def readArgument (cs : List Char) : Option (String × String) := do
  let (key, value) := (Text.splitFirst '=' cs).getD (cs, [])
  return (← decode (String.ofList key), ← decode (String.ofList value))

/-- The arguments of a text in which they are separated by ampersands; of two arguments with one
key the later one counts. -/
def readArguments (s : String) : Option (Dict String String) := do
  let pieces := (Text.pieces '&' s.toList).filter (!·.isEmpty)
  return Dict.ofList (← pieces.mapM readArgument)

end Switchboard.Url
