import Switchboard.Bytes

/-!
# Decimal and hexadecimal numerals

Numbers are written in decimal, and read from decimal with an optional sign within the bounds of
a machine word: a numeral outside the bounds is refused like one that is no numeral.
-/

namespace Switchboard.Text

/-- The value of a decimal digit. -/
def digit? (c : Char) : Option Nat :=
  if '0' ≤ c ∧ c ≤ '9' then some (c.toNat - '0'.toNat) else none

/-- The value of a nonempty string of decimal digits read on from `n`. -/
def digitsFrom (n : Nat) : List Char → Option Nat
  | [] => some n
  | c :: cs => (digit? c).bind fun d => digitsFrom (n * 10 + d) cs

/-- The value of a nonempty string of decimal digits. -/
def readDigits : List Char → Option Nat
  | [] => none
  | cs => digitsFrom 0 cs

/-- Reads a numeral with an optional plus sign that is at most `max`. -/
def readNat (max : Nat) (cs : List Char) : Option Nat :=
  let digits := match cs with
    | '+' :: rest => rest
    | cs => cs
  (readDigits digits).filter (· ≤ max)

/-- Reads a numeral with an optional sign that fits a signed word of 64 bits. -/
def readInt64 (cs : List Char) : Option Int64 :=
  let value : Option Int := match cs with
    | '-' :: rest => (readDigits rest).map fun n => -(n : Int)
    | '+' :: rest => (readDigits rest).map fun n => (n : Int)
    | cs => (readDigits cs).map fun n => (n : Int)
  (value.filter fun i => -(2 ^ 63) ≤ i ∧ i < 2 ^ 63).map Int64.ofInt

/-- The largest unsigned word of 64 bits. -/
def maxWord : Nat := 2 ^ 64 - 1

/-- A number in decimal. -/
def decimal (n : Nat) : String := toString n

/-- A signed number in decimal. -/
def signedDecimal (i : Int) : String :=
  if i < 0 then "-" ++ decimal i.natAbs else decimal i.natAbs

/-- A number in decimal with zeros in front up to `width` digits. -/
def padded (width n : Nat) : String :=
  let text := decimal n
  String.ofList (List.replicate (width - text.length) '0') ++ text

/-- A digit of base sixteen in its small form. -/
def hexDigit (n : Nat) : Char :=
  if n < 10 then Char.ofNat ('0'.toNat + n) else Char.ofNat ('a'.toNat + (n - 10))

/-- A digit of base sixteen in its capital form. -/
def hexDigitUpper (n : Nat) : Char :=
  if n < 10 then Char.ofNat ('0'.toNat + n) else Char.ofNat ('A'.toNat + (n - 10))

/-- The value of a digit of base sixteen in either form. -/
def hexValue? (c : Char) : Option Nat :=
  if '0' ≤ c ∧ c ≤ '9' then some (c.toNat - '0'.toNat)
  else if 'a' ≤ c ∧ c ≤ 'f' then some (c.toNat - 'a'.toNat + 10)
  else if 'A' ≤ c ∧ c ≤ 'F' then some (c.toNat - 'A'.toNat + 10)
  else none

end Switchboard.Text
