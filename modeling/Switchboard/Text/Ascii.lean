/-!
# ASCII case

Method names, header names and a few fixed words are compared without regard to the case of the
ASCII letters; every other character stands for itself alone.
-/

namespace Switchboard.Text

/-- A letter from `A` to `Z` in its small form, and any other character as it is. -/
def lowerChar (c : Char) : Char :=
  if 'A' ≤ c ∧ c ≤ 'Z' then Char.ofNat (c.toNat + 32) else c

/-- A string with its ASCII letters in their small form. -/
def lower (s : String) : String :=
  String.ofList (s.toList.map lowerChar)

/-- Whether two strings differ at most in the case of ASCII letters. -/
def sameFold (s t : String) : Bool :=
  lower s == lower t

/-- The letters and digits of ASCII. -/
def isAlphanumeric (c : Char) : Bool :=
  ('a' ≤ c && c ≤ 'z') || ('A' ≤ c && c ≤ 'Z') || ('0' ≤ c && c ≤ '9')

end Switchboard.Text
