/-!
# Blank space

A blank is a character with the Unicode property White_Space. Names, header lines and cookie
pairs are trimmed of blanks at both ends, and a request line is cut into words at them. What has to
stand on one line has blanks in place of its line ends.
-/

namespace Switchboard.Text

/-- The ranges of code points with the property White_Space. -/
def blankRanges : List (Nat × Nat) :=
  [(0x09, 0x0D), (0x20, 0x20), (0x85, 0x85), (0xA0, 0xA0), (0x1680, 0x1680), (0x2000, 0x200A),
    (0x2028, 0x2029), (0x202F, 0x202F), (0x205F, 0x205F), (0x3000, 0x3000)]

/-- Whether a character is a blank. -/
def isBlank (c : Char) : Bool :=
  blankRanges.any fun (low, high) => low ≤ c.toNat && c.toNat ≤ high

/-- A text without the blanks at its front. -/
def trimLeft (cs : List Char) : List Char :=
  cs.dropWhile isBlank

/-- A text without the blanks at its back. -/
def trimRight (cs : List Char) : List Char :=
  (cs.reverse.dropWhile isBlank).reverse

/-- A text without the blanks at either end. -/
def trim (cs : List Char) : List Char :=
  trimRight (trimLeft cs)

/-- The first word of a text and what follows it, where a word is a longest stretch without a
blank. -/
def nextWord (cs : List Char) : Option (List Char × List Char) :=
  match cs.dropWhile isBlank with
  | [] => none
  | word => some (word.takeWhile (!isBlank ·), word.dropWhile (!isBlank ·))

/-- There are twenty-five blanks. -/
example : (blankRanges.map fun (low, high) => high + 1 - low).sum = 25 := by decide

/-- A character, or a blank in place of a line end. -/
def unbroken (c : Char) : Char := if c = '\n' ∨ c = '\r' then ' ' else c

end Switchboard.Text
