import Switchboard.Json.Fault
import Switchboard.Json.Shortest
import Switchboard.Text.Utf8

/-!
# Reading JSON byte by byte

A `Reader` takes bytes off the front of a text and either yields a value or stops at a fault. It
keeps count of the bytes taken also when it stops, because a fault that a value of the wrong
shape gives rise to gets its place only when the reading of the enclosing value ends.

This module holds the reader itself, the tokens (blanks, words, strings, numbers), and the
skipping of whole values that nobody asked for.
-/

namespace Switchboard.Json

/-! ## Readers -/

/-- How far a text has been read. -/
structure Cursor where
  /-- The number of bytes taken. -/
  taken : Nat
  /-- The bytes to come. -/
  rest : Bytes

/-- A cause and the number of bytes up to its place, once that is known. -/
structure Halt where
  cause : Cause
  at? : Option Nat

/-- What reads a value of type `α` off the front of a text. -/
def Reader (α : Type) : Type :=
  Cursor → Except Halt α × Cursor

namespace Reader

variable {α β σ : Type}

instance : Monad Reader where
  pure a := fun c => (.ok a, c)
  bind r f := fun c =>
    match r c with
    | (.ok a, c) => f a c
    | (.error e, c) => (.error e, c)

/-- Stops without a place; the reading of the enclosing value will set it. -/
def mismatch (m : Mismatch) : Reader α := fun c => (.error ⟨.data m, none⟩, c)

/-- Stops at the last byte taken. -/
def stopHere (cause : Cause) : Reader α := fun c => (.error ⟨cause, some c.taken⟩, c)

/-- Stops at the byte that would be taken next. -/
def stopAhead (cause : Cause) : Reader α := fun c =>
  (.error ⟨cause, some (if c.rest.isEmpty then c.taken else c.taken + 1)⟩, c)

/-- Sets the place of a fault that has none to the last byte taken. -/
def settle (r : Reader α) : Reader α := fun c =>
  match r c with
  | (.ok a, c) => (.ok a, c)
  | (.error e, c) => (.error ⟨e.cause, e.at?.or (some c.taken)⟩, c)

/-- The byte to come, without taking it. -/
def peek : Reader (Option UInt8) := fun c => (.ok c.rest.head?, c)

/-- Takes the byte to come, if there is one. -/
def next : Reader (Option UInt8) := fun c =>
  match c.rest with
  | [] => (.ok none, c)
  | b :: rest => (.ok (some b), ⟨c.taken + 1, rest⟩)

/-- Takes the byte to come. -/
def skip : Reader Unit := do
  let _ ← next

/-- Takes so many bytes, or as many as there are. -/
def skipMany (n : Nat) : Reader Unit := fun c =>
  (.ok (), ⟨c.taken + (c.rest.take n).length, c.rest.drop n⟩)

/-- The longest run of bytes to come that satisfy `p`, without taking them. -/
def peekWhile (p : UInt8 → Bool) : Reader Bytes := fun c => (.ok (c.rest.takeWhile p), c)

/-- Takes the longest run of bytes that satisfy `p`. -/
def takeWhile (p : UInt8 → Bool) : Reader Bytes := fun c =>
  let run := c.rest.takeWhile p
  (.ok run, ⟨c.taken + run.length, c.rest.dropWhile p⟩)

/-- Repeats a step until it yields a result, at most once more than there are bytes in a list. -/
def repeatAlong (step : σ → Reader (σ ⊕ α)) : Bytes → σ → Reader α
  | bytes, s => do
    match ← step s with
    | .inr a => return a
    | .inl s =>
      match bytes with
      | [] => stopAhead (.syntactic .expectedValue)
      | _ :: bytes => repeatAlong step bytes s

/-- Repeats a step until it yields a result. Every step that goes on takes at least one byte, so
the bytes to come bound their number. -/
def iterate (step : σ → Reader (σ ⊕ α)) (s : σ) : Reader α := fun c =>
  repeatAlong step c.rest s c

/-- Reads what follows an opening bracket, and the closing bracket even if that failed, so that
the place of a fault without one lies behind the bracket. -/
def bracketed (body : Reader α) (close : Reader Unit) : Reader α := fun c =>
  match (skip >>= fun _ => body) c with
  | (.ok a, c) =>
    match close c with
    | (.ok _, c) => (.ok a, c)
    | (.error e, c) => (.error e, c)
  | (.error e, c) => (.error e, (close c).2)

/-! ## Blanks and words -/

/-- The blanks of JSON: space, tab, line feed and carriage return. -/
def isBlankByte (b : UInt8) : Bool :=
  b == 0x20 || b == 0x09 || b == 0x0A || b == 0x0D

/-- Whether a byte is a decimal digit. -/
def isDigit (b : UInt8) : Bool :=
  0x30 ≤ b && b ≤ 0x39

/-- Takes blanks, and looks at the byte after them. -/
def peekPastBlanks : Reader (Option UInt8) := do
  let _ ← takeWhile isBlankByte
  peek

/-- Takes the letters of a word that has begun. -/
def restOfWord : List UInt8 → Reader Unit
  | [] => return
  | expected :: more => do
    match ← next with
    | none => stopHere (.ended .value)
    | some b => if b = expected then restOfWord more else stopHere (.syntactic .expectedIdent)

/-- Takes the word `null`. -/
def nullWord : Reader Unit := do skip; restOfWord [0x75, 0x6C, 0x6C]

/-- Takes the word `true`. -/
def trueWord : Reader Unit := do skip; restOfWord [0x72, 0x75, 0x65]

/-- Takes the word `false`. -/
def falseWord : Reader Unit := do skip; restOfWord [0x61, 0x6C, 0x73, 0x65]

/-! ## Strings -/

/-- How the inside of a string is read. -/
inductive StringMode
  /-- As characters: control characters and lone surrogates are refused. -/
  | characters
  /-- As bytes: control characters stand for themselves and lone surrogates are encoded alone. -/
  | octets
  /-- Without regard to what it says: escapes are not put together. -/
  | ignored
  deriving DecidableEq

/-- The value of four hexadecimal digits. -/
def hexEscape : Reader Nat := fun c =>
  match c.rest with
  | a :: b :: d :: e :: rest =>
    let c : Cursor := ⟨c.taken + 4, rest⟩
    match [a, b, d, e].mapM fun x => Text.hexValue? (Char.ofNat x.toNat) with
    | some digits => (.ok (digits.foldl (fun n x => n * 16 + x) 0), c)
    | none => stopHere (.syntactic .invalidEscape) c
  -- fewer than four bytes are left, and all of them count as taken
  | rest => stopHere (.ended .string) ⟨c.taken + rest.length, []⟩

/-- The three bytes of a code unit that is encoded as if it were a character. -/
def unitBytes (n : Nat) : Bytes :=
  if n < 0x800 then Utf8.encodeChar (Char.ofNat n)
  else
    [UInt8.ofNat (0xE0 + n / 4096), UInt8.ofNat (0x80 + n / 64 % 64), UInt8.ofNat (0x80 + n % 64)]

/-- Reads what follows the first half of a surrogate pair as octets: a pair that is not completed
leaves its first half alone, and a first half in second place begins a pair anew. Every pair
takes bytes, so those to come bound their number. -/
def octetPair : Bytes → Nat → Bytes → Reader Bytes
  | [], unit, acc => return acc ++ unitBytes unit
  | _ :: bound, unit, acc => do
    if unit < 0xD800 ∨ 0xDBFF < unit then return acc ++ unitBytes unit
    match ← peek with
    | some 0x5C =>
      skip
      match ← peek with
      | some 0x75 =>
        skip
        let second ← hexEscape
        if 0xDC00 ≤ second ∧ second ≤ 0xDFFF then
          return acc ++ Utf8.encodeChar
            (Char.ofNat ((unit - 0xD800) * 1024 + (second - 0xDC00) + 0x10000))
        else octetPair bound second (acc ++ unitBytes unit)
      | some b => do
        let escaped ← plainEscape b
        return acc ++ unitBytes unit ++ escaped
      | none => stopHere (.ended .string)
    | some _ => return acc ++ unitBytes unit
    | none => stopHere (.ended .string)
where
  /-- The byte that a one-letter escape stands for. -/
  plainEscape (b : UInt8) : Reader Bytes := do
    skip
    if b = 0x22 ∨ b = 0x5C ∨ b = 0x2F then return [b]
    else if b = 0x62 then return [0x08]
    else if b = 0x66 then return [0x0C]
    else if b = 0x6E then return [0x0A]
    else if b = 0x72 then return [0x0D]
    else if b = 0x74 then return [0x09]
    else stopHere (.syntactic .invalidEscape)

/-- Reads what follows the first half of a surrogate pair as characters. -/
def characterPair (unit : Nat) : Reader Bytes := do
  -- a second half cannot stand in first place
  if 0xDC00 ≤ unit ∧ unit ≤ 0xDFFF then stopHere (.syntactic .loneSurrogate)
  else if unit < 0xD800 ∨ 0xDBFF < unit then return Utf8.encodeChar (Char.ofNat unit)
  else
    for expected in [0x5C, 0x75] do
      match ← peek with
      | none => stopHere (.ended .string)
      | some b => do
        skip
        if b ≠ expected then stopHere (.syntactic .endOfEscape)
    let second ← hexEscape
    if 0xDC00 ≤ second ∧ second ≤ 0xDFFF then
      return Utf8.encodeChar (Char.ofNat ((unit - 0xD800) * 1024 + (second - 0xDC00) + 0x10000))
    else stopHere (.syntactic .loneSurrogate)

/-- Reads what follows a backslash. -/
def escape (mode : StringMode) : Reader Bytes := do
  match ← next with
  | none => stopHere (.ended .string)
  | some b =>
    if b = 0x22 ∨ b = 0x5C ∨ b = 0x2F then return [b]
    else if b = 0x62 then return [0x08]
    else if b = 0x66 then return [0x0C]
    else if b = 0x6E then return [0x0A]
    else if b = 0x72 then return [0x0D]
    else if b = 0x74 then return [0x09]
    else if b = 0x75 then do
      let unit ← hexEscape
      match mode with
      | .characters => characterPair unit
      | .octets => fun c => octetPair (b :: c.rest) unit [] c
      | .ignored => return []
    else stopHere (.syntactic .invalidEscape)

/-- Reads one run of plain bytes, one escape, or the closing quote. The pieces read so far are
kept in reverse. -/
def stringStep (mode : StringMode) (pieces : List Bytes) : Reader (List Bytes ⊕ Bytes) := do
  let plain ← takeWhile fun b => b != 0x22 && b != 0x5C && (0x20 ≤ b || mode == .octets)
  match ← peek with
  | none => stopHere (.ended .string)
  | some 0x22 => do
    skip
    return .inr (plain :: pieces).reverse.flatten
  | some 0x5C => do
    skip
    let piece ← escape mode
    return .inl (piece :: plain :: pieces)
  | some _ => do
    -- only a string that is wanted has taken the character that is at fault
    if mode = .characters then skip
    stopHere (.syntactic .controlCharacter)

/-- Reads the inside of a string and its closing quote. -/
def stringBody (mode : StringMode) : Reader Bytes :=
  iterate (stringStep mode) []

/-- Reads a string as characters, after its opening quote. -/
def text : Reader String := do
  let bytes ← stringBody .characters
  return Utf8.toStringLossy bytes

/-! ## Numbers -/

/-- A number as it is written. -/
inductive Number
  | whole (value : Int)
  | decimal (shown : String)

/-- The largest significand that is kept exactly. -/
def maxSignificand : Nat := 2 ^ 64 - 1

/-- The largest exponent that is not past all bounds. -/
def maxExponent : Nat := 2 ^ 31 - 1

/-- Digits taken into a number as long as it does not pass a bound, and the number of digits left
over. -/
def fill (bound value : Nat) : Bytes → Nat × Nat
  | [] => (value, 0)
  | b :: bs =>
    let grown := value * 10 + (b.toNat - 0x30)
    if grown ≤ bound then fill bound grown bs else (value, bs.length + 1)

/-- Scales a number by a power of ten in steps that stay within the range of the format. -/
def scale : Nat → Float → Int → Option Float
  | 0, x, _ => some x
  | fuel + 1, x, exponent =>
    if exponent.natAbs ≤ 308 then
      let power := Float.ofScientific 1 false exponent.natAbs
      if exponent ≥ 0 then
        let y := x * power
        if y.isInf then none else some y
      else some (x / power)
    else if x == 0 then some x
    else if exponent ≥ 0 then none
    else scale fuel (x / Float.ofScientific 1 false 308) (exponent + 308)

/-- The number with a significand and an exponent of ten. -/
def decimalNumber (negative : Bool) (significand : Nat) (exponent : Int) : Reader Number := do
  match scale (exponent.natAbs / 308 + 2) (UInt64.ofNat significand).toFloat exponent with
  | none => stopHere (.syntactic .numberOutOfRange)
  | some x => return .decimal (quoteFloat (if negative then -x else x))

/-- Reads an exponent, after its letter. -/
def exponentPart (negative : Bool) (significand : Nat) (exponent : Int) : Reader Number := do
  skip
  let down ← do
    match ← peek with
    | some 0x2B => do skip; pure false
    | some 0x2D => do skip; pure true
    | _ => pure false
  match ← next with
  | none => stopHere (.ended .value)
  | some b =>
    if !isDigit b then stopHere (.syntactic .invalidNumber)
    else do
      let more ← peekWhile isDigit
      let (size, left) := fill maxExponent (b.toNat - 0x30) more
      if left ≠ 0 then
        -- past all bounds: the number is zero, or it is too large at this very digit
        skipMany (more.length - left + 1)
        if significand ≠ 0 ∧ !down then stopHere (.syntactic .numberOutOfRange)
        else do
          let _ ← takeWhile isDigit
          return .decimal (if negative then "-0.0" else "0.0")
      else do
        skipMany more.length
        decimalNumber negative significand
          (if down then exponent - (size : Int) else exponent + (size : Int))

/-- Whether a byte begins an exponent. -/
def isExponentMark (b : UInt8) : Bool := b == 0x65 || b == 0x45

/-- Reads what follows the digits in front of the point, of which `extra` did not fit into the
significand. -/
def numberTail (negative : Bool) (significand : Nat) (extra : Nat) : Reader Number := do
  match ← peek with
  | some 0x2E => do
    skip
    let digits ← takeWhile isDigit
    if digits.isEmpty then
      match ← peek with
      | some _ => stopAhead (.syntactic .invalidNumber)
      | none => stopAhead (.ended .value)
    else
      let (significand, left) := fill maxSignificand significand digits
      -- digits that did not fit in front of the point raise the exponent, those behind it that
      -- did fit lower it
      let exponent : Int := (extra : Int) - ((digits.length - left : Nat) : Int)
      match ← peek with
      | some b =>
        if isExponentMark b then exponentPart negative significand exponent
        else decimalNumber negative significand exponent
      | none => decimalNumber negative significand exponent
  | some b =>
    if isExponentMark b then exponentPart negative significand extra else finish
  | none => finish
where
  /-- A number without a fraction and an exponent. -/
  finish : Reader Number := do
    if extra ≠ 0 then decimalNumber negative significand extra
    else if !negative then return .whole significand
    -- there is no whole negative zero, and none below the least signed word
    else if significand = 0 ∨ significand > 2 ^ 63 then decimalNumber true significand 0
    else return .whole (-(significand : Int))

/-- Reads a number. -/
def number : Reader Number := do
  let negative ← do
    match ← peek with
    | some 0x2D => do skip; pure true
    | _ => pure false
  match ← next with
  | none => stopHere (.ended .value)
  | some b =>
    if b = 0x30 then do
      match ← peek with
      | some d => if isDigit d then stopAhead (.syntactic .invalidNumber)
      | none => pure ()
      numberTail negative 0 0
    else if isDigit b then do
      let more ← takeWhile isDigit
      let (significand, extra) := fill maxSignificand (b.toNat - 0x30) more
      numberTail negative significand extra
    else stopHere (.syntactic .invalidNumber)

/-! ## Skipping -/

/-- Skips the exponent of a number, after its letter. -/
def skipExponent : Reader Unit := do
  skip
  match ← peek with
  | some 0x2B | some 0x2D => skip
  | _ => pure ()
  match ← next with
  | some b =>
    if isDigit b then do
      let _ ← takeWhile isDigit
    else stopHere (.syntactic .invalidNumber)
  | none => stopHere (.syntactic .invalidNumber)

/-- Skips what follows the digits in front of the point. -/
def skipNumberTail : Reader Unit := do
  match ← peek with
  | some 0x2E => do
    skip
    let digits ← takeWhile isDigit
    if digits.isEmpty then stopAhead (.syntactic .invalidNumber)
    match ← peek with
    | some b => if isExponentMark b then skipExponent
    | none => pure ()
  | some b => if isExponentMark b then skipExponent
  | none => pure ()

/-- Skips a number, after its sign. -/
def skipNumber : Reader Unit := do
  match ← next with
  | none => stopHere (.syntactic .invalidNumber)
  | some b =>
    if b = 0x30 then do
      match ← peek with
      | some d => if isDigit d then stopAhead (.syntactic .invalidNumber)
      | none => pure ()
      skipNumberTail
    else if isDigit b then do
      let _ ← takeWhile isDigit
      skipNumberTail
    else stopHere (.syntactic .invalidNumber)

/-- A bracket that has been opened and not yet closed. -/
inductive Bracket
  | list
  | object
  deriving DecidableEq

/-- Skips a name and its colon inside an object. -/
def skipName : Reader Unit := do
  match ← peekPastBlanks with
  | some 0x22 => do
    skip
    let _ ← stringBody .ignored
    match ← peekPastBlanks with
    | some 0x3A => skip
    | some _ => stopAhead (.syntactic .expectedColon)
    | none => stopAhead (.ended .object)
  | some _ => stopAhead (.syntactic .keyNotText)
  | none => stopAhead (.ended .object)

/-- Where the skipping of nested values stands. -/
inductive Skipping
  /-- A value comes next. -/
  | value (open' : List Bracket)
  /-- A value has ended (`comma`), or the innermost bracket has just been opened. -/
  | after (comma : Bool) (open' : List Bracket)

/-- Skips one token of a value. -/
def skipStep : Skipping → Reader (Skipping ⊕ Unit)
  | .after _ [] => return .inr ()
  | .after comma (bracket :: outer) => do
    match ← peekPastBlanks with
    | none => stopAhead (.ended (if bracket = .list then .list else .object))
    | some b =>
      if b = 0x2C ∧ comma then do
        skip
        if bracket = .object then skipName
        return .inl (.value (bracket :: outer))
      else if (b = 0x5D ∧ bracket = .list) ∨ (b = 0x7D ∧ bracket = .object) then do
        skip
        return .inl (.after true outer)
      else if comma then
        stopAhead (.syntactic (if bracket = .list then .expectedListEnd else .expectedObjectEnd))
      else do
        if bracket = .object then skipName
        -- a value has to follow, and it is skipped by the next step
        return .inl (.value (bracket :: outer))
  | .value outer => do
    match ← peekPastBlanks with
    | none => stopAhead (.ended .value)
    | some b =>
      if b = 0x5B then do skip; return .inl (.after false (.list :: outer))
      else if b = 0x7B then do skip; return .inl (.after false (.object :: outer))
      else do
        if b = 0x6E then nullWord
        else if b = 0x74 then trueWord
        else if b = 0x66 then falseWord
        else if b = 0x2D then do skip; skipNumber
        else if isDigit b then skipNumber
        else if b = 0x22 then do
          skip
          let _ ← stringBody .ignored
        else stopAhead (.syntactic .expectedValue)
        return .inl (.after true outer)

/-- Skips two tokens of a value, or one if it is the last. A token without a byte is followed by
one that has some, so both together take at least one byte. -/
def skipTwice (s : Skipping) : Reader (Skipping ⊕ Unit) := do
  match ← skipStep s with
  | .inl s => skipStep s
  | .inr done => return .inr done

/-- Skips a value of any shape and any depth. -/
def skipValue : Reader Unit := iterate skipTwice (.value [])

end Reader

end Switchboard.Json
