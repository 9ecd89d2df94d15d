import Switchboard.Bytes
import Switchboard.Text.Quoted

/-!
# What is wrong with a JSON text

A text can end too early, break the grammar, or say something that is not of the expected shape.
A `Fault` gives the cause and the place, and `Fault.message` is the sentence that a caller reads.
-/

namespace Switchboard.Json

/-! ## Causes -/

/-- What was found in place of the expected value. -/
inductive Found
  | text (value : String)
  | integer (value : Int)
  | decimal (shown : String)
  | flag (value : Bool)
  | null
  | sequence
  | object
  deriving DecidableEq, Repr

/-- Where in the grammar a text ended too early. -/
inductive Unfinished
  | value
  | string
  | list
  | object
  deriving DecidableEq, Repr

/-- How a text breaks the grammar. -/
inductive Breach
  | expectedValue
  | expectedListEnd
  | expectedObjectEnd
  | expectedColon
  | expectedIdent
  | trailingCharacters
  | trailingComma
  | keyNotText
  | invalidNumber
  | numberOutOfRange
  | invalidEscape
  | loneSurrogate
  | endOfEscape
  | controlCharacter
  deriving DecidableEq, Repr

/-- How a well-formed value misses its shape. -/
inductive Mismatch
  | wrongType (found : Found) (expected : String)
  | outOfRange (value : Int) (expected : String)
  | wrongLength (length : Nat) (expected : String)
  | missingField (name : String)
  | duplicateField (name : String)
  | unknownChoice (found : String) (known : List String)
  deriving DecidableEq, Repr

/-- Why a text cannot be read. -/
inductive Cause
  | ended (within : Unfinished)
  | syntactic (breach : Breach)
  | data (mismatch : Mismatch)
  deriving DecidableEq, Repr

/-- A line, counted from one, and the number of bytes up to the place in that line. -/
structure Place where
  line : Nat
  column : Nat
  deriving DecidableEq, Repr

/-- Why a text cannot be read or written, and where in the text, if there is one. -/
structure Fault where
  cause : Cause
  place : Option Place
  deriving DecidableEq, Repr

/-! ## Wording -/

/-- How a message names what was found. -/
def Found.describe : Found → String
  | .text s => "string " ++ Text.quoted s
  | .integer i => "integer `" ++ Text.signedDecimal i ++ "`"
  | .decimal shown => "floating point `" ++ shown ++ "`"
  | .flag b => "boolean `" ++ (if b then "true" else "false") ++ "`"
  | .null => "null"
  | .sequence => "sequence"
  | .object => "map"

/-- The sentence about a text that ended too early. -/
def Unfinished.describe : Unfinished → String
  | .value => "EOF while parsing a value"
  | .string => "EOF while parsing a string"
  | .list => "EOF while parsing a list"
  | .object => "EOF while parsing an object"

/-- The sentence about a breach of the grammar. -/
def Breach.describe : Breach → String
  | .expectedValue => "expected value"
  | .expectedListEnd => "expected `,` or `]`"
  | .expectedObjectEnd => "expected `,` or `\x7d`"
  | .expectedColon => "expected `:`"
  | .expectedIdent => "expected ident"
  | .trailingCharacters => "trailing characters"
  | .trailingComma => "trailing comma"
  | .keyNotText => "key must be a string"
  | .invalidNumber => "invalid number"
  | .numberOutOfRange => "number out of range"
  | .invalidEscape => "invalid escape"
  | .loneSurrogate => "lone leading surrogate in hex escape"
  | .endOfEscape => "unexpected end of hex escape"
  | .controlCharacter => "control character (\\u0000-\\u001F) found while parsing a string"

/-- The words of a choice between ticks. -/
def describeKnown : List String → String
  | [] => "there are no variants"
  | [a] => "expected `" ++ a ++ "`"
  | [a, b] => "expected `" ++ a ++ "` or `" ++ b ++ "`"
  | names => "expected one of " ++ ", ".intercalate (names.map fun a => "`" ++ a ++ "`")

/-- The sentence about a value that misses its shape. -/
def Mismatch.describe : Mismatch → String
  | .wrongType found expected => "invalid type: " ++ found.describe ++ ", expected " ++ expected
  | .outOfRange value expected =>
    "invalid value: " ++ (Found.integer value).describe ++ ", expected " ++ expected
  | .wrongLength length expected =>
    "invalid length " ++ Text.decimal length ++ ", expected " ++ expected
  | .missingField name => "missing field `" ++ name ++ "`"
  | .duplicateField name => "duplicate field `" ++ name ++ "`"
  | .unknownChoice found known => "unknown variant `" ++ found ++ "`, " ++ describeKnown known

/-- The sentence about a cause. -/
def Cause.describe : Cause → String
  | .ended within => within.describe
  | .syntactic breach => breach.describe
  | .data mismatch => mismatch.describe

/-- The sentence about a fault, with its place. -/
def Fault.message (fault : Fault) : String :=
  match fault.place with
  | none => fault.cause.describe
  | some place =>
    fault.cause.describe ++ " at line " ++ Text.decimal place.line ++ " column "
      ++ Text.decimal place.column

/-! ## Places -/

/-- The place after the first `count` bytes of a text. -/
def Place.after (text : Bytes) (count : Nat) : Place :=
  let before := text.take count
  { line := before.count 0x0A + 1
    column := (before.reverse.takeWhile (· != 0x0A)).length }

end Switchboard.Json
