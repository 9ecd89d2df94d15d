import Switchboard.Json.Reader
import Switchboard.Shape

/-!
# Payloads from JSON

Reading follows the shape as writing does, and takes somewhat more than is written: a record may
also be given as the array of its fields, its fields may come in any order among others that are
skipped, defaulted fields may be left out, and a byte string may also be a string.
-/

namespace Switchboard.Json.Reader

variable {α σ : Type}

/-! ## Values that are not of the expected type -/

/-- Reads enough of a value to say what it is, and complains that it is not what was expected. -/
def refuse (expected : String) : Reader α := settle do
  match ← peek with
  | some b =>
    if b = 0x6E then do nullWord; mismatch (.wrongType .null expected)
    else if b = 0x74 then do trueWord; mismatch (.wrongType (.flag true) expected)
    else if b = 0x66 then do falseWord; mismatch (.wrongType (.flag false) expected)
    else if b = 0x2D ∨ isDigit b then do
      match ← number with
      | .whole i => mismatch (.wrongType (.integer i) expected)
      | .decimal shown => mismatch (.wrongType (.decimal shown) expected)
    else if b = 0x22 then do
      skip
      let s ← text
      mismatch (.wrongType (.text s) expected)
    else if b = 0x5B then mismatch (.wrongType .sequence expected)
    else if b = 0x7B then mismatch (.wrongType .object expected)
    else stopAhead (.syntactic .expectedValue)
  | none => stopAhead (.syntactic .expectedValue)

/-- Looks at the first byte of a value. -/
def first : Reader UInt8 := do
  match ← peekPastBlanks with
  | some b => return b
  | none => stopAhead (.ended .value)

/-! ## Plain values -/

/-- Reads a whole number within bounds. -/
def integer (expected : String) (low high : Int) : Reader Int := settle do
  let b ← first
  if b = 0x2D ∨ isDigit b then
    match ← number with
    | .whole i =>
      if low ≤ i ∧ i ≤ high then return i else mismatch (.outOfRange i expected)
    | .decimal shown => mismatch (.wrongType (.decimal shown) expected)
  else refuse expected

/-- Reads a string. -/
def string (expected : String) : Reader String := settle do
  let b ← first
  if b = 0x22 then do skip; text else refuse expected

/-- Reads a truth value. -/
def flag : Reader Bool := settle do
  let b ← first
  if b = 0x74 then do trueWord; return true
  else if b = 0x66 then do falseWord; return false
  else refuse "a boolean"

/-! ## Lists -/

/-- Whether another item follows in a list; `started` says that one has been read. -/
def anotherItem (started : Bool) : Reader Bool := do
  match ← peekPastBlanks with
  | none => stopAhead (.ended .list)
  | some b =>
    if b = 0x5D then return false
    else if b = 0x2C ∧ started then do
      skip
      match ← peekPastBlanks with
      | none => stopAhead (.ended .value)
      | some b => if b = 0x5D then stopAhead (.syntactic .trailingComma) else return true
    else if started then stopAhead (.syntactic .expectedListEnd)
    else return true

/-- Takes the closing bracket of a list. -/
def listEnd : Reader Unit := do
  match ← peekPastBlanks with
  | none => stopAhead (.ended .list)
  | some b =>
    if b = 0x5D then skip
    else if b = 0x2C then do
      skip
      match ← peekPastBlanks with
      | some 0x5D => stopAhead (.syntactic .trailingComma)
      | _ => stopAhead (.syntactic .trailingCharacters)
    else stopAhead (.syntactic .trailingCharacters)

/-- Reads the items of a list up to its closing bracket. -/
def items (item : Reader α) : Reader (List α) :=
  iterate (fun read : List α => do
    if ← anotherItem (!read.isEmpty) then
      let a ← item
      return .inl (a :: read)
    else return .inr read.reverse) []

/-- Reads a list. -/
def list (expected : String) (body : Reader α) : Reader α := settle do
  let b ← first
  if b = 0x5B then bracketed body listEnd else refuse expected

/-! ## Objects -/

/-- Whether another member follows in an object; `started` says that one has been read. -/
def anotherMember (started : Bool) : Reader Bool := do
  match ← peekPastBlanks with
  | none => stopAhead (.ended .object)
  | some b =>
    if b = 0x7D then return false
    else if b = 0x2C ∧ started then do
      skip
      match ← peekPastBlanks with
      | none => stopAhead (.ended .value)
      | some b =>
        if b = 0x22 then return true
        else if b = 0x7D then stopAhead (.syntactic .trailingComma)
        else stopAhead (.syntactic .keyNotText)
    else if started then stopAhead (.syntactic .expectedObjectEnd)
    else if b = 0x22 then return true
    else stopAhead (.syntactic .keyNotText)

/-- Takes the closing brace of an object. -/
def objectEnd : Reader Unit := do
  match ← peekPastBlanks with
  | none => stopAhead (.ended .object)
  | some b =>
    if b = 0x7D then skip
    else if b = 0x2C then stopAhead (.syntactic .trailingComma)
    else stopAhead (.syntactic .trailingCharacters)

/-- Takes the colon after a name. -/
def colon : Reader Unit := do
  match ← peekPastBlanks with
  | some 0x3A => skip
  | some _ => stopAhead (.syntactic .expectedColon)
  | none => stopAhead (.ended .object)

/-- Reads the name of a member. -/
def name : Reader String := do
  skip
  text

/-- Reads the members of an object up to its closing brace, each by a reader that is given its
name and what has been read before. -/
def members (start : σ) (member : String → σ → Reader σ) : Reader σ :=
  iterate (fun (started, s) => do
    if ← anotherMember started then
      let key ← name
      let s ← member key s
      return .inl (true, s)
    else return .inr s) (false, start)

/-- Reads an object. -/
def object (expected : String) (body : Reader α) : Reader α := settle do
  let b ← first
  if b = 0x7B then bracketed body objectEnd else refuse expected

/-- Reads an object or a list. -/
def objectOrList (expected : String) (members items : Reader α) : Reader α := settle do
  let b ← first
  if b = 0x5B then bracketed items listEnd
  else if b = 0x7B then bracketed members objectEnd
  else refuse expected

end Switchboard.Json.Reader

namespace Switchboard

open Json (Reader Mismatch)
open Json.Reader

/-! ## By shape -/

/-- How a message counts the fields of a record. -/
def Json.recordLength (name : String) (fields : Fields) : String :=
  "struct " ++ name ++ " with " ++ Text.decimal fields.count
    ++ (if fields.count = 1 then " element" else " elements")

/-- Reads a word of a choice. -/
def Json.choiceWord (words : List String) : Reader String := settle do
  let word ← string "variant identifier"
  if words.contains word then return word
  else mismatch (.unknownChoice word words)

/-- Reads a choice: its word, or an object from its word to `null`. -/
def Json.choice (words : List String) : Reader String := do
  let b ← first
  if b = 0x22 then choiceWord words
  else if b = 0x7B then do
    skip
    let word ← choiceWord words
    colon
    let b ← first
    settle (if b = 0x6E then nullWord else refuse "unit")
    match ← peekPastBlanks with
    | some 0x7D => do
      skip
      return word
    | some _ => stopHere (.syntactic .expectedValue)
    | none => stopHere (.ended .object)
  else stopAhead (.syntactic .expectedValue)

mutual

/-- Reads a value of a shape. -/
def Shape.readJson : (shape : Shape) → Reader shape.Data
  | .int => (integer "i64" (-(2 ^ 63)) (2 ^ 63 - 1) >>= fun i => pure (Int64.ofInt i) :
      Reader Int64)
  | .nat => (integer "u64" 0 (2 ^ 64 - 1) >>= fun i => pure (UInt64.ofNat i.toNat) :
      Reader UInt64)
  | .text => (string "a string" : Reader String)
  | .flag => (flag : Reader Bool)
  | .bytes => (settle do
      let b ← first
      if b = 0x22 then do skip; stringBody .octets
      else
        let octet : Reader UInt8 := do
          let i ← integer "u8" 0 255
          return UInt8.ofNat i.toNat
        list "byte array" (items octet) : Reader Bytes)
  | .list item => (list "a sequence" (items item.readJson) : Reader (List item.Data))
  | .option item => (do
      match ← peekPastBlanks with
      | some 0x6E => do
        nullWord
        return none
      | _ =>
        let value ← item.readJson
        return some value : Reader (Option item.Data))
  | .pair first second => (list "a tuple of size 2" do
      if !(← anotherItem false) then mismatch (.wrongLength 0 "a tuple of size 2")
      let a ← first.readJson
      if !(← anotherItem true) then mismatch (.wrongLength 1 "a tuple of size 2")
      let b ← second.readJson
      return (a, b) : Reader (first.Data × second.Data))
  | .dict item => (object "a map" (members Dict.empty fun key (d : Dict String item.Data) => do
      colon
      let value ← item.readJson
      return d.insert key value) : Reader (Dict String item.Data))
  | .grid item => (object "a map" (members Dict.empty fun key (_ : Dict Cell item.Data) =>
      mismatch (.wrongType (.text key) "a tuple of size 2")) : Reader (Dict Cell item.Data))
  | .record name fields =>
    (objectOrList ("struct " ++ name)
      (members fields.unread (fun key slots => fields.readMember key slots) >>= fun slots =>
        match fields.finish slots with
        | .ok values => pure values
        | .error field => mismatch (.missingField field))
      (fields.readItems (Json.recordLength name fields) 0) : Reader fields.Data)
  | .choice _ first others => (do
      let word ← Json.choice (first :: others)
      match others.finIdxOf? word with
      | some i => return i.succ
      | none => return 0 : Reader (Fin (others.length + 1)))

/-- Reads the fields of a record in order from a list, of which `index` have been read. -/
def Fields.readItems (expected : String) (index : Nat) : (fields : Fields) → Reader fields.Data
  | .done => pure ()
  | .field _ shape presence rest => do
    if ← anotherItem (index != 0) then
      let value ← shape.readJson
      let values ← rest.readItems expected (index + 1)
      return (value, values)
    else if presence = .defaulted then
      let values ← rest.readItems expected (index + 1)
      return (shape.plain, values)
    else mismatch (.wrongLength index expected)

/-- Reads the member of the given name, which is skipped if no field has that name. -/
def Fields.readMember (key : String) : (fields : Fields) → fields.Slots → Reader fields.Slots
  | .done, slots => do
    colon
    skipValue
    return slots
  | .field name shape _ rest, slots => do
    if key = name then
      if slots.1.isSome then mismatch (.duplicateField name)
      colon
      let value ← shape.readJson
      return (some value, slots.2)
    else
      let others ← rest.readMember key slots.2
      return (slots.1, others)

end

/-- Reads a text that is one value of a shape with blanks around it. -/
def Shape.ofJsonText (shape : Shape) (source : String) : Except Json.Fault shape.Data :=
  let bytes := Utf8.ofString source
  let whole : Reader shape.Data := do
    let data ← shape.readJson
    match ← peekPastBlanks with
    | none => return data
    | some _ => stopAhead (.syntactic .trailingCharacters)
  match (whole ⟨0, bytes⟩).1 with
  | .ok data => .ok data
  | .error halt => .error ⟨halt.cause, halt.at?.map (Json.Place.after bytes)⟩

/-- Reads a text that is one value with blanks around it. -/
def ofJsonText {α : Type} [Payload α] (source : String) : Except Json.Fault α :=
  ((Payload.shape α).ofJsonText source).map Payload.ofData

end Switchboard
