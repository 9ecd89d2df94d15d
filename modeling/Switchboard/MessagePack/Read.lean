import Switchboard.MessagePack.Marker
import Switchboard.Shape
import Switchboard.Text.Utf8

/-!
# Payloads from MessagePack

Reading follows the shape as writing does, and takes much more than is written: numbers and
lengths of every width, records as maps from the names or the positions of their fields, texts as
byte strings, and byte strings as texts or as arrays of numbers. Bytes after the value are left
alone.
-/

namespace Switchboard.MessagePack

/-! ## Readers -/

/-- Why bytes are not the MessagePack of a value. -/
inductive Fault
  /-- The bytes end within the value. -/
  | ended
  /-- A value of another kind. -/
  | wrongMarker (marker : Marker)
  /-- A number that does not fit. -/
  | outOfRange (value : Int) (expected : String)
  /-- A text that is not UTF-8. -/
  | badText
  /-- An array or a map of the wrong length. -/
  | wrongLength (length : Nat)
  | missingField (name : String)
  | duplicateField (name : String)
  | unknownChoice
  /-- Values nested too deeply. -/
  | tooDeep
  deriving DecidableEq, Repr

/-- The sentence about a fault. -/
def Fault.message : Fault → String
  | .ended => "IO error while reading marker: failed to fill whole buffer"
  | .wrongMarker marker => "wrong msgpack marker " ++ marker.describe
  | .outOfRange value expected =>
    "invalid value: integer `" ++ Text.signedDecimal value ++ "`, expected " ++ expected
  | .badText => "string found to be invalid utf8"
  | .wrongLength n => "array had incorrect length, expected " ++ Text.decimal n
  | .missingField name => "missing field `" ++ name ++ "`"
  | .duplicateField name => "duplicate field `" ++ name ++ "`"
  | .unknownChoice => "unknown variant"
  | .tooDeep => "depth limit exceeded"

/-- What reads a value of type `α` off the front of bytes. -/
abbrev Reader (α : Type) : Type := StateT Bytes (Except Fault) α

namespace Reader

variable {α σ : Type}

/-- Takes one byte. -/
def byte : Reader UInt8 := do
  match ← get with
  | [] => throw .ended
  | b :: rest =>
    set rest
    return b

/-- Takes a number of bytes. -/
def take (n : Nat) : Reader Bytes := do
  let bs ← get
  let front := bs.take n
  if front.length < n then throw .ended
  set (bs.drop n)
  return front

/-- Takes a big-endian number of a width. -/
def word (width : Nat) : Reader Nat := do
  return Bytes.toNat (← take width)

/-- A value without the items or entries that follow. -/
inductive Head
  /-- A number in an unsigned form. -/
  | nat (value : Nat)
  /-- A number in a signed form. -/
  | int (value : Int)
  | null
  | flag (value : Bool)
  | text (bytes : Bytes)
  | octets (bytes : Bytes)
  | array (size : Nat)
  | map (size : Nat)
  /-- A number with a fraction. -/
  | fraction
  /-- A value of an extension. -/
  | extension

/-- The signed number that a word of a width stands for. -/
def signedWord (width n : Nat) : Int :=
  if n < 2 ^ (8 * width - 1) then n else (n : Int) - 2 ^ (8 * width)

/-- Takes what a marker announces. -/
def headOf : Marker → Reader Head
  | .fixPos n => return .nat n
  | .fixNeg i => return .int i
  | .unsigned w => return .nat (← word w)
  | .signed w => return .int (signedWord w (← word w))
  | .null => return .null
  | .flag b => return .flag b
  | .fixStr n => return .text (← take n)
  | .str w => do
    let n ← word w
    return .text (← take n)
  | .bin w => do
    let n ← word w
    return .octets (← take n)
  | .fixArray n => return .array n
  | .array w => return .array (← word w)
  | .fixMap n => return .map n
  | .map w => return .map (← word w)
  | .float w => do
    let _ ← take w
    return .fraction
  | .fixExt n => do
    let _ ← take (n + 1)
    return .extension
  | .ext w => do
    let n ← word w
    let _ ← take (n + 1)
    return .extension
  | .reserved => throw (.wrongMarker .reserved)

/-- Takes a marker and what it announces. -/
def head : Reader (Marker × Head) := do
  let marker := Marker.ofByte (← byte)
  return (marker, ← headOf marker)

/-- Repeats a reader. -/
def repeatN (item : Reader α) : Nat → Reader (List α)
  | 0 => return []
  | n + 1 => do
    let a ← item
    let as ← repeatN item n
    return a :: as

/-- Repeats a reader that only takes bytes. -/
def skipN (item : Reader Unit) : Nat → Reader Unit
  | 0 => return
  | n + 1 => do
    item
    skipN item n

/-- Threads a value through a number of readings. -/
def foldN (item : σ → Reader σ) : Nat → σ → Reader σ
  | 0, s => return s
  | n + 1, s => do
    let s ← item s
    foldN item n s

/-- The number of arrays, maps and extensions that may be open within the outermost value, and one
more. -/
def depthLimit : Nat := 1024

/-- The room left inside an array or a map. -/
def inside (room : Nat) : Reader Nat := do
  if room ≤ 1 then throw .tooDeep
  return room - 1

/-- Skips a value of any kind. An extension counts as a level of its own, like an array. -/
def skip : (room : Nat) → Reader Unit
  | 0 => throw .tooDeep
  | room + 1 => do
    match (← head).2 with
    | .array n => do
      if room = 0 then throw .tooDeep
      skipN (skip room) n
    | .map n => do
      if room = 0 then throw .tooDeep
      skipN (do skip room; skip room) n
    | .extension => do
      if room = 0 then throw .tooDeep
    | _ => return

/-! ## Plain values -/

/-- Takes a whole number within bounds. -/
def integer (expected : String) (low high : Int) : Reader Int := do
  let (marker, h) ← head
  let check (i : Int) : Reader Int :=
    if low ≤ i ∧ i ≤ high then return i else throw (.outOfRange i expected)
  match h with
  | .nat n => check n
  | .int i => check i
  | _ => throw (.wrongMarker marker)

/-- The text that bytes stand for. -/
def textOf (bs : Bytes) : Reader String :=
  match Utf8.toString? bs with
  | some s => return s
  | none => throw .badText

/-- Takes a text. -/
def string : Reader String := do
  let (marker, h) ← head
  match h with
  | .text bs | .octets bs => textOf bs
  | _ => throw (.wrongMarker marker)

/-- Takes a truth value. -/
def flag : Reader Bool := do
  let (marker, h) ← head
  match h with
  | .flag b => return b
  | _ => throw (.wrongMarker marker)

/-- Takes a number that fits one byte. -/
def octet : Reader UInt8 := do
  return UInt8.ofNat (← integer "u8" 0 255).toNat

/-- Takes a byte string in any of its forms. -/
def octets : Reader Bytes := do
  let (marker, h) ← head
  match h with
  | .octets bs | .text bs => return bs
  | .array n => repeatN octet n
  | _ => throw (.wrongMarker marker)

/-- What names a field or a word: its position or its name. -/
inductive Key
  | index (n : Nat)
  | named (bytes : Bytes)

/-- Takes a name or a position. -/
def key : Reader Key := do
  let (marker, h) ← head
  match h with
  | .nat n => return .index n
  | .text bs | .octets bs => return .named bs
  | _ => throw (.wrongMarker marker)

/-- Whether a key means the name at a position. -/
def Key.means (key : Key) (position : Nat) (name : String) : Bool :=
  match key with
  | .index n => n == position
  | .named bs => bs == Utf8.ofString name

/-- The position of the word that a key means, counted from `position`. -/
def Key.find? (key : Key) (position : Nat) : List String → Option Nat
  | [] => none
  | word :: words =>
    if key.means position word then some position else key.find? (position + 1) words

/-- The position of the word that a key means. -/
def wordOf (words : List String) (key : Key) : Reader Nat :=
  match key.find? 0 words with
  | some n => return n
  | none => throw .unknownChoice

/-- Takes one of the given words, as it is or as a map from it to nil. -/
def choice (words : List String) : Reader Nat := do
  let (marker, h) ← head
  match h with
  | .nat n => wordOf words (.index n)
  | .text bs | .octets bs => wordOf words (.named bs)
  | .map 1 => do
    let n ← wordOf words (← key)
    let marker := Marker.ofByte (← byte)
    if marker = .null then return n else throw (.wrongMarker marker)
  -- a map stands for a word only if that is its one entry
  | .map n => throw (.wrongLength n)
  | _ => throw (.wrongMarker marker)

/-- Takes a cell. -/
def cell : Reader Cell := do
  let (marker, h) ← head
  let coordinate : Reader Int64 := do
    return Int64.ofInt (← integer "i64" (-(2 ^ 63)) (2 ^ 63 - 1))
  match h with
  | .array 2 => do
    let row ← coordinate
    let column ← coordinate
    return ⟨row, column⟩
  | .array n => throw (.wrongLength n)
  | .octets (row :: column :: _) => return ⟨Int64.ofNat row.toNat, Int64.ofNat column.toNat⟩
  | .octets bs => throw (.wrongLength bs.length)
  | _ => throw (.wrongMarker marker)

/-- Takes nil or a value. Nil, and nothing else, says that the value is absent. -/
def optional (value : Reader α) : Reader (Option α) := do
  match ← get with
  | 0xC0 :: rest =>
    set rest
    return none
  | _ => return some (← value)

end Reader

end Switchboard.MessagePack

namespace Switchboard

open MessagePack (Reader Fault Marker)
open MessagePack.Reader

/-! ## By shape -/

/-- The value of a shape that a single byte of a byte string stands for. -/
def Shape.ofOctet (b : UInt8) : (shape : Shape) → Reader shape.Data
  | .int => (return Int64.ofNat b.toNat : Reader Int64)
  | .nat => (return UInt64.ofNat b.toNat : Reader UInt64)
  | _ => throw (.wrongMarker (.fixPos b.toNat))

/-- The fields of a record from the bytes of a byte string, one byte a field. -/
def Fields.ofOctets : (fields : Fields) → Bytes → Reader fields.Data
  | .done, _ => return ()
  | .field _ shape _ rest, b :: bs => do
    let value ← shape.ofOctet b
    let values ← rest.ofOctets bs
    return (value, values)
  | .field _ shape presence rest, [] =>
    if presence = .defaulted then do
      let values ← rest.ofOctets []
      return (shape.plain, values)
    else throw (.wrongLength 0)

mutual

/-- Takes a value of a shape; `room` bounds the depth of what is skipped on the way. -/
def Shape.unpack (room : Nat) : (shape : Shape) → Reader shape.Data
  | .int => (do return Int64.ofInt (← integer "i64" (-(2 ^ 63)) (2 ^ 63 - 1)) : Reader Int64)
  | .nat => (do return UInt64.ofNat (← integer "u64" 0 (2 ^ 64 - 1)).toNat : Reader UInt64)
  | .text => (string : Reader String)
  | .flag => (flag : Reader Bool)
  | .bytes => (octets : Reader Bytes)
  | .list item => (do
      let (marker, h) ← head
      match h with
      | .array n => repeatN (item.unpack (← inside room)) n
      | .octets bs => bs.mapM (Shape.ofOctet · item)
      | _ => throw (.wrongMarker marker) : Reader (List item.Data))
  | .option item => (optional (item.unpack room) : Reader (Option item.Data))
  | .pair first second => (do
      let (marker, h) ← head
      match h with
      | .array 2 => do
        let room ← inside room
        let a ← first.unpack room
        let b ← second.unpack room
        return (a, b)
      | .array n => throw (.wrongLength n)
      | .octets (a :: b :: _) => return (← first.ofOctet a, ← second.ofOctet b)
      | .octets bs => throw (.wrongLength bs.length)
      | _ => throw (.wrongMarker marker) : Reader (first.Data × second.Data))
  | .dict item => (do
      let (marker, h) ← head
      match h with
      | .map n => do
        let room ← inside room
        foldN (fun d => do
          let key ← string
          let value ← item.unpack room
          return d.insert key value) n Dict.empty
      | _ => throw (.wrongMarker marker) : Reader (Dict String item.Data))
  | .grid item => (do
      let (marker, h) ← head
      match h with
      | .map n => do
        let room ← inside room
        foldN (fun d => do
          let key ← cell
          let value ← item.unpack room
          return d.insert key value) n Dict.empty
      | _ => throw (.wrongMarker marker) : Reader (Dict Cell item.Data))
  | .record _ fields => (do
      let (marker, h) ← head
      match h with
      | .array n => do
        -- too few items are found out when one is missed that has no default
        if fields.count < n then throw (.wrongLength n)
        fields.unpackItems (← inside room) n
      | .octets bs => fields.ofOctets bs
      | .map n => do
        let room ← inside room
        let slots ← foldN (fun slots => do
          let key ← key
          fields.unpackMember room key 0 slots) n fields.unread
        match fields.finish slots with
        | .ok values => return values
        | .error name => throw (.missingField name)
      | _ => throw (.wrongMarker marker) : Reader fields.Data)
  | .choice _ first others => (do
      let n ← choice (first :: others)
      return Fin.ofNat (others.length + 1) n : Reader (Fin (others.length + 1)))

/-- Takes the fields of a record in order from an array with `left` items to come. -/
def Fields.unpackItems (room left : Nat) : (fields : Fields) → Reader fields.Data
  | .done => return ()
  | .field _ shape presence rest => do
    if left ≠ 0 then
      let value ← shape.unpack room
      let values ← rest.unpackItems room (left - 1)
      return (value, values)
    else if presence = .defaulted then
      let values ← rest.unpackItems room 0
      return (shape.plain, values)
    else throw (.wrongLength 0)

/-- Takes the member that a key means, which is skipped if it means no field. -/
def Fields.unpackMember (room : Nat) (key : Key) (position : Nat) :
    (fields : Fields) → fields.Slots → Reader fields.Slots
  | .done, slots => do
    skip room
    return slots
  | .field name shape _ rest, slots => do
    if key.means position name then
      if slots.1.isSome then throw (.duplicateField name)
      let value ← shape.unpack room
      return (some value, slots.2)
    else
      let others ← rest.unpackMember room key (position + 1) slots.2
      return (slots.1, others)

end

/-- The data of a shape at the front of bytes. -/
def Shape.ofBinary (shape : Shape) (bytes : Bytes) : Except MessagePack.Fault shape.Data :=
  (shape.unpack depthLimit bytes).map Prod.fst

/-- The value at the front of bytes. -/
def ofBinary {α : Type} [Payload α] (bytes : Bytes) : Except MessagePack.Fault α :=
  ((Payload.shape α).ofBinary bytes).map Payload.ofData

end Switchboard
