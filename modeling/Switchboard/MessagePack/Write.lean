import Switchboard.Shape
import Switchboard.Text.Utf8

/-!
# Payloads in MessagePack

The binary form of a payload is MessagePack in its tightest form: every number and every length
takes the shortest encoding that holds it, a record is the array of its fields, a dictionary is a
map in the order of its keys, an absent option is nil, and a choice is its word.
-/

namespace Switchboard.MessagePack

/-! ## Numbers and lengths -/

/-- A number that is not negative. -/
def nat (n : Nat) : Bytes :=
  if n < 2 ^ 7 then [UInt8.ofNat n]
  else if n < 2 ^ 8 then 0xCC :: Bytes.bigEndian 1 n
  else if n < 2 ^ 16 then 0xCD :: Bytes.bigEndian 2 n
  else if n < 2 ^ 32 then 0xCE :: Bytes.bigEndian 4 n
  else 0xCF :: Bytes.bigEndian 8 n

/-- The negative number `-(m + 1)`, in two's complement. -/
def negative (m : Nat) : Bytes :=
  if m < 2 ^ 5 then [UInt8.ofNat (2 ^ 8 - 1 - m)]
  else if m < 2 ^ 7 then 0xD0 :: Bytes.bigEndian 1 (2 ^ 8 - 1 - m)
  else if m < 2 ^ 15 then 0xD1 :: Bytes.bigEndian 2 (2 ^ 16 - 1 - m)
  else if m < 2 ^ 31 then 0xD2 :: Bytes.bigEndian 4 (2 ^ 32 - 1 - m)
  else 0xD3 :: Bytes.bigEndian 8 (2 ^ 64 - 1 - m)

/-- A whole number. -/
def int : Int → Bytes
  | .ofNat n => nat n
  | .negSucc m => negative m

/-- A text, given by its bytes. -/
def text (bs : Bytes) : Bytes :=
  let n := bs.length
  (if n < 2 ^ 5 then [UInt8.ofNat (0xA0 + n)]
  else if n < 2 ^ 8 then 0xD9 :: Bytes.bigEndian 1 n
  else if n < 2 ^ 16 then 0xDA :: Bytes.bigEndian 2 n
  else 0xDB :: Bytes.bigEndian 4 n) ++ bs

/-- A byte string. -/
def octets (bs : Bytes) : Bytes :=
  let n := bs.length
  (if n < 2 ^ 8 then 0xC4 :: Bytes.bigEndian 1 n
  else if n < 2 ^ 16 then 0xC5 :: Bytes.bigEndian 2 n
  else 0xC6 :: Bytes.bigEndian 4 n) ++ bs

/-- What stands in front of the items of an array. -/
def arrayHead (n : Nat) : Bytes :=
  if n < 2 ^ 4 then [UInt8.ofNat (0x90 + n)]
  else if n < 2 ^ 16 then 0xDC :: Bytes.bigEndian 2 n
  else 0xDD :: Bytes.bigEndian 4 n

/-- What stands in front of the entries of a map. -/
def mapHead (n : Nat) : Bytes :=
  if n < 2 ^ 4 then [UInt8.ofNat (0x80 + n)]
  else if n < 2 ^ 16 then 0xDE :: Bytes.bigEndian 2 n
  else 0xDF :: Bytes.bigEndian 4 n

/-- A string. -/
def string (s : String) : Bytes :=
  text (Utf8.ofString s)

/-- A cell, which is the array of its row and its column. -/
def cell (c : Cell) : Bytes :=
  arrayHead 2 ++ int c.row.toInt ++ int c.column.toInt

end Switchboard.MessagePack

namespace Switchboard

/-! ## By shape -/

mutual

/-- The MessagePack of a value. -/
def Shape.pack : (shape : Shape) → shape.Data → Bytes
  | .int, (n : Int64) => MessagePack.int n.toInt
  | .nat, (n : UInt64) => MessagePack.nat n.toNat
  | .text, (s : String) => MessagePack.string s
  | .flag, (b : Bool) => [if b then 0xC3 else 0xC2]
  | .bytes, (bs : Bytes) => MessagePack.octets bs
  | .list item, (values : List item.Data) =>
    MessagePack.arrayHead values.length ++ values.flatMap item.pack
  | .option item, (value : Option item.Data) =>
    match value with
    | none => [0xC0]
    | some value => item.pack value
  | .pair first second, (value : first.Data × second.Data) =>
    MessagePack.arrayHead 2 ++ first.pack value.1 ++ second.pack value.2
  | .dict item, (values : Dict String item.Data) =>
    MessagePack.mapHead values.size
      ++ values.toList.flatMap fun (key, value) => MessagePack.string key ++ item.pack value
  | .grid item, (values : Dict Cell item.Data) =>
    MessagePack.mapHead values.size
      ++ values.toList.flatMap fun (key, value) => MessagePack.cell key ++ item.pack value
  | .record _ fields, values => MessagePack.arrayHead fields.count ++ fields.pack values
  | .choice _ first others, (word : Fin (others.length + 1)) =>
    MessagePack.string ((first :: others).get word)

/-- The MessagePack of the fields of a record, one after another. -/
def Fields.pack : (fields : Fields) → fields.Data → Bytes
  | .done, _ => []
  | .field _ shape _ rest, values => shape.pack values.1 ++ rest.pack values.2

end

/-- The binary form of a value. -/
def toBinary {α : Type} [Payload α] (a : α) : Bytes :=
  (Payload.shape α).pack (Payload.toData a)

end Switchboard
