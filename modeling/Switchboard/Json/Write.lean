import Switchboard.Json.Fault
import Switchboard.Json.Value
import Switchboard.Shape

/-!
# Payloads in JSON

The JSON of a value follows its shape: a record is an object with its fields in order, a byte
string is an array of numbers, an absent option is `null`, and a choice is its word. A grid has
no JSON unless it is empty, because a cell is no key of an object.
-/

namespace Switchboard

/-- The JSON of items that can all be written. -/
def Json.ofItems {α : Type} (write : α → Except Json.Fault Json) :
    List α → Except Json.Fault (List Json)
  | [] => .ok []
  | a :: as => do
    let item ← write a
    let items ← Json.ofItems write as
    return item :: items

/-- The JSON of entries whose values can all be written. -/
def Json.ofEntries {α : Type} (write : α → Except Json.Fault Json) :
    List (String × α) → Except Json.Fault (List (String × Json))
  | [] => .ok []
  | (name, a) :: as => do
    let value ← write a
    let members ← Json.ofEntries write as
    return (name, value) :: members

/-- The fault of a key that is no text. -/
def Json.keyFault : Json.Fault := ⟨.syntactic .keyNotText, none⟩

mutual

/-- The JSON of a value. -/
def Shape.toJson : (shape : Shape) → shape.Data → Except Json.Fault Json
  | .int, (n : Int64) => .ok (.number n.toInt)
  | .nat, (n : UInt64) => .ok (.number n.toNat)
  | .text, (s : String) => .ok (.text s)
  | .flag, (b : Bool) => .ok (.flag b)
  | .bytes, (bs : Bytes) => .ok (.array (bs.map fun b => .number b.toNat))
  | .list item, (values : List item.Data) => (Json.ofItems item.toJson values).map .array
  | .option item, (value : Option item.Data) =>
    match value with
    | none => .ok .null
    | some value => item.toJson value
  | .pair first second, (value : first.Data × second.Data) => do
    let a ← first.toJson value.1
    let b ← second.toJson value.2
    return .array [a, b]
  | .dict item, (values : Dict String item.Data) =>
    (Json.ofEntries item.toJson values.toList).map .object
  | .grid _, (values : Dict Cell _) =>
    if values.isEmpty then .ok (.object []) else .error Json.keyFault
  | .record _ fields, value => (fields.toJson value).map .object
  | .choice _ first others, (word : Fin (others.length + 1)) =>
    .ok (.text ((first :: others).get word))

/-- The members of the JSON of a record. -/
def Fields.toJson : (fields : Fields) → fields.Data → Except Json.Fault (List (String × Json))
  | .done, _ => .ok []
  | .field name shape _ rest, values => do
    let value ← shape.toJson values.1
    let members ← rest.toJson values.2
    return (name, value) :: members

end

/-- The JSON text of data. -/
def Shape.toJsonText (shape : Shape) (layout : Json.Layout) (data : shape.Data) :
    Except Json.Fault String :=
  (shape.toJson data).map (Json.render layout)

/-- The JSON text of a value. -/
def toJsonText {α : Type} [Payload α] (layout : Json.Layout) (a : α) : Except Json.Fault String :=
  (Payload.shape α).toJsonText layout (Payload.toData a)

end Switchboard
