import Switchboard.Bytes
import Switchboard.Dict

/-!
# Shapes of payloads

Calls carry values of many types, and the same value can be written in a binary and in a textual
form. A `Shape` describes such a type: what its values are (`Shape.Data`), and, for records, which
names its fields have in the textual form and which of them may be left out. Writers and readers
of both forms are defined by recursion on the shape, so that a type that states its shape
(`Payload`) can be sent and received without further work.

A record shape carries the name of its type. Two types with different names are different even
if their fields agree, which is what tells a caller that it asks a method for the wrong thing.
-/

namespace Switchboard

/-! ## Shapes -/

/-- A place in a grid: a row, and a column in that row. -/
structure Cell where
  row : Int64
  column : Int64
  deriving DecidableEq, Repr

/-- Cells are ordered by row, and by column within a row. -/
instance : Ord Cell where
  compare := compareLex (compareOn Cell.row) (compareOn Cell.column)

instance : Std.TransOrd Cell :=
  inferInstanceAs (Std.TransCmp (compareLex (compareOn Cell.row) (compareOn Cell.column)))

instance : Std.LawfulEqOrd Cell where
  eq_of_compare {a b} h := by
    have h : (compare a.row b.row).then (compare a.column b.column) = .eq := h
    have hr : compare a.row b.row = .eq := by
      cases hc : compare a.row b.row <;> simp_all [Ordering.then]
    have hcol : compare a.column b.column = .eq := by simpa [hr] using h
    cases a; cases b
    have := Std.LawfulEqCmp.eq_of_compare hr
    have := Std.LawfulEqCmp.eq_of_compare hcol
    simp_all

/-- What happens when a field of a record is left out. -/
inductive Presence
  /-- Leaving the field out is an error, unless it is an option. -/
  | required
  /-- A field that is left out has the plain value of its shape. -/
  | defaulted
  deriving DecidableEq, Repr

mutual

/-- The shape of a payload type. -/
inductive Shape
  /-- Signed words of 64 bits. -/
  | int
  /-- Unsigned words of 64 bits. -/
  | nat
  /-- Texts. -/
  | text
  /-- Truth values. -/
  | flag
  /-- Byte strings, which have a compact binary form. -/
  | bytes
  /-- Lists. -/
  | list (item : Shape)
  /-- A value or nothing. -/
  | option (item : Shape)
  /-- Pairs of two values. -/
  | pair (first second : Shape)
  /-- Dictionaries whose keys are texts. -/
  | dict (item : Shape)
  /-- Sparse grids: dictionaries whose keys are cells. -/
  | grid (item : Shape)
  /-- Records of a named type. -/
  | record (name : String) (fields : Fields)
  /-- One of a fixed list of words. -/
  | choice (name : String) (first : String) (others : List String)

/-- The fields of a record, in order. -/
inductive Fields
  | done
  | field (name : String) (shape : Shape) (presence : Presence) (rest : Fields)

end

deriving instance DecidableEq for Shape, Fields

/-! ## Values -/

mutual

/-- The values of a shape. -/
def Shape.Data : Shape → Type
  | .int => Int64
  | .nat => UInt64
  | .text => String
  | .flag => Bool
  | .bytes => Bytes
  | .list item => List item.Data
  | .option item => Option item.Data
  | .pair first second => first.Data × second.Data
  | .dict item => Dict String item.Data
  | .grid item => Dict Cell item.Data
  | .record _ fields => fields.Data
  | .choice _ _ others => Fin (others.length + 1)

/-- The values of the fields of a record. -/
def Fields.Data : Fields → Type
  | .done => Unit
  | .field _ shape _ rest => shape.Data × rest.Data

end

mutual

/-- Two values of a shape can be compared. -/
def Shape.decEq : (shape : Shape) → DecidableEq shape.Data
  | .int => inferInstanceAs (DecidableEq Int64)
  | .nat => inferInstanceAs (DecidableEq UInt64)
  | .text => inferInstanceAs (DecidableEq String)
  | .flag => inferInstanceAs (DecidableEq Bool)
  | .bytes => inferInstanceAs (DecidableEq Bytes)
  | .list item =>
    have : DecidableEq item.Data := item.decEq
    inferInstanceAs (DecidableEq (List item.Data))
  | .option item =>
    have : DecidableEq item.Data := item.decEq
    inferInstanceAs (DecidableEq (Option item.Data))
  | .pair first second =>
    have : DecidableEq first.Data := first.decEq
    have : DecidableEq second.Data := second.decEq
    inferInstanceAs (DecidableEq (first.Data × second.Data))
  | .dict item =>
    have : DecidableEq item.Data := item.decEq
    inferInstanceAs (DecidableEq (Dict String item.Data))
  | .grid item =>
    have : DecidableEq item.Data := item.decEq
    inferInstanceAs (DecidableEq (Dict Cell item.Data))
  | .record _ fields => fields.decEq
  | .choice _ _ others => inferInstanceAs (DecidableEq (Fin (others.length + 1)))

/-- Two records can be compared. -/
def Fields.decEq : (fields : Fields) → DecidableEq fields.Data
  | .done => inferInstanceAs (DecidableEq Unit)
  | .field _ shape _ rest =>
    have : DecidableEq shape.Data := shape.decEq
    have : DecidableEq rest.Data := rest.decEq
    inferInstanceAs (DecidableEq (shape.Data × rest.Data))

end

instance (shape : Shape) : DecidableEq shape.Data := shape.decEq

mutual

/-- The plain value of a shape: zero, the empty text, no entries, and so on. -/
def Shape.plain : (shape : Shape) → shape.Data
  | .int => (0 : Int64)
  | .nat => (0 : UInt64)
  | .text => ""
  | .flag => false
  | .bytes => ([] : Bytes)
  | .list item => ([] : List item.Data)
  | .option item => (none : Option item.Data)
  | .pair first second => (first.plain, second.plain)
  | .dict item => (Dict.empty : Dict String item.Data)
  | .grid item => (Dict.empty : Dict Cell item.Data)
  | .record _ fields => fields.plain
  | .choice _ _ others => (0 : Fin (others.length + 1))

/-- The record of plain values. -/
def Fields.plain : (fields : Fields) → fields.Data
  | .done => ()
  | .field _ shape _ rest => (shape.plain, rest.plain)

end

/-! ## Fields by name -/

/-- The names of the fields, in order. -/
def Fields.names : Fields → List String
  | .done => []
  | .field name _ _ rest => name :: rest.names

/-- The number of fields. -/
def Fields.count (fields : Fields) : Nat := fields.names.length

/-- The fields of a record that have been read so far. -/
def Fields.Slots : Fields → Type
  | .done => Unit
  | .field _ shape _ rest => Option shape.Data × rest.Slots

/-- No field has been read. -/
def Fields.unread : (fields : Fields) → fields.Slots
  | .done => ()
  | .field _ _ _ rest => (none, rest.unread)

/-- The value that stands for a field that was left out, if it may be left out. An option may
always be left out of a record that is written by name. -/
def Presence.fallback : Presence → (shape : Shape) → Option shape.Data
  | .defaulted, shape => some shape.plain
  | .required, .option item => some (none : Option item.Data)
  | .required, _ => none

/-- The record of the fields read, or the name of the first field that is missing. -/
def Fields.finish : (fields : Fields) → fields.Slots → Except String fields.Data
  | .done, _ => .ok ()
  | .field name shape presence rest, slots =>
    (slots.1 <|> presence.fallback shape).elim (.error name) fun value =>
      (rest.finish slots.2).map fun values => (value, values)

/-! ## Types with a shape -/

/-- A type whose values are sent and received in a shape. Every value is recovered from its data;
data that is not canonical may be read as the same value as canonical data. -/
class Payload (α : Type) where
  /-- The shape of the type. -/
  shape : Shape
  /-- The data of a value. -/
  toData : α → shape.Data
  /-- The value of data. -/
  ofData : shape.Data → α
  /-- A value is recovered from its data. -/
  ofData_toData : ∀ a, ofData (toData a) = a

attribute [simp] Payload.ofData_toData

instance : Payload Int64 := ⟨.int, fun n => n, fun n => n, fun _ => rfl⟩

instance : Payload UInt64 := ⟨.nat, fun n => n, fun n => n, fun _ => rfl⟩

instance : Payload String := ⟨.text, fun s => s, fun s => s, fun _ => rfl⟩

instance : Payload Bool := ⟨.flag, fun b => b, fun b => b, fun _ => rfl⟩

end Switchboard
