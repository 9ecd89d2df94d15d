import Switchboard.Text.Numeral

/-!
# JSON texts

The textual form of a payload is JSON. A `Json` is what such a text says; it is written either on
one line (`compact`) or with one item a line (`pretty`). The two ways differ in layout alone.
Numbers are whole, since no payload carries any other.
-/

namespace Switchboard

/-- What a JSON text says. The members of an object keep their order. -/
inductive Json
  | null
  | flag (value : Bool)
  | number (value : Int)
  | text (value : String)
  | array (items : List Json)
  | object (members : List (String × Json))
  deriving Inhabited

namespace Json

/-! ## Strings -/

/-- How a character stands inside a string: quotes, backslashes and control characters are
escaped, and every other character stands for itself. -/
def escapeChar (c : Char) : List Char :=
  if c = '"' then ['\\', '"']
  else if c = '\\' then ['\\', '\\']
  else if c = '\x08' then ['\\', 'b']
  else if c = '\t' then ['\\', 't']
  else if c = '\n' then ['\\', 'n']
  else if c = '\x0c' then ['\\', 'f']
  else if c = '\r' then ['\\', 'r']
  else if c.toNat < 0x20 then
    ['\\', 'u', '0', '0', Text.hexDigit (c.toNat / 16), Text.hexDigit (c.toNat % 16)]
  else [c]

/-- A text between quotes. -/
def quote (s : String) : List Char :=
  '"' :: (s.toList.flatMap escapeChar ++ ['"'])

/-- A number in decimal. -/
def digits (i : Int) : List Char :=
  (Text.signedDecimal i).toList

/-- Texts with commas between them. -/
def commas : List (List Char) → List Char
  | [] => []
  | [piece] => piece
  | piece :: pieces => piece ++ ',' :: commas pieces

/-! ## On one line -/

mutual

/-- The text of a value without any blanks. -/
def compact : Json → List Char
  | .null => "null".toList
  | .flag true => "true".toList
  | .flag false => "false".toList
  | .number i => digits i
  | .text s => quote s
  | .array items => '[' :: (commas (compactItems items) ++ [']'])
  | .object members => '\x7b' :: (commas (compactMembers members) ++ ['\x7d'])

/-- The texts of the items of an array. -/
def compactItems : List Json → List (List Char)
  | [] => []
  | item :: items => compact item :: compactItems items

/-- The texts of the members of an object. -/
def compactMembers : List (String × Json) → List (List Char)
  | [] => []
  | (name, value) :: members => (quote name ++ ':' :: compact value) :: compactMembers members

end

/-! ## One item a line -/

/-- A line feed and the blanks in front of the next line. -/
def newline (depth : Nat) : List Char :=
  '\n' :: List.replicate (2 * depth) ' '

/-- Pieces between brackets, each on a line of its own. -/
def stacked (depth : Nat) (left right : Char) (pieces : List (List Char)) : List Char :=
  if pieces.isEmpty then [left, right]
  else left :: (commas (pieces.map (newline (depth + 1) ++ ·)) ++ newline depth ++ [right])

mutual

/-- The text of a value that starts `depth` levels deep, with two blanks for each level. -/
def pretty (depth : Nat) : Json → List Char
  | .null => "null".toList
  | .flag true => "true".toList
  | .flag false => "false".toList
  | .number i => digits i
  | .text s => quote s
  | .array items => stacked depth '[' ']' (prettyItems (depth + 1) items)
  | .object members => stacked depth '\x7b' '\x7d' (prettyMembers (depth + 1) members)

/-- The texts of the items of an array. -/
def prettyItems (depth : Nat) : List Json → List (List Char)
  | [] => []
  | item :: items => pretty depth item :: prettyItems depth items

/-- The texts of the members of an object. -/
def prettyMembers (depth : Nat) : List (String × Json) → List (List Char)
  | [] => []
  | (name, value) :: members =>
    (quote name ++ ':' :: ' ' :: pretty depth value) :: prettyMembers depth members

end

/-- How a JSON text is laid out. -/
inductive Layout
  | compact
  | pretty
  deriving DecidableEq, Repr

/-- The text of a value in a layout. -/
def render (layout : Layout) (value : Json) : String :=
  String.ofList (match layout with
    | .compact => value.compact
    | .pretty => value.pretty 0)

end Json

end Switchboard
