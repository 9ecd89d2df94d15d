import Switchboard.Text.Blank

/-!
# Cutting texts

Texts are cut at a separator into all their pieces, at its first or last occurrence into two,
into lines, or into words.
-/

namespace Switchboard.Text

/-- The pieces between the occurrences of `sep`; there is always one more piece than there are
separators. -/
def pieces (sep : Char) : List Char → List (List Char)
  | [] => [[]]
  | c :: cs =>
    if c = sep then [] :: pieces sep cs
    else match pieces sep cs with
      | [] => [[c]]
      | p :: ps => (c :: p) :: ps

/-- What stands before and after the first `sep`, if there is one. -/
def splitFirst (sep : Char) (cs : List Char) : Option (List Char × List Char) :=
  match cs.dropWhile (· != sep) with
  | [] => none
  | _ :: after => some (cs.takeWhile (· != sep), after)

/-- What stands after the last `sep`, if there is one. -/
def afterLast (sep : Char) (cs : List Char) : Option (List Char) :=
  if sep ∈ cs then some ((cs.reverse.takeWhile (· != sep)).reverse) else none

/-- A line without the carriage return at its end. -/
def dropReturn (line : List Char) : List Char :=
  if line.getLast? = some '\r' then line.dropLast else line

/-- The lines of a text. A line ends at a line feed, which may have a carriage return before it;
a last line without a line feed counts if it is not empty. -/
def lines (cs : List Char) : List (List Char) :=
  let parts := pieces '\n' cs
  parts.dropLast.map dropReturn ++ (parts.getLast?.toList.filter (· ≠ []))

/-- A text in which every `c` is replaced by the text `by'`. -/
def replaceChar (c : Char) (by' : List Char) (cs : List Char) : List Char :=
  cs.flatMap fun d => if d = c then by' else [d]

/-- Whether a text has `needle` in it as one stretch. -/
def hasStretch (needle : List Char) : List Char → Bool
  | [] => needle.isEmpty
  | c :: cs => needle.isPrefixOf (c :: cs) || hasStretch needle cs

/-- The words of a text, of which there are at most as many as characters. -/
def words (cs : List Char) : List (List Char) :=
  go cs.length cs
where
  /-- At most `fuel` words. -/
  go : Nat → List Char → List (List Char)
    | 0, _ => []
    | fuel + 1, cs =>
      match nextWord cs with
      | none => []
      | some (word, rest) => word :: go fuel rest

end Switchboard.Text
