import Switchboard.Dict
import Switchboard.Text.Ascii
import Switchboard.Text.Pieces

/-!
# Mocks

A caller can ask for canned output with the argument `mock`, a list of entries with plus signs
between them. An entry is the name of a method, or a star for all of them, a colon, and the kind
of output. What is not of that form is passed over.
-/

namespace Switchboard.Mock

/-- What a method answers when canned output is asked for. -/
inductive Outcome (α : Type)
  /-- The output. -/
  | success (output : α)
  /-- There should be such output, but it could not be made. -/
  | failure
  /-- There is no such output; the method runs as ever. -/
  | unimplemented
  deriving DecidableEq, Repr

/-- The kind of output that an entry asks a method for. -/
def ofEntry (name : String) (entry : List Char) : Option String :=
  match Text.pieces ':' entry with
  | [target, kind] =>
    let target := String.ofList (Text.trim target)
    if target = "*" ∨ Text.sameFold target name then some (String.ofList (Text.trim kind))
    else none
  | _ => none

/-- The kind of output that the arguments ask a method for: that of the first entry that names
the method. -/
def select (args : Dict String String) (name : String) : Option String := do
  (Text.pieces '+' (← args.get? "mock").toList).findSome? (ofEntry name)

end Switchboard.Mock
