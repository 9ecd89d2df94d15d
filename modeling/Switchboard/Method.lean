import Switchboard.Action
import Switchboard.Mock
import Switchboard.Protocol

/-!
# Methods

A method has an input, an output, and what it does in between. It may also offer canned output,
and may check itself. Whatever way a method is entered, it runs through `Method.run`, so that
canned output is treated alike everywhere.
-/

namespace Switchboard

/-- An operation that can be called. -/
structure Method where
  input : Shape
  output : Shape
  /-- What the method does with an input. Its error texts reach the caller as they are. -/
  call : input.Data → Action (Except String output.Data)
  /-- The canned output of a kind. -/
  mock : String → input.Data → Action (Mock.Outcome output.Data)
  /-- What the method finds when it checks itself, and what it has to say about that. -/
  validate : Action (Verdict × String)
  /-- Whether calls may be recorded. -/
  canRecord : Bool
  /-- Whether the input may be left out. -/
  allowEmpty : Bool

namespace Method

/-- What a method does that offers no canned output. -/
def noMock {α : Type} : Action (Mock.Outcome α) := .pure .unimplemented

/-- What a method finds that cannot check itself. -/
def noCheck : Action (Verdict × String) := .pure (.notImplemented, "Not implemented yet!\n")

/-- The method that does what a function says. -/
def ofFunction {α β : Type} [Payload α] [Payload β] (f : α → Action (Except String β)) :
    Method where
  input := Payload.shape α
  output := Payload.shape β
  call data := return (← f (Payload.ofData data)).map Payload.toData
  mock _ _ := noMock
  validate := noCheck
  canRecord := true
  allowEmpty := false

/-- The kind of canned output that the caller asks for; the empty kind asks for nothing. -/
def mockKind (args : Dict String String) (name : String) : Option String :=
  (Mock.select args name).filter (!·.isEmpty)

/-- The sentence about canned output that could not be made. -/
def mockFailure (name : String) : String := "failed to generate mock for method: " ++ name

/-- Runs a method under a name: with canned output if the caller asks for it and there is any,
and for real if not. -/
def run (m : Method) (name : String) (data : m.input.Data) :
    Action (Except String m.output.Data) := do
  match mockKind (← Action.context).args name with
  | none => m.call data
  | some kind =>
    match ← m.mock kind data with
    | .success output => return .ok output
    | .failure => return .error (mockFailure name)
    | .unimplemented => m.call data

/-- Runs a method in place as a call of its own. -/
def cascadeTo (m : Method) (name : String) (data : m.input.Data) :
    Action (Except String m.output.Data) :=
  .nested (m.run name data)

end Method

/-- A method under its registered name, with an input that shows how to call it. -/
structure Handler where
  /-- The name in the spelling in which it was registered. -/
  name : String
  method : Method
  sample : method.input.Data

end Switchboard
