import Switchboard.Registry

/-!
# Sample methods

A small server for trying things out: it adds and subtracts, and tells callers where they call
from. Results outside a signed word of 64 bits are errors.
-/

namespace Switchboard.Sample

/-! ## Numbers -/

/-- A number as a signed word of 64 bits, if it fits. -/
def word? (i : Int) : Option Int64 :=
  if -(2 ^ 63) ≤ i ∧ i < 2 ^ 63 then some (Int64.ofInt i) else none

/-- What a caller is told whose result does not fit. -/
def overflow : String := "integer overflow"

/-- A result that has to fit. -/
def fitting (i : Int) : Except String Int64 :=
  match word? i with
  | some n => .ok n
  | none => .error overflow

/-! ## Inputs -/

/-- Two numbers. -/
structure Pair where
  a : Int64
  b : Int64
  deriving DecidableEq, Repr

instance : Payload Pair where
  shape := .record "Pair" (.field "a" .int .required (.field "b" .int .required .done))
  toData p := (p.a, p.b, ())
  ofData := fun (a, b, _) => ⟨a, b⟩
  ofData_toData _ := rfl

/-- Three numbers. -/
structure Triple where
  a : Int64
  b : Int64
  c : Int64
  deriving DecidableEq, Repr

instance : Payload Triple where
  shape := .record "Triple" (.field "a" .int .required (.field "b" .int .required
    (.field "c" .int .required .done)))
  toData t := (t.a, t.b, t.c, ())
  ofData := fun (a, b, c, _) => ⟨a, b, c⟩
  ofData_toData _ := rfl

/-- No input. -/
structure Empty where
  deriving DecidableEq, Repr

instance : Payload Empty where
  shape := .record "Empty" .done
  toData _ := ()
  ofData _ := {}
  ofData_toData _ := rfl

/-! ## Methods -/

/-- The sum of two numbers. -/
def add (p : Pair) : Except String Int64 := fitting (p.a.toInt + p.b.toInt)

/-- The difference of two numbers. -/
def subtract (p : Pair) : Except String Int64 := fitting (p.a.toInt - p.b.toInt)

/-- The sum of three numbers, by two calls of the method that adds two. -/
def add3 (t : Triple) : Action (Except String Int64) := do
  match (← Action.call "ADD" (⟨t.a, t.b⟩ : Pair) : Except String Int64) with
  | .error message => return .error message
  | .ok ab => Action.call "ADD" (⟨ab, t.c⟩ : Pair)

/-- The address of the caller. -/
def whoami (_ : Empty) : Action (Except String String) := do
  return .ok (← Action.context).connection.peer.toText

/-- A result for people to read. -/
def showResult : Except String Int64 → String
  | .ok n => "Ok(" ++ Text.signedDecimal n.toInt ++ ")"
  | .error message => "Err(" ++ Text.quoted message ++ ")"

/-- What the method that adds two numbers finds about itself. -/
def checkAdd : Verdict × String :=
  match add ⟨1, 10⟩ with
  | .ok 11 => (.passed, "")
  | other => (.failed, "1 + 10 gave " ++ showResult other ++ "\n")

/-- The method that adds two numbers. Its canned output of any kind is the number that the kind
says. -/
def addMethod : Method :=
  { Method.ofFunction (α := Pair) fun p => .pure (add p) with
    mock := fun kind _ =>
      .pure (match Text.readInt64 kind.toList with
        | some n => .success n
        | none => .failure)
    validate := .pure checkAdd }

/-- Registers the methods, and one that adds on the server at an address if there is one. -/
def builder (mathServer : Option Address) : Except RegistryFault Registry.Builder := do
  let b ← Registry.Builder.empty.register "calc"
    ⟨"ADD", addMethod, (Payload.toData (⟨1, 10⟩ : Pair))⟩
  let b ← b.register "calc"
    ⟨"ADD3", .ofFunction add3, (Payload.toData (⟨1, 2, 3⟩ : Triple))⟩
  let b ← b.register "calc"
    ⟨"SUB", .ofFunction fun p => .pure (subtract p), (Payload.toData (⟨10, 1⟩ : Pair))⟩
  let b ← b.register "all" ⟨"WHOAMI", .ofFunction whoami, (Payload.toData ({} : Empty))⟩
  match mathServer with
  | none => return b
  | some address =>
    let directory := fun identity => if identity = "math" then some address else none
    b.registerForward "calc" "REMOTE_ADD" directory { identity := "math", method := "ADD" }
      (Payload.shape Pair) .int (Payload.toData (⟨1, 10⟩ : Pair))

end Switchboard.Sample
