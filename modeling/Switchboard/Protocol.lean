import Switchboard.Shape

/-!
# Protocols and verdicts

Two small vocabularies with fixed words: how a call came in, and what a method says about
itself.
-/

namespace Switchboard

/-- The form in which a call came in. -/
inductive Protocol
  | binary
  | json
  deriving DecidableEq, Repr

/-- The word for a protocol. -/
def Protocol.label : Protocol → String
  | .binary => "binary"
  | .json => "json"

/-- On the wire the two protocols have capital names. -/
instance : Payload Protocol where
  shape := .choice "Protocol" "Binary" ["Json"]
  toData
    | .binary => (0 : Fin 2)
    | .json => (1 : Fin 2)
  ofData
    | (0 : Fin 2) => .binary
    | (1 : Fin 2) => .json
  ofData_toData p := by cases p <;> rfl

/-- What a method finds when it checks itself. -/
inductive Verdict
  | passed
  | failed
  | notImplemented
  deriving DecidableEq, Repr

/-- The words for a verdict. -/
def Verdict.label : Verdict → String
  | .passed => "PASSED"
  | .failed => "FAILED"
  | .notImplemented => "NOT IMPLEMENTED"

end Switchboard
