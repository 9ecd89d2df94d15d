import Switchboard.Dispatch

/-!
# Validation

A server can ask its methods to check themselves, one or all of them. The report on all of them
tells which passed, which failed and which cannot check themselves, and sums them up: the server
has failed if at least half of its methods have, and if not, it is not implemented if at least
half of its methods are not.
-/

namespace Switchboard

/-- The report on all methods. -/
structure Report where
  verdict : Verdict
  text : String
  passed : List String
  failed : List String
  notImplemented : List String
  deriving DecidableEq, Repr

namespace Registry

/-- What a method finds about itself, with the text about it and the milliseconds that took. -/
def validate (r : Registry) (d : Dispatch) (request : Request) (name : String) :
    (Verdict × String) × Nat :=
  match if name = "" then none else r.get? name with
  | none => ((.notImplemented, "Invalid Method: " ++ name ++ "\n"), 0)
  | some h =>
    let ((verdict, text), elapsed) := h.validate d request
    ((verdict, "\n# " ++ h.name ++ ": Validating... #\n" ++ text ++
      h.name ++ ": " ++ verdict.label ++ "\n"), elapsed)

/-- The names with a verdict. -/
def namesWith (found : List (String × (Verdict × String) × Nat)) (verdict : Verdict) :
    List String :=
  (found.filter (·.2.1.1 = verdict)).map (·.1)

/-- The verdict on a server with so many methods. -/
def overall (total failed notImplemented : Nat) : Verdict :=
  if total ≤ failed * 2 ∧ 0 < failed then .failed
  else if total ≤ notImplemented * 2 ∧ 0 < notImplemented then .notImplemented
  else .passed

/-- The paragraph about the methods with a verdict, if there are any. -/
def paragraph (title verb : String) (total : Nat) (names : List String) : String :=
  if names.isEmpty then ""
  else "\n" ++ title ++ ": " ++ Text.decimal names.length ++ " of " ++ Text.decimal total ++
    " methods " ++ verb ++ ".\nMethods " ++ verb ++ ": " ++ "  ".intercalate names ++ "\n"

/-- The report on what all methods find about themselves, with the milliseconds that took. -/
def validateAll (r : Registry) (d : Dispatch) (request : Request) : Report × Nat :=
  let found := r.names.map fun name => (name, r.validate d request name)
  let passed := namesWith found .passed
  let failed := namesWith found .failed
  let notImplemented := namesWith found .notImplemented
  let verdict := overall r.size failed.length notImplemented.length
  let text := "Validating server...\n" ++ String.join (found.map (·.2.1.2)) ++
    paragraph "FAILURE" "failed" r.size failed ++
    paragraph "Not Implemented" "not implemented" r.size notImplemented ++
    paragraph "PASSED" "passed" r.size passed ++
    "\nFINAL STATUS: " ++ verdict.label ++ "\n"
  (⟨verdict, text, passed, failed, notImplemented⟩, found.foldl (fun ms f => ms + f.2.2) 0)

end Registry

end Switchboard
