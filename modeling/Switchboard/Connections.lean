import Switchboard.Address
import Switchboard.Dict

/-!
# The connections of a server

Every connection that is admitted gets a number, from one upwards, and keeps its place among the
open connections until it ends. No number is given twice.
-/

namespace Switchboard

/-- What is known about an open connection. -/
structure OpenConnection where
  peer : Address
  since : Nat
  /-- How many requests have been answered on it. -/
  requests : Nat
  deriving DecidableEq, Repr

/-- The open connections by their number. -/
structure Connections where
  nextId : Nat
  active : Dict Nat OpenConnection
  deriving DecidableEq

namespace Connections

/-- No connections yet. -/
def new : Connections := ⟨1, ∅⟩

/-- Admits a connection, which gets the next number. -/
def register (c : Connections) (now : Nat) (peer : Address) : Connection × Connections :=
  (⟨c.nextId, peer⟩, ⟨c.nextId + 1, c.active.insert c.nextId ⟨peer, now, 0⟩⟩)

/-- Ends the connection with a number. -/
def remove (c : Connections) (id : Nat) : Connections := { c with active := c.active.erase id }

/-- Counts one more request on the connection with a number. -/
def recordRequest (c : Connections) (id : Nat) : Connections :=
  match c.active.get? id with
  | none => c
  | some info =>
    { c with active := c.active.insert id { info with requests := info.requests + 1 } }

/-- The open connection with a number. -/
def get? (c : Connections) (id : Nat) : Option OpenConnection := c.active.get? id

/-- How many requests have been heard on the open connection with a number. -/
def requestsOf (c : Connections) (id : Nat) : Nat := (c.get? id).elim 0 (·.requests)

/-- The number of open connections. -/
def count (c : Connections) : Nat := c.active.size

/-- The open connections, oldest first. -/
def toList (c : Connections) : List (Nat × OpenConnection) := c.active.toList

/-! ## Laws -/

/-- A connection that has ended leaves no trace of its requests. -/
theorem remove_recordRequest (c : Connections) (id : Nat) :
    (c.recordRequest id).remove id = c.remove id := by
  unfold recordRequest remove
  cases c.active.get? id with
  | none => rfl
  | some info => simp only [Dict.erase_insert]

end Connections

end Switchboard
