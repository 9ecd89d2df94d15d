import Switchboard.Dict
import Switchboard.Protocol

/-!
# The calls of a server

A tracker knows the calls that have begun and not ended, and how long those took that have
ended. Times are readings of a clock that counts nanoseconds; what counts is only their
differences.
-/

namespace Switchboard

/-! ## Durations of the calls of a method -/

/-- What is known about the durations of some calls. -/
structure Stat where
  count : Nat
  min : Nat
  max : Nat
  total : Nat
  deriving DecidableEq, Repr

namespace Stat

/-- Nothing is known about no calls. -/
def none : Stat := ⟨0, 0, 0, 0⟩

/-- One call. -/
def single (duration : Nat) : Stat := ⟨1, duration, duration, duration⟩

/-- Some calls and some others. The extremes of no calls do not count. -/
def merge (s t : Stat) : Stat :=
  if s.count = 0 then t
  else if t.count = 0 then s
  else ⟨s.count + t.count, Nat.min s.min t.min, Nat.max s.max t.max, s.total + t.total⟩

/-- The average duration, rounded down. A count that does not fit into 32 bits has none. -/
def average (s : Stat) : Nat :=
  if s.count < 0x100000000 then s.total / s.count else 0

end Stat

/-! ## Calls -/

/-- A call that has begun. -/
structure PendingCall where
  name : String
  protocol : Protocol
  started : Nat
  /-- The input, for people to read. -/
  input : String
  deriving DecidableEq, Repr

/-- The calls of a server. -/
structure Tracker where
  nextId : Nat
  pending : Dict Nat PendingCall
  stats : Dict String Stat
  started : Nat
  deriving DecidableEq

namespace Tracker

/-- A tracker of no calls. -/
def new (now : Nat) : Tracker := ⟨1, ∅, ∅, now⟩

/-- Begins a call, which gets the next number. -/
def begin (t : Tracker) (now : Nat) (name : String) (protocol : Protocol) (input : String) :
    Nat × Tracker :=
  (t.nextId, { t with
    nextId := t.nextId + 1
    pending := t.pending.insert t.nextId ⟨name, protocol, now, input⟩ })

/-- Ends the call with a number, if there is one. -/
def finish (t : Tracker) (now id : Nat) : Tracker :=
  match t.pending.get? id with
  | none => t
  | some call =>
    let stat := (t.stats.get? call.name).getD .none
    { t with
      pending := t.pending.erase id
      stats := t.stats.insert call.name (stat.merge (.single (now - call.started))) }

/-- The number of calls that have not ended. -/
def pendingCount (t : Tracker) : Nat := t.pending.size

/-- The number of calls that have ended. -/
def total (t : Tracker) : Nat := t.stats.values.foldl (fun n stat => n + stat.count) 0

/-- What is known about the methods that have been called, the most frequently called first. -/
def snapshot (t : Tracker) : List (String × Stat) :=
  t.stats.toList.mergeSort fun a b => decide (b.2.count ≤ a.2.count)

end Tracker

end Switchboard
