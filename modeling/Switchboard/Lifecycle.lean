/-!
# The life of a server

A server starts, is ready, drains and stops. It drains when it is told to shut down: it takes no
more connections and lets the requests finish that it has begun. Only the first order to shut
down counts. Draining is a wait that looks again and again whether anything is left to do, for a
limited time.
-/

namespace Switchboard

/-- How far the life of a server has come. -/
inductive Phase
  | starting
  | ready
  | draining
  | stopped
  deriving DecidableEq, Repr

/-- The word for a phase. -/
def Phase.label : Phase → String
  | .starting => "starting"
  | .ready => "ready"
  | .draining => "draining"
  | .stopped => "stopped"

/-- What is to happen after a shutdown. -/
inductive ShutdownKind
  /-- The server may be started again. -/
  | normal
  /-- The server is not to be started again. -/
  | loop
  deriving DecidableEq, Repr

/-- The phase of a server, the order to shut down, and the requests that it is answering. -/
structure Lifecycle where
  phase : Phase
  kind : Option ShutdownKind
  /-- Whether somebody who has given the order is about to write the phase. -/
  entering : Bool
  pending : Nat
  deriving DecidableEq, Repr

namespace Lifecycle

/-- A server that starts. -/
def new : Lifecycle := ⟨.starting, none, false, 0⟩

/-- The server takes connections from now on. -/
def setReady (l : Lifecycle) : Lifecycle := { l with phase := .ready }

/-- Whether the server has been told to shut down. -/
def isStopping (l : Lifecycle) : Bool := l.kind.isSome

/-- The server is told to shut down. Whoever is the first to tell it so is to write the phase. -/
def order (l : Lifecycle) (kind : ShutdownKind) : Lifecycle :=
  if l.isStopping then l else { l with kind := some kind, entering := true }

/-- Whoever has told the server first to shut down writes the phase. -/
def enter (l : Lifecycle) : Lifecycle :=
  if l.entering then { l with phase := .draining, entering := false } else l

/-- The server is told to shut down and its phase is written, with nobody coming in between. An
order that is not the first one writes nothing. -/
def trigger (l : Lifecycle) (kind : ShutdownKind) : Lifecycle :=
  if l.isStopping then l else (l.order kind).enter

/-- A request is being answered. -/
def beginRequest (l : Lifecycle) : Lifecycle := { l with pending := l.pending + 1 }

/-- A request has been answered. -/
def endRequest (l : Lifecycle) : Lifecycle := { l with pending := l.pending - 1 }

/-- Nothing is left to do. -/
def stop (l : Lifecycle) : Lifecycle := { l with phase := .stopped }

/-! ## Draining -/

/-- Whether a look finds nothing left to do, at `now` or at one of the later looks, which are
`poll` milliseconds apart and end at `limit`. -/
def drainsFrom (idle : Nat → Bool) (limit poll now : Nat) : Bool :=
  if idle now then true
  else if now < limit then drainsFrom idle limit poll (now + max 1 (min poll (limit - now)))
  else false
termination_by limit - now
decreasing_by omega

/-- Waits until nothing is left to do, where `idle` tells whether that is so after so many
milliseconds. -/
def drain (l : Lifecycle) (idle : Nat → Bool) (limit poll : Nat) : Bool × Lifecycle :=
  if drainsFrom idle limit poll 0 then (true, l.stop) else (false, l)

/-! ## Laws -/

variable {l : Lifecycle}

/-- Only the first order counts. -/
theorem order_of_isStopping (h : l.isStopping = true) (kind : ShutdownKind) :
    l.order kind = l := if_pos h

theorem order_of_running (h : l.isStopping = false) (kind : ShutdownKind) :
    l.order kind = { l with kind := some kind, entering := true } := by
  rw [order, h]
  rfl

theorem enter_of_entering (h : l.entering = true) :
    l.enter = { l with phase := .draining, entering := false } := if_pos h

theorem enter_of_not_entering (h : l.entering = false) : l.enter = l := by
  rw [enter, h]
  rfl

/-- Behind an order that has been given the kind is settled. -/
theorem kind_order (l : Lifecycle) (kind : ShutdownKind) :
    (l.order kind).kind = l.kind.or (some kind) := by
  obtain ⟨phase, told, entering, pending⟩ := l
  cases told <;> rfl

theorem kind_enter (l : Lifecycle) : l.enter.kind = l.kind := by
  unfold enter
  split
  · rfl
  · rfl

/-- Neither part of an order to shut down is a request. -/
theorem pending_order (l : Lifecycle) (kind : ShutdownKind) :
    (l.order kind).pending = l.pending := by
  unfold order
  split
  · rfl
  · rfl

theorem pending_enter (l : Lifecycle) : l.enter.pending = l.pending := by
  unfold enter
  split
  · rfl
  · rfl

/-- To give an order does not change the phase, which is why it has to be written. -/
theorem phase_order (l : Lifecycle) (kind : ShutdownKind) : (l.order kind).phase = l.phase := by
  unfold order
  split
  · rfl
  · rfl

end Lifecycle

/-! ## The end -/

/-- How a server came to its end. -/
structure Ending where
  kind : ShutdownKind
  /-- Whether everything was finished in time. -/
  drained : Bool
  deriving DecidableEq, Repr

/-- The exit code of a server that has come to its end. -/
def Ending.exitCode (e : Ending) : Nat :=
  if e.drained then
    match e.kind with
    | .normal => 0
    | .loop => 100
  else 2

end Switchboard
