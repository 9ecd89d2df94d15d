import Switchboard.Server.Basic

/-!
# From the first connection to the end

A server that listens becomes ready, is told to shut down once, and comes to its end when its
connections have ended or the time for that is over.
-/

namespace Switchboard.Server

/-- Why a server cannot serve. -/
inductive ServeFault
  | notListening
  deriving DecidableEq, Repr

/-- The sentence about it. -/
def ServeFault.message : ServeFault → String
  | .notListening => "start() must be called before serve()"

/-- The state of a server that accepts connections. -/
def ready (st : State) : State := { st with lifecycle := st.lifecycle.setReady }

/-- The state of a server that is told to shut down. -/
def stop (st : State) (kind : ShutdownKind) : State :=
  { st with lifecycle := st.lifecycle.trigger kind }

/-- Waits for the connections to end, where `idle` tells whether they have after so many
milliseconds. -/
def conclude (s : Server) (st : State) (idle : Nat → Bool) : Ending × State :=
  let (drained, lifecycle) :=
    st.lifecycle.drain idle s.network.drainTimeout s.network.drainPoll
  (⟨lifecycle.kind.getD .normal, drained⟩, { st with lifecycle })

end Switchboard.Server
