import Switchboard.Sample.Program

/-!
# The sample program

The outer layer of the sample server: it reads the command line and the environment, and does
what `Sample.task` says. The connection that it answers is its standard input and output; it has
no files, and reaches nobody.
-/

namespace Switchboard.Sample

/-- The variables of the environment that stand for options. -/
def readEnvironment : List String → IO (Dict String String)
  | [] => return ∅
  | name :: names => do
    let environment ← readEnvironment names
    match ← IO.getEnv name with
    | some value => return environment.insert name value
    | none => return environment

/-- How many bytes are read at once. -/
def chunkSize : USize := 65536

/-- Sends what a conversation has to say that has not been sent yet. -/
def sendNew (sent : Nat) (c : Server.Conversation) : IO Unit := do
  let out ← IO.getStdout
  out.write ⟨(c.written.drop sent).toArray⟩
  out.flush

/-- Answers the connection until it ends. -/
partial def converse (s : Server) (st : Server.State) (c : Server.Conversation) : IO UInt32 := do
  let chunk ← (← IO.getStdin).read chunkSize
  let now ← IO.monoNanosNow
  let clock := fun _ => now
  let step := if chunk.isEmpty then c.finish s clock else c.receive s clock chunk.toList
  match step.run st with
  | .error _ => return 134
  | .ok (c', st') =>
    IO.sleep (UInt32.ofNat (st'.elapsed - st.elapsed))
    sendNew c.written.length c'
    if c'.isOpen then converse s st' c' else return 0

/-- Does what is to be done. -/
def perform : Task → IO UInt32
  | .exit e => do
    IO.print e.output
    IO.eprint e.errors
    return UInt32.ofNat e.code
  | .serve s => do
    let now ← IO.monoNanosNow
    let st := Server.ready (s.start now .empty)
    let (connection, connections) := st.connections.register now ⟨.v4 127 0 0 1, 0⟩
    converse s { st with connections } (.new connection)

end Switchboard.Sample

open Switchboard Switchboard.Sample in
/-- Runs the sample server. -/
def main (arguments : List String) : IO UInt32 := do
  let environment ← readEnvironment Options.envNames
  let random ← IO.getRandomBytes 16
  perform (task arguments environment (randomSession random.toList))
