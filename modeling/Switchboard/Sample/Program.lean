import Switchboard.Sample.Methods
import Switchboard.Sample.Options
import Switchboard.Server.Conversation
import Switchboard.Server.Serving

/-!
# The sample server as a program

With the option to validate, the program lets its methods check themselves, prints the report and
fails unless they passed. Without it, the program answers one connection.
-/

namespace Switchboard.Sample

/-- What a program leaves behind. -/
structure Exit where
  code : Nat
  output : String
  errors : String
  deriving DecidableEq, Repr

/-- The code of a program that does not understand its command line. -/
def badUsage : Nat := 2

/-- Nobody can be reached. -/
def noNetwork : Network := fun _ => .error "Network is unreachable (os error 101)"

/-- Lets the methods check themselves. -/
def validate (options : Options) (b : Registry.Builder) (fresh : String) : Exit :=
  let registry := b.build options.server.identities
  let d : Dispatch := {
    connection := ⟨0, ⟨.v4 127 0 0 1, 0⟩⟩
    settings := options.server.session
    limits := options.server.limits
    registry := some registry
    network := noNetwork
    freshSession := fresh }
  let (report, _) := registry.validateAll d (Request.plain "" [])
  ⟨if report.verdict = .passed then 0 else 1, report.text, ""⟩

/-- A server with the methods, for one connection. -/
def server (options : Options) (b : Registry.Builder) (fresh : String) : Server :=
  .new options.server options.network (b.build options.server.identities) options.network.port
    { network := noNetwork
      draw := fun _ => 0
      probes := List.take 2
      session := fun _ => fresh }

/-- What the program is to do. -/
inductive Task
  /-- Print and end. -/
  | exit (e : Exit)
  /-- Answer a connection. -/
  | serve (s : Server)

/-- What a command line and an environment ask for. -/
def task (arguments : List String) (environment : Dict String String) (fresh : String) : Task :=
  match Options.read arguments environment with
  | .error fault => .exit ⟨badUsage, "", fault.message⟩
  | .ok options =>
    match builder options.mathServer with
    | .error fault => .exit ⟨1, "", "Error: registering methods: " ++ fault.message ++ "\n"⟩
    | .ok b =>
      if options.validate then .exit (validate options b fresh)
      else .serve (server options b fresh)

end Switchboard.Sample
