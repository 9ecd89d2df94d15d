import Switchboard.Connections
import Switchboard.Lifecycle
import Switchboard.Recorder
import Switchboard.Splitter
import Switchboard.Tracker
import Switchboard.Validation
import Switchboard.Settings

/-!
# Servers

A server consists of what is settled when it starts (`Server`) and of what changes with every
request (`Server.State`): the tracker of its calls, the recorder, its life, its connections and
the files around it. A request is answered by a step from one state to the next. A step needs a
reading of the clock, in nanoseconds, and tells how many milliseconds it took itself. Time passes
only while a method is at work or a caller has asked for a delay, and whatever looks at the clock
behind that gets a later reading (`later`).

This module has the calls that come in frames. A frame that holds no request, or a request for a
method that is not there, has no answer and leaves no trace.
-/

namespace Switchboard

/-- What a server finds around it. -/
structure World where
  /-- Who can be reached. -/
  network : Network
  /-- A number below a bound, picked at random. -/
  draw : Nat → Nat
  /-- At most two of the servers that have to be reachable, picked at random. -/
  probes : List Address → List Address
  /-- A new session, for the request with a number. -/
  session : Nat → String
  /-- How many nanoseconds pass on the clock while a millisecond is waited for. On the clock of a
  running server it is a million. Where waiting is only simulated the clock stands still, and so it
  does unless something else is said. -/
  pace : Nat := 0
  /-- What the operating system says about the process. -/
  processStatus : String := "Process status is not available on this platform.\n"
  /-- What the operating system says about the threads of the process. -/
  threads : String := "Thread listing is not available on this platform.\n"

/-- What is settled when a server starts. -/
structure Server where
  settings : ServerSettings
  network : NetworkSettings
  registry : Registry
  port : Nat
  world : World

namespace Server

/-- What changes with every request. -/
structure State where
  tracker : Tracker
  recorder : Recorder
  lifecycle : Lifecycle
  connections : Connections
  files : Files
  /-- How many requests have been processed. -/
  requests : Nat
  /-- How many milliseconds have been spent on them. -/
  elapsed : Nat
  deriving DecidableEq

/-- A step of a server. It fails if an output is larger than the server is meant to send. -/
abbrev Step := StateT State (Except Oversize)

/-- The methods of some identities as they are hosted by a server with some settings. -/
def new (settings : ServerSettings) (network : NetworkSettings) (registry : Registry)
    (port : Nat) (world : World) : Server :=
  ⟨settings, network, registry, port, world⟩

/-- The state in which a server starts. -/
def start (s : Server) (now : Nat) (files : Files) : State where
  tracker := .new now
  recorder := .new s.settings.recording.inputPath s.settings.recording.outputPath
    (s.settings.recording.maxDuration * 1000000) s.port
  lifecycle := .new
  connections := .new
  files := files
  requests := 0
  elapsed := 0

/-- The routing rules for a proxy in front of the server. -/
def proxyConfig (s : Server) : String := s.registry.proxyConfig s.port

/-- What the server brings to the request with a number. -/
def stage (s : Server) (connection : Connection) (number : Nat) : Dispatch where
  connection := connection
  settings := s.settings.session
  limits := s.settings.limits
  registry := some s.registry
  network := s.world.network
  freshSession := s.world.session number

/-- What the server brings to a call. Of its state nothing counts but the number of the request. -/
def dispatch (s : Server) (connection : Connection) (st : State) : Dispatch :=
  s.stage connection st.requests

/-- What is done with a request. -/
structure Processed where
  /-- The bytes to send; if there are none, nothing is sent. -/
  reply : Bytes
  /-- Whether the connection may carry another request. -/
  keepAlive : Bool
  deriving DecidableEq, Repr

/-- Nothing is sent and the connection is closed. -/
def Processed.close : Processed := ⟨[], false⟩

/-- What is done with a frame to which there is a reply, or none. -/
def processedFrame : Option Bytes → Processed
  | some reply => ⟨reply, true⟩
  | none => .close

/-! ## Parts of steps -/

/-- The reading of the clock when some milliseconds have been waited for. -/
def later (s : Server) (now ms : Nat) : Nat := now + ms * s.world.pace

/-- Some milliseconds pass. -/
def pass (ms : Nat) : Step Unit := modify fun st => { st with elapsed := st.elapsed + ms }

/-- Whether calls of a method are recorded now. -/
def recordsNow (now : Nat) (h : Handler) : Step Bool := do
  return h.method.canRecord && (← get).recorder.isRecording now

/-- Records an input. -/
def recordInput (now : Nat) (name json : String) : Step Unit :=
  modify fun st =>
    let (recorder, files) := st.recorder.recordInput now name json st.files
    { st with recorder, files }

/-- Records a result. -/
def recordOutput (now : Nat) (name : String) (success : Bool) (json : String) : Step Unit :=
  modify fun st =>
    let (recorder, files) := st.recorder.recordOutput now name success json st.files
    { st with recorder, files }

/-- Makes a call that is tracked from its begin to its end, and tells when it has ended. -/
def tracked (s : Server) (now : Nat) (name : String) (protocol : Protocol) (input : String)
    (call : State → Answer) : Step (Reply × Nat) := do
  let (id, tracker) := (← get).tracker.begin now name protocol input
  modify fun st => { st with tracker }
  let answer := call (← get)
  let ended := s.later now answer.elapsed
  pass answer.elapsed
  modify fun st => { st with tracker := st.tracker.finish ended id }
  let reply ← answer.reply
  return (reply, ended)

/-- Has a handler answer in a tracked call, and records the input and the result if calls of the
method are recorded when it begins. The result is recorded when the call has ended. -/
def recorded (s : Server) (now : Nat) (h : Handler) (protocol : Protocol) (input : String)
    (call : State → Answer) (shown : Reply → String) : Step Reply := do
  let recording ← recordsNow now h
  if recording then recordInput now h.name input
  let (reply, ended) ← s.tracked now h.name protocol input call
  if recording then recordOutput ended h.name reply.success (shown reply)
  return reply

/-! ## Calls in frames -/

/-- The result of a call in a frame as it is recorded. -/
def shownResult (h : Handler) (reply : Reply) : String :=
  if reply.success then h.outputToJson reply.payload else reply.errorMessage

/-- Answers the request in a frame, if there is one and its method is there. What concerns the
caller of a request that came inside another one is taken over from that. -/
def dispatchFrame (s : Server) (connection : Connection) (now : Nat) (frame : Bytes)
    (outer : Option Request) : Step (Option Bytes) := do
  match (Frame.value frame : Except Frame.Fault Request) with
  | .error _ => return none
  | .ok request =>
    match s.registry.get? request.name with
    | none => return none
    | some h =>
      -- the payload is shown as it came, whether it can be read or not
      let input := h.inputToJson .compact request.payload
      let request := outer.elim request request.merge
      let call := fun st => h.processBinary (s.dispatch connection st) request
      let reply ← s.recorded now h .binary input call (shownResult h)
      return (Frame.ofValue reply).toOption

end Server

end Switchboard
