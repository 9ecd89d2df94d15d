import Switchboard.CommandLine
import Switchboard.Settings

/-!
# Options of the sample server

Every setting of the sample server has an option and a variable of the environment.
-/

namespace Switchboard.Sample

/-- The options of the sample server. -/
structure Options where
  network : NetworkSettings
  server : ServerSettings
  /-- Where a server is that can add. -/
  mathServer : Option Address
  /-- Whether the methods are to check themselves, and no more. -/
  validate : Bool

namespace Options

open CommandLine

/-- An option with a value. -/
def single (name envName : String) : OptionSpec := ⟨name, .single, some envName⟩

/-- An option without one. -/
def flag (name envName : String) : OptionSpec := ⟨name, .flag, some envName⟩

/-- The options that are understood. -/
def specs : List OptionSpec :=
  [single "host" "RPC_HOST", single "port" "RPC_PORT", single "identities" "RPC_IDENTITIES",
    single "max-connections" "RPC_MAX_CONNECTIONS", single "timeout-secs" "RPC_TIMEOUT_SECS",
    single "max-request-size" "RPC_MAX_REQUEST_SIZE",
    single "max-binary-response-size" "RPC_MAX_BINARY_RESPONSE_SIZE",
    single "max-json-response-size" "RPC_MAX_JSON_RESPONSE_SIZE",
    flag "worker-pool" "RPC_WORKER_POOL", single "pool-size" "RPC_POOL_SIZE",
    flag "one-request-per-connection" "RPC_ONE_REQUEST_PER_CONNECTION",
    single "drain-timeout-secs" "RPC_DRAIN_TIMEOUT_SECS", single "webroot" "RPC_WEBROOT",
    flag "debug-json" "RPC_DEBUG_JSON", single "record-input" "RPC_RECORD_INPUT",
    single "record-output" "RPC_RECORD_OUTPUT",
    single "max-recording-secs" "RPC_MAX_RECORDING_SECS",
    ⟨"health-targets", .many, some "RPC_HEALTH_TARGETS"⟩, single "math-server" "RPC_MATH_SERVER",
    flag "log-json" "RPC_LOG_JSON", ⟨"validate", .flag, none⟩]

/-- The variables of the environment that are read. -/
def envNames : List String := specs.filterMap (·.envName?)

/-- A text as it is. -/
def text? (s : String) : Option String := some s

/-- A path, which is not empty. -/
def path? (s : String) : Option String := if s.isEmpty then none else some s

/-- A word of the machine. -/
def word? (s : String) : Option Nat := Text.readNat Text.maxWord s.toList

/-- The number of a port, which may have a sign. -/
def port? (s : String) : Option Nat :=
  ((Text.readInt64 s.toList).filter fun i => 0 ≤ i.toInt ∧ i.toInt < 65536).map (·.toNatClampNeg)

/-- How the server listens, admits connections and drains. Without a limit of its own, draining
may take as long as a request. -/
def readNetwork (v : Values) : Except Fault NetworkSettings := do
  let timeout ← valueD v "timeout-secs" word? 60
  let pool ← isSet v "worker-pool"
  let poolSize ← valueD v "pool-size" word? Pool.defaultSize
  return {
    host := ← valueD v "host" text? "0.0.0.0"
    port := ← valueD v "port" port? 8080
    maxConnections := ← valueD v "max-connections" word? 1024
    requestTimeout := if 0 < timeout then some (timeout * 1000) else none
    maxRequestSize := ← valueD v "max-request-size" word? 100000000
    workerPool := if pool then some poolSize else none
    drainTimeout := (← valueD v "drain-timeout-secs" word? timeout) * 1000 }

/-- Where calls are recorded, and how long. -/
def readRecording (v : Values) : Except Fault RecordingSettings := do
  return {
    inputPath := ← valueD v "record-input" path? "recorded_input"
    outputPath := ← value? v "record-output" path?
    maxDuration := (← valueD v "max-recording-secs" word? 3600) * 1000 }

/-- What the server hosts and answers. -/
def readServer (v : Values) : Except Fault ServerSettings := do
  return {
    identities := ← valueD v "identities" text? "calc"
    webroot := ← valueD v "webroot" path? "."
    debugJson := ← isSet v "debug-json"
    limits := {
      binary := ← valueD v "max-binary-response-size" word? 100000000
      json := ← valueD v "max-json-response-size" word? 100000000 }
    oneRequest := ← isSet v "one-request-per-connection"
    recording := ← readRecording v
    health := { targets := ← allValues v "health-targets" Address.ofText? } }

/-- The options that a command line and the environment give. -/
def read (arguments : List String) (environment : Dict String String) :
    Except Fault Options := do
  let v ← CommandLine.read specs arguments environment
  let _ ← isSet v "log-json"
  return {
    network := ← readNetwork v
    server := ← readServer v
    mathServer := ← value? v "math-server" Address.ofText?
    validate := ← isSet v "validate" }

end Options

end Switchboard.Sample
