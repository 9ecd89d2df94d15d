import Switchboard.Dispatch
import Switchboard.Pool

/-!
# Settings

What can be set about a server: how it listens and admits connections, and what it hosts and
answers. Times are in milliseconds.
-/

namespace Switchboard

/-- How a server listens, admits connections and drains. -/
structure NetworkSettings where
  host : String := "0.0.0.0"
  port : Nat := 0
  /-- Connections beyond this number are sent away. -/
  maxConnections : Nat := 1024
  /-- How long the next request of a connection may take to arrive, if that is limited. -/
  requestTimeout : Option Nat := some 60000
  /-- How many bytes of a request are held at most. -/
  maxRequestSize : Nat := 100000000
  /-- How many workers serve connections, if they are not served all at once. -/
  workerPool : Option Nat := none
  /-- How long the server drains at most. -/
  drainTimeout : Nat := 60000
  /-- How long it waits between two looks while it drains. -/
  drainPoll : Nat := 1000
  /-- How long it waits between two looks while it accepts connections. -/
  acceptPoll : Nat := 1000
  /-- What a connection hears that is sent away. -/
  busyMessage : String := "Server busy, please try again later.\n"
  deriving DecidableEq, Repr

/-- Where calls are recorded, and how long. -/
structure RecordingSettings where
  inputPath : String := "recorded_input"
  outputPath : Option String := none
  maxDuration : Nat := 3600000
  deriving DecidableEq, Repr

/-- Which servers have to be reachable for this one to be healthy. -/
structure HealthSettings where
  targets : List Address := []
  timeout : Nat := 2000
  deriving DecidableEq, Repr

/-- What a server hosts and answers. -/
structure ServerSettings where
  /-- The identities whose methods it hosts, with commas between them. -/
  identities : String := ""
  /-- Where the files are that it hands out. -/
  webroot : String := "."
  /-- Whether JSON is laid out for people unless the caller says otherwise. -/
  debugJson : Bool := false
  limits : Limits := {}
  /-- Whether a connection is closed after its first request. -/
  oneRequest : Bool := false
  recording : RecordingSettings := {}
  session : SessionSettings := {}
  health : HealthSettings := {}
  deriving DecidableEq, Repr

end Switchboard
