import Switchboard.Settings

/-!
# Settings as an outline

The settings of a server are shown as an outline: a record has its name and a line for every
field, what is inside stands further to the right, and every line inside ends with a comma.
-/

namespace Switchboard

/-- What can be outlined. -/
inductive Outline
  /-- A value that fits into a line. -/
  | leaf (text : String)
  /-- A named record with its fields. -/
  | record (name : String) (fields : List (String × Outline))
  /-- A value that might have been missing. -/
  | present (value : Outline)
  /-- A list of values. -/
  | list (items : List Outline)

namespace Outline

/-- The end of a line and what stands before the next one at a depth. -/
def newline (depth : Nat) : String := "\n" ++ String.ofList (List.replicate (4 * depth) ' ')

mutual

/-- The outline at a depth. -/
def render (depth : Nat) : Outline → String
  | .leaf text => text
  | .record name fields =>
    name ++ " \x7b" ++ renderFields (depth + 1) fields ++ newline depth ++ "\x7d"
  | .present value =>
    "Some(" ++ newline (depth + 1) ++ render (depth + 1) value ++ "," ++ newline depth ++ ")"
  | .list [] => "[]"
  | .list (item :: items) =>
    "[" ++ renderItems (depth + 1) (item :: items) ++ newline depth ++ "]"

/-- The lines of fields at a depth. -/
def renderFields (depth : Nat) : List (String × Outline) → String
  | [] => ""
  | (name, value) :: fields =>
    newline depth ++ name ++ ": " ++ render depth value ++ "," ++ renderFields depth fields

/-- The lines of items at a depth. -/
def renderItems (depth : Nat) : List Outline → String
  | [] => ""
  | item :: items => newline depth ++ render depth item ++ "," ++ renderItems depth items

end

/-- A value that may be missing. -/
def option : Option Outline → Outline
  | none => .leaf "None"
  | some value => .present value

/-- A number. -/
def number (n : Nat) : Outline := .leaf (Text.decimal n)

/-- A text in quotes. -/
def text (s : String) : Outline := .leaf (Text.quoted s)

/-- A truth value. -/
def flag (b : Bool) : Outline := .leaf (if b then "true" else "false")

/-- A time in milliseconds. -/
def duration (ms : Nat) : Outline := .leaf (Text.duration ms)

end Outline

/-- The outline of the settings of the network. -/
def NetworkSettings.outline (s : NetworkSettings) : Outline :=
  .record "NetworkConfig"
    [("host", .text s.host), ("port", .number s.port),
      ("max_connections", .number s.maxConnections),
      ("request_timeout", .option (s.requestTimeout.map .duration)),
      ("max_request_size", .number s.maxRequestSize),
      ("worker_pool", .option (s.workerPool.map .number)),
      ("drain_timeout", .duration s.drainTimeout),
      ("drain_poll_interval", .duration s.drainPoll),
      ("accept_poll_interval", .duration s.acceptPoll),
      ("busy_message", .text s.busyMessage)]

/-- The outline of the settings of recordings. -/
def RecordingSettings.outline (s : RecordingSettings) : Outline :=
  .record "RecordingConfig"
    [("input_path", .text s.inputPath), ("output_path", .option (s.outputPath.map .text)),
      ("max_duration", .duration s.maxDuration)]

/-- The outline of the settings of sessions. -/
def SessionSettings.outline (s : SessionSettings) : Outline :=
  .record "SessionConfig"
    [("cookie_name", .text s.cookieName), ("max_age", .duration s.maxAge),
      ("internal_user_agent", .text s.internalAgent)]

/-- The outline of the settings of health. -/
def HealthSettings.outline (s : HealthSettings) : Outline :=
  .record "HealthConfig"
    [("targets", .list (s.targets.map fun a => .leaf a.toText)),
      ("connect_timeout", .duration s.timeout)]

/-- The outline of the settings of a server. -/
def ServerSettings.outline (s : ServerSettings) : Outline :=
  .record "ServerConfig"
    [("identities", .text s.identities), ("webroot", .text s.webroot),
      ("debug_json", .flag s.debugJson),
      ("max_binary_response_size", .number s.limits.binary),
      ("max_json_response_size", .number s.limits.json),
      ("one_request_per_connection", .flag s.oneRequest),
      ("recording", s.recording.outline), ("session", s.session.outline),
      ("health", s.health.outline)]

end Switchboard
