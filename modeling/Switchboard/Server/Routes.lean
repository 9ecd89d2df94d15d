import Switchboard.Http.Request
import Switchboard.Http.Response
import Switchboard.Http.StaticFile
import Switchboard.Pages
import Switchboard.Server.Basic

/-!
# Routes

An HTTP request is answered by what its path names: a page about the server, an order to it, a
method, which is then called with JSON, or a file. Names that begin with an underscore, and the
word `URL`, are the server's own; no method can have such a name.
-/

namespace Switchboard.Server

/-! ## Answers -/

/-- The answer to an HTTP request. -/
inductive Routed
  /-- A response. -/
  | response (response : Http.Response)
  /-- A body alone, for a caller that wants no more. -/
  | bare (body : Bytes)
  deriving DecidableEq

namespace Routed

/-- A plain text. -/
def text (body : String) : Routed := .response (.ok (Utf8.ofString body) "text/plain")

/-- A page. -/
def html (body : String) : Routed := .response (.ok (Utf8.ofString body) "text/html")

/-- The JSON in a call of the caller's function, if the caller names one. -/
def wrap (callback : Option String) (body : Bytes) : Bytes :=
  match callback with
  | some name => Utf8.ofString (name ++ "(") ++ body ++ Utf8.ofString ");"
  | none => body

/-- The JSON that answers a call. -/
def json (callback : Option String) (bare : Bool) (body : Bytes) (cookies : List String) :
    Routed :=
  if bare then .bare (wrap callback body)
  else
    let type := if callback.isSome then "application/javascript" else "application/json"
    .response { Http.Response.ok (wrap callback body) type with cookies }

end Routed

/-- What an HTTP request says about the caller. -/
def outerRequest (r : Http.Request) (args : Dict String String) : Request where
  name := ""
  payload := []
  referrer := r.referrer
  cookie := r.cookie
  headers := r.headers
  args := args

/-! ## Calls with JSON -/

/-- How a caller wants the answer to be presented. -/
structure Presentation where
  /-- The function that the answer is wrapped in. -/
  callback : Option String
  /-- Whether the body is to be sent alone. -/
  bare : Bool
  deriving DecidableEq, Repr

/-- The presentation that the arguments ask for. -/
def Presentation.ofArgs (args : Dict String String) : Presentation where
  callback := (args.get? "callback").filter (!·.isEmpty)
  bare := match args.get? "header" with
    | some value => value != "1"
    | none => false

/-- The answer in a presentation. -/
def Presentation.json (p : Presentation) (body : Bytes) (cookies : List String) : Routed :=
  Routed.json p.callback p.bare body cookies

/-- The longest delay that a caller can ask for, in seconds. -/
def maxDelay : Nat := 180

/-- The number of seconds that an argument asks for. -/
def delaySeconds (value : String) : Nat :=
  min maxDelay ((Text.readNat Text.maxWord (Text.trim value.toList)).getD 0)

/-- The layout that the arguments ask for. -/
def layoutOf (debugJson : Bool) (args : Dict String String) : Json.Layout :=
  let forPeople := match args.get? "d" with
    | some value => value == "1"
    | none => debugJson
  if forPeople then .pretty else .compact

/-- Whether the arguments give an input, or the method can do without one. -/
def hasInput (h : Handler) (args : Dict String String) : Bool :=
  args.contains "q" || args.contains "no_input" || h.method.allowEmpty

/-- The input in arguments; an empty object if there is none. -/
def inputOf (args : Dict String String) : String := (args.get? "q").getD "\x7b\x7d"

/-- The request for a method with the input in arguments. -/
def jsonRequest (h : Handler) (r : Http.Request) (args : Dict String String) : Request :=
  { outerRequest r args with name := h.name, payload := Utf8.ofString (inputOf args) }

/-- Calls a method with the input in the arguments. -/
def callMethod (s : Server) (connection : Connection) (now : Nat) (h : Handler)
    (r : Http.Request) (args : Dict String String) : Step Routed := do
  let call := fun st => h.processJson (s.dispatch connection st) (jsonRequest h r args)
    (layoutOf s.settings.debugJson args)
  let reply ← s.recorded now h .json (inputOf args) call
    fun reply => Utf8.toStringLossy reply.payload
  return (Presentation.ofArgs args).json reply.payload reply.cookies

/-- How many milliseconds a caller with some arguments waits before the call. They are drawn below a
bound, and a bound of zero leaves nothing to draw from. -/
def delay (s : Server) (args : Dict String String) : Nat :=
  let bound := delaySeconds ((args.get? "y").getD "0")
  if 0 < bound then s.world.draw bound * 1000 else 0

/-- Answers a call of a method. A caller can ask for a delay or for an error, to see how it copes
with them. -/
def jsonCall (s : Server) (connection : Connection) (now : Nat) (h : Handler)
    (r : Http.Request) : Step Routed := do
  match r.args? with
  | none =>
    return Routed.json none false (Handler.jsonError "Unable to parse CGI arguments.") []
  | some args =>
    let presentation := Presentation.ofArgs args
    if !hasInput h args then
      return presentation.json (Handler.jsonError "Missing input (q).") []
    else
      match args.get? "e" with
      | some value =>
        pass (delaySeconds value * 1000)
        return presentation.json (Handler.jsonError "Caller-requested error.") []
      | none =>
        pass (s.delay args)
        callMethod s connection (s.later now (s.delay args)) h r args

/-! ## Files -/

/-- How many seconds a file may be kept. -/
def fileMaxAge : Nat := 3600

/-- The file that a path names. -/
def staticFile (s : Server) (path : String) : Step Routed := do
  match (Http.StaticFile.path? s.settings.webroot path).bind (← get).files.read? with
  | none => return .response .notFound
  | some contents =>
    return .response
      { Http.Response.ok contents (Http.StaticFile.contentType path) with maxAge := fileMaxAge }

/-! ## Routes -/

/-- Whether one of the servers can be reached that have to be. -/
def isHealthy (s : Server) : Bool :=
  let targets := s.settings.health.targets
  targets.isEmpty || (s.world.probes targets).any fun a => (s.world.network a).toBool

/-- The paths that are the server's own. -/
inductive Route
  | index
  | redirect
  | usage
  | status
  | threads
  | parameters
  | startRecording
  | stopRecording
  | shutdown (kind : ShutdownKind)
  | tunnel
  | validate
  | health
  deriving DecidableEq, Repr

/-- The words for the routes. -/
def Route.words : List (String × Route) :=
  [("", .index), ("URL", .redirect), ("_usage", .usage), ("_status", .status),
    ("_threads", .threads), ("_param", .parameters), ("_startrecord", .startRecording),
    ("_stoprecord", .stopRecording), ("_shutdown", .shutdown .normal),
    ("_shutdownloop", .shutdown .loop), ("_rpc", .tunnel), ("_validate", .validate),
    ("_health", .health)]

/-- The route of a word. -/
def Route.of? (word : String) : Option Route := Route.words.lookup word

/-- Starts a recording. -/
def startRecording (now : Nat) : Step Routed := do
  let st ← get
  let (started, recorder, files) := st.recorder.start now st.files
  set { st with recorder, files }
  return if started then .text "Recording started" else .response .serverError

/-- The text about one method or all. -/
def validationText (s : Server) (connection : Connection) (r : Http.Request)
    (args : Option (Dict String String)) : Step String := do
  let d := s.dispatch connection (← get)
  let request := outerRequest r (args.getD ∅)
  match args.bind (·.get? "method") with
  | some name =>
    let ((_, text), elapsed) := s.registry.validate d request name
    pass elapsed
    return text
  | none =>
    let (report, elapsed) := s.registry.validateAll d request
    pass elapsed
    return report.text

/-- Answers a request on one of the server's own paths. -/
def serveRoute (s : Server) (connection : Connection) (now : Nat) (r : Http.Request) :
    Route → Step Routed
  | .index =>
    return .html (Page.rootForm s.registry ((r.args?.bind (·.get? "mock")).getD ""))
  | .redirect =>
    match Text.trim r.argumentText.toList with
    | [] => return .response .notFound
    | target => return .html (Page.redirect (String.ofList target))
  | .usage => do
    let st ← get
    return .html (Page.usage now st.tracker st.connections)
  | .status => return .text s.world.processStatus
  | .threads => return .text s.world.threads
  | .parameters => return .text (Page.parameters s.network s.settings)
  | .startRecording => startRecording now
  | .stopRecording => do
    modify fun st => { st with recorder := st.recorder.stop }
    return .text "Recording stopped"
  | .shutdown kind => do
    modify fun st => { st with lifecycle := st.lifecycle.trigger kind }
    return .text "Preparing to shutdown...\n"
  | .tunnel => do
    let reply ← dispatchFrame s connection now r.body (some (outerRequest r ∅))
    return .response
      { Http.Response.ok (reply.getD []) "" with contentType := "application/octet-stream" }
  | .validate => do return .text (← validationText s connection r r.args?)
  | .health => do
    if (← get).lifecycle.phase ≠ .ready then return .response .busy
    else if s.isHealthy then return .text "OK"
    else return .response .serverError

/-- Answers a request. -/
def route (s : Server) (connection : Connection) (now : Nat) (r : Http.Request) : Step Routed :=
  match Route.of? r.methodName with
  | some route => serveRoute s connection now r route
  | none =>
    match s.registry.get? r.methodName with
    | some h => jsonCall s connection now h r
    -- what names neither a route nor a method may still name a file
    | none => staticFile s r.methodName

/-- What is done with an HTTP request that has an answer. A body that is sent alone has no announced
end, so the connection is closed behind it. -/
def processedHttp (r : Http.Request) : Routed → Processed
  | .response response => ⟨{ response with keepAlive := r.keepAlive }.toBytes, r.keepAlive⟩
  | .bare body => ⟨body, false⟩

/-- Processes an HTTP request. -/
def processHttp (s : Server) (connection : Connection) (now : Nat) (bytes : Bytes) :
    Step Processed := do
  match Http.Request.ofBytes? bytes with
  | none => return .close
  | some r => return processedHttp r (← route s connection now r)

/-- Processes a request as it was cut from the stream. What was cut off is processed only if it
holds a complete request after all. -/
def process (s : Server) (connection : Connection) (now : Nat) (r : RawRequest) :
    Step Processed := do
  if !r.complete && (Boundary.of? r.bytes).isNone then return .close
  else
    modify fun st => { st with requests := st.requests + 1 }
    match r.framing with
    | .binary =>
      return processedFrame (← dispatchFrame s connection now r.bytes none)
    | .http => processHttp s connection now r.bytes

end Switchboard.Server
