import Switchboard.Json.Read
import Switchboard.Json.Write
import Switchboard.Registry

/-!
# Performing calls

Here the actions of methods are carried out: cookies are collected, time is counted, requests to
other servers are sent, and calls by name find their method in a registry. A call that comes from
outside is answered in the form in which it came, binary or JSON; in both forms it is the same
method that runs on the same input for the same caller.
-/

namespace Switchboard

/-! ## The stage -/

/-- The largest outputs that may be sent, in bytes. -/
structure Limits where
  binary : Nat := 100000000
  json : Nat := 100000000
  deriving DecidableEq, Repr

/-- What a server brings to every call. -/
structure Dispatch where
  connection : Connection
  settings : SessionSettings
  limits : Limits
  /-- The methods that can be called by name, if any can. -/
  registry : Option Registry
  /-- Who can be reached from the server. -/
  network : Network
  /-- The session of a caller without one. -/
  freshSession : String
  /-- How deep calls by name may lead to calls by name. A real server sets no bound, and calls that
  lead to calls without end never come back. Here everything comes to an end, so there has to be
  one; what is proved about calls by name holds for each. -/
  depth : Nat := 1000

/-- How far a call has come. -/
structure Progress where
  context : Context
  /-- How many milliseconds it has taken. -/
  elapsed : Nat
  /-- The requests it has sent to other servers. -/
  sent : List (Address × Request)

/-- A computation on the stage. -/
abbrev Stage := StateM Progress

/-- Calls by name. -/
abbrev Cascades :=
  (name : String) → (input output : Shape) → input.Data → Stage (Except String output.Data)

namespace Stage

/-- Does something for a nested context, and adds the cookies that were set to those of the
caller. -/
def nested {α : Type} (body : Stage α) : Stage α := do
  let outer := (← get).context
  modify fun p => { p with context := outer.nested }
  let a ← body
  modify fun p => { p with context := { outer with outbox := outer.outbox ++ p.context.outbox } }
  return a

/-- The reply to a request, with the milliseconds until it is there. -/
def reach (network : Network) (address : Address) (request : Request) (limit : Nat) :
    Except CallFault Reply × Nat :=
  match network address with
  | .error reason => (.error (.connection reason), 0)
  | .ok remote =>
    let (answer, client) := (Client.connect remote).exchangeWithin limit request
    -- nobody waits longer than the limit
    (answer, min limit (client.remote client.sent).delay)

end Stage

/-- Carries out the actions of a method. -/
def Action.perform (network : Network) (cascades : Cascades) {α : Type} : Action α → Stage α
  | .pure a => return a
  | .look next => do (next (← get).context).perform network cascades
  | .push line next => do
    modify fun p => { p with context := p.context.push line }
    next.perform network cascades
  | .sleep ms next => do
    modify fun p => { p with elapsed := p.elapsed + ms }
    next.perform network cascades
  | .within body next => do
    let b ← Stage.nested (body.perform network cascades)
    (next b).perform network cascades
  | .cascade name input output data next => do
    let r ← cascades name input output data
    (next r).perform network cascades
  | .exchange address request limit next => do
    let (answer, delay) := Stage.reach network address request limit
    modify fun p =>
      { p with elapsed := p.elapsed + delay, sent := p.sent ++ [(address, request)] }
    (next answer).perform network cascades

/-! ## Calls by name -/

namespace Cascade

/-- The sentence about a call by name where there are no methods. -/
def noRegistry (name : String) : String := "cannot cascade to " ++ name ++ ": no method registry"

/-- The sentence about a call of a method that is not there. -/
def unknownMethod (name : String) : String := "cannot cascade to unknown method: " ++ name

/-- The sentence about a call with an input of the wrong type. -/
def wrongInput (name : String) : String := "cascade input type mismatch for method: " ++ name

/-- The sentence about a call for an output of the wrong type. -/
def wrongOutput (name : String) : String := "cascade output type mismatch for method: " ++ name

/-- The sentence about calls that lead to calls without end. No real server says so; it stands for
the answer that never comes (see `Dispatch.depth`). -/
def tooDeep (name : String) : String := "cannot cascade to " ++ name ++ ": calls nest too deeply"

/-- The output as data of the shape that is asked for. -/
def asShape (name : String) (output wanted : Shape) (data : output.Data) :
    Except String wanted.Data :=
  if h : output = wanted then .ok (h ▸ data) else .error (wrongOutput name)

end Cascade

/-- Calls by name that may nest so deep. The types are compared before and after the method
runs, and the cookies that it sets are kept in either case. -/
def Dispatch.cascades (d : Dispatch) : (depth : Nat) → Cascades
  | 0, name, _, _, _ => return .error (Cascade.tooDeep name)
  | depth + 1, name, input, output, data =>
    match d.registry with
    | none => return .error (Cascade.noRegistry name)
    | some registry =>
      match registry.get? name with
      | none => return .error (Cascade.unknownMethod name)
      | some handler =>
        if h : input = handler.method.input then do
          -- the method runs before anybody looks at the type of its output
          let run := handler.method.cascadeTo handler.name (h ▸ data)
          match ← run.perform d.network (d.cascades depth) with
          | .error message => return .error message
          | .ok result => return Cascade.asShape name handler.method.output output result
        else return .error (Cascade.wrongInput handler.name)

namespace Dispatch

/-- The context of a request. -/
def context (d : Dispatch) (r : Request) : Context :=
  Context.ofRequest d.connection d.settings d.freshSession r

/-- Carries out actions on the stage. -/
def perform (d : Dispatch) {α : Type} (action : Action α) : Stage α :=
  action.perform d.network (d.cascades d.depth)

/-- Carries out actions for a request. -/
def start (d : Dispatch) {α : Type} (r : Request) (action : Action α) : α × Progress :=
  (d.perform action).run ⟨d.context r, 0, []⟩

end Dispatch

/-! ## Calls from outside -/

/-- A successful output is larger than the server is meant to send. That is an error of whoever
set up the server, and puts an end to it. -/
structure Oversize where
  protocol : Protocol
  size : Nat
  limit : Nat
  deriving DecidableEq, Repr

/-- What came of a call. -/
structure Answer where
  /-- The reply, unless its payload is too large. -/
  reply : Except Oversize Reply
  /-- How many milliseconds the call took. -/
  elapsed : Nat
  /-- The requests that it sent to other servers. -/
  sent : List (Address × Request)

namespace Answer

/-- The answer to a call that never came to its method. -/
def refused (payload : Bytes) : Answer := ⟨.ok ⟨false, payload, []⟩, 0, []⟩

end Answer

namespace Handler

/-- What a caller is told whose binary input cannot be read. -/
def unreadable : String := "RPC parsing error -- server mismatch?"

/-- What is shown in place of a binary payload that cannot be read. -/
def unreadableJson : String := "[Error in RPC string]"

/-- An error message in the binary form. -/
def binaryError (message : String) : Bytes := toBinary (⟨message⟩ : ErrorMessage)

/-- An error message in the JSON form. -/
def jsonError (message : String) : Bytes :=
  match toJsonText .pretty (⟨message⟩ : ErrorMessage) with
  | .ok text => Utf8.ofString text
  | .error _ => Utf8.ofString message

/-- The reply with an output or an error message, in a form. -/
def replyOf {α : Type} (protocol : Protocol) (limit : Nat) (write : α → Except String Bytes)
    (fail : String → Bytes) (cookies : List String) : Except String α → Except Oversize Reply
  | .error message => .ok ⟨false, fail message, cookies⟩
  | .ok output =>
    match write output with
    | .error message => .ok ⟨false, fail message, cookies⟩
    | .ok payload =>
      if limit < payload.length then .error ⟨protocol, payload.length, limit⟩
      else .ok ⟨true, payload, cookies⟩

/-- Answers a call in the binary form. -/
def processBinary (h : Handler) (d : Dispatch) (r : Request) : Answer :=
  match h.method.input.ofBinary r.payload with
  | .error _ => .refused (binaryError unreadable)
  | .ok input =>
    let (result, p) := d.start r (h.method.run h.name input)
    let write := fun data => .ok (h.method.output.pack data)
    ⟨replyOf .binary d.limits.binary write binaryError p.context.outbox result, p.elapsed, p.sent⟩

/-- Answers a call in the JSON form. -/
def processJson (h : Handler) (d : Dispatch) (r : Request) (layout : Json.Layout) : Answer :=
  match h.method.input.ofJsonText (Utf8.toStringLossy r.payload) with
  | .error fault => .refused (jsonError fault.message)
  | .ok input =>
    let (result, p) := d.start r (h.method.run h.name input)
    let write := fun data =>
      ((h.method.output.toJsonText layout data).map Utf8.ofString).mapError Json.Fault.message
    ⟨replyOf .json d.limits.json write jsonError p.context.outbox result, p.elapsed, p.sent⟩

/-- What the method finds when it checks itself, with the milliseconds that takes. -/
def validate (h : Handler) (d : Dispatch) (r : Request) : (Verdict × String) × Nat :=
  let (found, p) := d.start r h.method.validate
  (found, p.elapsed)

/-- A binary payload of a shape as JSON. -/
def showPayload (shape : Shape) (layout : Json.Layout) (payload : Bytes) : String :=
  match shape.ofBinary payload with
  | .error _ => unreadableJson
  | .ok data =>
    match shape.toJsonText layout data with
    | .ok text => text
    | .error _ => unreadableJson

/-- A binary input as JSON. -/
def inputToJson (h : Handler) (layout : Json.Layout) (payload : Bytes) : String :=
  showPayload h.method.input layout payload

/-- A binary output as JSON. -/
def outputToJson (h : Handler) (payload : Bytes) : String :=
  showPayload h.method.output .compact payload

/-- The input that shows how to call the method, as JSON. -/
def sampleJson (h : Handler) : String :=
  match h.method.input.toJsonText .pretty h.sample with
  | .ok text => text
  | .error _ => ""

end Handler

end Switchboard
