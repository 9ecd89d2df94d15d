import Switchboard.Proofs.Protocols
import Switchboard.Server.Routes

/-!
# What handlers are asked to do

Whether a request reaches a handler cannot be told from what the server answers: a handler may
refuse an input in the words in which the server would have refused it. So the steps of a server are
taken once more, and it is noted which handler is asked to process which request (`Noted.ask`).
Wherever a step asks nobody it is taken as it is (`Noted.still`). `Notes` says that a noted step is
the step that it notes, and it does for the processing of any request (`notes_process`).
-/

namespace Switchboard.Server

/-! ## Noted steps -/

/-- A request that a handler is asked to process. -/
structure Invocation where
  handler : Handler
  dispatch : Dispatch
  request : Request
  protocol : Protocol
  layout : Json.Layout

/-- What the handler answers. -/
def Invocation.answer (i : Invocation) : Answer :=
  i.handler.process i.dispatch i.request i.protocol i.layout

/-- A step of a server of which it is noted what handlers are asked to do. The notes are kept if the
step fails. -/
def Noted (α : Type) : Type 1 := State → List Invocation × Except Oversize (α × State)

namespace Noted

instance : Monad Noted where
  pure a := fun st => ([], .ok (a, st))
  bind m f := fun st =>
    match m st with
    | (asked, .error e) => (asked, .error e)
    | (asked, .ok (a, st')) => (asked ++ (f a st').1, (f a st').2)

/-- A step in which nobody is asked. -/
def still {α : Type} (m : Step α) : Noted α := fun st => ([], m st)

/-- A handler is asked, and answers. -/
def ask (i : Invocation) : Noted Answer := fun st => ([i], .ok (i.answer, st))

section

variable {α β : Type} {w : Noted α} {f : α → Noted β} {st st' : State} {asked : List Invocation}

/-- What is noted of two steps stands in their order, and behind a failure nothing more is noted. -/
theorem bind_eq (w : Noted α) (f : α → Noted β) (st : State) :
    (w >>= f) st = match w st with
      | (asked, .error e) => (asked, .error e)
      | (asked, .ok (a, st')) => (asked ++ (f a st').1, (f a st').2) := rfl

theorem bind_of_ok {a : α} (h : w st = (asked, .ok (a, st'))) :
    (w >>= f) st = (asked ++ (f a st').1, (f a st').2) := by
  rw [bind_eq, h]

theorem bind_of_error {e : Oversize} (h : w st = (asked, .error e)) :
    (w >>= f) st = (asked, .error e) := by
  rw [bind_eq, h]

end

end Noted

open Noted (still ask)

/-! ## The steps of a server, noted -/

/-- Has a handler answer, in a call that is tracked from its begin to its end, as `tracked` does. -/
def notedTracked (s : Server) (now : Nat) (name : String) (protocol : Protocol) (input : String)
    (invocation : State → Invocation) : Noted (Reply × Nat) := do
  let st ← still get
  let (id, tracker) := st.tracker.begin now name protocol input
  still (modify fun st => { st with tracker })
  let st ← still get
  let answer ← ask (invocation st)
  let ended := s.later now answer.elapsed
  still (pass answer.elapsed)
  still (modify fun st => { st with tracker := st.tracker.finish ended id })
  let reply ← still answer.reply
  return (reply, ended)

/-- Has a handler answer in a tracked call that is recorded, as `recorded` does. -/
def notedRecorded (s : Server) (now : Nat) (h : Handler) (protocol : Protocol) (input : String)
    (invocation : State → Invocation) (shown : Reply → String) : Noted Reply := do
  let recording ← still (recordsNow now h)
  if recording then still (recordInput now h.name input)
  let (reply, ended) ← notedTracked s now h.name protocol input invocation
  if recording then still (recordOutput ended h.name reply.success (shown reply))
  return reply

/-- Answers the request in a frame, as `dispatchFrame` does. -/
def notedFrame (s : Server) (connection : Connection) (now : Nat) (frame : Bytes)
    (outer : Option Request) : Noted (Option Bytes) :=
  match (Frame.value frame : Except Frame.Fault Request) with
  | .error _ => still (return none)
  | .ok request =>
    match s.registry.get? request.name with
    | none => still (return none)
    | some h => do
      let input := h.inputToJson .compact request.payload
      let request := outer.elim request request.merge
      let invocation := fun st => ⟨h, s.dispatch connection st, request, .binary, .compact⟩
      let reply ← notedRecorded s now h .binary input invocation (shownResult h)
      return (Frame.ofValue reply).toOption

/-- Calls a method with the input in the arguments, as `callMethod` does. -/
def notedMethod (s : Server) (connection : Connection) (now : Nat) (h : Handler)
    (r : Http.Request) (args : Dict String String) : Noted Routed := do
  let invocation := fun st =>
    ⟨h, s.dispatch connection st, jsonRequest h r args, .json, layoutOf s.settings.debugJson args⟩
  let reply ← notedRecorded s now h .json (inputOf args) invocation
    fun reply => Utf8.toStringLossy reply.payload
  return (Presentation.ofArgs args).json reply.payload reply.cookies

/-- Answers a call of a method, as `jsonCall` does. -/
def notedJson (s : Server) (connection : Connection) (now : Nat) (h : Handler)
    (r : Http.Request) : Noted Routed :=
  match r.args? with
  | none =>
    still (return Routed.json none false (Handler.jsonError "Unable to parse CGI arguments.") [])
  | some args =>
    let presentation := Presentation.ofArgs args
    if !hasInput h args then
      still (return presentation.json (Handler.jsonError "Missing input (q).") [])
    else
      match args.get? "e" with
      | some value => still do
        pass (delaySeconds value * 1000)
        return presentation.json (Handler.jsonError "Caller-requested error.") []
      | none => do
        still (pass (s.delay args))
        notedMethod s connection (s.later now (s.delay args)) h r args

/-- Answers a request on one of the server's own paths. Only one of them leads to a handler. -/
def notedRoute (s : Server) (connection : Connection) (now : Nat) (r : Http.Request) :
    Route → Noted Routed
  | .tunnel => do
    let reply ← notedFrame s connection now r.body (some (outerRequest r ∅))
    return .response
      { Http.Response.ok (reply.getD []) "" with contentType := "application/octet-stream" }
  | other => still (serveRoute s connection now r other)

/-- Answers a request, as `route` does. -/
def notedRouted (s : Server) (connection : Connection) (now : Nat) (r : Http.Request) :
    Noted Routed :=
  match Route.of? r.methodName with
  | some route => notedRoute s connection now r route
  | none =>
    match s.registry.get? r.methodName with
    | some h => notedJson s connection now h r
    | none => still (staticFile s r.methodName)

/-- Processes an HTTP request, as `processHttp` does. -/
def notedHttp (s : Server) (connection : Connection) (now : Nat) (bytes : Bytes) :
    Noted Processed :=
  match Http.Request.ofBytes? bytes with
  | none => still (return .close)
  | some r => do return processedHttp r (← notedRouted s connection now r)

/-- Processes a request, as `process` does. -/
def notedProcess (s : Server) (connection : Connection) (now : Nat) (r : RawRequest) :
    Noted Processed :=
  if !r.complete && (Boundary.of? r.bytes).isNone then still (return .close)
  else do
    still (modify fun st => { st with requests := st.requests + 1 })
    match r.framing with
    | .binary => return processedFrame (← notedFrame s connection now r.bytes none)
    | .http => notedHttp s connection now r.bytes

/-! ## Noting changes nothing -/

section

variable {α β : Type} {w : Noted α} {m : Step α}

/-- Whether a noted step is the step that it notes. -/
def Notes (w : Noted α) (m : Step α) : Prop := ∀ st, (w st).2 = m st

namespace Notes

theorem still (m : Step α) : Notes (still m) m := fun _ => rfl

theorem pure (a : α) : Notes (return a) (return a) := fun _ => rfl

/-- Two noted steps note two steps one after the other. -/
theorem bind {f : α → Noted β} {g : α → Step β} (hw : Notes w m) (hf : ∀ a, Notes (f a) (g a)) :
    Notes (w >>= f) (m >>= g) := by
  intro st
  show ((w >>= f) st).2 = (m st >>= fun p => g p.1 p.2)
  rw [← hw st]
  rcases hrun : w st with ⟨asked, e | ⟨a, st'⟩⟩
  · rw [Noted.bind_of_error hrun]
    rfl
  · rw [Noted.bind_of_ok hrun]
    exact hf a st'

/-- Whoever is asked answers at once, and the step goes on with the answer. -/
theorem ask {i : Invocation} {f : Answer → Noted β} {g : Step β} (h : Notes (f i.answer) g) :
    Notes (Noted.ask i >>= f) g := by
  intro st
  have hasked : Noted.ask i st = ([i], .ok (i.answer, st)) := rfl
  rw [Noted.bind_of_ok hasked]
  exact h st

end Notes

/-- Whoever is asked to make a tracked call answers it. -/
theorem notes_tracked (s : Server) (now : Nat) (name : String) (protocol : Protocol)
    (input : String) (invocation : State → Invocation) :
    Notes (notedTracked s now name protocol input invocation)
      (tracked s now name protocol input fun st => (invocation st).answer) := by
  apply Notes.bind (.still _)
  intro st
  apply Notes.bind (.still _)
  intro _
  apply Notes.bind (.still _)
  intro st'
  apply Notes.ask
  apply Notes.bind (.still _)
  intro _
  apply Notes.bind (.still _)
  intro _
  exact .bind (.still _) fun _ => .pure _

/-- A recorded call asks nobody else. -/
theorem notes_recorded (s : Server) (now : Nat) (h : Handler) (protocol : Protocol) (input : String)
    (invocation : State → Invocation) (shown : Reply → String) :
    Notes (notedRecorded s now h protocol input invocation shown)
      (recorded s now h protocol input (fun st => (invocation st).answer) shown) := by
  apply Notes.bind (.still _)
  intro recording
  cases recording with
  | true =>
    apply Notes.bind (.still _)
    intro _
    apply Notes.bind (notes_tracked _ _ _ _ _ _)
    intro _
    apply Notes.bind (.still _)
    intro _
    exact .pure _
  | false =>
    apply Notes.bind (notes_tracked _ _ _ _ _ _)
    intro _
    exact .pure _

/-- A frame is dispatched as it is without the notes. -/
theorem notes_frame (s : Server) (connection : Connection) (now : Nat) (frame : Bytes)
    (outer : Option Request) :
    Notes (notedFrame s connection now frame outer)
      (dispatchFrame s connection now frame outer) := by
  unfold notedFrame dispatchFrame
  cases (Frame.value frame : Except Frame.Fault Request) with
  | error fault => exact .still _
  | ok request =>
    dsimp only
    cases s.registry.get? request.name with
    | none => exact .still _
    | some h => exact .bind (notes_recorded _ _ _ _ _ _ _) fun _ => .pure _

/-- So is a method called with JSON. -/
theorem notes_method (s : Server) (connection : Connection) (now : Nat) (h : Handler)
    (r : Http.Request) (args : Dict String String) :
    Notes (notedMethod s connection now h r args) (callMethod s connection now h r args) :=
  .bind (notes_recorded _ _ _ _ _ _ _) fun _ => .pure _

/-- A call with JSON that does not lead to the method asks nobody. -/
theorem notes_json (s : Server) (connection : Connection) (now : Nat) (h : Handler)
    (r : Http.Request) :
    Notes (notedJson s connection now h r) (jsonCall s connection now h r) := by
  unfold notedJson jsonCall
  cases r.args? with
  | none => exact .still _
  | some args =>
    dsimp only
    by_cases hinput : hasInput h args
    · simp only [hinput, Bool.not_true, Bool.false_eq_true, if_false]
      cases args.get? "e" with
      | some value => exact .still _
      | none => exact .bind (.still _) fun _ => notes_method s connection _ h r args
    · simp only [hinput, Bool.not_false, if_true]
      exact .still _

/-- Of the routes only the methods and the tunnel ask somebody. -/
theorem notes_routed (s : Server) (connection : Connection) (now : Nat) (r : Http.Request) :
    Notes (notedRouted s connection now r) (route s connection now r) := by
  unfold notedRouted route
  cases Route.of? r.methodName with
  | some route =>
    dsimp only
    cases route with
    | tunnel =>
      apply Notes.bind (notes_frame _ _ _ _ _)
      intro reply
      exact .pure _
    | _ => exact .still _
  | none =>
    dsimp only
    cases s.registry.get? r.methodName with
    | some h => exact notes_json s connection now h r
    | none => exact .still _

/-- The processing of an HTTP request is noted, whatever it leads to. -/
theorem notes_http (s : Server) (connection : Connection) (now : Nat) (bytes : Bytes) :
    Notes (notedHttp s connection now bytes) (processHttp s connection now bytes) := by
  unfold notedHttp processHttp
  cases Http.Request.ofBytes? bytes with
  | none => exact .still _
  | some r => exact .bind (notes_routed s connection now r) fun _ => .pure _

/-- Noting what handlers are asked to do changes nothing about the processing of a request. -/
theorem notes_process (s : Server) (connection : Connection) (now : Nat) (r : RawRequest) :
    Notes (notedProcess s connection now r) (process s connection now r) := by
  unfold notedProcess process
  split
  · exact .still _
  · apply Notes.bind (.still _)
    intro _
    cases r.framing with
    | binary => exact .bind (notes_frame _ _ _ _ _) fun _ => .pure _
    | http => exact notes_http s connection now r.bytes

end

end Switchboard.Server
