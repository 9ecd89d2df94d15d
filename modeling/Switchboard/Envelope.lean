import Switchboard.Frame
import Switchboard.Headers

/-!
# Requests and replies

A call travels as a request and is answered by a reply. Both carry the typed value as bytes
whose form is settled by whoever reads them, and around it what concerns the caller: cookies,
headers and arguments on the way in, cookies to set on the way out. On a binary connection each
of the two is the value in a frame.
-/

namespace Switchboard

/-! ## Requests -/

/-- A call as it travels. -/
structure Request where
  /-- The name of the method; empty where the transport names it in another place. -/
  name : String
  /-- The form of the input value. -/
  payload : Bytes
  referrer : String
  /-- The cookies as one header line. -/
  cookie : String
  headers : Headers
  /-- The arguments that steer the presentation and not the method. -/
  args : Dict String String
  deriving DecidableEq

namespace Request

/-- A request for a method, with nothing but its payload. -/
def plain (name : String) (payload : Bytes) : Request := ⟨name, payload, "", "", ∅, ∅⟩

instance : Inhabited Request := ⟨plain "" []⟩

/-- The shape of a request on the wire. -/
def shape : Shape :=
  .record "RequestEnvelope" (.field "opname" .text .required (.field "payload" .bytes .required
    (.field "referrer" .text .required (.field "cookie" .text .required
      (.field "http_header" (.dict .text) .required
        (.field "arg_map" (.dict .text) .required .done))))))

instance : Payload Request where
  shape := shape
  toData r := (r.name, r.payload, r.referrer, r.cookie, r.headers.entries, r.args, ())
  ofData := fun (name, payload, referrer, cookie, headers, args, _) =>
    ⟨name, payload, referrer, cookie, Headers.ofDict headers, args⟩
  ofData_toData r := by simp [Headers.ofDict_entries]

/-- The cookies of an outer request in front of those of an inner one, so that the inner ones
are read last and count. -/
def joinCookies (outer inner : String) : String :=
  if outer.isEmpty then inner
  else if inner.isEmpty then outer
  else outer ++ "; " ++ inner

/-- The request with what concerns the caller taken over from the request that carried it.
What the request has of its own stays. -/
def merge (own outer : Request) : Request :=
  { own with
    referrer := if own.referrer.isEmpty then outer.referrer else own.referrer
    cookie := joinCookies outer.cookie own.cookie
    headers := outer.headers.toList.foldl (fun h e => h.insertIfNew e.1 e.2) own.headers
    args := outer.args.toList.foldl (fun d e => d.insertIfNew e.1 e.2) own.args }

end Request

/-! ## Replies -/

/-- The answer to a request. -/
structure Reply where
  /-- Whether the payload is the output value; if not, it is an error message. -/
  success : Bool
  payload : Bytes
  /-- Complete cookie lines, in the order in which they were set. -/
  cookies : List String
  deriving DecidableEq

/-- What a failed call says. -/
structure ErrorMessage where
  text : String
  deriving DecidableEq, Repr

instance : Payload ErrorMessage where
  shape := .record "ErrorMessage" (.field "error_msg" .text .required .done)
  toData e := (e.text, ())
  ofData := fun (text, _) => ⟨text⟩
  ofData_toData _ := rfl

namespace Reply

instance : Inhabited Reply := ⟨⟨false, [], []⟩⟩

/-- The shape of a reply on the wire. -/
def shape : Shape :=
  .record "ReplyEnvelope" (.field "success" .flag .required (.field "payload" .bytes .required
    (.field "cookies" (.list .text) .required .done)))

instance : Payload Reply where
  shape := shape
  toData r := (r.success, r.payload, r.cookies, ())
  ofData := fun (success, payload, cookies, _) => ⟨success, payload, cookies⟩
  ofData_toData _ := rfl

/-- The output of a call whose output type is known to the caller. -/
def output {α : Type} [Payload α] (r : Reply) : Except MessagePack.Fault α := ofBinary r.payload

/-- The message of a failed call; a payload that is no message is shown as text. -/
def errorMessage (r : Reply) : String :=
  match (ofBinary r.payload : Except MessagePack.Fault ErrorMessage) with
  | .ok e => e.text
  | .error _ => Utf8.toStringLossy r.payload

end Reply

end Switchboard
