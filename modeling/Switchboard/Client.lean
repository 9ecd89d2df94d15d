import Switchboard.Address
import Switchboard.Envelope

/-!
# Clients

A client keeps a binary connection to a server and sends one request at a time over it. What the
other side does is described by what has been heard from it after all that has been said to it,
so a conversation has no hidden state besides the two byte strings.
-/

namespace Switchboard

/-! ## The other side -/

/-- What has been heard from the other side of a connection. -/
structure Heard where
  bytes : Bytes
  /-- Whether nothing more will come. -/
  closed : Bool
  /-- How many milliseconds have passed since the last byte was sent. -/
  delay : Nat

/-- The other side of a connection: what is heard from it after what has been said to it. -/
abbrev Remote := Bytes → Heard

/-- Who can be reached: the other side at an address, or why there is none. -/
abbrev Network := Address → Except String Remote

/-! ## Failures -/

/-- Why a call has no reply. -/
inductive CallFault
  /-- The connection could not be made, or broke. -/
  | connection (reason : String)
  /-- What came back is no reply. -/
  | malformed (fault : MessagePack.Fault)
  /-- The method failed. -/
  | remote (message : String)
  /-- The connection was closed in order. -/
  | closed
  /-- No reply came within the given number of milliseconds. -/
  | late (limit : Nat)
  /-- No reply will ever come. -/
  | silent
  deriving DecidableEq, Repr

/-- A number of milliseconds, in seconds if there is at least one. -/
def Text.duration (ms : Nat) : String :=
  if ms = 0 then "0ns"
  else if ms < 1000 then decimal ms ++ "ms"
  else
    let rest := ms % 1000
    let digits := (padded 3 rest).toList.reverse.dropWhile (· == '0')
    decimal (ms / 1000) ++
      (if rest = 0 then "" else "." ++ String.ofList digits.reverse) ++ "s"

/-- The sentence about a failure. -/
def CallFault.message : CallFault → String
  | .connection reason => "connection failed: " ++ reason
  | .malformed fault => "msgpack decode failed: " ++ fault.message
  | .remote message => "remote error: " ++ message
  | .closed => "connection closed before a reply arrived"
  | .late limit => "call timed out after " ++ Text.duration limit
  | .silent => "no reply"

/-! ## Calls -/

/-- A client in a conversation. -/
structure Client where
  remote : Remote
  /-- The name that requests carry which have no other. -/
  userAgent : String
  /-- All that has been sent. -/
  sent : Bytes := []
  /-- How many of the bytes heard have been read as replies. -/
  taken : Nat := 0

namespace Client

/-- The name of a client that is given no other. -/
def defaultUserAgent : String := "rpcserve-client"

/-- The longest body of a reply, and of a request. -/
def maxReply : Nat := 100000000

/-- The sentence about a longer body, whichever way it goes. -/
def tooBig : String := "frame size too big"

/-- A client that has just connected. -/
def connect (remote : Remote) : Client := { remote, userAgent := defaultUserAgent }

/-- A request with the name of the client, unless it has one. -/
def sign (userAgent : String) (r : Request) : Request :=
  { r with headers := r.headers.insertIfNew "user-agent" userAgent }

/-- The body of the next reply among what was heard, with the number of bytes it takes. -/
def nextReply (heard : Heard) (taken : Nat) : Except CallFault (Bytes × Nat) :=
  let rest := heard.bytes.drop taken
  match Frame.length? rest with
  | some total =>
    if maxReply < total - Frame.prefixLength then .error (.connection tooBig)
    else if total ≤ rest.length then .ok ((rest.take total).drop Frame.prefixLength, total)
    else .error (if heard.closed then .connection "bytes remaining on stream" else .silent)
  | none =>
    .error (if !heard.closed then .silent
      else if rest.isEmpty then .closed
      else .connection "bytes remaining on stream")

/-- The frame of a request, unless its body is too long. -/
def frameOf (r : Request) : Except CallFault Bytes :=
  if maxReply < (toBinary r).length then .error (.connection tooBig)
  else (Frame.ofValue r).mapError fun fault => .connection fault.message

/-- Sends a request and waits for its reply. -/
def exchange (c : Client) (r : Request) : Except CallFault Reply × Client :=
  match frameOf (sign c.userAgent r) with
  | .error fault => (.error fault, c)
  | .ok frame =>
    let c := { c with sent := c.sent ++ frame }
    match nextReply (c.remote c.sent) c.taken with
    | .error fault => (.error fault, c)
    | .ok (body, total) =>
      let c := { c with taken := c.taken + total }
      match (ofBinary body : Except MessagePack.Fault Reply) with
      | .ok reply => (.ok reply, c)
      | .error fault => (.error (.malformed fault), c)

/-- Sends a request and waits for its reply at most so many milliseconds. -/
def exchangeWithin (c : Client) (limit : Nat) (r : Request) : Except CallFault Reply × Client :=
  let (answer, c') := c.exchange r
  match answer with
  | .error .silent => (.error (.late limit), c')
  | answer => if limit ≤ (c'.remote c'.sent).delay then (.error (.late limit), c') else (answer, c')

/-- The output in a reply. -/
def outputOf {β : Type} [Payload β] (answer : Except CallFault Reply) : Except CallFault β := do
  let reply ← answer
  if reply.success then
    match (reply.output : Except MessagePack.Fault β) with
    | .ok output => .ok output
    | .error fault => .error (.malformed fault)
  else .error (.remote reply.errorMessage)

/-- Calls a method with an input. -/
def call {α β : Type} [Payload α] [Payload β] (c : Client) (name : String) (input : α) :
    Except CallFault β × Client :=
  let (answer, c) := c.exchange (Request.plain name (toBinary input))
  (outputOf answer, c)

/-- Calls a method with an input and waits at most so many milliseconds. -/
def callWithin {α β : Type} [Payload α] [Payload β] (c : Client) (limit : Nat) (name : String)
    (input : α) : Except CallFault β × Client :=
  let (answer, c) := c.exchangeWithin limit (Request.plain name (toBinary input))
  (outputOf answer, c)

end Client

end Switchboard
