import Switchboard.Method

/-!
# Forwarding

A method can stand for a method of another server. It sends that server its input together with
all that concerns the caller, and takes over the cookies and the result of the reply.
-/

namespace Switchboard

/-- The method of another server. -/
structure ForwardEntry where
  /-- The name of the server. -/
  identity : String
  /-- The name of the method there. -/
  method : String
  /-- How many milliseconds a call may take. -/
  limit : Nat := 30000
  deriving DecidableEq, Repr

/-- Where the servers of some names are. -/
abbrev Directory := String → Option Address

namespace Forward

/-- The address of the server. -/
def resolve (directory : Directory) (entry : ForwardEntry) : Except String Address :=
  match directory entry.identity with
  | some address => .ok address
  | none => .error ("no address for server " ++ entry.identity)

/-- The request that carries a call on. -/
def request (entry : ForwardEntry) (payload : Bytes) (caller : Context) : Request where
  name := entry.method
  payload := payload
  referrer := caller.referrer
  cookie := caller.cookieLine
  headers := caller.headers
  args := caller.args

/-- The sentence about an exchange without a reply. -/
def faultMessage (entry : ForwardEntry) : CallFault → String
  | .late _ => "forward to " ++ entry.method ++ " timed out"
  | fault => fault.message

/-- Takes over the cookies of a reply. -/
def pushAll : List String → Action Unit
  | [] => .pure ()
  | line :: lines => .push line (pushAll lines)

/-- The result in a reply. -/
def result (output : Shape) (reply : Reply) : Except String output.Data :=
  if reply.success then
    match output.ofBinary reply.payload with
    | .ok data => .ok data
    | .error fault => .error ("msgpack decode failed: " ++ fault.message)
  else .error reply.errorMessage

/-- Carries a call on to the other server. -/
def call (directory : Directory) (entry : ForwardEntry) (input output : Shape)
    (data : input.Data) : Action (Except String output.Data) := do
  match resolve directory entry with
  | .error message => return .error message
  | .ok address =>
    let r := request entry (input.pack data) (← Action.context)
    match ← Action.ask address r entry.limit with
    | .error fault => return .error (faultMessage entry fault)
    | .ok reply =>
      pushAll reply.cookies
      return result output reply

/-- What a forwarding method finds about itself: whether the server is known. -/
def check (directory : Directory) (entry : ForwardEntry) : Verdict × String :=
  match resolve directory entry with
  | .ok address =>
    (.passed, "forwards to " ++ entry.method ++ " on " ++ entry.identity ++ " (" ++
      address.toText ++ ")\n")
  | .error message => (.failed, message ++ "\n")

/-- The method that stands for the method of another server. -/
def method (directory : Directory) (entry : ForwardEntry) (input output : Shape) : Method where
  input := input
  output := output
  call := call directory entry input output
  mock _ _ := Method.noMock
  validate := .pure (check directory entry)
  canRecord := true
  allowEmpty := false

end Forward

end Switchboard
