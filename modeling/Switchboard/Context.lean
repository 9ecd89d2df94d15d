import Switchboard.Client
import Switchboard.Cookie

/-!
# Contexts

A method sees its caller through a context: the connection, the page from which the call was
made, cookies, headers and arguments. A context also collects the cookies that the method sets.
Every caller has a session, which is issued with the first context and travels as a cookie.
-/

namespace Switchboard

/-- How sessions are kept. -/
structure SessionSettings where
  /-- The name of the cookie with the session. -/
  cookieName : String := "rpcsession"
  /-- How many milliseconds a new session is kept. -/
  maxAge : Nat := 10 * 365 * 24 * 3600 * 1000
  /-- The name that marks a caller as another server. -/
  internalAgent : String := Client.defaultUserAgent
  deriving DecidableEq, Repr

/-- The session that sixteen random bytes give: two digits of base sixteen for each, with the two
marks of a random identifier. -/
def randomSession (bytes : Bytes) : String :=
  let marked := bytes.zipIdx.map fun (b, i) =>
    if i = 6 then 0x40 + b % 16 else if i = 8 then 0x80 + b % 64 else b
  String.ofList (marked.flatMap fun b =>
    [Text.hexDigit (b.toNat / 16), Text.hexDigit (b.toNat % 16)])

/-- What a method sees of its caller, and the cookies it has set. -/
structure Context where
  connection : Connection
  referrer : String
  cookies : Dict String String
  headers : Headers
  args : Dict String String
  /-- Whether the caller is another server. -/
  internal : Bool
  settings : SessionSettings
  /-- The complete cookie lines for the reply, in the order in which they were set. -/
  outbox : List String
  deriving DecidableEq

namespace Context

/-! ## Sessions -/

/-- The session of the caller. -/
def session? (c : Context) : Option String :=
  (c.cookies.get? c.settings.cookieName).filter (!·.isEmpty)

/-- The context with one more cookie line for the reply. -/
def push (c : Context) (line : String) : Context := { c with outbox := c.outbox ++ [line] }

/-- The context with a cookie for the reply. -/
def setCookie (c : Context) (name value : String) (attributes : Cookie.Attributes) : Context :=
  c.push (Cookie.write name value attributes)

/-- The attributes of a new session. -/
def sessionAttributes (settings : SessionSettings) : Cookie.Attributes :=
  { maxAge := some (settings.maxAge / 1000), path := some "/" }

/-- The context with a session; a caller without one gets the fresh one, as a cookie that both
the method and the caller see. -/
def ensureSession (c : Context) (fresh : String) : Context :=
  if c.session?.isSome then c
  else
    let c' := { c with cookies := c.cookies.insert c.settings.cookieName fresh }
    c'.setCookie c.settings.cookieName fresh (sessionAttributes c.settings)

/-! ## Making contexts -/

/-- Whether a caller of this name is another server. -/
def isInternal (settings : SessionSettings) (headers : Headers) : Bool :=
  let agent := headers.getD "user-agent"
  agent.isEmpty || agent == settings.internalAgent

/-- The context of a request. -/
def ofRequest (connection : Connection) (settings : SessionSettings) (fresh : String)
    (r : Request) : Context :=
  ensureSession
    { connection
      referrer := r.referrer
      cookies := Cookie.read r.cookie
      headers := r.headers
      args := r.args
      internal := isInternal settings r.headers
      settings
      outbox := [] } fresh

/-- The context of a call that a method makes: the same caller, without the argument that holds
the outer input, and with no cookies set yet. -/
def nested (c : Context) : Context := { c with args := c.args.erase "q", outbox := [] }

/-- The cookies of the caller as one line. -/
def cookieLine (c : Context) : String := Cookie.header c.cookies

end Context

end Switchboard
