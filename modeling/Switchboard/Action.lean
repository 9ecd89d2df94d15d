import Switchboard.Context

/-!
# Actions of methods

What a method does is a tree of actions. A method can look at its caller, set cookies, call other
methods, ask another server and take time; it can do nothing else. The tree says what is asked
for; who the other methods and servers are is settled where the tree is performed.
-/

namespace Switchboard

/-- What a method does before it has its result. -/
inductive Action : Type → Type 1
  /-- Has the result. -/
  | pure {α : Type} (a : α) : Action α
  /-- Looks at the context. -/
  | look {α : Type} (next : Context → Action α) : Action α
  /-- Adds a complete cookie line to the reply. -/
  | push {α : Type} (line : String) (next : Action α) : Action α
  /-- Takes so many milliseconds. -/
  | sleep {α : Type} (ms : Nat) (next : Action α) : Action α
  /-- Does something as a call of its own for the same caller. The cookies it sets are added to
  the reply. -/
  | within {β α : Type} (body : Action β) (next : β → Action α) : Action α
  /-- Calls the method of a name with an input of some shape, for an output of some shape. -/
  | cascade {α : Type} (name : String) (input output : Shape) (data : input.Data)
      (next : Except String output.Data → Action α) : Action α
  /-- Sends a request to a server and waits at most so many milliseconds for its reply. -/
  | exchange {α : Type} (address : Address) (request : Request) (limit : Nat)
      (next : Except CallFault Reply → Action α) : Action α

namespace Action

/-- Goes on with the result. -/
def bind {α β : Type} : Action α → (α → Action β) → Action β
  | .pure a, k => k a
  | .look next, k => .look fun c => (next c).bind k
  | .push line next, k => .push line (next.bind k)
  | .sleep ms next, k => .sleep ms (next.bind k)
  | .within body next, k => .within body fun b => (next b).bind k
  | .cascade name input output data next, k =>
    .cascade name input output data fun r => (next r).bind k
  | .exchange address request limit next, k =>
    .exchange address request limit fun r => (next r).bind k

instance : Monad Action where
  pure := .pure
  bind := bind

/-- The context of the caller. -/
def context : Action Context := .look .pure

/-- Sets a cookie from its complete line. -/
def pushCookie (line : String) : Action Unit := .push line (.pure ())

/-- Sets a cookie. -/
def setCookie (name value : String) (attributes : Cookie.Attributes) : Action Unit :=
  pushCookie (Cookie.write name value attributes)

/-- Takes so many milliseconds. -/
def wait (ms : Nat) : Action Unit := .sleep ms (.pure ())

/-- Does something as a call of its own for the same caller. -/
def nested {α : Type} (body : Action α) : Action α := .within body .pure

/-- Calls the method of a name. -/
def call {α β : Type} [Payload α] [Payload β] (name : String) (input : α) :
    Action (Except String β) :=
  .cascade name (Payload.shape α) (Payload.shape β) (Payload.toData input) fun r =>
    .pure (r.map Payload.ofData)

/-- Sends a request to a server. -/
def ask (address : Address) (request : Request) (limit : Nat) : Action (Except CallFault Reply) :=
  .exchange address request limit .pure

end Action

end Switchboard
