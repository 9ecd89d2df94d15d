import Switchboard.Server.Routes

/-!
# Conversations

On a connection the requests are answered one after another in the order in which they arrive. A
conversation goes on until a request asks for its end, until the other side closes the
connection, until it waits too long, until more arrives than a request may hold, or until the
server shuts down. While it goes on, the connection keeps its place among the open ones.

Every request is answered at a time of its own. A conversation reads it off a clock, which may
show whatever it likes, depending on what has happened to the server.
-/

namespace Switchboard.Server

/-- One side of a connection, as the server has it. -/
structure Conversation where
  connection : Connection
  /-- What has arrived and has not been cut into requests. -/
  buffer : Bytes
  /-- All that has been sent. -/
  written : Bytes
  isOpen : Bool
  /-- How many requests have been heard on it, which is told when it ends. -/
  requests : Nat
  deriving DecidableEq, Repr

/-- Processes a request, which is pending meanwhile. -/
def respond (s : Server) (clock : State → Nat) (connection : Connection) (r : RawRequest) :
    Step Processed := do
  modify fun st => { st with
    lifecycle := st.lifecycle.beginRequest
    connections := st.connections.recordRequest connection.id }
  let processed ← s.process connection (clock (← get)) r
  modify fun st => { st with lifecycle := st.lifecycle.endRequest }
  return processed

namespace Conversation

/-- What a connection hears on which more arrives than a request may hold. -/
def tooLong : String := "Request message too long\n"

/-- A connection on which nothing has arrived. -/
def new (connection : Connection) : Conversation := ⟨connection, [], [], true, 0⟩

/-- Ends the conversation. What has arrived is dropped, and the connection gives up its place. -/
def close (c : Conversation) : Step Conversation := do
  let requests := (← get).connections.requestsOf c.connection.id
  modify fun st => { st with connections := st.connections.remove c.connection.id }
  return { c with buffer := [], isOpen := false, requests }

/-- Ends the conversation because more has arrived than a request may hold. -/
def refuse (c : Conversation) : Step Conversation :=
  close { c with written := c.written ++ Utf8.ofString tooLong }

/-- Answers a request, and ends the conversation if it is the last one. -/
def answer (s : Server) (clock : State → Nat) (c : Conversation) (r : RawRequest) :
    Step Conversation := do
  let processed ← s.respond clock c.connection r
  let c := { c with written := c.written ++ processed.reply }
  if processed.keepAlive && r.complete && !s.settings.oneRequest then return c else c.close

/-- Answers the requests that have arrived, at most `fuel` of them, as long as asking for the
next one gives one. Before each of them it looks whether the server shuts down. -/
def advance (s : Server) (clock : State → Nat) (ask : Bytes → Splitter.Answer) :
    (fuel : Nat) → Conversation → Step Conversation
  | 0, c => return c
  | fuel + 1, c => do
    if !c.isOpen then return c
    else if (← get).lifecycle.isStopping then c.close
    else
      match ask c.buffer with
      | .request r rest => do
        let c ← answer s clock { c with buffer := rest } r
        advance s clock ask fuel c
      | .tooLarge => c.refuse
      | .incomplete => return c

/-- More bytes arrive. No request is empty, so there are at most as many as bytes. -/
def receive (s : Server) (clock : State → Nat) (c : Conversation) (chunk : Bytes) :
    Step Conversation :=
  if c.isOpen then
    let c := { c with buffer := c.buffer ++ chunk }
    advance s clock (Splitter.next s.network.maxRequestSize) (c.buffer.length + 1) c
  else return c

/-- The conversation has waited too long for the next request, or the server shuts down while it
waits, or the other side sends no more. -/
def giveUp (c : Conversation) : Step Conversation := if c.isOpen then c.close else return c

/-- The other side sends no more. What is left is processed as a request that was cut off. -/
def finish (s : Server) (clock : State → Nat) (c : Conversation) : Step Conversation := do
  let c ← advance s clock (Splitter.nextAtEnd s.network.maxRequestSize) (c.buffer.length + 1) c
  c.giveUp

/-- A conversation in which bytes arrive in chunks and the other side closes behind them. -/
def run (s : Server) (clock : State → Nat) (connection : Connection) (chunks : List Bytes) :
    Step Conversation := do
  (← chunks.foldlM (receive s clock) (new connection)).finish s clock

end Conversation

end Switchboard.Server
