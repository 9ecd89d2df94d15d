import Switchboard.Connections
import Switchboard.Lifecycle
import Switchboard.Machine
import Switchboard.Settings

/-!
# Connections side by side

A server admits connections up to a number, and sends others away with a message. A connection
that is admitted is served at once, or waits in the queue of a worker pool that has room for as
many as may be admitted. Once the server is told to shut down it admits nobody, waits for its
connections to end, and comes to its end.

The server itself is one loop. It looks whether it shuts down, waits for a caller, counts the open
connections, looks again whether it shuts down, registers the connection, and hands it over. Every
open connection is served by a loop of its own. It looks whether the server shuts down, waits for a
request, has it processed, sends the reply, and begins again. The loops take turns in any order, and
so do the callers, the workers, and whoever tells the server to shut down. Between two looks at what
they share anything can happen, so each look is a step of its own, and what was seen may be out of
date when it is acted upon.

What requests and replies say does not matter here, and what counts is who may do what when. An
event happens only if its time has come (`Acceptor.step?`), and a history is any list of events, as
for any other machine (`Acceptor.machine`).

A request counts as pending from the step in which it is heard to the one in which its reply has
been sent or could not be sent, whichever of these ends the loop. A connection keeps its place
until the last step of its loop.
-/

namespace Switchboard.Server

/-! ## The loop of a connection -/

/-- How far the loop of an open connection has come. -/
inductive Stand
  /-- It has not begun. -/
  | queued
  /-- It is about to look whether the server shuts down. -/
  | looking
  /-- It waits for a request, and for an order to shut down. -/
  | waiting
  /-- A request is being processed. -/
  | answering
  /-- A reply is being sent, which may be the last one. -/
  | writing (reply : Bytes) (last : Bool)
  /-- The processing of a request has failed, and its connection is about to give up its place. -/
  | failing
  /-- It has ended, and its connection is about to give up its place. -/
  | leaving
  deriving DecidableEq, Repr

/-- What the loop of a connection does in a step. -/
inductive Turn
  /-- It looks whether the server shuts down. -/
  | looks
  /-- It sees while it waits that the server has been told to shut down. -/
  | wakes
  /-- It hears a request. -/
  | hears
  /-- It hears none: the other side closes, is too slow, sends too much, or is lost. -/
  | hangsUp
  /-- A request has been processed, with this reply. -/
  | replies (reply : Bytes) (last : Bool)
  /-- The processing of a request fails. -/
  | fails
  /-- A reply has been sent. -/
  | sends
  /-- A reply cannot be sent. -/
  | losesReply
  deriving DecidableEq, Repr

/-- Where a loop stands behind a request. -/
def Stand.behind (last : Bool) : Stand := if last then .leaving else .looking

/-- Where a turn takes a loop, if its time has come. -/
def Stand.next? (stopping : Bool) : Stand → Turn → Option Stand
  | .looking, .looks => some (if stopping then .leaving else .waiting)
  | .waiting, .wakes => if stopping then some .looking else none
  -- a request that is there when the server is told to shut down may be heard all the same
  | .waiting, .hears => some .answering
  | .waiting, .hangsUp => some .leaving
  -- an empty reply need not be sent
  | .answering, .replies reply last =>
    some (if reply.isEmpty then .behind last else .writing reply last)
  | .answering, .fails => some .failing
  | .writing _ last, .sends => some (.behind last)
  | .writing _ _, .losesReply => some .leaving
  | _, _ => none

/-- Whether behind a turn a request is not pending any more. -/
def Turn.settles : Turn → Bool
  | .replies reply _ => reply.isEmpty
  | .fails | .sends | .losesReply => true
  | _ => false

/-! ## The loop of the server -/

/-- What becomes of a connection that is made. -/
inductive Admission
  | admitted (connection : Connection)
  /-- It hears a message and is closed. -/
  | rejected (message : String)
  deriving DecidableEq, Repr

/-- How far a server that takes connections has come with the next one. -/
inductive Gate
  /-- It is about to look whether it has been told to shut down. -/
  | free
  /-- It waits for a caller, and for an order to shut down. -/
  | watching
  /-- There is a caller, and there was a place when the open connections were counted. -/
  | counted (peer : Address)
  /-- The server had not been told to shut down either. -/
  | passed (peer : Address)
  /-- The connection is registered and about to be handed over. -/
  | holding (id : Nat)
  deriving DecidableEq, Repr

/-- How far a server has come. -/
inductive Stage
  /-- It takes connections. -/
  | listening
  /-- It takes none, and waits for its workers. -/
  | retiring
  /-- It waits for its connections. It is known whether all workers ended in time, and, in the
  middle of a look, how many requests were pending at its beginning. -/
  | draining (retired : Bool) (seen : Option Nat)
  | ended (ending : Ending)
  deriving DecidableEq, Repr

/-- A server with its connections. -/
structure Acceptor where
  stage : Stage
  gate : Gate
  connections : Connections
  lifecycle : Lifecycle
  /-- The workers that serve connections, if they are not served all at once. -/
  pool : Option Pool
  /-- How far the loop of each open connection has come. -/
  loops : Dict Nat Stand
  deriving DecidableEq

namespace Acceptor

/-- A server that begins to take connections. It may have been told before to shut down, and then
the phase may be still to be written. If it had been written before, that would be lost now that the
server becomes ready, and nothing would be left to tell that it ever was. -/
def new (settings : NetworkSettings) (told : Option ShutdownKind) : Acceptor where
  stage := .listening
  gate := .free
  connections := .new
  lifecycle := (told.elim Lifecycle.new Lifecycle.new.order).setReady
  pool := settings.workerPool.map (Pool.start · settings.maxConnections)
  loops := ∅

/-! ## Places -/

/-- The loop of a connection goes on. -/
def move (a : Acceptor) (id : Nat) (stand : Stand) : Acceptor :=
  { a with loops := a.loops.insert id stand }

/-- A connection gives up its place. -/
def leave (a : Acceptor) (id : Nat) : Acceptor :=
  { a with connections := a.connections.remove id, loops := a.loops.erase id }

/-- Connections give up their places. -/
def leaveAll (a : Acceptor) (ids : List Nat) : Acceptor := ids.foldl leave a

/-! ## Admitting connections -/

/-- Whether as many connections are open as may be. -/
def isFull (settings : NetworkSettings) (a : Acceptor) : Bool :=
  settings.maxConnections ≤ a.connections.count

/-- The server looks whether it has been told to shut down, and waits for a caller. -/
def watch? (a : Acceptor) : Option Acceptor :=
  if a.stage = .listening ∧ a.gate = .free ∧ a.lifecycle.isStopping = false then
    some { a with gate := .watching }
  else none

/-- The wait for a caller ends without one. -/
def tick? (a : Acceptor) : Option Acceptor :=
  if a.gate = .watching then some { a with gate := .free } else none

/-- There is a caller, and the open connections are counted. -/
def connect? (settings : NetworkSettings) (a : Acceptor) (peer : Address) : Option Acceptor :=
  if a.gate = .watching then
    some { a with gate := if a.isFull settings then .free else .counted peer }
  else none

/-- The server looks whether it has been told to shut down meanwhile. -/
def check? (a : Acceptor) : Option Acceptor :=
  match a.gate with
  | .counted peer =>
    some { a with gate := if a.lifecycle.isStopping then .free else .passed peer }
  | _ => none

/-- The connection gets its number and its place. -/
def register? (a : Acceptor) (now : Nat) : Option Acceptor :=
  match a.gate with
  | .passed peer =>
    let (connection, connections) := a.connections.register now peer
    some { a.move connection.id .queued with connections, gate := .holding connection.id }
  | _ => none

/-- The connection is put into the queue as soon as there is room, or dropped if no worker is left.
Without a pool its loop begins. -/
def submit? (a : Acceptor) : Option Acceptor :=
  match a.gate with
  | .holding id =>
    match a.pool with
    | none => some { a.move id .looking with gate := .free }
    | some pool =>
      match pool.submit? ⟨id, 0⟩ with
      | some pool => some { a with pool := some pool, gate := .free }
      | none => if pool.workers = 0 then some { a.leave id with gate := .free } else none
  | _ => none

/-! ## Workers -/

/-- A worker takes the connection at the front of the queue, and its loop begins. -/
def pickUp? (a : Acceptor) (now : Nat) : Option Acceptor :=
  match a.pool with
  | none => none
  | some pool =>
    match pool.queue, pool.take? now with
    | job :: _, some pool => some { a.move job.index .looking with pool := some pool }
    | _, _ => none

/-- A worker that has served a connection to its end is idle again. -/
def rest? (a : Acceptor) (id : Nat) : Option Acceptor :=
  match a.pool with
  | none => none
  | some pool =>
    if pool.running.any (·.index = id) ∧ a.loops.get? id = none then
      some { a with pool := some (pool.finish id) }
    else none

/-- The connections in the queue for which nobody is left once another worker is lost. -/
def stranded (a : Acceptor) : List Nat :=
  match a.pool with
  | none => []
  | some pool => if pool.workers ≤ 1 then pool.queue.map (·.index) else []

/-- The worker of a connection is lost, and the connections behind the last one are dropped. -/
def crash (a : Acceptor) (id : Nat) : Acceptor :=
  { a with pool := a.pool.map (Pool.crash · id) }.leaveAll a.stranded

/-! ## Serving connections -/

/-- What a turn of a loop does to the count of pending requests and to that of the connection. -/
def account (a : Acceptor) (id : Nat) (turn : Turn) : Acceptor :=
  if turn = .hears then
    { a with
      lifecycle := a.lifecycle.beginRequest
      connections := a.connections.recordRequest id }
  else if turn.settles then { a with lifecycle := a.lifecycle.endRequest }
  else a

/-- The loop of a connection takes a turn. -/
def turn? (a : Acceptor) (id : Nat) (turn : Turn) : Option Acceptor :=
  match a.loops.get? id with
  | none => none
  | some stand =>
    (stand.next? a.lifecycle.isStopping turn).map fun next => (a.account id turn).move id next

/-- A loop that has ended gives up the place of its connection. One that has failed takes its worker
with it. -/
def depart? (a : Acceptor) (id : Nat) : Option Acceptor :=
  match a.loops.get? id with
  | some .leaving => some (a.leave id)
  | some .failing => some ((a.leave id).crash id)
  | _ => none

/-! ## Shutting down -/

/-- The server is told to shut down. -/
def stop (a : Acceptor) (kind : ShutdownKind) : Acceptor :=
  { a with lifecycle := a.lifecycle.order kind }

/-- Whoever has been the first to tell it so writes the phase. -/
def enter? (a : Acceptor) : Option Acceptor :=
  if a.lifecycle.entering then some { a with lifecycle := a.lifecycle.enter } else none

/-- The server sees that it has been told to shut down, and takes no more connections. If it has
workers it waits for them first. -/
def closeListener? (a : Acceptor) : Option Acceptor :=
  if a.stage = .listening ∧ (a.gate = .free ∨ a.gate = .watching) ∧ a.lifecycle.isStopping then
    some { a with
      stage := if a.pool.isSome then .retiring else .draining true none
      gate := .free
      pool := a.pool.map Pool.close }
  else none

/-- Whether every worker has ended. -/
def isRetired (a : Acceptor) : Bool :=
  match a.pool with
  | none => true
  | some pool => pool.isIdle

/-- The wait for the workers ends, with the last of them or because it took too long. -/
def retire? (a : Acceptor) (inTime : Bool) : Option Acceptor :=
  if a.stage = .retiring ∧ (inTime → a.isRetired) then
    some { a with stage := .draining inTime none }
  else none

/-- A look whether everything has ended begins with the pending requests. -/
def glance? (a : Acceptor) : Option Acceptor :=
  match a.stage with
  | .draining retired none =>
    some { a with stage := .draining retired (some a.lifecycle.pending) }
  | _ => none

/-- The server has come to its end. -/
def finish (a : Acceptor) (drained : Bool) : Acceptor :=
  { a with stage := .ended ⟨a.lifecycle.kind.getD .normal, drained⟩ }

/-- A look goes on with the open connections. If everything has ended, so does the server, and it
does without if this was the last look. -/
def poll? (a : Acceptor) (last : Bool) : Option Acceptor :=
  match a.stage with
  | .draining retired (some pending) =>
    if pending = 0 ∧ a.connections.count = 0 then
      some ({ a with lifecycle := a.lifecycle.stop }.finish retired)
    else if last then some (a.finish false)
    else some { a with stage := .draining retired none }
  | _ => none

/-! ## Events -/

/-- What can happen. -/
inductive Event
  | watches
  | ticks
  | connects (peer : Address)
  | checks
  | registers
  | submits
  | picksUp
  | rests (id : Nat)
  | turns (id : Nat) (turn : Turn)
  | leaves (id : Nat)
  | stops (kind : ShutdownKind)
  | enters
  | closesListener
  | retires (inTime : Bool)
  | glances
  | polls (last : Bool)
  deriving DecidableEq, Repr

/-- What an event does at a time, if it can happen then. -/
def step? (settings : NetworkSettings) (a : Acceptor) (now : Nat) : Event → Option Acceptor
  | .watches => a.watch?
  | .ticks => a.tick?
  | .connects peer => a.connect? settings peer
  | .checks => a.check?
  | .registers => a.register? now
  | .submits => a.submit?
  | .picksUp => a.pickUp? now
  | .rests id => a.rest? id
  | .turns id turn => a.turn? id turn
  | .leaves id => a.depart? id
  | .stops kind => some (a.stop kind)
  | .enters => a.enter?
  | .closesListener => a.closeListener?
  | .retires inTime => a.retire? inTime
  | .glances => a.glance?
  | .polls last => a.poll? last

/-- What becomes of the caller in an event that happens, if it is decided there. -/
def admission? (settings : NetworkSettings) (a : Acceptor) (now : Nat) : Event → Option Admission
  | .connects _ => if a.isFull settings then some (.rejected settings.busyMessage) else none
  | .checks => if a.lifecycle.isStopping then some (.rejected settings.busyMessage) else none
  | .registers =>
    match a.gate with
    | .passed peer => some (.admitted (a.connections.register now peer).1)
    | _ => none
  | _ => none

/-- A server with its connections as a machine. -/
abbrev machine (settings : NetworkSettings) : Machine Acceptor Event := ⟨step? settings⟩

end Acceptor

end Switchboard.Server
