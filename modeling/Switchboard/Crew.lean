import Switchboard.Machine
import Switchboard.Pool

/-!
# The workers of a pool one by one

A caller with a job waits until the queue has room for it. The workers have one end of the queue
together. One of them at a time listens there; it takes the job at the front, lets somebody else
listen, does the job, and waits until it can listen again. When the queue has been closed, whoever
finds it empty ends. A job that panics ends its worker too, and when the last worker is lost the
queue is gone, with the jobs in it. Whoever shuts the pool down closes the queue and waits for the
workers one after another, for a while. This needs the pool for itself, so nobody is about to submit
a job then.

All of them take turns in any order. A step happens only if its time has come (`Crew.step?`), and a
history is any list of events, as for any other machine (`Crew.machine`). What becomes of the queue
and of the running jobs in a step is what the steps of pools say.
-/

namespace Switchboard

/-- How far a worker has come. -/
inductive Post
  /-- It waits until it can listen. -/
  | waiting
  /-- It waits for a job at the front of the queue, or for the end of the queue. -/
  | listening
  /-- It does a job. -/
  | busy (index : Nat)
  /-- It has ended since there were no more jobs. -/
  | retired
  /-- It has ended since its job panicked. -/
  | lost
  deriving DecidableEq, Repr

namespace Post

/-- The job that a worker does. -/
def job? : Post → Option Nat
  | .busy index => some index
  | _ => none

/-- Whether a worker has ended. -/
def hasEnded : Post → Bool
  | .retired | .lost => true
  | _ => false

end Post

/-- How far the end of a pool has come. -/
inductive Closing
  /-- It takes jobs. -/
  | notYet
  /-- Its queue is closed, and so many workers have been waited for. -/
  | joining (joined : Nat)
  /-- Nobody waits for it any more. It is known whether all workers ended in time. -/
  | returned (inTime : Bool)
  deriving DecidableEq, Repr

/-- A pool with its workers and with those who use it. -/
structure Crew where
  pool : Pool
  posts : List Post
  /-- The jobs that callers are about to put into the queue. -/
  senders : List Job
  closing : Closing
  /-- How many jobs there have been. -/
  offered : Nat
  deriving DecidableEq, Repr

namespace Crew

/-- A pool whose workers have not begun. -/
def start (size capacity : Nat) : Crew where
  pool := .start size capacity
  posts := List.replicate (max 1 size) .waiting
  senders := []
  closing := .notYet
  offered := 0

/-! ## Callers -/

/-- A caller has a job for the queue. -/
def offer? (c : Crew) (length : Nat) : Option Crew :=
  if c.closing = .notYet then
    some { c with senders := c.senders ++ [⟨c.offered, length⟩], offered := c.offered + 1 }
  else none

/-- The callers without the one with a job. -/
def without (c : Crew) (index : Nat) : List Job := c.senders.filter (·.index ≠ index)

/-- The job of a caller is put into the queue if there is room. -/
def enter? (c : Crew) (index : Nat) : Option Crew := do
  let job ← c.senders.find? (·.index = index)
  let pool ← c.pool.submit? job
  return { c with pool, senders := c.without index }

/-- A caller hears that nobody is left to do its job. -/
def refuse? (c : Crew) (index : Nat) : Option Crew :=
  if c.pool.workers = 0 ∧ c.senders.any (·.index = index) then
    some { c with senders := c.without index }
  else none

/-! ## Workers -/

/-- A worker has come further. -/
def post (c : Crew) (worker : Nat) (post : Post) : Crew :=
  { c with posts := c.posts.set worker post }

/-- A worker begins to listen, if nobody else does. -/
def listen? (c : Crew) (worker : Nat) : Option Crew :=
  if c.posts[worker]? = some .waiting ∧ .listening ∉ c.posts then some (c.post worker .listening)
  else none

/-- The worker that listens takes the job at the front of the queue. -/
def take? (c : Crew) (now worker : Nat) : Option Crew :=
  if c.posts[worker]? = some .listening then
    match c.pool.queue, c.pool.take? now with
    | job :: _, some pool => some { c.post worker (.busy job.index) with pool }
    | _, _ => none
  else none

/-- The job of a worker ends. -/
def finish? (c : Crew) (worker : Nat) : Option Crew :=
  match c.posts[worker]? with
  | some (.busy index) => some { c.post worker .waiting with pool := c.pool.finish index }
  | _ => none

/-- The job of a worker panics, and the worker is lost. -/
def lose? (c : Crew) (worker : Nat) : Option Crew :=
  match c.posts[worker]? with
  | some (.busy index) => some { c.post worker .lost with pool := c.pool.crash index }
  | _ => none

/-- The worker that listens hears that there are no more jobs. -/
def retire? (c : Crew) (worker : Nat) : Option Crew :=
  if c.posts[worker]? = some .listening ∧ c.pool.closed ∧ c.pool.queue = [] then
    some (c.post worker .retired)
  else none

/-! ## Shutting down -/

/-- The queue is closed. -/
def close? (c : Crew) : Option Crew :=
  if c.closing = .notYet ∧ c.senders = [] then
    some { c with pool := c.pool.close, closing := .joining 0 }
  else none

/-- The next worker has ended, or there is no next worker. -/
def join? (c : Crew) : Option Crew :=
  match c.closing with
  | .joining joined =>
    match c.posts[joined]? with
    | none => some { c with closing := .returned true }
    | some post => if post.hasEnded then some { c with closing := .joining (joined + 1) } else none
  | _ => none

/-- The wait for the workers has taken too long. They go on all the same. -/
def expire? (c : Crew) : Option Crew :=
  match c.closing with
  | .joining _ => some { c with closing := .returned false }
  | _ => none

/-! ## Events -/

/-- What can happen. -/
inductive Event
  | offers (length : Nat)
  | enters (index : Nat)
  | refuses (index : Nat)
  | listens (worker : Nat)
  | takes (worker : Nat)
  | finishes (worker : Nat)
  | panics (worker : Nat)
  | retires (worker : Nat)
  | closes
  | joins
  | expires
  deriving DecidableEq, Repr

/-- What an event does at a time, if it can happen then. -/
def step? (c : Crew) (now : Nat) : Event → Option Crew
  | .offers length => c.offer? length
  | .enters index => c.enter? index
  | .refuses index => c.refuse? index
  | .listens worker => c.listen? worker
  | .takes worker => c.take? now worker
  | .finishes worker => c.finish? worker
  | .panics worker => c.lose? worker
  | .retires worker => c.retire? worker
  | .closes => c.close?
  | .joins => c.join?
  | .expires => c.expire?

/-- A pool with its workers as a machine. -/
abbrev machine : Machine Crew Event := ⟨step?⟩

end Crew

end Switchboard
