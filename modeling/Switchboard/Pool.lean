/-!
# Worker pools

A pool has a fixed number of workers and a queue of limited length. A worker that is idle takes
the job at the front of the queue and is busy until the job ends. The steps come first: what can
happen to a pool, in any order. Then follows what does happen in time when every job takes a
known number of milliseconds and nobody waits without need.
-/

namespace Switchboard

/-- A job, with the milliseconds that it takes. -/
structure Job where
  index : Nat
  length : Nat
  deriving DecidableEq, Repr

/-- A job that a worker has taken, with the time at which it ends. -/
structure RunningJob where
  index : Nat
  ends : Nat
  deriving DecidableEq, Repr

/-- The workers, the jobs that wait, and the jobs that have ended. -/
structure Pool where
  /-- How many workers there were at the start. -/
  size : Nat
  /-- How many jobs can wait. -/
  capacity : Nat
  /-- How many workers are left. -/
  workers : Nat
  running : List RunningJob
  queue : List Job
  /-- The jobs that have ended, first to end first. -/
  finished : List Nat
  /-- Whether no more jobs are taken into the queue. -/
  closed : Bool
  deriving DecidableEq, Repr

namespace Pool

/-- How many workers a pool has unless told otherwise. -/
def defaultSize : Nat := 512

/-- An idle pool, with at least one worker and room for at least one job. -/
def start (size capacity : Nat) : Pool :=
  ⟨max 1 size, max 1 capacity, max 1 size, [], [], [], false⟩

/-! ## Steps -/

/-- Puts a job into the queue, if there is room and anyone is left to take it. -/
def submit? (p : Pool) (job : Job) : Option Pool :=
  if !p.closed ∧ 0 < p.workers ∧ p.queue.length < p.capacity then
    some { p with queue := p.queue ++ [job] }
  else none

/-- An idle worker takes the job at the front of the queue. -/
def take? (p : Pool) (now : Nat) : Option Pool :=
  match p.queue with
  | [] => none
  | job :: queue =>
    if p.running.length < p.workers then
      some { p with running := p.running ++ [⟨job.index, now + job.length⟩], queue }
    else none

/-- The job of a worker ends. -/
def finish (p : Pool) (index : Nat) : Pool :=
  { p with
    running := p.running.filter (·.index ≠ index)
    finished := p.finished ++ [index] }

/-- The job of a worker fails, and takes the worker with it. The last worker takes the jobs in the
queue with it, which nobody will do. -/
def crash (p : Pool) (index : Nat) : Pool :=
  { p with
    running := p.running.filter (·.index ≠ index)
    workers := p.workers - 1
    queue := if p.workers ≤ 1 then [] else p.queue }

/-- No more jobs are taken into the queue; those in it are still done. -/
def close (p : Pool) : Pool := { p with closed := true }

/-- Whether nothing is left to do. -/
def isIdle (p : Pool) : Bool := p.running.isEmpty && p.queue.isEmpty

/-! ## In time -/

/-- A job that ends now or has ended, first taken first. -/
def due (p : Pool) (now : Nat) : Option RunningJob := p.running.find? (·.ends ≤ now)

/-- An idle worker takes the job at the front of the queue, and ends it if it takes no time. -/
def takeUp? (p : Pool) (now : Nat) : Option Pool :=
  (p.take? now).map fun taken =>
    match p.queue with
    | ⟨index, 0⟩ :: _ => taken.finish index
    | _ => taken

/-- All that happens at one moment, in at most `fuel` steps: jobs that are due end, and idle
workers take jobs. A worker whose job ends goes on before the next one. -/
def settle (now : Nat) : (fuel : Nat) → Pool → Pool
  | 0, p => p
  | fuel + 1, p =>
    match p.takeUp? now with
    -- whoever is idle takes a job before another one ends
    | some p => settle now fuel p
    | none =>
      match p.due now with
      | some job => settle now fuel (p.finish job.index)
      | none => p

/-- How many steps can happen without a new job. -/
def steps (p : Pool) : Nat := p.running.length + 2 * p.queue.length

/-- The first time at which a job ends. -/
def nextEnd (p : Pool) : Option Nat := (p.running.map (·.ends)).min?

/-- A pool at a time. -/
structure Moment where
  now : Nat
  pool : Pool
  deriving DecidableEq, Repr

namespace Moment

/-- All that happens at this moment has happened. -/
def settled (m : Moment) : Moment := { m with pool := m.pool.settle m.now (m.pool.steps + 1) }

/-- Waits until the queue has room, at most for `fuel` jobs to end. -/
def awaitRoom : (fuel : Nat) → Moment → Moment
  | 0, m => m
  | fuel + 1, m =>
    if m.pool.queue.length < m.pool.capacity then m
    else
      match m.pool.nextEnd with
      | none => m
      | some time => awaitRoom fuel (settled { m with now := time })

/-- Puts a job into the queue as soon as there is room, and lets idle workers take jobs. -/
def submit (m : Moment) (job : Job) : Moment :=
  let m := m.awaitRoom (m.pool.running.length + m.pool.queue.length)
  match m.pool.submit? job with
  | some pool => settled { m with pool }
  | none => m

/-- Lets everything happen that happens before a time, at most the ends of `fuel` jobs. -/
def runBefore (deadline : Nat) : (fuel : Nat) → Moment → Moment
  | 0, m => m
  | fuel + 1, m =>
    match m.pool.nextEnd with
    | none => m
    | some time =>
      if time < deadline then runBefore deadline fuel (settled { m with now := time }) else m

/-- Closes the queue and waits for the jobs to end, at most so many milliseconds. Tells whether
they all did. -/
def shutdown (m : Moment) (limit : Nat) : Bool × Moment :=
  let closed := { m with pool := m.pool.close }
  let ended := closed.runBefore (m.now + limit) (m.pool.running.length + m.pool.queue.length)
  (0 < limit && ended.pool.isIdle, ended)

end Moment

end Pool

end Switchboard
