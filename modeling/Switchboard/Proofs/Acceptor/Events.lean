import Switchboard.Proofs.Acceptor.Loops

/-!
# Events

What an event does to a server is said once, with what must hold for it to happen (`Happens`), and
everything else about the steps of a server is derived from that. First of all the line: the
connections in the queue and the one that is about to be handed over are different ones, and none of
their loops has begun (`Lined`). Only the loop at the front of the line begins, so it begins once.
-/

namespace Switchboard.Server

open Stand (Goes)

/-- The connection that is about to be handed over. -/
def Gate.held : Gate → List Nat
  | .holding id => [id]
  | _ => []

/-- How many places are about to be taken. -/
def Gate.places : Gate → Nat
  | .counted _ | .passed _ => 1
  | _ => 0

namespace Acceptor

variable {settings : NetworkSettings} {now : Nat} {a a' : Acceptor} {e : Event} {id : Nat}

/-! ## Events that happen -/

/-- What an event does, and what must hold for it to happen. -/
inductive Happens (settings : NetworkSettings) (now : Nat) (a : Acceptor) :
    Event → Acceptor → Prop
  | watches (hstage : a.stage = .listening) (hgate : a.gate = .free)
    (hstop : a.lifecycle.isStopping = false) : Happens settings now a .watches
      { a with gate := .watching }
  | ticks (hgate : a.gate = .watching) : Happens settings now a .ticks { a with gate := .free }
  | turnsAway {peer : Address} (hgate : a.gate = .watching)
    (hfull : settings.maxConnections ≤ a.connections.count) :
    Happens settings now a (.connects peer) { a with gate := .free }
  | counts {peer : Address} (hgate : a.gate = .watching)
    (hroom : a.connections.count < settings.maxConnections) :
    Happens settings now a (.connects peer) { a with gate := .counted peer }
  | refuses {peer : Address} (hgate : a.gate = .counted peer)
    (hstop : a.lifecycle.isStopping = true) : Happens settings now a .checks
      { a with gate := .free }
  | passes {peer : Address} (hgate : a.gate = .counted peer)
    (hstop : a.lifecycle.isStopping = false) : Happens settings now a .checks
      { a with gate := .passed peer }
  | registers {peer : Address} (hgate : a.gate = .passed peer) : Happens settings now a .registers
      { a.move a.connections.nextId .queued with
        connections := (a.connections.register now peer).2
        gate := .holding a.connections.nextId }
  | spawns {id : Nat} (hgate : a.gate = .holding id) (hpool : a.pool = none) :
    Happens settings now a .submits { a.move id .looking with gate := .free }
  | enqueues {id : Nat} {pool : Pool} (hgate : a.gate = .holding id) (hpool : a.pool = some pool)
    (hopen : pool.closed = false) (hworkers : 0 < pool.workers)
    (hroom : pool.queue.length < pool.capacity) : Happens settings now a .submits
      { a with pool := some { pool with queue := pool.queue ++ [⟨id, 0⟩] }, gate := .free }
  | drops {id : Nat} {pool : Pool} (hgate : a.gate = .holding id) (hpool : a.pool = some pool)
    (hworkers : pool.workers = 0) : Happens settings now a .submits
      { a.leave id with gate := .free }
  | picksUp {pool : Pool} {job : Job} {queue : List Job} (hpool : a.pool = some pool)
    (hqueue : pool.queue = job :: queue) (hidle : pool.running.length < pool.workers) :
    Happens settings now a .picksUp { a.move job.index .looking with
      pool := some { pool with
        running := pool.running ++ [⟨job.index, now + job.length⟩]
        queue } }
  | rests {id : Nat} {pool : Pool} (hpool : a.pool = some pool)
    (hbusy : pool.running.any (·.index = id) = true) (hended : a.loops.get? id = none) :
    Happens settings now a (.rests id) { a with pool := some (pool.finish id) }
  | turns {id : Nat} {turn : Turn} {stand next : Stand} (hstand : a.loops.get? id = some stand)
    (hgoes : Goes a.lifecycle.isStopping stand turn next) : Happens settings now a (.turns id turn)
      ((a.account id turn).move id next)
  | leaves {id : Nat} (hstand : a.loops.get? id = some .leaving) :
    Happens settings now a (.leaves id) (a.leave id)
  | crashes {id : Nat} (hstand : a.loops.get? id = some .failing) :
    Happens settings now a (.leaves id) ((a.leave id).crash id)
  | stops (kind : ShutdownKind) : Happens settings now a (.stops kind) (a.stop kind)
  | enters (howed : a.lifecycle.entering = true) : Happens settings now a .enters
      { a with lifecycle := a.lifecycle.enter }
  | closesListener (hstage : a.stage = .listening) (hgate : a.gate = .free ∨ a.gate = .watching)
    (hstop : a.lifecycle.isStopping = true) : Happens settings now a .closesListener
      { a with
        stage := if a.pool.isSome then .retiring else .draining true none
        gate := .free
        pool := a.pool.map Pool.close }
  | retires {inTime : Bool} (hstage : a.stage = .retiring)
    (hretired : inTime = true → a.isRetired = true) : Happens settings now a (.retires inTime)
      { a with stage := .draining inTime none }
  | glances {retired : Bool} (hstage : a.stage = .draining retired none) :
    Happens settings now a .glances
      { a with stage := .draining retired (some a.lifecycle.pending) }
  | stopsDrained {retired last : Bool} (hstage : a.stage = .draining retired (some 0))
    (hidle : a.connections.count = 0) : Happens settings now a (.polls last)
      ({ a with lifecycle := a.lifecycle.stop }.finish retired)
  | givesUp {retired : Bool} {seen : Nat} (hstage : a.stage = .draining retired (some seen)) :
    Happens settings now a (.polls true) (a.finish false)
  | waits {retired : Bool} {seen : Nat} (hstage : a.stage = .draining retired (some seen)) :
    Happens settings now a (.polls false) { a with stage := .draining retired none }

theorem happens_of_step? (h : a.step? settings now e = some a') : Happens settings now a e a' := by
  cases e with
  | watches =>
    obtain ⟨⟨hstage, hgate, hstop⟩, h⟩ := Option.ite_none_right_eq_some.1 h
    cases h
    exact .watches hstage hgate hstop
  | ticks =>
    obtain ⟨hgate, h⟩ := Option.ite_none_right_eq_some.1 h
    cases h
    exact .ticks hgate
  | connects peer =>
    obtain ⟨hgate, h⟩ := Option.ite_none_right_eq_some.1 h
    cases h
    cases hfull : a.isFull settings with
    | true => exact .turnsAway hgate (of_decide_eq_true hfull)
    | false => exact .counts hgate (Nat.lt_of_not_le (of_decide_eq_false hfull))
  | checks =>
    simp only [step?, check?] at h
    split at h
    · rename_i peer hgate
      cases h
      cases hstop : a.lifecycle.isStopping with
      | true => exact .refuses hgate hstop
      | false => exact .passes hgate hstop
    · cases h
  | registers =>
    simp only [step?, register?] at h
    split at h
    · rename_i peer hgate
      cases h
      exact .registers hgate
    · cases h
  | submits =>
    simp only [step?, submit?] at h
    split at h
    · rename_i id hgate
      split at h
      · rename_i hpool
        cases h
        exact .spawns hgate hpool
      · rename_i pool hpool
        split at h
        · -- the pool takes the connection only if it is open and has a worker and room
          rename_i pool' hsubmit
          cases h
          obtain ⟨⟨hopen, hworkers, hroom⟩, hpool'⟩ := Option.ite_none_right_eq_some.1 hsubmit
          cases hpool'
          exact .enqueues hgate hpool (by simpa using hopen) hworkers hroom
        · obtain ⟨hworkers, h⟩ := Option.ite_none_right_eq_some.1 h
          cases h
          exact .drops hgate hpool hworkers
    · cases h
  | picksUp =>
    simp only [step?, pickUp?] at h
    split at h
    · cases h
    · rename_i pool hpool
      split at h
      · rename_i job queue pool' hqueue htake
        cases h
        rw [Pool.take?, hqueue] at htake
        obtain ⟨hidle, hpool'⟩ := Option.ite_none_right_eq_some.1 htake
        cases hpool'
        exact .picksUp hpool hqueue hidle
      · cases h
  | rests id =>
    simp only [step?, rest?] at h
    split at h
    · cases h
    · rename_i pool hpool
      obtain ⟨⟨hbusy, hended⟩, h⟩ := Option.ite_none_right_eq_some.1 h
      cases h
      exact .rests hpool hbusy hended
  | turns id turn =>
    simp only [step?, turn?] at h
    split at h
    · cases h
    · rename_i stand hstand
      obtain ⟨next, hnext, h⟩ := Option.map_eq_some_iff.1 h
      cases h
      exact .turns hstand (Stand.goes_of_next? hnext)
  | leaves id =>
    simp only [step?, depart?] at h
    split at h
    · rename_i hstand
      cases h
      exact .leaves hstand
    · rename_i hstand
      cases h
      exact .crashes hstand
    · cases h
  | stops kind =>
    cases h
    exact .stops kind
  | enters =>
    obtain ⟨howed, h⟩ := Option.ite_none_right_eq_some.1 h
    cases h
    exact .enters howed
  | closesListener =>
    obtain ⟨⟨hstage, hgate, hstop⟩, h⟩ := Option.ite_none_right_eq_some.1 h
    cases h
    exact .closesListener hstage hgate hstop
  | retires inTime =>
    obtain ⟨⟨hstage, hretired⟩, h⟩ := Option.ite_none_right_eq_some.1 h
    cases h
    exact .retires hstage hretired
  | glances =>
    simp only [step?, glance?] at h
    split at h
    · rename_i retired hstage
      cases h
      exact .glances hstage
    · cases h
  | polls last =>
    simp only [step?, poll?] at h
    split at h
    · rename_i retired seen hstage
      split at h
      · rename_i hidle
        obtain ⟨rfl, hcount⟩ := hidle
        cases h
        exact .stopsDrained hstage hcount
      · split at h
        · rename_i hlast
          cases h
          subst hlast
          exact .givesUp hstage
        · rename_i hlast
          cases h
          rw [Bool.not_eq_true] at hlast
          subst hlast
          exact .waits hstage
    · cases h

/-! ## Places that are given up -/

/-- The connections that give up their places in an event that happens. -/
def endings (a : Acceptor) : Event → List Nat
  | .submits =>
    match a.gate, a.pool with
    | .holding id, some pool => if pool.workers = 0 then [id] else []
    | _, _ => []
  | .leaves id => if a.loops.get? id = some .failing then id :: a.stranded else [id]
  | _ => []

theorem leaveAll_eq (a : Acceptor) (ids : List Nat) :
    a.leaveAll ids = { a with
      connections := ids.foldl Connections.remove a.connections
      loops := ids.foldl Dict.erase a.loops } := by
  unfold leaveAll
  induction ids generalizing a with
  | nil => rfl
  | cons id ids ih => rw [List.foldl_cons, ih]; rfl

/-- Only the counts of requests are changed when a turn is accounted for. -/
theorem account_eq (a : Acceptor) (id : Nat) (turn : Turn) :
    a.account id turn = { a with
      lifecycle := (a.account id turn).lifecycle
      connections := (a.account id turn).connections } := by
  unfold account
  split
  · rfl
  · split <;> rfl

/-! ## The queue -/

/-- The connections in the queue, first to be served first. -/
def inQueue (a : Acceptor) : List Nat :=
  match a.pool with
  | none => []
  | some pool => pool.queue.map (·.index)

/-- The connections that nobody serves yet. -/
def line (a : Acceptor) : List Nat := a.inQueue ++ a.gate.held

/-- Whether the connections that nobody serves yet are different ones that have not begun. -/
structure Lined (a : Acceptor) : Prop where
  nodup : a.line.Nodup
  queued : ∀ id ∈ a.line, a.loops.get? id = some .queued

theorem Lined.of_sublist (h : a.Lined) (hline : a'.line.Sublist a.line)
    (hloops : ∀ id ∈ a'.line, a'.loops.get? id = a.loops.get? id) : a'.Lined := by
  refine ⟨hline.nodup h.nodup, fun id hid => ?_⟩
  rw [hloops id hid]
  exact h.queued id (hline.subset hid)

/-- Events that change neither the line nor the loops. -/
theorem Lined.of_eq (h : a.Lined) (hline : a'.line = a.line) (hloops : a'.loops = a.loops) :
    a'.Lined :=
  h.of_sublist (hline ▸ List.Sublist.refl _) fun _ _ => by rw [hloops]

/-- The loop of a connection that is in no line may go on or end. -/
theorem Lined.of_other (h : a.Lined) (hid : id ∉ a.line) (hline : a'.line = a.line)
    (hloops : ∀ other, other ≠ id → a'.loops.get? other = a.loops.get? other) : a'.Lined :=
  h.of_sublist (hline ▸ List.Sublist.refl _) fun other hother =>
    hloops other fun heq => hid (heq ▸ hline ▸ hother)

theorem Lined.not_mem {stand : Stand} (h : a.Lined) (hstand : a.loops.get? id = some stand)
    (hne : stand ≠ .queued) : id ∉ a.line := by
  intro hid
  rw [h.queued id hid] at hstand
  exact hne (Option.some.inj hstand).symm

theorem get?_move_of_ne {other : Nat} (stand : Stand) (hne : other ≠ id) :
    (a.move id stand).loops.get? other = a.loops.get? other := by
  simp [move, hne]

theorem get?_leave_of_ne {other : Nat} (hne : other ≠ id) :
    (a.leave id).loops.get? other = a.loops.get? other := by
  simp [leave, hne]

theorem get?_leaveAll_of_not_mem {ids : List Nat} (hid : id ∉ ids) :
    (a.leaveAll ids).loops.get? id = a.loops.get? id := by
  rw [leaveAll_eq]
  exact Dict.get?_foldl_erase _ _ _ hid

/-- Events at the gate in which no connection is handed over. -/
theorem line_gate {gate : Gate} (hold : a.gate.held = []) (hnew : gate.held = []) :
    ({ a with gate } : Acceptor).line = a.line := by
  unfold line
  rw [hold, hnew]
  rfl

theorem line_of_pool {pool : Pool} (hpool : a.pool = some pool) :
    a.line = pool.queue.map (·.index) ++ a.gate.held := by
  unfold line inQueue
  rw [hpool]

/-- Behind a crash either nobody is stranded and the line is as it was, or everybody in the queue
is and only the connection that is handed over is left. -/
theorem line_crash (a : Acceptor) (id : Nat) :
    a.stranded = [] ∧ ((a.leave id).crash id).line = a.line ∨
      a.stranded = a.inQueue ∧ ((a.leave id).crash id).line = a.gate.held := by
  unfold crash line inQueue
  rw [leaveAll_eq]
  show a.stranded = [] ∧ _ ++ a.gate.held = _ ++ a.gate.held ∨
    a.stranded = _ ∧ _ ++ a.gate.held = a.gate.held
  unfold stranded leave
  cases hpool : a.pool with
  | none => exact .inl ⟨rfl, rfl⟩
  | some pool =>
    -- with the last worker goes the queue
    by_cases hlast : pool.workers ≤ 1
    · refine .inr ⟨if_pos hlast, ?_⟩
      simp [Pool.crash, hlast]
    · refine .inl ⟨if_neg hlast, ?_⟩
      simp [Pool.crash, hlast]

theorem get?_crash {other : Nat} (hne : other ≠ id) (hother : other ∉ a.stranded) :
    ((a.leave id).crash id).loops.get? other = a.loops.get? other := by
  have hstranded : other ∉ (a.leave id).stranded := hother
  unfold crash
  rw [get?_leaveAll_of_not_mem hstranded]
  exact get?_leave_of_ne hne

/-- The number of a connection that opens has no loop yet, so it is not in the line. -/
theorem Lined.registers {peer : Address} (h : a.Lined)
    (hnew : a.loops.get? a.connections.nextId = none) (hgate : a.gate = .passed peer) :
    ({ a.move a.connections.nextId .queued with
      connections := (a.connections.register now peer).2
      gate := .holding a.connections.nextId } : Acceptor).Lined := by
  have hline : a.line = a.inQueue := by
    rw [line, hgate]
    exact List.append_nil _
  have hfresh : a.connections.nextId ∉ a.inQueue := by
    intro hid
    rw [← hline] at hid
    rw [h.queued _ hid] at hnew
    cases hnew
  have hnodup := h.nodup
  rw [hline] at hnodup
  refine ⟨hnodup.append (List.nodup_singleton _) ?_, fun id hid => ?_⟩
  · simpa [Gate.held] using hfresh
  · rcases List.mem_append.1 hid with hid | hid
    · have hne : id ≠ a.connections.nextId := fun heq => hfresh (heq ▸ hid)
      exact (get?_move_of_ne _ hne).trans (h.queued id (hline ▸ hid))
    · rw [List.mem_singleton.1 hid]
      simp [move]

/-- The connection that is handed over is not in the queue, so its end changes nothing there. -/
theorem Lined.drops (h : a.Lined) (hgate : a.gate = .holding id) :
    ({ a.leave id with gate := .free } : Acceptor).Lined := by
  have hline : a.line = a.inQueue ++ [id] := by
    rw [line, hgate]
    rfl
  have hnodup := h.nodup
  rw [hline] at hnodup
  refine h.of_sublist ?_ fun other hother => ?_
  · rw [hline]
    exact List.Sublist.append_left (List.nil_sublist _) _
  · have hmem : other ∈ a.inQueue := by
      rcases List.mem_append.1 hother with hmem | hmem
      · exact hmem
      · cases hmem
    have hdisjoint := (List.nodup_append.1 hnodup).2.2
    exact get?_leave_of_ne (hdisjoint other hmem id (List.mem_singleton_self id))

/-- The connection whose worker is lost has left the line before. Whoever is stranded leaves it. -/
theorem Lined.crashes (h : a.Lined) (hstand : a.loops.get? id = some .failing) :
    ((a.leave id).crash id).Lined := by
  have hid := h.not_mem hstand (by decide)
  have hne : ∀ other ∈ a.line, other ≠ id := fun other hother heq => hid (heq ▸ hother)
  rcases line_crash a id with ⟨hnobody, hline⟩ | ⟨hall, hline⟩
  · refine h.of_other hid hline fun other hother => get?_crash hother ?_
    rw [hnobody]
    exact List.not_mem_nil
  · refine h.of_sublist ?_ fun other hother => ?_
    · rw [hline]
      exact List.sublist_append_right _ _
    · rw [hline] at hother
      refine get?_crash (hne other (List.mem_append_right _ hother)) fun hstranded => ?_
      rw [hall] at hstranded
      exact (List.nodup_append.1 h.nodup).2.2 other hstranded other hother rfl

theorem Lined.of_happens (h : a.Lined) (hnew : a.loops.get? a.connections.nextId = none)
    (hstep : Happens settings now a e a') : a'.Lined := by
  cases hstep with
  | watches hstage hgate hstop => exact h.of_eq (line_gate (by rw [hgate]; rfl) rfl) rfl
  | ticks hgate => exact h.of_eq (line_gate (by rw [hgate]; rfl) rfl) rfl
  | turnsAway hgate => exact h.of_eq (line_gate (by rw [hgate]; rfl) rfl) rfl
  | counts hgate => exact h.of_eq (line_gate (by rw [hgate]; rfl) rfl) rfl
  | refuses hgate => exact h.of_eq (line_gate (by rw [hgate]; rfl) rfl) rfl
  | passes hgate => exact h.of_eq (line_gate (by rw [hgate]; rfl) rfl) rfl
  | registers hgate => exact h.registers hnew hgate
  | @spawns id hgate hpool =>
    -- without a pool nobody is in line but the connection that is handed over
    have hline : ({ a.move id .looking with gate := .free } : Acceptor).line = [] := by
      show a.inQueue ++ [] = []
      rw [inQueue, hpool]
      rfl
    refine h.of_sublist ?_ fun other hother => ?_
    · rw [hline]
      exact List.nil_sublist _
    · rw [hline] at hother
      cases hother
  | @enqueues id pool hgate hpool =>
    -- from the end of the line to its end
    refine h.of_eq ?_ rfl
    rw [line_of_pool hpool, line_of_pool rfl, hgate]
    simp [Gate.held]
  | drops hgate hpool => exact h.drops hgate
  | @picksUp pool job queue hpool hqueue =>
    -- the loop that begins was the first in the line, and is nowhere else in it
    have hline : a.line = job.index :: (queue.map (·.index) ++ a.gate.held) := by
      rw [line_of_pool hpool, hqueue]
      rfl
    have hnodup := h.nodup
    rw [hline, List.nodup_cons] at hnodup
    refine h.of_sublist ?_ fun id hid => get?_move_of_ne _ fun heq => hnodup.1 (heq ▸ hid)
    rw [hline]
    exact List.sublist_cons_self _ _
  | @rests id pool hpool =>
    refine h.of_eq ?_ rfl
    rw [line_of_pool hpool]
    rfl
  | @turns id turn stand next hstand hgoes =>
    refine h.of_other (h.not_mem hstand hgoes.ne_queued) ?_ fun other hne => ?_
    · rw [account_eq]
      rfl
    · rw [get?_move_of_ne _ hne, account_eq]
  | leaves hstand =>
    exact h.of_other (h.not_mem hstand (by decide)) rfl fun other hne => get?_leave_of_ne hne
  | crashes hstand => exact h.crashes hstand
  | stops kind => exact h.of_eq rfl rfl
  | enters => exact h.of_eq rfl rfl
  | closesListener hstage hgate hstop =>
    refine h.of_eq ?_ rfl
    have hheld : a.gate.held = [] := by
      rcases hgate with hgate | hgate <;> rw [hgate] <;> rfl
    unfold line inQueue
    rw [hheld]
    cases a.pool with
    | none => rfl
    | some pool => rfl
  | retires => exact h.of_eq rfl rfl
  | glances => exact h.of_eq rfl rfl
  | stopsDrained => exact h.of_eq rfl rfl
  | givesUp => exact h.of_eq rfl rfl
  | waits => exact h.of_eq rfl rfl

end Acceptor

end Switchboard.Server
