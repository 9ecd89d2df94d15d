import Mathlib.Data.List.Perm.Subperm
import Mathlib.Data.List.Range
import Switchboard.Proofs.Acceptor.Stages

/-!
# Who is admitted

The open connections are counted before one more is registered, and anything can happen in between.
But only one loop registers connections, and whatever else happens there can only be fewer of them,
so the place that was there when they were counted is there when it is taken. The same is why no
connection ever waits for room in the queue: every connection in the queue has a place, as has the
one that is handed over, and the queue is as long as there are places.
-/

namespace Switchboard.Server

open Machine (run_of_none run_of_some run_append reports_of_none reports_of_some)

namespace Acceptor

variable {settings : NetworkSettings} {now : Nat} {a a' : Acceptor} {e : Event}
  {events : List (Nat × Event)}

/-! ## What a history tells -/

/-- The number of the connection that is admitted in an event that happens. -/
def admittedIn? (settings : NetworkSettings) (a : Acceptor) (now : Nat) (e : Event) : Option Nat :=
  match a.admission? settings now e with
  | some (.admitted connection) => some connection.id
  | _ => none

/-- The numbers of the connections that are admitted in a history, first to be admitted first. -/
def admitted (settings : NetworkSettings) (a : Acceptor) (events : List (Nat × Event)) : List Nat :=
  (machine settings).reports (fun a now e => (a.admittedIn? settings now e).toList) a events

/-- The numbers of the connections that give up their places in a history. -/
def ended (settings : NetworkSettings) (a : Acceptor) (events : List (Nat × Event)) : List Nat :=
  (machine settings).reports (fun a _ e => a.endings e) a events

/-- Whoever is admitted gets the next number, and nobody else gets one. -/
theorem toList_admittedIn? (hdue : a.step? settings now e = some a') :
    (a.admittedIn? settings now e).toList = a.openings e := by
  cases happens_of_step? hdue with
  | registers hgate =>
    unfold admittedIn? admission?
    rw [hgate]
    rfl
  | turnsAway hgate hfull =>
    have hfull : a.isFull settings = true := decide_eq_true hfull
    simp [admittedIn?, admission?, hfull, openings]
  | counts hgate hroom =>
    have hroom : a.isFull settings = false := decide_eq_false (Nat.not_le.2 hroom)
    simp [admittedIn?, admission?, hroom, openings]
  | refuses hgate hstop => simp [admittedIn?, admission?, hstop, openings]
  | passes hgate hstop => simp [admittedIn?, admission?, hstop, openings]
  | _ => rfl

theorem admitted_of_some (hdue : a.step? settings now e = some a') :
    a.admitted settings ((now, e) :: events) = a.openings e ++ a'.admitted settings events := by
  unfold admitted
  rw [reports_of_some hdue, toList_admittedIn? hdue]

/-! ## Numbers -/

/-- Whether the connections in the table are those that were admitted and have not ended. -/
structure Recorded (a : Acceptor) (opened gone : List Nat) : Prop where
  keys : a.loops.keys = opened.filter (· ∉ gone)
  nextId : a.connections.nextId = opened.length + 1
  numbered : opened = List.range' 1 opened.length
  below : ∀ id ∈ gone, id < a.connections.nextId

theorem openings_eq (a : Acceptor) (e : Event) :
    a.openings e = [] ∨ a.openings e = [a.connections.nextId] := by
  cases e with
  | registers => exact .inr rfl
  | _ => exact .inl rfl

theorem Recorded.step {opened gone : List Nat} (h : a.Recorded opened gone)
    (hsound : Sound settings a) (hdue : a.step? settings now e = some a') :
    a'.Recorded (opened ++ a.openings e) (gone ++ a.endings e) := by
  have hchange := hsound.change hdue
  have hnext := nextId_of_change hchange
  have hfresh : ∀ id ∈ a.openings e, id ∉ gone := by
    intro id hid hgone
    have hlt := h.below id hgone
    rcases a.openings_eq e with hnone | hone
    · rw [hnone] at hid
      cases hid
    · rw [hone, List.mem_singleton] at hid
      omega
  refine ⟨?_, ?_, ?_, fun id hid => ?_⟩
  · have hopenings : (a.openings e).filter (· ∉ gone ++ a.endings e) =
        (a.openings e).filter (· ∉ a.endings e) := by
      apply List.filter_congr
      intro id hid
      simp [hfresh id hid]
    rw [keys_of_change hsound.inOrder hchange, h.keys, List.filter_append, List.filter_append,
      hopenings, List.filter_filter]
    congr 1
    apply List.filter_congr
    intro id hid
    simp [Bool.and_comm]
  · rw [hnext, h.nextId, List.length_append]
    omega
  · rcases a.openings_eq e with hnone | hone
    · rw [hnone, List.append_nil]
      exact h.numbered
    · rw [hone, List.length_append, h.nextId]
      show _ = List.range' 1 (opened.length + 1)
      rw [List.range'_1_concat, ← h.numbered, Nat.add_comm]
  · rw [hnext]
    rcases List.mem_append.1 hid with hid | hid
    · exact Nat.lt_add_right _ (h.below id hid)
    · have hopen := mem_keys_of_mem_endings hchange hid
      exact Nat.lt_add_right _ (hsound.inOrder.below id hopen)

theorem Recorded.run {opened gone : List Nat} (h : a.Recorded opened gone)
    (hsound : Sound settings a) (events : List (Nat × Event)) :
    ((machine settings).run a events).Recorded (opened ++ a.admitted settings events)
      (gone ++ a.ended settings events) := by
  induction events generalizing a opened gone with
  | nil =>
    rw [show a.admitted settings [] = [] from rfl, show a.ended settings [] = [] from rfl,
      List.append_nil, List.append_nil]
    exact h
  | cons one events ih =>
    obtain ⟨now, e⟩ := one
    cases hdue : a.step? settings now e with
    | none =>
      rw [run_of_none hdue, admitted, ended, reports_of_none hdue, reports_of_none hdue]
      exact ih h hsound
    | some a' =>
      rw [run_of_some hdue, admitted_of_some hdue, ended, reports_of_some hdue,
        ← List.append_assoc, ← List.append_assoc]
      exact ih (h.step hsound hdue) (hsound.step hdue)

theorem Recorded.new (settings : NetworkSettings) (told : Option ShutdownKind) :
    (new settings told).Recorded [] [] :=
  ⟨rfl, rfl, rfl, nofun⟩

end Acceptor

/-! ## Behind an order to shut down -/

/-- How many callers have passed the last look whether the server shuts down. -/
def Gate.passing : Gate → Nat
  | .passed _ => 1
  | _ => 0

namespace Acceptor

variable {settings : NetworkSettings} {now : Nat} {a a' : Acceptor} {e : Event}

/-- Nobody else passes it once the server has been told. -/
theorem passing_of_happens (hstop : a.lifecycle.isStopping = true)
    (hstep : Happens settings now a e a') :
    (a.openings e).length + a'.gate.passing ≤ a.gate.passing := by
  have hsame : 0 + a.gate.passing ≤ a.gate.passing := Nat.le_of_eq (Nat.zero_add _)
  cases hstep with
  | registers hgate =>
    rw [hgate]
    exact Nat.le_refl 1
  | passes hgate hrunning =>
    rw [hstop] at hrunning
    cases hrunning
  | turns =>
    rw [account_eq]
    exact hsame
  | crashes =>
    unfold crash
    rw [leaveAll_eq]
    exact hsame
  | picksUp => exact hsame
  | rests => exact hsame
  | leaves => exact hsame
  | stops => exact hsame
  | enters => exact hsame
  | retires => exact hsame
  | glances => exact hsame
  | stopsDrained => exact hsame
  | givesUp => exact hsame
  | waits => exact hsame
  | _ => exact Nat.zero_le _

theorem length_admitted_le (hstop : a.lifecycle.isStopping = true) (events : List (Nat × Event)) :
    (a.admitted settings events).length ≤ a.gate.passing := by
  rw [← List.countP_true, admitted]
  refine (machine settings).countP_reports_le (·.lifecycle.isStopping = true) (·.gate.passing) ?_
    hstop events
  intro a now e a' hstop hdue
  have hstep := happens_of_step? hdue
  refine ⟨isStopping_of_happens hstop hstep, ?_⟩
  rw [List.countP_true, toList_admittedIn? hdue]
  exact passing_of_happens hstop hstep

/-! ## At the gate -/

/-- Whoever is sent away hears so, and that is all. -/
theorem eq_of_rejected {message : String} (hdue : a.step? settings now e = some a')
    (hrejected : a.admission? settings now e = some (.rejected message)) :
    a' = { a with gate := .free } ∧ message = settings.busyMessage := by
  cases happens_of_step? hdue with
  | turnsAway hgate hfull =>
    have hfull : a.isFull settings = true := decide_eq_true hfull
    rw [admission?, if_pos hfull] at hrejected
    cases hrejected
    exact ⟨rfl, rfl⟩
  | counts hgate hroom =>
    have hroom : ¬a.isFull settings = true := by
      simpa [isFull] using hroom
    rw [admission?, if_neg hroom] at hrejected
    cases hrejected
  | refuses hgate hstop =>
    rw [admission?, if_pos hstop] at hrejected
    cases hrejected
    exact ⟨rfl, rfl⟩
  | passes hgate hstop =>
    rw [admission?, hstop] at hrejected
    cases hrejected
  | registers hgate =>
    rw [admission?, hgate] at hrejected
    cases hrejected
  | _ => cases hrejected

/-- Everyone in line has a place. -/
theorem Sound.length_line_le (h : Sound settings a) : a.line.length ≤ a.connections.count := by
  have hsubset : a.line ⊆ a.loops.keys :=
    fun id hid => Dict.mem_keys_iff.2 ⟨.queued, h.lined.queued id hid⟩
  rw [h.inOrder.count_eq]
  exact (h.lined.nodup.subperm hsubset).length_le

/-- While a connection is handed over, the queue has room for it. -/
theorem Sound.queue_lt {id : Nat} {pool : Pool} (h : Sound settings a)
    (hgate : a.gate = .holding id) (hpool : a.pool = some pool) :
    pool.queue.length < pool.capacity := by
  have hline := h.length_line_le
  rw [line_of_pool hpool, hgate, List.length_append, List.length_map] at hline
  have hroom : a.connections.count ≤ settings.maxConnections :=
    Nat.le_of_add_right_le h.staged.room
  calc pool.queue.length < pool.queue.length + 1 := Nat.lt_succ_self _
    _ ≤ a.connections.count := hline
    _ ≤ settings.maxConnections := hroom
    _ ≤ pool.capacity := h.staged.capacity pool hpool

/-- So it is handed over at once, and the server is back at its gate. -/
theorem Sound.exists_submitted {id : Nat} (h : Sound settings a) (hgate : a.gate = .holding id)
    (now : Nat) : ∃ a', a.step? settings now .submits = some a' ∧ a'.gate = .free := by
  have hstage : a.stage = .listening := h.staged.listening (by simp [hgate])
  simp only [step?, submit?, hgate]
  cases hpool : a.pool with
  | none => exact ⟨_, rfl, rfl⟩
  | some pool =>
    dsimp only
    cases hsubmit : pool.submit? ⟨id, 0⟩ with
    | some pool' => exact ⟨_, rfl, rfl⟩
    | none =>
      -- neither is the pool closed nor the queue full, so there can only be no worker
      have hworkers : pool.workers = 0 := by
        by_contra hne
        have hopen := h.staged.unclosed hstage pool hpool
        have hroom := h.queue_lt hgate hpool
        rw [Pool.submit?, if_pos ⟨by simp [hopen], Nat.pos_of_ne_zero hne, hroom⟩] at hsubmit
        cases hsubmit
      exact ⟨_, if_pos hworkers, rfl⟩

/-- What the server does by itself to be back at its gate. -/
def returning (now : Nat) : List (Nat × Event) :=
  [(now, .checks), (now, .registers), (now, .submits)]

/-- Without a caller there is nothing to be done. -/
theorem run_returning_of_idle (hgate : a.gate = .free ∨ a.gate = .watching) (now : Nat) :
    (machine settings).run a (returning now) = a := by
  have hchecks : a.step? settings now .checks = none := by
    rcases hgate with hgate | hgate <;> rw [step?, check?, hgate]
  have hregisters : a.step? settings now .registers = none := by
    rcases hgate with hgate | hgate <;> rw [step?, register?, hgate]
  have hsubmits : a.step? settings now .submits = none := by
    rcases hgate with hgate | hgate <;> rw [step?, submit?, hgate]
  rw [returning, run_of_none hchecks, run_of_none hregisters, run_of_none hsubmits]
  rfl

theorem Sound.gate_returning (h : Sound settings a) (hstop : a.lifecycle.isStopping = true)
    (now : Nat) : ((machine settings).run a (returning now)).gate = .free ∨
      ((machine settings).run a (returning now)).gate = .watching := by
  cases hgate : a.gate with
  | free =>
    rw [run_returning_of_idle (.inl hgate)]
    exact .inl hgate
  | watching =>
    rw [run_returning_of_idle (.inr hgate)]
    exact .inr hgate
  | counted peer =>
    -- the look at the order to shut down sends the caller away
    have hcheck : a.step? settings now .checks = some { a with gate := .free } := by
      rw [step?, check?, hgate]
      simp [hstop]
    rw [returning, run_of_some hcheck]
    exact .inl rfl
  | passed peer =>
    -- the look is over, so the caller is admitted in spite of the order
    obtain ⟨a', hregister, hgate'⟩ : ∃ a', a.step? settings now .registers = some a' ∧
        a'.gate = .holding a.connections.nextId := by
      rw [step?, register?, hgate]
      exact ⟨_, rfl, rfl⟩
    obtain ⟨b, hsubmit, hfree⟩ := (h.step hregister).exists_submitted hgate' now
    have hcheck : a.step? settings now .checks = none := by rw [step?, check?, hgate]
    rw [returning, run_of_none hcheck, run_of_some hregister, run_of_some hsubmit]
    exact .inl hfree
  | holding id =>
    obtain ⟨b, hsubmit, hfree⟩ := h.exists_submitted hgate now
    have hcheck : a.step? settings now .checks = none := by rw [step?, check?, hgate]
    have hregister : a.step? settings now .registers = none := by rw [step?, register?, hgate]
    rw [returning, run_of_none hcheck, run_of_none hregister, run_of_some hsubmit]
    exact .inl hfree

/-- A server that has been told to shut down stops listening once it has done what it was about. -/
theorem Sound.stage_closing (h : Sound settings a) (hstop : a.lifecycle.isStopping = true)
    (now : Nat) :
    ((machine settings).run a (returning now ++ [(now, .closesListener)])).stage ≠ .listening := by
  have hgate := h.gate_returning hstop now
  have hstop' : ((machine settings).run a (returning now)).lifecycle.isStopping = true :=
    (machine settings).run_induction (P := fun a => a.lifecycle.isStopping = true)
      (fun _ _ _ _ hstop hdue => isStopping_of_happens hstop (happens_of_step? hdue)) hstop _
  rw [run_append]
  generalize (machine settings).run a (returning now) = b at hgate hstop'
  by_cases hstage : b.stage = .listening
  · have hclose : b.step? settings now .closesListener = some { b with
        stage := if b.pool.isSome then .retiring else .draining true none
        gate := .free
        pool := b.pool.map Pool.close } := if_pos ⟨hstage, hgate, hstop'⟩
    rw [run_of_some hclose]
    show (if b.pool.isSome then Stage.retiring else .draining true none) ≠ .listening
    split
    · nofun
    · nofun
  · have hclose : b.step? settings now .closesListener = none :=
      if_neg fun hguard => hstage hguard.1
    rw [run_of_none hclose]
    exact hstage

/-- **Admission control.** There are never more connections open than there may be, and those open
are the ones that were admitted and have not ended, whether their loops have begun or not. They are
numbered from one upwards. Whoever is sent away changes nothing but the gate. Once the server has
been told to shut down nobody else is admitted but a caller that has passed the last look already. A
connection that is handed over finds room in the queue and need not wait for it, so the server comes
back to its gate whenever it left it, and stops listening there. -/
theorem admission_control (settings : NetworkSettings) (told : Option ShutdownKind)
    (early late : List (Nat × Event)) (now : Nat) :
    let start := new settings told
    let a := (machine settings).run start early
    a.connections.count ≤ settings.maxConnections ∧
    a.connections.active.keys =
      (start.admitted settings early).filter (· ∉ start.ended settings early) ∧
    a.loops.keys = a.connections.active.keys ∧
    start.admitted settings early = List.range' 1 (start.admitted settings early).length ∧
    (∀ e a' message, a.step? settings now e = some a' →
      a.admission? settings now e = some (.rejected message) →
        a' = { a with gate := .free } ∧ message = settings.busyMessage) ∧
    (a.lifecycle.isStopping = true → (a.admitted settings late).length ≤ a.gate.passing) ∧
    (∀ id, a.gate = .holding id →
      (∀ pool, a.pool = some pool → pool.queue.length < pool.capacity) ∧
        (a.step? settings now .submits).isSome = true) ∧
    (a.lifecycle.isStopping = true →
      ((machine settings).run a (returning now ++ [(now, .closesListener)])).stage ≠
        .listening) := by
  intro start a
  have hsound : Sound settings a := (Sound.new settings told).run early
  have hrecorded := (Recorded.new settings told).run (Sound.new settings told) early
  rw [List.nil_append, List.nil_append] at hrecorded
  refine ⟨Nat.le_of_add_right_le hsound.staged.room, ?_, hsound.inOrder.keys, hrecorded.numbered,
    fun e a' message => eq_of_rejected, fun hstop => length_admitted_le hstop late,
    fun id hgate => ⟨fun pool => hsound.queue_lt hgate, ?_⟩,
    fun hstop => hsound.stage_closing hstop now⟩
  · rw [← hsound.inOrder.keys]
    exact hrecorded.keys
  · obtain ⟨a', hdue, -⟩ := hsound.exists_submitted hgate now
    rw [hdue]
    rfl

/-- Of two callers the second is sent away if there is one place. -/
example :
    let settings : NetworkSettings := { maxConnections := 1, workerPool := some 1 }
    let peer : Address := ⟨.v4 127 0 0 1, 80⟩
    let first := [(5, Event.watches), (5, .connects peer), (6, .checks), (6, .registers),
      (6, .submits), (7, .picksUp)]
    let second := [(8, Event.watches), (8, .connects peer), (9, .checks), (9, .registers)]
    (new settings none).admitted settings (first ++ second) = [1] := by
  decide +kernel

end Acceptor

end Switchboard.Server
