import Switchboard.Proofs.Acceptor.Table

/-!
# What holds of a server at all times

Beside its table and its line a server keeps to its settings and its stages (`Staged`). There are
never more connections than there may be, counting the places that are about to be taken. The queue
of its workers has room for as many as may be open. It has connections at its gate only while it
listens, it stops listening only when it is told to, and it has stopped, or ended well, only when it
has no connections. All this together is `Sound`. It holds at the beginning, every event preserves it
(`Sound.step`), and so it holds behind any history (`Sound.run`).
-/

namespace Switchboard

/-- What does not change about a pool until it is closed. -/
def Pool.terms (p : Pool) : Nat × Bool := (p.capacity, p.closed)

namespace Server

namespace Acceptor

variable {settings : NetworkSettings} {now : Nat} {a a' : Acceptor} {e : Event} {id : Nat}

/-- Whether a server has been told to shut down is told by the kind of the shutdown. -/
theorem isStopping_of_kind_eq (hkind : a'.lifecycle.kind = a.lifecycle.kind)
    (hstop : a.lifecycle.isStopping = true) : a'.lifecycle.isStopping = true := by
  rw [Lifecycle.isStopping, hkind]
  exact hstop

/-! ## Stages -/

/-- Whether a server keeps to its settings and its stages. -/
structure Staged (settings : NetworkSettings) (a : Acceptor) : Prop where
  room : a.connections.count + a.gate.places ≤ settings.maxConnections
  capacity : ∀ pool, a.pool = some pool → settings.maxConnections ≤ pool.capacity
  listening : a.gate ≠ .free → a.stage = .listening
  unclosed : a.stage = .listening → ∀ pool, a.pool = some pool → pool.closed = false
  stopping : a.stage ≠ .listening → a.lifecycle.isStopping = true
  stopped : a.lifecycle.phase = .stopped →
    (∃ ending, a.stage = .ended ending) ∧ a.connections.count = 0
  drained : ∀ ending, a.stage = .ended ending → ending.drained = true →
    a.connections.count = 0

namespace Staged

/-- Events that leave the stage as it is, let no server stop, and take no order back. -/
theorem goesOn (h : Staged settings a) (hstage : a'.stage = a.stage)
    (hphase : a'.lifecycle.phase = .stopped → a.lifecycle.phase = .stopped)
    (hstop : a.lifecycle.isStopping = true → a'.lifecycle.isStopping = true)
    (hpool : a'.pool.map Pool.terms = a.pool.map Pool.terms)
    (hroom : a'.connections.count + a'.gate.places ≤ settings.maxConnections)
    (hlisten : a'.gate ≠ .free → a.stage = .listening)
    (hcount : a.stage ≠ .listening → a'.connections.count ≤ a.connections.count) :
    Staged settings a' := by
  have hterms : ∀ pool', a'.pool = some pool' →
      ∃ pool, a.pool = some pool ∧ pool.capacity = pool'.capacity ∧ pool.closed = pool'.closed := by
    intro pool' hpool'
    rw [hpool', Option.map_some] at hpool
    obtain ⟨pool, hsome, hterms⟩ := Option.map_eq_some_iff.1 hpool.symm
    exact ⟨pool, hsome, congrArg Prod.fst hterms, congrArg Prod.snd hterms⟩
  refine ⟨hroom, fun pool' hpool' => ?_, fun hgate => ?_, fun hlisten' pool' hpool' => ?_,
    fun hne => ?_, fun hstopped => ?_, fun ending hended hdrained => ?_⟩
  · obtain ⟨pool, hsome, hcapacity, -⟩ := hterms pool' hpool'
    exact hcapacity ▸ h.capacity pool hsome
  · exact hstage.trans (hlisten hgate)
  · obtain ⟨pool, hsome, -, hclosed⟩ := hterms pool' hpool'
    exact hclosed ▸ h.unclosed (hstage ▸ hlisten') pool hsome
  · exact hstop (h.stopping (hstage ▸ hne))
  · obtain ⟨⟨ending, hended⟩, hnone⟩ := h.stopped (hphase hstopped)
    have hle := hcount (by simp [hended])
    exact ⟨⟨ending, hstage.trans hended⟩, by omega⟩
  · have hended : a.stage = .ended ending := hstage ▸ hended
    have hnone := h.drained ending hended hdrained
    have hle := hcount (by simp [hended])
    omega

/-- Events at the gate, which leave everything else as it is. -/
theorem atGate {gate : Gate} (h : Staged settings a) (hstage : a.stage = .listening)
    (hroom : a.connections.count + gate.places ≤ settings.maxConnections) :
    Staged settings { a with gate } :=
  h.goesOn rfl id id rfl hroom (fun _ => hstage) fun hne => absurd hstage hne

/-- Events in which there is a caller at the gate. -/
theorem withCaller (h : Staged settings a) (hbusy : a.gate ≠ .free) (hstage : a'.stage = a.stage)
    (hlife : a'.lifecycle = a.lifecycle)
    (hpool : a'.pool.map Pool.terms = a.pool.map Pool.terms)
    (hroom : a'.connections.count + a'.gate.places ≤ settings.maxConnections) :
    Staged settings a' := by
  have hlistens := h.listening hbusy
  refine h.goesOn hstage ?_ ?_ hpool hroom (fun _ => hlistens) fun hne => absurd hlistens hne
  · rw [hlife]
    exact id
  · rw [hlife]
    exact id

/-- Events in which the caller at the gate goes on or is sent away. -/
theorem passesOn {gate : Gate} (h : Staged settings a) (hbusy : a.gate ≠ .free)
    (hplaces : gate.places ≤ a.gate.places) : Staged settings { a with gate } :=
  h.atGate (h.listening hbusy) (Nat.le_trans (Nat.add_le_add_left hplaces _) h.room)

/-- Nobody is at the gate of a server that takes no connections any more. -/
theorem gate_eq_free (h : Staged settings a) (hold : a.stage ≠ .listening) : a.gate = .free := by
  by_contra hne
  exact hold (h.listening hne)

/-- Events of a server that takes no connections any more, and has come to no end. -/
theorem waits (h : Staged settings a) {stage : Stage} (hold : a.stage ≠ .listening)
    (hopen : ∀ ending, a.stage ≠ .ended ending) (hnew : stage ≠ .listening)
    (hdrained : ∀ ending, stage = .ended ending → ending.drained = false) :
    Staged settings { a with stage } := by
  have hgate := h.gate_eq_free hold
  refine ⟨h.room, h.capacity, fun hne => absurd hgate hne, fun hlisten => absurd hlisten hnew,
    fun _ => h.stopping hold, fun hstopped => ?_, fun ending hended htrue => ?_⟩
  · obtain ⟨⟨ending, hended⟩, -⟩ := h.stopped hstopped
    exact absurd hended (hopen ending)
  · rw [hdrained ending hended] at htrue
    cases htrue

/-- Events in which no connection opens, and nothing happens at the gate. -/
theorem inside (h : Staged settings a) (hstage : a'.stage = a.stage)
    (hphase : a'.lifecycle.phase = .stopped → a.lifecycle.phase = .stopped)
    (hstop : a.lifecycle.isStopping = true → a'.lifecycle.isStopping = true)
    (hpool : a'.pool.map Pool.terms = a.pool.map Pool.terms) (hgate : a'.gate = a.gate)
    (hcount : a'.connections.count ≤ a.connections.count) : Staged settings a' := by
  have hroom := h.room
  refine h.goesOn hstage hphase hstop hpool ?_ ?_ fun _ => hcount
  · rw [hgate]
    omega
  · rw [hgate]
    exact h.listening

/-- An order to shut down leaves everything to be done. -/
theorem stops (h : Staged settings a) (kind : ShutdownKind) : Staged settings (a.stop kind) := by
  refine h.inside rfl (fun hstopped => ?_) (fun hstop => ?_) rfl rfl (Nat.le_refl _)
  · exact (a.lifecycle.phase_order kind).symm.trans hstopped
  · show (a.lifecycle.order kind).isStopping = true
    rw [Lifecycle.order_of_isStopping hstop]
    exact hstop

/-- The phase that is written behind an order is not that of a server that has stopped. -/
theorem enters (h : Staged settings a) (howed : a.lifecycle.entering = true) :
    Staged settings { a with lifecycle := a.lifecycle.enter } := by
  rw [Lifecycle.enter_of_entering howed]
  exact h.inside rfl nofun id rfl rfl (Nat.le_refl _)

/-- The server stops listening because it has been told to, and is not at its end yet. -/
theorem closesListener (h : Staged settings a) (hstage : a.stage = .listening)
    (hstop : a.lifecycle.isStopping = true) : Staged settings { a with
      stage := if a.pool.isSome then .retiring else .draining true none
      gate := .free
      pool := a.pool.map Pool.close } := by
  refine ⟨Nat.le_of_add_right_le h.room, ?_, fun hne => absurd rfl hne, fun hlisten => ?_,
    fun _ => hstop, fun hstopped => ?_, fun ending hended => ?_⟩
  · intro pool' hpool'
    obtain ⟨pool, hpool, rfl⟩ := Option.map_eq_some_iff.1 hpool'
    exact h.capacity pool hpool
  · cases hpool : a.pool with
    | none => simp [hpool] at hlisten
    | some pool => simp [hpool] at hlisten
  · obtain ⟨⟨ending, hended⟩, -⟩ := h.stopped hstopped
    rw [hstage] at hended
    cases hended
  · cases hpool : a.pool with
    | none => simp [hpool] at hended
    | some pool => simp [hpool] at hended

theorem of_happens (h : Staged settings a) (hcount : a'.connections.count ≤
    a.connections.count + (a.openings e).length) (hstep : Happens settings now a e a') :
    Staged settings a' := by
  have hroom := h.room
  cases hstep with
  | watches hstage hgate => exact h.atGate hstage (by rw [hgate] at hroom; exact hroom)
  | ticks hgate => exact h.passesOn (by simp [hgate]) (Nat.zero_le _)
  | turnsAway hgate => exact h.passesOn (by simp [hgate]) (Nat.zero_le _)
  | counts hgate hplace =>
    -- the place is there, as it has just been counted
    exact h.atGate (h.listening (by simp [hgate])) hplace
  | refuses hgate => exact h.passesOn (by simp [hgate]) (Nat.zero_le _)
  | passes hgate => exact h.passesOn (by simp [hgate]) (by rw [hgate]; exact Nat.le_refl 1)
  | registers hgate =>
    -- the place that the caller had is the one that the connection takes
    rw [hgate] at hroom
    exact h.withCaller (by simp [hgate]) rfl rfl rfl (Nat.le_trans hcount hroom)
  | spawns hgate hpool =>
    rw [hgate] at hroom
    exact h.withCaller (by simp [hgate]) rfl rfl rfl hroom
  | enqueues hgate hpool =>
    rw [hgate] at hroom
    refine h.withCaller (by simp [hgate]) rfl rfl ?_ hroom
    rw [hpool]
    rfl
  | drops hgate hpool =>
    rw [hgate] at hroom
    exact h.withCaller (by simp [hgate]) rfl rfl rfl (Nat.le_trans hcount hroom)
  | picksUp hpool =>
    refine h.inside rfl id id ?_ rfl hcount
    rw [hpool]
    rfl
  | rests hpool =>
    refine h.inside rfl id id ?_ rfl hcount
    rw [hpool]
    rfl
  | turns hstand hgoes =>
    obtain ⟨hphase, hkind⟩ := a.lifecycle_account _ _
    refine h.inside ?_ hphase.symm.trans (isStopping_of_kind_eq hkind) ?_ ?_ hcount
    · rw [account_eq]
      rfl
    · rw [account_eq]
      rfl
    · rw [account_eq]
      rfl
  | leaves hstand => exact h.inside rfl id id rfl rfl hcount
  | crashes hstand =>
    unfold crash at hcount ⊢
    rw [leaveAll_eq] at hcount ⊢
    refine h.inside rfl id id ?_ rfl hcount
    show (a.pool.map (Pool.crash · _)).map Pool.terms = _
    rw [Option.map_map]
    rfl
  | stops kind => exact h.stops kind
  | enters howed => exact h.enters howed
  | closesListener hstage hgate hstop => exact h.closesListener hstage hstop
  | retires hstage =>
    exact h.waits (by simp [hstage]) (by simp [hstage]) nofun nofun
  | glances hstage =>
    exact h.waits (by simp [hstage]) (by simp [hstage]) nofun nofun
  | stopsDrained hstage hidle =>
    have hold : a.stage ≠ .listening := by simp [hstage]
    have hgate := h.gate_eq_free hold
    exact ⟨hroom, h.capacity, fun hne => absurd hgate hne, nofun, fun _ => h.stopping hold,
      fun _ => ⟨⟨_, rfl⟩, hidle⟩, fun _ _ _ => hidle⟩
  | givesUp hstage =>
    refine h.waits (by simp [hstage]) (by simp [hstage]) nofun fun ending hended => ?_
    rw [← Stage.ended.inj hended]
  | waits hstage =>
    exact h.waits (by simp [hstage]) (by simp [hstage]) nofun nofun

end Staged

/-! ## Orders to shut down -/

/-- Behind an order to shut down no other one counts. -/
theorem kind_of_happens (hstop : a.lifecycle.isStopping = true)
    (hstep : Happens settings now a e a') : a'.lifecycle.kind = a.lifecycle.kind := by
  cases hstep with
  | @turns id turn => exact (a.lifecycle_account id turn).2
  | crashes =>
    unfold crash
    rw [leaveAll_eq]
    rfl
  | stops kind => exact congrArg Lifecycle.kind (Lifecycle.order_of_isStopping hstop kind)
  | enters => exact a.lifecycle.kind_enter
  | _ => rfl

theorem isStopping_of_happens (hstop : a.lifecycle.isStopping = true)
    (hstep : Happens settings now a e a') : a'.lifecycle.isStopping = true :=
  isStopping_of_kind_eq (kind_of_happens hstop hstep) hstop

/-! ## Histories -/

/-- What holds of a server at all times. -/
structure Sound (settings : NetworkSettings) (a : Acceptor) : Prop where
  inOrder : a.InOrder
  lined : a.Lined
  staged : Staged settings a

/-- The phase is to be written if the server has been told before to shut down. -/
theorem lifecycle_new (settings : NetworkSettings) (told : Option ShutdownKind) :
    (new settings told).lifecycle = ⟨.ready, told, told.isSome, 0⟩ := by
  cases told <;> rfl

theorem line_new (settings : NetworkSettings) (told : Option ShutdownKind) :
    (new settings told).line = [] := by
  unfold line inQueue new
  cases settings.workerPool <;> rfl

namespace Sound

theorem new (settings : NetworkSettings) (told : Option ShutdownKind) :
    Sound settings (new settings told) := by
  have hlife := lifecycle_new settings told
  have hline := line_new settings told
  refine ⟨⟨rfl, nofun, ?_⟩, ⟨?_, ?_⟩,
    ⟨Nat.zero_le _, ?_, fun _ => rfl, ?_, fun hne => absurd rfl hne, ?_, nofun⟩⟩
  · rw [hlife]
    rfl
  · rw [hline]
    exact List.nodup_nil
  · rw [hline]
    nofun
  · intro pool hpool
    obtain ⟨size, -, rfl⟩ := Option.map_eq_some_iff.1 hpool
    exact Nat.le_max_right _ _
  · intro _ pool hpool
    obtain ⟨size, -, rfl⟩ := Option.map_eq_some_iff.1 hpool
    rfl
  · rw [hlife]
    nofun

theorem change (h : Sound settings a) (hstep : a.step? settings now e = some a') :
    Change a a' e :=
  change_of_happens h.lined (happens_of_step? hstep)

/-- What one event preserves. -/
theorem step (h : Sound settings a) (hstep : a.step? settings now e = some a') :
    Sound settings a' := by
  have hchange := h.change hstep
  have hhappens := happens_of_step? hstep
  exact ⟨h.inOrder.of_change hchange, h.lined.of_happens h.inOrder.get?_nextId hhappens,
    h.staged.of_happens (count_le_of_change h.inOrder hchange) hhappens⟩

end Sound

theorem Sound.run (h : Sound settings a) (events : List (Nat × Event)) :
    Sound settings ((machine settings).run a events) :=
  Machine.run_induction (fun _ _ _ _ h hstep => h.step hstep) h events

/-- The turns that the loop of a connection takes in a history. -/
def turnsOf (settings : NetworkSettings) (a : Acceptor) (events : List (Nat × Event)) (id : Nat) :
    List Turn :=
  (machine settings).reports (fun _ _ e => (e.turnOf? id).toList) a events

theorem turnsOf_of_none {events : List (Nat × Event)} (hdue : a.step? settings now e = none) :
    a.turnsOf settings ((now, e) :: events) id = a.turnsOf settings events id :=
  Machine.reports_of_none hdue

theorem turnsOf_of_some {events : List (Nat × Event)} (hdue : a.step? settings now e = some a') :
    a.turnsOf settings ((now, e) :: events) id =
      (e.turnOf? id).toList ++ a'.turnsOf settings events id :=
  Machine.reports_of_some hdue

end Acceptor

end Server

end Switchboard
