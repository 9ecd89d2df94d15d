import Switchboard.Proofs.Acceptor.Stages

/-!
# How a server comes to its end

The loop of a connection and the server look at each other through two things only: the order to
shut down, and the counts of pending requests and open connections. A loop that waits when the order
is given may hear one more request, because it looks at both at once, but before it waits again it
looks at the order alone. A request is settled before its loop can give up the place of its
connection, so a server that finds no connections open has lost no reply, and what it read of the
pending requests before does not matter.
-/

namespace Switchboard.Server

open Stand (Goes)

/-- How many requests a loop can hear without a look whether the server shuts down. -/
def Stand.chances : Option Stand → Nat
  | some .waiting => 1
  | _ => 0

/-- Whether the turns that a busy loop takes settle its request: the processing fails, or there is no
reply, or there is one and it is sent or cannot be sent. -/
inductive Settled : Stand → List Turn → Prop
  | fails (more : List Turn) : Settled .answering (.fails :: more)
  | isSilent (last : Bool) (more : List Turn) : Settled .answering (.replies [] last :: more)
  | replies {reply : Bytes} {last : Bool} {more : List Turn}
    (h : Settled (.writing reply last) more) : Settled .answering (.replies reply last :: more)
  | sends (reply : Bytes) (last : Bool) (more : List Turn) :
    Settled (.writing reply last) (.sends :: more)
  | losesReply (reply : Bytes) (last : Bool) (more : List Turn) :
    Settled (.writing reply last) (.losesReply :: more)

namespace Acceptor

variable {settings : NetworkSettings} {now : Nat} {a a' : Acceptor} {e : Event} {id : Nat}
  {events : List (Nat × Event)}

/-! ## Requests behind an order to shut down -/

/-- A loop hears a request only if it has waited for it, and once the server has been told it does
not wait again. -/
theorem count_hears_of_passes {stand next : Option Stand} (h : Passes true id e stand next) :
    (e.turnOf? id).toList.count .hears + Stand.chances next ≤ Stand.chances stand := by
  cases h with
  | stays hturn =>
    rw [hturn]
    exact Nat.le_of_eq (Nat.zero_add _)
  | opens hturn =>
    rw [hturn]
    exact Nat.le_refl 0
  | begins hturn =>
    rw [hturn]
    exact Nat.le_refl 0
  | ends hturn =>
    rw [hturn]
    exact Nat.zero_le _
  | turns hturn hgoes =>
    rw [hturn]
    cases hgoes with
    | looks hrunning => cases hrunning
    | hears => exact Nat.le_refl 1
    | isSilent last => cases last <;> exact Nat.le_refl 0
    | sends reply last => cases last <;> exact Nat.le_refl 0
    | _ => exact Nat.zero_le _

theorem count_hears_le (h : Sound settings a) (hstop : a.lifecycle.isStopping = true) (id : Nat)
    (events : List (Nat × Event)) :
    (a.turnsOf settings events id).count .hears ≤ Stand.chances (a.loops.get? id) := by
  refine Machine.countP_reports_le (fun a => Sound settings a ∧ a.lifecycle.isStopping = true)
    (fun a => Stand.chances (a.loops.get? id)) ?_ ⟨h, hstop⟩ events
  rintro a now e a' ⟨h, hstop⟩ hdue
  have hpasses := h.inOrder.passes (h.change hdue) id
  rw [hstop] at hpasses
  refine ⟨⟨h.step hdue, isStopping_of_happens hstop (happens_of_step? hdue)⟩, ?_⟩
  exact count_hears_of_passes hpasses

/-! ## Requests that have begun -/

/-- A loop that is busy takes a turn before its connection can be gone. -/
theorem exists_turn {stand : Stand} (h : Sound settings a)
    (hstand : a.loops.get? id = some stand) (hbusy : stand.isBusy = true)
    (hgone : ((machine settings).run a events).loops.get? id = none) :
    ∃ stopping turn next a' late, Goes stopping stand turn next ∧ Sound settings a' ∧
      a'.loops.get? id = some next ∧ ((machine settings).run a' late).loops.get? id = none ∧
      a.turnsOf settings events id = turn :: a'.turnsOf settings late id := by
  induction events generalizing a with
  | nil =>
    have hstill : a.loops.get? id = none := hgone
    rw [hstand] at hstill
    cases hstill
  | cons one events ih =>
    obtain ⟨now, e⟩ := one
    cases hdue : a.step? settings now e with
    | none =>
      rw [Machine.run_of_none hdue] at hgone
      rw [turnsOf_of_none hdue]
      exact ih h hstand hgone
    | some a' =>
      rw [Machine.run_of_some hdue] at hgone
      rw [turnsOf_of_some hdue]
      have hpasses := h.inOrder.passes (h.change hdue) id
      rw [hstand] at hpasses
      generalize hnext : a'.loops.get? id = next at hpasses
      -- what concerns the loop first can only be a turn, as a busy loop neither begins nor ends
      cases hpasses with
      | stays hturn =>
        rw [hturn]
        exact ih (h.step hdue) hnext hgone
      | begins => cases hbusy
      | turns hturn hgoes =>
        rw [hturn]
        exact ⟨_, _, _, a', events, hgoes, h.step hdue, hnext, hgone, rfl⟩
      | ends hturn hidle =>
        rw [hbusy] at hidle
        cases hidle

theorem settled_of_writing {reply : Bytes} {last : Bool} (h : Sound settings a)
    (hstand : a.loops.get? id = some (.writing reply last))
    (hgone : ((machine settings).run a events).loops.get? id = none) :
    Settled (.writing reply last) (a.turnsOf settings events id) := by
  obtain ⟨_, _, _, a', late, hgoes, -, -, -, hturns⟩ := exists_turn h hstand rfl hgone
  rw [hturns]
  cases hgoes with
  | sends => exact .sends _ _ _
  | losesReply => exact .losesReply _ _ _

/-- A request that is being processed is settled before its connection is gone. -/
theorem settled_of_isBusy {stand : Stand} (h : Sound settings a)
    (hstand : a.loops.get? id = some stand) (hbusy : stand.isBusy = true)
    (hgone : ((machine settings).run a events).loops.get? id = none) :
    Settled stand (a.turnsOf settings events id) := by
  cases stand with
  | answering =>
    obtain ⟨_, _, _, a', late, hgoes, hsound, hnext, hgone', hturns⟩ :=
      exists_turn h hstand rfl hgone
    rw [hturns]
    cases hgoes with
    | isSilent last => exact .isSilent last _
    | fails => exact .fails _
    | replies hne last => exact .replies (settled_of_writing hsound hnext hgone')
  | writing reply last => exact settled_of_writing h hstand hgone
  | _ => cases hbusy

/-! ## The count of pending requests -/

theorem Sound.pending_le (h : Sound settings a) :
    a.lifecycle.pending ≤ a.connections.count := by
  have hle : a.loops.values.countP Stand.isBusy ≤ a.loops.values.length := List.countP_le_length
  rw [h.inOrder.pending, h.inOrder.count_eq]
  rw [Dict.values, List.length_map] at hle
  rw [Dict.keys, List.length_map]
  exact hle

/-- Whatever is taken off the count is on it. -/
theorem Sound.pending_of_settles {turn : Turn} (h : Sound settings a)
    (hdue : a.step? settings now (.turns id turn) = some a') (hsettles : turn.settles = true) :
    a'.lifecycle.pending + 1 = a.lifecycle.pending := by
  cases h.change hdue with
  | begins hplain => cases hplain
  | ends hplain => cases hplain
  | moves hstand hgoes hconnections hloops hpending =>
    have hpos := h.inOrder.pending_pos hstand (hgoes.isBusy_of_settles hsettles)
    have hne : turn ≠ .hears := by
      rintro rfl
      cases hsettles
    rw [hpending, account, if_neg hne, if_pos hsettles]
    exact Nat.sub_add_cancel hpos

/-! ## The end -/

/-- A server that has come to its end stays there. -/
theorem stage_of_ended {ending : Ending} (hended : a.stage = .ended ending)
    (hstep : Happens settings now a e a') : a'.stage = .ended ending := by
  cases hstep with
  | watches hstage => simp [hended] at hstage
  | turns =>
    rw [account_eq]
    exact hended
  | crashes =>
    unfold crash
    rw [leaveAll_eq]
    exact hended
  | closesListener hstage => simp [hended] at hstage
  | retires hstage => simp [hended] at hstage
  | glances hstage => simp [hended] at hstage
  | stopsDrained hstage => simp [hended] at hstage
  | givesUp hstage => simp [hended] at hstage
  | waits hstage => simp [hended] at hstage
  | _ => exact hended

/-- Nobody is at the gate of a server that has come to its end, so no connection opens. -/
theorem Sound.openings_of_ended {ending : Ending} (h : Sound settings a)
    (hended : a.stage = .ended ending) (hdue : a.step? settings now e = some a') :
    a.openings e = [] := by
  have hgate : a.gate = .free := h.staged.gate_eq_free (by simp [hended])
  cases happens_of_step? hdue with
  | registers hpassed => simp [hgate] at hpassed
  | _ => rfl

/-- A server that has come to its end without connections gets none, so there is no loop to take a
turn. -/
theorem Sound.turnsOf_of_ended {ending : Ending} (h : Sound settings a)
    (hended : a.stage = .ended ending) (hnone : a.connections.count = 0) (id : Nat)
    (events : List (Nat × Event)) : a.turnsOf settings events id = [] := by
  rw [← List.length_eq_zero_iff, ← List.countP_true, ← Nat.le_zero]
  refine Machine.countP_reports_le
    (fun a => Sound settings a ∧ a.stage = .ended ending ∧ a.connections.count = 0) (fun _ => 0)
    ?_ ⟨h, hended, hnone⟩ events
  rintro a now e a' ⟨h, hended, hnone⟩ hdue
  have hnone' : a'.connections.count = 0 := by
    have hle := count_le_of_change h.inOrder (h.change hdue)
    rw [hnone, h.openings_of_ended hended hdue] at hle
    exact Nat.le_zero.1 hle
  -- there is no loop, and none opens
  have hloop : ∀ a : Acceptor, Sound settings a → a.connections.count = 0 →
      a.loops.get? id = none := by
    intro a h hnone
    rw [h.inOrder.count_eq, List.length_eq_zero_iff] at hnone
    rw [← Dict.not_mem_keys_iff, hnone]
    exact List.not_mem_nil
  have hidle : e.turnOf? id = none := by
    have hpasses := h.inOrder.passes (h.change hdue) id
    rw [hloop a h hnone, hloop a' (h.step hdue) hnone'] at hpasses
    cases hpasses with
    | stays hturn => exact hturn
  refine ⟨⟨h.step hdue, stage_of_ended hended (happens_of_step? hdue), hnone'⟩, ?_⟩
  rw [hidle]
  exact Nat.le_refl 0

/-- Where there is no connection no request is pending, and if the server has come to its end none
will be. -/
theorem Sound.nothing_left {ending : Ending} (h : Sound settings a)
    (hended : a.stage = .ended ending) (hnone : a.connections.count = 0)
    (events : List (Nat × Event)) : a.connections.count = 0 ∧ a.lifecycle.pending = 0 ∧
      ∀ id, a.turnsOf settings events id = [] := by
  have hle := h.pending_le
  exact ⟨hnone, by omega, fun id => h.turnsOf_of_ended hended hnone id events⟩

/-- **Draining is safe.** Behind an order to shut down no loop hears more than one request. The
pending requests are those of the loops between the beginning of a request and the end of its reply,
so there are never more of them than open connections, and none is taken off that is not there. A
request that has begun is settled before its connection is gone. A server that has stopped, or has
come to its end with everything drained, has no open connection and no pending request, and no loop
does anything behind that. -/
theorem draining_is_safe (settings : NetworkSettings) (told : Option ShutdownKind)
    (early late : List (Nat × Event)) :
    let a := (machine settings).run (new settings told) early
    let b := (machine settings).run a late
    (a.lifecycle.isStopping = true → ∀ id, (a.turnsOf settings late id).count .hears ≤ 1) ∧
    a.lifecycle.pending = a.loops.values.countP Stand.isBusy ∧
    a.lifecycle.pending ≤ a.connections.count ∧
    (∀ now id turn a', a.step? settings now (.turns id turn) = some a' → turn.settles = true →
      a'.lifecycle.pending + 1 = a.lifecycle.pending) ∧
    (∀ id stand, a.loops.get? id = some stand → stand.isBusy = true →
      b.connections.get? id = none → Settled stand (a.turnsOf settings late id)) ∧
    (a.lifecycle.phase = .stopped → a.connections.count = 0 ∧ a.lifecycle.pending = 0 ∧
      ∀ id, a.turnsOf settings late id = []) ∧
    (∀ ending, a.stage = .ended ending → ending.drained = true →
      a.connections.count = 0 ∧ a.lifecycle.pending = 0 ∧
        ∀ id, a.turnsOf settings late id = []) := by
  intro a b
  have hsound : Sound settings a := (Sound.new settings told).run early
  have hsound' : Sound settings b := hsound.run late
  refine ⟨fun hstop id => ?_, hsound.inOrder.pending, hsound.pending_le,
    fun now id turn a' => hsound.pending_of_settles, fun id stand hstand hbusy hgone => ?_,
    fun hstopped => ?_, fun ending hended hdrained => ?_⟩
  · have hle := count_hears_le hsound hstop id late
    refine Nat.le_trans hle ?_
    unfold Stand.chances
    split
    · exact Nat.le_refl 1
    · exact Nat.zero_le 1
  · refine settled_of_isBusy hsound hstand hbusy ?_
    rw [← Dict.not_mem_keys_iff, hsound'.inOrder.keys]
    exact Dict.not_mem_keys_iff.2 hgone
  · obtain ⟨⟨ending, hended⟩, hnone⟩ := hsound.staged.stopped hstopped
    exact hsound.nothing_left hended hnone late
  · exact hsound.nothing_left hended (hsound.staged.drained ending hended hdrained) late

/-- The server is told to shut down while it answers a request, and has drained before the phase is
written that the order asks for. -/
example :
    let settings : NetworkSettings := {}
    let peer : Address := ⟨.v4 127 0 0 1, 80⟩
    let early := [(5, Event.watches), (5, .connects peer), (6, .checks), (6, .registers),
      (6, .submits), (7, .turns 1 .looks), (8, .turns 1 .hears), (9, .stops .loop),
      (9, .closesListener), (9, .glances), (9, .polls false)]
    let late := [(10, Event.turns 1 (.replies [0x4F] false)), (11, .turns 1 .sends),
      (12, .turns 1 .looks), (13, .turns 1 .hears), (13, .leaves 1), (14, .glances),
      (14, .polls false), (15, .enters)]
    let a := (machine settings).run (new settings none) (early ++ late)
    a.stage = .ended ⟨.loop, true⟩ ∧ a.lifecycle = ⟨.draining, some .loop, false, 0⟩ := by
  decide +kernel

end Acceptor

end Switchboard.Server
