import Switchboard.Proofs.Acceptor.Events

/-!
# What events do to the table

Most events leave the table of the open connections and their loops alone. Of the others each opens a
connection, begins a loop, takes a turn, or ends connections between two requests (`Change`). So the
table keeps its order (`InOrder.of_change`), and it is known who is in it (`keys_of_change`) and what
can become of the loop of a single connection (`Passes`): it takes its own turns, and whatever else
happens it is begun only when it has not begun and ended only when it is not busy.
-/

namespace Switchboard.Server

open Stand (Goes)

namespace Acceptor

/-- Whether in an event no connection opens and no loop takes a turn. -/
def Event.isPlain : Event → Bool
  | .registers | .turns .. => false
  | _ => true

/-- The turn that an event is for the loop of a connection. -/
def Event.turnOf? (id : Nat) : Event → Option Turn
  | .turns other turn => if other = id then some turn else none
  | _ => none

variable {settings : NetworkSettings} {now : Nat} {a a' : Acceptor} {e : Event} {id : Nat}

/-- Only the turn of a loop is one. -/
theorem turnOf?_of_isPlain (h : e.isPlain = true) (id : Nat) : e.turnOf? id = none := by
  cases e with
  | turns => cases h
  | _ => rfl

theorem turnOf?_turns (id : Nat) (turn : Turn) :
    (Event.turns id turn).turnOf? id = some turn := if_pos rfl

/-! ## What changes in the table -/

/-- What an event that happens can do to the table of the connections. -/
inductive Change (a a' : Acceptor) : Event → Prop
  /-- A connection opens. -/
  | opens {now : Nat} {peer : Address} (hgate : a.gate = .passed peer)
    (hconnections : a'.connections = (a.connections.register now peer).2)
    (hloops : a'.loops = a.loops.insert a.connections.nextId .queued)
    (hpending : a'.lifecycle.pending = a.lifecycle.pending) : Change a a' .registers
  /-- A loop begins. -/
  | begins {e : Event} {id : Nat} (hplain : e.isPlain = true) (hends : a.endings e = [])
    (hqueued : a.loops.get? id = some .queued) (hconnections : a'.connections = a.connections)
    (hloops : a'.loops = a.loops.insert id .looking)
    (hpending : a'.lifecycle.pending = a.lifecycle.pending) : Change a a' e
  /-- A loop takes a turn. -/
  | moves {id : Nat} {turn : Turn} {stand next : Stand} (hstand : a.loops.get? id = some stand)
    (hgoes : Goes a.lifecycle.isStopping stand turn next)
    (hconnections : a'.connections = (a.account id turn).connections)
    (hloops : a'.loops = a.loops.insert id next)
    (hpending : a'.lifecycle.pending = (a.account id turn).lifecycle.pending) :
    Change a a' (.turns id turn)
  /-- Connections end between two requests, or nothing changes. -/
  | ends {e : Event} (hplain : e.isPlain = true)
    (hids : ∀ id ∈ a.endings e, ∃ stand, a.loops.get? id = some stand ∧ stand.isBusy = false)
    (hconnections : a'.connections = (a.endings e).foldl Connections.remove a.connections)
    (hloops : a'.loops = (a.endings e).foldl Dict.erase a.loops)
    (hpending : a'.lifecycle.pending = a.lifecycle.pending) : Change a a' e

/-- Events in which no connection opens, moves or ends. -/
theorem Change.still (hplain : e.isPlain = true) (hends : a.endings e = [])
    (hconnections : a'.connections = a.connections) (hloops : a'.loops = a.loops)
    (hpending : a'.lifecycle.pending = a.lifecycle.pending) : Change a a' e := by
  refine .ends hplain ?_ ?_ ?_ hpending
  · intro id hid
    rw [hends] at hid
    cases hid
  · rw [hends]
    exact hconnections
  · rw [hends]
    exact hloops

/-- Whoever is stranded by the crash of the last worker has stood in line. -/
theorem mem_line_of_mem_stranded (h : id ∈ a.stranded) : id ∈ a.line := by
  rcases line_crash a id with ⟨hnobody, -⟩ | ⟨hall, -⟩
  · rw [hnobody] at h
    cases h
  · rw [hall] at h
    exact List.mem_append_left _ h

/-- Whatever happens does one of four things to the table. Loops begin only for those who stand in
line, and with them the connections that a lost pool takes along are known. -/
theorem change_of_happens (hline : a.Lined) (h : Happens settings now a e a') : Change a a' e := by
  cases h with
  | watches => exact .still rfl rfl rfl rfl rfl
  | ticks => exact .still rfl rfl rfl rfl rfl
  | turnsAway => exact .still rfl rfl rfl rfl rfl
  | counts => exact .still rfl rfl rfl rfl rfl
  | refuses => exact .still rfl rfl rfl rfl rfl
  | passes => exact .still rfl rfl rfl rfl rfl
  | registers hgate => exact .opens hgate rfl rfl rfl
  | spawns hgate hpool =>
    have hends : a.endings .submits = [] := by
      simp only [endings, hgate, hpool]
    refine .begins rfl hends (hline.queued _ ?_) rfl rfl rfl
    rw [line, hgate]
    exact List.mem_append_right _ (List.mem_singleton_self _)
  | @enqueues id pool hgate hpool hopen hworkers =>
    have hends : a.endings .submits = [] := by
      simp only [endings, hgate, hpool]
      exact if_neg (Nat.pos_iff_ne_zero.1 hworkers)
    exact .still rfl hends rfl rfl rfl
  | @drops id pool hgate hpool hworkers =>
    have hends : a.endings .submits = [id] := by
      simp only [endings, hgate, hpool]
      exact if_pos hworkers
    refine .ends rfl ?_ ?_ ?_ rfl
    · intro other hother
      rw [hends, List.mem_singleton] at hother
      refine ⟨.queued, hline.queued other ?_, rfl⟩
      rw [line, hgate, hother]
      exact List.mem_append_right _ (List.mem_singleton_self _)
    · rw [hends]
      rfl
    · rw [hends]
      rfl
  | picksUp hpool hqueue =>
    refine .begins rfl rfl (hline.queued _ ?_) rfl rfl rfl
    rw [line_of_pool hpool, hqueue]
    exact List.mem_cons_self ..
  | rests => exact .still rfl rfl rfl rfl rfl
  | @turns id turn stand next hstand hgoes =>
    have hloops : (a.account id turn).loops = a.loops := by rw [account_eq]
    exact .moves hstand hgoes rfl (congrArg (Dict.insert · id next) hloops) rfl
  | @leaves id hstand =>
    have hends : a.endings (.leaves id) = [id] := by
      simp [endings, hstand]
    refine .ends rfl ?_ ?_ ?_ rfl
    · intro other hother
      rw [hends, List.mem_singleton] at hother
      exact ⟨.leaving, hother ▸ hstand, rfl⟩
    · rw [hends]
      rfl
    · rw [hends]
      rfl
  | @crashes id hstand =>
    have hends : a.endings (.leaves id) = id :: a.stranded := if_pos hstand
    -- the connection and those that are stranded without its worker end together
    have hcrash : (a.leave id).crash id = { a.leaveAll (id :: a.stranded) with
        pool := a.pool.map (Pool.crash · id) } := by
      rw [crash, leaveAll_eq, leaveAll_eq]
      rfl
    rw [hcrash, leaveAll_eq]
    refine .ends rfl ?_ ?_ ?_ rfl
    · intro other hother
      rw [hends] at hother
      rcases List.mem_cons.1 hother with rfl | hother
      · exact ⟨.failing, hstand, rfl⟩
      · exact ⟨.queued, hline.queued other (mem_line_of_mem_stranded hother), rfl⟩
    · rw [hends]
    · rw [hends]
  | stops kind => exact .still rfl rfl rfl rfl (a.lifecycle.pending_order kind)
  | enters => exact .still rfl rfl rfl rfl a.lifecycle.pending_enter
  | closesListener => exact .still rfl rfl rfl rfl rfl
  | retires => exact .still rfl rfl rfl rfl rfl
  | glances => exact .still rfl rfl rfl rfl rfl
  | stopsDrained => exact .still rfl rfl rfl rfl rfl
  | givesUp => exact .still rfl rfl rfl rfl rfl
  | waits => exact .still rfl rfl rfl rfl rfl

/-- The table of the connections of a server. -/
abbrev InOrder (a : Acceptor) : Prop := Tables a.connections a.loops a.lifecycle.pending

/-- A turn changes the number of pending requests as it changes what its loop is busy with. -/
theorem pending_account {turn : Turn} {stopping : Bool} {stand next : Stand}
    (h : Goes stopping stand turn next) (hbusy : stand.isBusy = true → 0 < a.lifecycle.pending) :
    (a.account id turn).lifecycle.pending + stand.isBusy.toNat =
      a.lifecycle.pending + next.isBusy.toNat := by
  have hends : stand.isBusy = true → next.isBusy = false →
      a.lifecycle.endRequest.pending + stand.isBusy.toNat =
        a.lifecycle.pending + next.isBusy.toNat := by
    intro hstand hnext
    have hpos := hbusy hstand
    rw [hstand, hnext]
    show a.lifecycle.pending - 1 + 1 = a.lifecycle.pending
    omega
  -- hearing adds one as the loop becomes busy, and what settles takes one off as it stops to be so
  cases h with
  | looks => rfl
  | ends => rfl
  | wakes => rfl
  | hears => rfl
  | hangsUp => rfl
  | isSilent last => exact hends rfl (Stand.isBusy_behind last)
  | @replies reply hne last =>
    have hkeeps : (Turn.replies reply last).settles = false := by
      cases reply with
      | nil => exact absurd rfl hne
      | cons b bs => rfl
    unfold account
    simp [hkeeps, Stand.isBusy]
  | fails => exact hends rfl rfl
  | sends reply last => exact hends rfl (Stand.isBusy_behind last)
  | losesReply => exact hends rfl rfl

/-- The accounts of a turn count requests and leave the phase and the order to shut down alone. -/
theorem lifecycle_account (a : Acceptor) (id : Nat) (turn : Turn) :
    (a.account id turn).lifecycle.phase = a.lifecycle.phase ∧
      (a.account id turn).lifecycle.kind = a.lifecycle.kind := by
  unfold account
  split
  · exact ⟨rfl, rfl⟩
  · split
    · exact ⟨rfl, rfl⟩
    · exact ⟨rfl, rfl⟩

/-- The accounts of a turn open no connection and end none. -/
theorem connections_account (a : Acceptor) (id : Nat) (turn : Turn) :
    (a.account id turn).connections.nextId = a.connections.nextId ∧
      (a.account id turn).connections.active.keys = a.connections.active.keys := by
  unfold account
  split
  · exact a.connections.recordRequest_eq id
  · split
    · exact ⟨rfl, rfl⟩
    · exact ⟨rfl, rfl⟩

/-- While a loop is busy there is a request pending, so a turn that ends one never counts below
zero. -/
theorem InOrder.pending_pos {stand : Stand} (h : a.InOrder) (hstand : a.loops.get? id = some stand)
    (hbusy : stand.isBusy = true) : 0 < a.lifecycle.pending := by
  rw [h.pending, List.countP_pos_iff]
  have hmem := Dict.get?_eq_some_iff.1 hstand
  exact ⟨stand, List.mem_map_of_mem hmem, hbusy⟩

/-- **The table keeps its order**: its keys are the open connections, and as many requests are
pending as loops are busy. -/
theorem InOrder.of_change (h : a.InOrder) (hchange : Change a a' e) : a'.InOrder := by
  unfold InOrder
  cases hchange with
  | opens hgate hconnections hloops hpending =>
    rw [hconnections, hloops, hpending]
    exact h.opens _ _
  | begins hplain hends hqueued hconnections hloops hpending =>
    rw [hconnections, hloops, hpending]
    exact h.moves hqueued rfl rfl rfl
  | moves hstand hgoes hconnections hloops hpending =>
    rw [hconnections, hloops, hpending]
    obtain ⟨hnext, hkeys⟩ := a.connections_account _ _
    exact h.moves hstand hnext hkeys (pending_account hgoes (h.pending_pos hstand))
  | ends hplain hids hconnections hloops hpending =>
    rw [hconnections, hloops, hpending]
    refine h.ends _ fun id hid stand hstand => ?_
    obtain ⟨stand', hstand', hidle⟩ := hids id hid
    rw [hstand] at hstand'
    rw [Option.some.inj hstand']
    exact hidle

/-! ## One connection -/

/-- What an event that happens can do to the loop of one connection. -/
inductive Passes (stopping : Bool) (id : Nat) (e : Event) : Option Stand → Option Stand → Prop
  | stays (hturn : e.turnOf? id = none) (stand : Option Stand) : Passes stopping id e stand stand
  | opens (hturn : e.turnOf? id = none) : Passes stopping id e none (some .queued)
  | begins (hturn : e.turnOf? id = none) : Passes stopping id e (some .queued) (some .looking)
  | turns {turn : Turn} {stand next : Stand} (hturn : e.turnOf? id = some turn)
    (hgoes : Goes stopping stand turn next) : Passes stopping id e (some stand) (some next)
  | ends {stand : Stand} (hturn : e.turnOf? id = none) (hidle : stand.isBusy = false) :
    Passes stopping id e (some stand) none

/-- Of one loop's connection nothing else can become than `Passes` says, whichever event it is. -/
theorem InOrder.passes (h : a.InOrder) (hchange : Change a a' e) (id : Nat) :
    Passes a.lifecycle.isStopping id e (a.loops.get? id) (a'.loops.get? id) := by
  cases hchange with
  | opens hgate hconnections hloops hpending =>
    rw [hloops]
    by_cases hid : id = a.connections.nextId
    · subst hid
      rw [h.get?_nextId]
      simpa using Passes.opens rfl
    · simpa [hid] using Passes.stays rfl _
  | @begins e other hplain hends hqueued hconnections hloops hpending =>
    have hturn := turnOf?_of_isPlain hplain id
    rw [hloops]
    by_cases hid : id = other
    · rw [hid, hqueued]
      simpa using Passes.begins (hid ▸ hturn)
    · simpa [hid] using Passes.stays hturn _
  | @moves other turn stand next hstand hgoes hconnections hloops hpending =>
    rw [hloops]
    by_cases hid : id = other
    · rw [hid, hstand]
      simpa using Passes.turns (turnOf?_turns other turn) hgoes
    · have hturn : (Event.turns other turn).turnOf? id = none := if_neg (Ne.symm hid)
      simpa [hid] using Passes.stays hturn _
  | ends hplain hids hconnections hloops hpending =>
    have hturn := turnOf?_of_isPlain hplain id
    by_cases hid : id ∈ a.endings e
    · obtain ⟨stand, hstand, hidle⟩ := hids id hid
      have hgone : a'.loops.get? id = none := by
        rw [← Dict.not_mem_keys_iff, hloops, Dict.keys_foldl_erase]
        simp [hid]
      rw [hstand, hgone]
      exact .ends hturn hidle
    · rw [hloops, Dict.get?_foldl_erase _ _ _ hid]
      exact .stays hturn _

/-! ## Who is in the table -/

/-- The connections that get a number in an event that happens. -/
def openings (a : Acceptor) : Event → List Nat
  | .registers => [a.connections.nextId]
  | _ => []

theorem openings_of_isPlain (h : e.isPlain = true) : a.openings e = [] := by
  cases e with
  | registers => cases h
  | _ => rfl

/-- The table has those who were in it and those who open, without those who end. -/
theorem keys_of_change (h : a.InOrder) (hchange : Change a a' e) :
    a'.loops.keys = (a.loops.keys ++ a.openings e).filter (· ∉ a.endings e) := by
  have hkeeps : ∀ ids : List Nat, ids.filter (· ∉ ([] : List Nat)) = ids := by
    intro ids
    simp
  cases hchange with
  | opens hgate hconnections hloops hpending =>
    rw [hloops, h.keys_opens]
    exact (hkeeps _).symm
  | begins hplain hends hqueued hconnections hloops hpending =>
    rw [hloops, openings_of_isPlain hplain, hends, hkeeps, List.append_nil]
    exact Dict.keys_insert_of_mem (Dict.mem_keys_iff.2 ⟨_, hqueued⟩) _
  | moves hstand hgoes hconnections hloops hpending =>
    rw [hloops, Dict.keys_insert_of_mem (Dict.mem_keys_iff.2 ⟨_, hstand⟩)]
    show _ = (a.loops.keys ++ []).filter (· ∉ ([] : List Nat))
    rw [hkeeps, List.append_nil]
  | ends hplain hids hconnections hloops hpending =>
    rw [hloops, openings_of_isPlain hplain, List.append_nil, Dict.keys_foldl_erase]

/-- Only connections that are open end. -/
theorem mem_keys_of_mem_endings (hchange : Change a a' e) (hid : id ∈ a.endings e) :
    id ∈ a.loops.keys := by
  cases hchange with
  | opens => cases hid
  | begins hplain hends =>
    rw [hends] at hid
    cases hid
  | moves => cases hid
  | ends hplain hids =>
    obtain ⟨stand, hstand, -⟩ := hids id hid
    exact Dict.mem_keys_iff.2 ⟨stand, hstand⟩

/-- Numbers are given in order, one for each connection that opens. -/
theorem nextId_of_change (hchange : Change a a' e) :
    a'.connections.nextId = a.connections.nextId + (a.openings e).length := by
  cases hchange with
  | opens hgate hconnections => rw [hconnections]; rfl
  | begins hplain hends hqueued hconnections =>
    rw [hconnections, openings_of_isPlain hplain]
    rfl
  | moves hstand hgoes hconnections =>
    rw [hconnections]
    exact (a.connections_account _ _).1
  | ends hplain hids hconnections =>
    rw [hconnections, openings_of_isPlain hplain, Connections.foldl_remove]
    rfl

/-- As many connections are open as loops are in the table. -/
theorem InOrder.count_eq (h : a.InOrder) : a.connections.count = a.loops.keys.length := by
  rw [h.keys]
  exact (List.length_map _).symm

/-- An event opens one connection at most, and the count grows by no more. -/
theorem count_le_of_change (h : a.InOrder) (hchange : Change a a' e) :
    a'.connections.count ≤ a.connections.count + (a.openings e).length := by
  rw [h.count_eq, (h.of_change hchange).count_eq, keys_of_change h hchange, ← List.length_append]
  exact List.length_filter_le _ _

end Acceptor

end Switchboard.Server
