import Switchboard.Proofs.Acceptor.Stages
import Switchboard.Proofs.Orders

/-!
# Conversations are histories

A conversation is told as if nobody came in between: a request is heard, processed and answered at
once. On a server with many connections its loop takes turns with everybody else. Both tell the same
(`Conversation.run_isHistory`): what a conversation does to the life of the server and to its
connections is what a history does in which only this loop takes turns, and what is written is what
the loop says. An order to shut down that a request gives comes between its being heard and its
being answered, as one that somebody else gives may, and so does the phase that is written behind
it.
-/

namespace Switchboard.Server

/-- What is said in a turn. -/
def Turn.reply : Turn → Bytes
  | .replies reply _ => reply
  | _ => []

/-- What is said in some turns. -/
def said (turns : List Turn) : Bytes := turns.flatMap Turn.reply

/-- Whether an event concerns no other connection, and the server only in that it is told to shut
down and its phase is written. -/
def Acceptor.Event.isOf (id : Nat) : Event → Bool
  | .turns other _ | .leaves other => other = id
  | .stops _ | .enters => true
  | _ => false

namespace Acceptor

variable {settings : NetworkSettings} {a a' a'' : Acceptor} {id : Nat} {bytes bytes' : Bytes}

/-- Whether a history of one connection, in which its loop says something, makes a server another
one. -/
def Passage (settings : NetworkSettings) (id : Nat) (a : Acceptor) (bytes : Bytes)
    (a' : Acceptor) : Prop :=
  ∃ events : List (Nat × Event), (∀ one ∈ events, one.2.isOf id = true) ∧
    said (a.turnsOf settings events id) = bytes ∧ (machine settings).run a events = a'

namespace Passage

theorem refl (a : Acceptor) : Passage settings id a [] a := ⟨[], by simp, rfl, rfl⟩

/-- Two passages make one, and their bytes stand one after the other. -/
theorem trans (h : Passage settings id a bytes a') (h' : Passage settings id a' bytes' a'') :
    Passage settings id a (bytes ++ bytes') a'' := by
  obtain ⟨early, hearly, rfl, rfl⟩ := h
  obtain ⟨late, hlate, rfl, rfl⟩ := h'
  refine ⟨early ++ late, ?_, ?_, (machine settings).run_append a early late⟩
  · intro one hone
    rcases List.mem_append.1 hone with hone | hone
    · exact hearly one hone
    · exact hlate one hone
  · unfold said turnsOf
    rw [Machine.reports_append, List.flatMap_append]

/-- A single event of the connection. -/
theorem one {e : Event} (hof : e.isOf id = true) (hdue : a.step? settings 0 e = some a') :
    Passage settings id a (said (e.turnOf? id).toList) a' := by
  refine ⟨[(0, e)], ?_, ?_, Machine.run_of_some hdue⟩
  · simpa using hof
  · rw [turnsOf_of_some hdue]
    exact congrArg said (List.append_nil _)

/-- A turn of the loop is a passage, in which its reply is written. -/
theorem turn {turn : Turn} {stand next : Stand} (hstand : a.loops.get? id = some stand)
    (hnext : stand.next? a.lifecycle.isStopping turn = some next) :
    Passage settings id a turn.reply ((a.account id turn).move id next) := by
  have hdue : a.step? settings 0 (.turns id turn) = some ((a.account id turn).move id next) := by
    rw [step?, turn?, hstand]
    show (stand.next? a.lifecycle.isStopping turn).map _ = _
    rw [hnext]
    rfl
  have hpassage : Passage settings id a (said ((Event.turns id turn).turnOf? id).toList)
      ((a.account id turn).move id next) := one (by simp [Event.isOf]) hdue
  rw [turnOf?_turns] at hpassage
  simpa [said] using hpassage

/-- A loop that is about to leave does. -/
theorem leaves (hstand : a.loops.get? id = some .leaving) :
    Passage settings id a [] (a.leave id) := by
  have hdue : a.step? settings 0 (.leaves id) = some (a.leave id) := by
    rw [step?, depart?, hstand]
  exact one (by simp [Event.isOf]) hdue

/-- The first order to shut down is given and the phase is written, and any other changes nothing. -/
theorem triggers (a : Acceptor) (kind : ShutdownKind) : Passage settings id a []
    { a with lifecycle := a.lifecycle.trigger kind } := by
  have hdue : a.step? settings 0 (.stops kind) = some (a.stop kind) := rfl
  have hstops : Passage settings id a [] (a.stop kind) := one rfl hdue
  unfold Lifecycle.trigger
  cases hstop : a.lifecycle.isStopping with
  | true => exact refl a
  | false =>
    have howed : (a.stop kind).lifecycle.entering = true := by
      show (a.lifecycle.order kind).entering = true
      rw [Lifecycle.order_of_running hstop]
    have hdue' : (a.stop kind).step? settings 0 .enters =
        some { a.stop kind with lifecycle := (a.stop kind).lifecycle.enter } := if_pos howed
    exact hstops.trans (one rfl hdue')

/-- Whoever tells the server to shut down, and how often, writes nothing. -/
theorem stops (a : Acceptor) (kinds : List ShutdownKind) : Passage settings id a []
    { a with lifecycle := kinds.foldl Lifecycle.trigger a.lifecycle } := by
  induction kinds generalizing a with
  | nil => exact refl a
  | cons kind kinds ih =>
    exact (triggers a kind).trans (ih { a with lifecycle := a.lifecycle.trigger kind })

end Passage

end Acceptor

/-! ## The turns of a conversation -/

variable {settings : NetworkSettings} {a : Acceptor} {connection : Connection} {st st' st'' : State}
  {bytes bytes' : Bytes} {point point' : Option Stand}

/-- Whether a server is in a state, as far as that tells, and how far the loop of a connection has
come if it is open. -/
structure Stands (a : Acceptor) (connection : Connection) (point : Option Stand) (st : State) :
    Prop where
  lifecycle : a.lifecycle = st.lifecycle
  connections : a.connections = st.connections
  loop : a.loops.get? connection.id = point

/-- Whether a history of one connection, in which its loop says something, leads to a state. -/
def Leads (settings : NetworkSettings) (connection : Connection) (a : Acceptor) (bytes : Bytes)
    (point : Option Stand) (st : State) : Prop :=
  ∃ a', Acceptor.Passage settings connection.id a bytes a' ∧ Stands a' connection point st

/-- Where one stretch of a conversation ends the next one begins. -/
theorem Leads.trans (h : Leads settings connection a bytes point st)
    (h' : ∀ a', Stands a' connection point st → Leads settings connection a' bytes' point' st') :
    Leads settings connection a (bytes ++ bytes') point' st' := by
  obtain ⟨a', hpassage, hstands⟩ := h
  obtain ⟨a'', hpassage', hstands'⟩ := h' a' hstands
  exact ⟨a'', hpassage.trans hpassage', hstands'⟩

/-- How far the loop of a connection may have come between two requests, by whether the connection
is open. -/
inductive Between : Bool → Option Stand → Prop
  | looks : Between true (some .looking)
  | waits : Between true (some .waiting)
  | gone : Between false none

/-- What a turn does to a state. -/
def counted (connection : Connection) (turn : Turn) (st : State) : State :=
  if turn = .hears then begun connection st
  else if turn.settles then { st with lifecycle := st.lifecycle.endRequest }
  else st

namespace Stands

theorem leads (h : Stands a connection point st) : Leads settings connection a [] point st :=
  ⟨a, .refl a, h⟩

theorem turn (turn : Turn) {stand next : Stand} (h : Stands a connection (some stand) st)
    (hnext : stand.next? st.lifecycle.isStopping turn = some next) :
    Leads settings connection a turn.reply (some next) (counted connection turn st) := by
  rw [← h.lifecycle] at hnext
  refine ⟨_, .turn h.loop hnext, ?_, ?_, ?_⟩
  · show (a.account connection.id turn).lifecycle = _
    unfold Acceptor.account counted begun
    rw [← h.lifecycle]
    split
    · rfl
    · split
      · rfl
      · exact h.lifecycle
  · show (a.account connection.id turn).connections = _
    unfold Acceptor.account counted begun
    rw [← h.connections]
    split
    · rfl
    · split
      · rfl
      · exact h.connections
  · simp [Acceptor.move]

theorem leaves (h : Stands a connection (some .leaving) st) : Leads settings connection a [] none
    { st with connections := st.connections.remove connection.id } := by
  refine ⟨_, .leaves h.loop, h.lifecycle, ?_, ?_⟩
  · rw [← h.connections]
    rfl
  · simp [Acceptor.leave]

/-- A request that tells the server to shut down does so beside the loop. -/
theorem told (h : Stands a connection point st) (htold : Told st st') :
    Leads settings connection a [] point st' := by
  obtain ⟨hconnections, kinds, hlife⟩ := htold
  refine ⟨_, .stops a kinds, ?_, ?_, h.loop⟩
  · rw [hlife, ← h.lifecycle]
  · rw [hconnections, ← h.connections]

/-- A loop that is between two requests waits for the next one unless the server shuts down. -/
theorem awaits (h : Stands a connection point st) (hbetween : Between true point)
    (hstop : st.lifecycle.isStopping = false) :
    Leads settings connection a [] (some .waiting) st := by
  cases hbetween with
  | looks => exact h.turn .looks (by rw [hstop]; rfl)
  | waits => exact h.leads

/-- A loop that is between two requests may end, and its connection gives up its place. -/
theorem departs (h : Stands a connection point st) (hbetween : Between true point) :
    Leads settings connection a [] none
      { st with connections := st.connections.remove connection.id } := by
  -- whoever waits may find that the other side has gone
  have hwaiting : ∀ a, Stands a connection (some .waiting) st →
      Leads settings connection a [] none
        { st with connections := st.connections.remove connection.id } := by
    intro a h
    have hleaving : Leads settings connection a [] (some .leaving) st := h.turn .hangsUp rfl
    exact hleaving.trans fun a' h' => h'.leaves
  cases hbetween with
  | waits => exact hwaiting a h
  | looks =>
    -- a look that finds an order ends the loop, and one that finds none lets it wait
    cases hstop : st.lifecycle.isStopping with
    | false => exact (h.awaits .looks hstop).trans fun a' h' => hwaiting a' h'
    | true =>
      have hleaving : Leads settings connection a [] (some .leaving) st :=
        h.turn .looks (by rw [hstop]; rfl)
      exact hleaving.trans fun a' h' => h'.leaves

/-- A request that has been processed is settled, whether there is a reply or not. -/
theorem settles (h : Stands a connection (some .answering) st) (reply : Bytes) (last : Bool) :
    Leads settings connection a reply (some (.behind last))
      { st with lifecycle := st.lifecycle.endRequest } := by
  cases reply with
  | nil => exact h.turn (.replies [] last) rfl
  | cons b bs =>
    have hwriting : Leads settings connection a (b :: bs) (some (.writing (b :: bs) last)) st :=
      h.turn (.replies (b :: bs) last) rfl
    have hsends := hwriting.trans fun a' h' => h'.turn .sends rfl
    rw [show Turn.sends.reply = [] from rfl, List.append_nil] at hsends
    exact hsends

end Stands

/-! ## Conversations -/

namespace Conversation

variable {s : Server} {clock : State → Nat} {c c' c'' : Conversation} {r : RawRequest}

/-- Whether what a conversation has come to is told by a history of its connection as well: it leads
to the same state, and what was written behind its beginning is what the loop said, but for a
message that too much has arrived. -/
def Retold (settings : NetworkSettings) (a : Acceptor) (c c' : Conversation) (st' : State) : Prop :=
  ∃ bytes point, Leads settings c.connection a bytes point st' ∧ Between c'.isOpen point ∧
    c'.connection = c.connection ∧ (c'.written = c.written ++ bytes ∨
      c'.isOpen = false ∧ c'.written = c.written ++ bytes ++ Utf8.ofString tooLong)

/-- To close is to leave. -/
theorem retold_close (h : Stands a c.connection point st) (hbetween : Between true point)
    (hrun : c.close st = .ok (c', st')) : Retold settings a c c' st' := by
  cases hrun
  exact ⟨[], none, h.departs hbetween, .gone, rfl, .inl (List.append_nil _).symm⟩

/-- To refuse is to write the refusal and leave. -/
theorem retold_refuse (h : Stands a c.connection point st) (hbetween : Between true point)
    (hrun : c.refuse st = .ok (c', st')) : Retold settings a c c' st' := by
  cases hrun
  refine ⟨[], none, h.departs hbetween, .gone, rfl, .inr ⟨rfl, ?_⟩⟩
  rw [List.append_nil]

/-- An answer is a turn that hears the request, one that replies, and one that sends. -/
theorem retold_answer (h : Stands a c.connection (some .waiting) st) (hopen : c.isOpen = true)
    (hrun : answer s clock c r st = .ok (c', st')) : Retold settings a c c' st' := by
  obtain ⟨processed, st₂, hrespond, hrest⟩ := exists_of_bind hrun
  obtain ⟨st₁, hprocess, rfl⟩ := exists_of_respond hrespond
  have htold := onlyTells_process s _ _ _ _ _ _ hprocess
  have hhears : Leads settings c.connection a [] (some .answering) st₁ :=
    (h.turn .hears rfl).trans fun a' h' => h'.told htold
  have hsettles : ∀ last, Leads settings c.connection a processed.reply (some (.behind last))
      { st₁ with lifecycle := st₁.lifecycle.endRequest } :=
    fun last => hhears.trans fun a' h' => h'.settles processed.reply last
  dsimp only at hrest
  -- the last request is the one behind which the conversation is closed
  split at hrest
  · cases hrest
    refine ⟨processed.reply, some .looking, hsettles false, ?_, rfl, .inl rfl⟩
    show Between c.isOpen _
    rw [hopen]
    exact .looks
  · cases hrest
    refine ⟨processed.reply, none, ?_, .gone, rfl, .inl rfl⟩
    have hleaves := (hsettles true).trans fun a' h' => h'.leaves
    rw [List.append_nil] at hleaves
    exact hleaves

theorem Retold.refl (h : Stands a c.connection point st) (hbetween : Between c.isOpen point) :
    Retold settings a c c st :=
  ⟨[], point, h.leads, hbetween, rfl, .inl (List.append_nil _).symm⟩

/-- What comes behind a history in which nothing is said. -/
theorem Retold.of_leads (h : Leads settings c.connection a [] point st)
    (hmore : ∀ a', Stands a' c.connection point st → Retold settings a' c c' st') :
    Retold settings a c c' st' := by
  obtain ⟨a', hpassage, hstands⟩ := h
  obtain ⟨bytes, point', ⟨a'', hpassage', hstands'⟩, hrest⟩ := hmore a' hstands
  exact ⟨bytes, point', ⟨a'', hpassage.trans hpassage', hstands'⟩, hrest⟩

theorem Retold.trans (h : Retold settings a c c' st') (hopen : c'.isOpen = true)
    (hmore : ∀ a' point, Stands a' c'.connection point st' → Between true point →
      Retold settings a' c' c'' st'') : Retold settings a c c'' st'' := by
  obtain ⟨bytes, point, ⟨a', hpassage, hstands⟩, hbetween, hsame, hwritten⟩ := h
  -- an open conversation has not been refused, so all that was written was said
  rw [hopen] at hbetween hwritten
  rw [← hsame] at hstands
  have hwritten : c'.written = c.written ++ bytes := by simpa using hwritten
  obtain ⟨bytes', point', ⟨a'', hpassage', hstands'⟩, hbetween', hsame', hwritten'⟩ :=
    hmore a' point hstands hbetween
  rw [hsame] at hpassage' hstands' hsame'
  rw [hwritten, List.append_assoc] at hwritten'
  exact ⟨bytes ++ bytes', point', ⟨a'', hpassage.trans hpassage', hstands'⟩, hbetween', hsame',
    hwritten'⟩

/-- A conversation goes on in two steps, of which the second does nothing if the first has closed
it. -/
theorem retold_bind {m : Step Conversation} {f : Conversation → Step Conversation}
    (hm : ∀ c' st', m st = .ok (c', st') → Retold settings a c c' st')
    (hclosed : ∀ c : Conversation, c.isOpen = false → f c = return c)
    (hf : ∀ a' c' st' point, Stands a' c'.connection point st' → Between true point →
      c'.isOpen = true → f c' st' = .ok (c'', st'') → Retold settings a' c' c'' st'')
    (hrun : (m >>= f) st = .ok (c'', st'')) : Retold settings a c c'' st'' := by
  obtain ⟨c', st', hfirst, hrest⟩ := exists_of_bind hrun
  have hretold := hm c' st' hfirst
  cases hopen : c'.isOpen with
  | true =>
    refine hretold.trans hopen fun a' point h hbetween => ?_
    exact hf a' c' st' point h hbetween hopen hrest
  | false =>
    rw [hclosed c' hopen] at hrest
    cases hrest
    exact hretold

theorem retold_advance {ask : Bytes → Splitter.Answer} (fuel : Nat)
    (h : Stands a c.connection point st) (hbetween : Between true point) (hopen : c.isOpen = true)
    (hrun : advance s clock ask fuel c st = .ok (c', st')) : Retold settings a c c' st' := by
  induction fuel generalizing a point c st with
  | zero =>
    cases hrun
    exact .refl h (hopen ▸ hbetween)
  | succ fuel ih =>
    cases hstop : st.lifecycle.isStopping with
    | true =>
      rw [advance_of_stopping hopen hstop] at hrun
      exact retold_close h hbetween hrun
    | false =>
      rw [advance_succ hopen hstop] at hrun
      refine .of_leads (h.awaits hbetween hstop) fun a' h' => ?_
      cases hask : ask c.buffer with
      | request r rest =>
        rw [hask] at hrun
        refine retold_bind ?_ (fun c hclosed => advance_of_closed hclosed) ?_ hrun
        · intro c' st' hanswer
          exact retold_answer (c := { c with buffer := rest }) h' hopen hanswer
        · intro a' c' st' point h hbetween hopen hrest
          exact ih h hbetween hopen hrest
      | tooLarge =>
        rw [hask] at hrun
        exact retold_refuse h' .waits hrun
      | incomplete =>
        rw [hask] at hrun
        cases hrun
        exact .refl h' (hopen ▸ .waits)

theorem retold_receive {chunk : Bytes} (h : Stands a c.connection point st)
    (hbetween : Between true point) (hopen : c.isOpen = true)
    (hrun : receive s clock c chunk st = .ok (c', st')) : Retold settings a c c' st' := by
  unfold receive at hrun
  rw [if_pos hopen] at hrun
  exact retold_advance (c := { c with buffer := c.buffer ++ chunk }) _ h hbetween hopen hrun

theorem retold_finish (h : Stands a c.connection point st) (hbetween : Between true point)
    (hopen : c.isOpen = true) (hrun : finish s clock c st = .ok (c', st')) :
    Retold settings a c c' st' := by
  refine retold_bind ?_ (fun c hclosed => giveUp_of_closed hclosed) ?_ hrun
  · intro c' st' hadvance
    exact retold_advance _ h hbetween hopen hadvance
  · intro a' c' st' point h hbetween hopen hrest
    unfold giveUp at hrest
    rw [if_pos hopen] at hrest
    exact retold_close h hbetween hrest

/-- The induction is on the chunks that are still to arrive. -/
theorem retold_chunks (chunks : List Bytes) (h : Stands a c.connection point st)
    (hbetween : Between true point) (hopen : c.isOpen = true)
    (hrun : (chunks.foldlM (receive s clock) c >>= finish s clock) st = .ok (c', st')) :
    Retold settings a c c' st' := by
  induction chunks generalizing a point c st with
  | nil => exact retold_finish h hbetween hopen hrun
  | cons chunk chunks ih =>
    rw [List.foldlM_cons, bind_assoc] at hrun
    refine retold_bind ?_ (fun c hclosed => foldlM_receive_of_closed chunks hclosed) ?_ hrun
    · intro c' st' hreceive
      exact retold_receive h hbetween hopen hreceive
    · intro a' c' st' point h hbetween hopen hrest
      exact ih h hbetween hopen hrest

theorem isOpen_of_finish (hrun : finish s clock c st = .ok (c', st')) : c'.isOpen = false := by
  obtain ⟨c₁, st₁, -, hrest⟩ := exists_of_bind hrun
  unfold giveUp at hrest
  split at hrest
  · cases hrest
    rfl
  · rename_i hclosed
    cases hrest
    simpa using hclosed

/-- **A conversation is a history.** If the loop of its connection is about to begin, there is a
history in which only this loop takes turns, with orders to shut down in between, and which leads to
the same life of the server and the same connections. What has been written in the end is what the
loop has said, and perhaps that too much has arrived. -/
theorem run_isHistory (s : Server) (clock : State → Nat) (settings : NetworkSettings)
    (connection : Connection) (chunks : List Bytes) (hlife : a.lifecycle = st.lifecycle)
    (hconnections : a.connections = st.connections)
    (hloop : a.loops.get? connection.id = some .looking)
    (hrun : Conversation.run s clock connection chunks st = .ok (c, st')) :
    ∃ events : List (Nat × Acceptor.Event),
      (∀ one ∈ events, one.2.isOf connection.id = true) ∧
      ((Acceptor.machine settings).run a events).lifecycle = st'.lifecycle ∧
      ((Acceptor.machine settings).run a events).connections = st'.connections ∧
      ((Acceptor.machine settings).run a events).loops.get? connection.id = none ∧
      (c.written = said (a.turnsOf settings events connection.id) ∨
        c.written = said (a.turnsOf settings events connection.id) ++ Utf8.ofString tooLong) := by
  have hstands : Stands a (new connection).connection (some .looking) st :=
    ⟨hlife, hconnections, hloop⟩
  have hclosed : c.isOpen = false := by
    obtain ⟨c₁, st₁, -, hrest⟩ := exists_of_bind hrun
    exact isOpen_of_finish hrest
  have hretold : Retold settings a (new connection) c st' :=
    retold_chunks chunks hstands .looks rfl hrun
  obtain ⟨bytes, point, ⟨a', ⟨events, hof, rfl, rfl⟩, hstands'⟩, hbetween, -, hwritten⟩ := hretold
  rw [hclosed] at hbetween
  cases hbetween
  exact ⟨events, hof, hstands'.lifecycle, hstands'.connections, hstands'.loop,
    hwritten.imp id And.right⟩

end Conversation

end Switchboard.Server
