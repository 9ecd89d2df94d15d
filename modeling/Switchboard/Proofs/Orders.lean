import Switchboard.Proofs.Conversation

/-!
# Orders that requests give

A request can tell a server to shut down, and that is all it can do to its life. It opens no
connection and ends none, and counts no requests (`onlyTells_process`). Everything else that happens
to the life of a server and to its connections happens in the loops around the processing, so what
is proved about the loops needs no look at what is processed.
-/

namespace Switchboard.Server

section

variable {α β : Type} {m : Step α} {f : α → Step β}

/-- Whether a server has been told at most to shut down, and has the connections that it had. -/
structure Told (st st' : State) : Prop where
  connections : st'.connections = st.connections
  lifecycle : ∃ kinds : List ShutdownKind,
    st'.lifecycle = kinds.foldl Lifecycle.trigger st.lifecycle

/-- Whether a step does nothing to the life of a server but to tell it to shut down, and nothing to
its connections. -/
def OnlyTells (m : Step α) : Prop := ∀ st a st', m st = .ok (a, st') → Told st st'

/-- Whoever has kept its connections and its life has been told nothing. -/
theorem Told.of_eq {st st' : State} (hconnections : st'.connections = st.connections)
    (hlife : st'.lifecycle = st.lifecycle) : Told st st' :=
  ⟨hconnections, [], hlife⟩

/-- Two stretches in which a server is at most told to shut down make one. -/
theorem Told.trans {st st₁ st₂ : State} (h : Told st st₁) (h' : Told st₁ st₂) : Told st st₂ := by
  obtain ⟨kinds, hlife⟩ := h.lifecycle
  obtain ⟨kinds', hlife'⟩ := h'.lifecycle
  refine ⟨h'.connections.trans h.connections, kinds ++ kinds', ?_⟩
  rw [hlife', hlife, List.foldl_append]

namespace OnlyTells

theorem pure (a : α) : OnlyTells (return a) := by
  intro st b st' hrun
  cases hrun
  exact .of_eq rfl rfl

theorem get : OnlyTells get := by
  intro st b st' hrun
  cases hrun
  exact .of_eq rfl rfl

/-- A change of the state only tells if it does so from every state. -/
theorem modify {change : State → State} (h : ∀ st, Told st (change st)) :
    OnlyTells (modify change) := by
  intro st b st' hrun
  cases hrun
  exact h st

/-- An output that is too large ends a step before anything is told. -/
theorem lift (m : Except Oversize α) : OnlyTells (liftM m) := by
  intro st b st' hrun
  cases m with
  | error e => cases hrun
  | ok a =>
    cases hrun
    exact .of_eq rfl rfl

/-- A step and what follows it only tell if both do. -/
theorem bind (hm : OnlyTells m) (hf : ∀ a, OnlyTells (f a)) : OnlyTells (m >>= f) := by
  intro st b st' hrun
  obtain ⟨a, st₁, hfirst, hrest⟩ := exists_of_bind hrun
  exact (hm st a st₁ hfirst).trans (hf a st₁ b st' hrest)

theorem pass (ms : Nat) : OnlyTells (pass ms) := .modify fun _ => .of_eq rfl rfl

theorem recordsNow (now : Nat) (h : Handler) : OnlyTells (recordsNow now h) :=
  .bind .get fun _ => .pure _

theorem recordInput (now : Nat) (name json : String) : OnlyTells (recordInput now name json) :=
  .modify fun _ => .of_eq rfl rfl

theorem recordOutput (now : Nat) (name : String) (success : Bool) (json : String) :
    OnlyTells (recordOutput now name success json) :=
  .modify fun _ => .of_eq rfl rfl

/-- A tracked call writes to the tracker and to the time spent, whoever answers it. -/
theorem tracked (s : Server) (now : Nat) (name : String) (protocol : Protocol) (input : String)
    (call : State → Answer) : OnlyTells (tracked s now name protocol input call) := by
  refine bind get fun st => bind ?_ fun _ => bind get fun st' => bind (pass _) fun _ =>
    bind ?_ fun _ => bind (lift _) fun _ => pure _
  · exact modify fun _ => .of_eq rfl rfl
  · exact modify fun _ => .of_eq rfl rfl

/-- Neither what is recorded of a call nor what its handler does concerns the life of the server. -/
theorem recorded (s : Server) (now : Nat) (h : Handler) (protocol : Protocol) (input : String)
    (call : State → Answer) (shown : Reply → String) :
    OnlyTells (recorded s now h protocol input call shown) := by
  apply bind (recordsNow now h)
  intro recording
  cases recording with
  | true =>
    apply bind (recordInput now h.name input)
    intro _
    apply bind (tracked s now h.name protocol input call)
    rintro ⟨reply, ended⟩
    apply bind (recordOutput ended h.name reply.success (shown reply))
    intro _
    exact pure _
  | false =>
    apply bind (tracked s now h.name protocol input call)
    intro _
    exact pure _

end OnlyTells

/-- A call in a frame only tells, whatever its method does. -/
theorem onlyTells_frame (s : Server) (connection : Connection) (now : Nat) (frame : Bytes)
    (outer : Option Request) : OnlyTells (dispatchFrame s connection now frame outer) := by
  unfold dispatchFrame
  split
  · exact .pure _
  · split
    · exact .pure _
    · exact .bind (.recorded _ _ _ _ _ _ _) fun _ => .pure _

/-- A call with JSON only tells, on each of the branches that its arguments can lead to. -/
theorem onlyTells_json (s : Server) (connection : Connection) (now : Nat) (h : Handler)
    (r : Http.Request) : OnlyTells (jsonCall s connection now h r) := by
  have hcall : ∀ now args, OnlyTells (callMethod s connection now h r args) :=
    fun _ _ => .bind (.recorded _ _ _ _ _ _ _) fun _ => .pure _
  unfold jsonCall
  split
  · exact .pure _
  · rename_i args hargs
    dsimp only
    split
    · exact .pure _
    · split
      · exact .bind (.pass _) fun _ => .pure _
      · exact .bind (.pass _) fun _ => hcall _ args

/-- Of the server's own paths those that shut it down tell so once, and the others tell nothing. The
path of the tunnel has a frame in its body. -/
theorem onlyTells_serveRoute (s : Server) (connection : Connection) (now : Nat) (r : Http.Request)
    (route : Route) : OnlyTells (serveRoute s connection now r route) := by
  cases route with
  | index => exact .pure _
  | redirect =>
    dsimp only [serveRoute]
    split
    · exact .pure _
    · exact .pure _
  | usage => exact .bind .get fun _ => .pure _
  | status => exact .pure _
  | threads => exact .pure _
  | parameters => exact .pure _
  | startRecording =>
    intro st a st' hrun
    cases hrun
    exact .of_eq rfl rfl
  | stopRecording => exact .bind (.modify fun _ => .of_eq rfl rfl) fun _ => .pure _
  | shutdown kind => exact .bind (.modify fun _ => ⟨rfl, [kind], rfl⟩) fun _ => .pure _
  | tunnel => exact .bind (onlyTells_frame _ _ _ _ _) fun _ => .pure _
  | validate =>
    apply OnlyTells.bind
    · apply OnlyTells.bind .get
      intro st
      dsimp only
      split
      · exact .bind (.pass _) fun _ => .pure _
      · exact .bind (.pass _) fun _ => .pure _
    · intro text
      exact .pure _
  | health =>
    apply OnlyTells.bind .get
    intro st
    split
    · exact .pure _
    · split
      · exact .pure _
      · exact .pure _

/-- An HTTP request only tells, whether it leads to a path of the server's own, to a method or to a
file. -/
theorem onlyTells_route (s : Server) (connection : Connection) (now : Nat) (r : Http.Request) :
    OnlyTells (route s connection now r) := by
  unfold route
  split
  · exact onlyTells_serveRoute _ _ _ _ _
  · split
    · exact onlyTells_json _ _ _ _ _
    · apply OnlyTells.bind .get
      intro st
      split
      · exact .pure _
      · exact .pure _

/-- Whatever is asked of a server, it does not end its connections and goes on living until it is
told otherwise. -/
theorem onlyTells_process (s : Server) (connection : Connection) (now : Nat) (r : RawRequest) :
    OnlyTells (process s connection now r) := by
  unfold process
  split
  · exact .pure _
  · refine .bind ?_ fun _ => ?_
    · exact .modify fun _ => .of_eq rfl rfl
    split
    · exact .bind (onlyTells_frame _ _ _ _ _) fun _ => .pure _
    · unfold processHttp
      split
      · exact .pure _
      · exact .bind (onlyTells_route _ _ _ _) fun _ => .pure _

end

end Switchboard.Server
