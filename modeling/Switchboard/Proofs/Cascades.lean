import Switchboard.Proofs.Protocols

/-!
# Calls that lead to calls

A method calls other methods by name or runs them in place, these call others, and each of them
may fail, answer from canned output or be asked for the wrong thing. To tell what all of them see
and which cookies they set, a call is watched: `Action.watch` performs actions as `Action.perform`
does, and beside that lists what happens, namely every look at a context and every cookie line
that is added. `Follows` says that a watched computation is the computation it watches, that the
contexts seen are those of the root, and that the outbox grows by just the lines listed. It is kept
by every kind of action (`Action.follows`), and by calls by name as deep as they may lead
(`Dispatch.follows_cascades`).
-/

namespace Switchboard

/-! ## The caller below the root -/

/-- Whether a context shows the caller of a root context, so many calls below it. The cookies that
are set are no part of the caller. -/
structure Context.Faces (c root : Context) (depth : Nat) : Prop where
  connection : c.connection = root.connection
  referrer : c.referrer = root.referrer
  cookies : c.cookies = root.cookies
  headers : c.headers = root.headers
  internal : c.internal = root.internal
  settings : c.settings = root.settings
  args : c.args = if depth = 0 then root.args else root.args.erase "q"

namespace Context

variable {c root : Context} {depth : Nat}

/-- The context with more cookie lines for the reply. -/
def pushAll (c : Context) (lines : List String) : Context := { c with outbox := c.outbox ++ lines }

theorem Faces.refl (c : Context) : c.Faces c 0 := ⟨rfl, rfl, rfl, rfl, rfl, rfl, rfl⟩

/-- Who sees the caller sees the session. -/
theorem Faces.session? (h : c.Faces root depth) : c.session? = root.session? := by
  unfold Context.session?
  rw [h.cookies, h.settings]

theorem Faces.pushAll (h : c.Faces root depth) (lines : List String) :
    (c.pushAll lines).Faces root depth :=
  ⟨h.connection, h.referrer, h.cookies, h.headers, h.internal, h.settings, h.args⟩

theorem Faces.nested (h : c.Faces root depth) : c.nested.Faces root (depth + 1) := by
  refine ⟨h.connection, h.referrer, h.cookies, h.headers, h.internal, h.settings, ?_⟩
  show c.args.erase "q" = root.args.erase "q"
  rw [h.args]
  split
  · rfl
  · exact Dict.erase_erase _ _

end Context

/-! ## Watching -/

/-- What can be seen of a call from outside. -/
inductive Event
  /-- A method looks at its caller, so many calls below the root. -/
  | look (depth : Nat) (context : Context)
  /-- A method adds a cookie line. -/
  | push (line : String)

/-- The cookie line that an event adds. -/
def Event.line? : Event → Option String
  | .look _ _ => none
  | .push line => some line

/-- The cookie lines that events add, in order. -/
def Event.lines (events : List Event) : List String := events.filterMap Event.line?

/-- What has come of a computation that was watched. -/
structure Watched (α : Type) where
  result : α
  progress : Progress
  /-- What happened, in order. -/
  events : List Event

/-- A computation on the stage that is watched, so many calls below the root. -/
abbrev Watch (α : Type) := (depth : Nat) → Progress → Watched α

namespace Watch

variable {α β : Type}

/-- One computation and then another. -/
def andThen (m : Watch α) (k : α → Watch β) : Watch β := fun depth p =>
  let a := m depth p
  let b := k a.result depth a.progress
  ⟨b.result, b.progress, a.events ++ b.events⟩

/-- A computation in which nothing happens that is watched. -/
def silent (body : Stage α) : Watch α := fun _ p => ⟨(body p).1, (body p).2, []⟩

/-- Looks at the context. -/
def look : Watch Context := fun depth p => ⟨p.context, p, [.look depth p.context]⟩

/-- Adds a cookie line. -/
def push (line : String) : Watch Unit := fun _ p =>
  ⟨(), { p with context := p.context.push line }, [.push line]⟩

/-- Does something for a nested context, one call further below the root. -/
def nested (body : Watch α) : Watch α := fun depth p =>
  let a := body (depth + 1) { p with context := p.context.nested }
  ⟨a.result, { a.progress with context := p.context.pushAll a.progress.context.outbox }, a.events⟩

end Watch

/-- Watched calls by name. -/
abbrev WatchedCascades :=
  (name : String) → (input output : Shape) → input.Data → Watch (Except String output.Data)

/-- Carries out the actions of a method and lists what happens. -/
def Action.watch (network : Network) (cascades : WatchedCascades) {α : Type} :
    Action α → Watch α
  | .pure a => .silent (return a)
  | .look next => Watch.look.andThen fun c => (next c).watch network cascades
  | .push line next => (Watch.push line).andThen fun _ => next.watch network cascades
  | .sleep ms next =>
    (Watch.silent (modify fun p => { p with elapsed := p.elapsed + ms })).andThen fun _ =>
      next.watch network cascades
  | .within body next =>
    (Watch.nested (body.watch network cascades)).andThen fun b => (next b).watch network cascades
  | .cascade name input output data next =>
    (cascades name input output data).andThen fun r => (next r).watch network cascades
  | .exchange address request limit next =>
    let (answer, delay) := Stage.reach network address request limit
    (Watch.silent (modify fun p =>
      { p with elapsed := p.elapsed + delay, sent := p.sent ++ [(address, request)] })).andThen
        fun _ => (next answer).watch network cascades

namespace Dispatch

/-- Watched calls by name that may nest so deep. -/
def watchCascades (d : Dispatch) : (depth : Nat) → WatchedCascades
  | 0, name, _, _, _ => .silent (return .error (Cascade.tooDeep name))
  | depth + 1, name, input, output, data =>
    match d.registry with
    | none => .silent (return .error (Cascade.noRegistry name))
    | some registry =>
      match registry.get? name with
      | none => .silent (return .error (Cascade.unknownMethod name))
      | some handler =>
        if h : input = handler.method.input then
          let run := handler.method.cascadeTo handler.name (h ▸ data)
          Watch.andThen (run.watch d.network (d.watchCascades depth)) fun r =>
            .silent (return match r with
              | .error message => .error message
              | .ok result => Cascade.asShape name handler.method.output output result)
        else .silent (return .error (Cascade.wrongInput handler.name))

/-- Carries out actions for a request and lists what happens. -/
def watch (d : Dispatch) {α : Type} (r : Request) (action : Action α) : Watched α :=
  action.watch d.network (d.watchCascades d.depth) 0 ⟨d.context r, 0, []⟩

end Dispatch

/-! ## What is kept while a call is watched -/

section

variable {α β : Type} {root : Context} {m : Watch α} {body : Stage α}

/-- A watched computation is the one it watches. Wherever it starts facing the caller of the root,
all contexts seen face that caller, and the context at the end is the one at the start with the
lines added. -/
def Follows (root : Context) (m : Watch α) (body : Stage α) : Prop :=
  ∀ depth (p : Progress), p.context.Faces root depth →
    body p = ((m depth p).result, (m depth p).progress) ∧
    (m depth p).progress.context = p.context.pushAll (Event.lines (m depth p).events) ∧
    ∀ level c, .look level c ∈ (m depth p).events → c.Faces root level

namespace Follows

theorem silent (h : ∀ p, (body p).2.context = p.context) : Follows root (.silent body) body := by
  refine fun depth p hp => ⟨rfl, ?_, fun level c hc => nomatch hc⟩
  show (body p).2.context = { p.context with outbox := p.context.outbox ++ [] }
  rw [h, List.append_nil]

theorem pure (a : α) : Follows root (.silent (return a)) (return a) := silent fun _ => rfl

theorem andThen {k : α → Watch β} {next : α → Stage β} (hm : Follows root m body)
    (hk : ∀ a, Follows root (k a) (next a)) : Follows root (m.andThen k) (body >>= next) := by
  intro depth p hp
  obtain ⟨hbody, hcontext, hlooks⟩ := hm depth p hp
  have hfaces : (m depth p).progress.context.Faces root depth := by
    rw [hcontext]
    exact hp.pushAll _
  obtain ⟨hnext, hcontext', hlooks'⟩ := hk (m depth p).result depth (m depth p).progress hfaces
  refine ⟨?_, ?_, fun level c hc => ?_⟩
  · show next (body p).1 (body p).2 = _
    rw [hbody]
    exact hnext
  · refine hcontext'.trans ?_
    rw [hcontext]
    unfold Watch.andThen Context.pushAll Event.lines
    simp only [List.filterMap_append, List.append_assoc]
  · exact (List.mem_append.1 hc).elim (hlooks level c) (hlooks' level c)

theorem look : Follows root .look (do return (← get).context) := by
  refine fun depth p hp => ⟨rfl, ?_, fun level c hc => ?_⟩
  · show p.context = { p.context with outbox := p.context.outbox ++ [] }
    rw [List.append_nil]
  · cases List.mem_singleton.1 hc
    exact hp

theorem push (line : String) : Follows root (.push line)
    (modify fun p => { p with context := p.context.push line }) :=
  fun _ _ _ => ⟨rfl, rfl, fun _ _ hc => nomatch List.mem_singleton.1 hc⟩

theorem nested (hm : Follows root m body) : Follows root m.nested (Stage.nested body) := by
  intro depth p hp
  obtain ⟨hbody, hcontext, hlooks⟩ :=
    hm (depth + 1) { p with context := p.context.nested } hp.nested
  refine ⟨?_, ?_, hlooks⟩
  · show (fun q : α × Progress => (q.1, { q.2 with
      context := p.context.pushAll q.2.context.outbox })) (body _) = _
    rw [hbody]
    rfl
  · -- the nested context starts without cookies, so it ends with those that were added in it
    show p.context.pushAll (m (depth + 1) _).progress.context.outbox = _
    rw [hcontext]
    rfl

end Follows

/-- Watching the actions of a method changes nothing, if watching the calls by name does not. -/
theorem Action.follows {network : Network} {cascades : Cascades} {watched : WatchedCascades}
    (h : ∀ name input output data,
      Follows root (watched name input output data) (cascades name input output data))
    (action : Action α) :
    Follows root (action.watch network watched) (action.perform network cascades) := by
  induction action with
  | pure a => exact .pure a
  | look next ih => exact .andThen .look ih
  | push line next ih => exact .andThen (.push line) fun _ => ih
  | sleep ms next ih => exact .andThen (.silent fun _ => rfl) fun _ => ih
  | within body next ihBody ih => exact .andThen (.nested ihBody) ih
  | cascade name input output data next ih => exact .andThen (h name input output data) ih
  | exchange address request limit next ih => exact .andThen (.silent fun _ => rfl) fun _ => ih _

/-- Watching calls by name changes nothing. -/
theorem Dispatch.follows_cascades (d : Dispatch) (depth : Nat) (name : String)
    (input output : Shape) (data : input.Data) :
    Follows root (d.watchCascades depth name input output data)
      (d.cascades depth name input output data) := by
  induction depth generalizing name input output data with
  | zero => exact .pure _
  | succ depth ih =>
    unfold watchCascades cascades
    cases d.registry with
    | none => exact .pure _
    | some registry =>
      dsimp only
      cases registry.get? name with
      | none => exact .pure _
      | some handler =>
        dsimp only
        split
        · refine .andThen (Action.follows ih _) fun r => ?_
          cases r with
          | error message => exact .pure _
          | ok result => exact .pure _
        · exact .pure _

end

/-! ## The whole call -/

/-- A request without a session is issued one, and no other cookie is set before its method runs. -/
theorem Dispatch.outbox_context (d : Dispatch) (r : Request) :
    (d.context r).outbox =
      if ((Cookie.read r.cookie).get? d.settings.cookieName).any (!·.isEmpty) then []
      else [Cookie.write d.settings.cookieName d.freshSession
        (Context.sessionAttributes d.settings)] := by
  unfold context Context.ofRequest Context.ensureSession Context.session?
  rw [Option.isSome_filter]
  split
  · rfl
  · rfl

/-- Watching a whole call changes nothing; all contexts face the caller of the root; and at the end
the outbox of the root has grown by the lines that were added. -/
theorem Dispatch.watch_spec (d : Dispatch) {α : Type} (r : Request) (action : Action α) :
    d.start r action = ((d.watch r action).result, (d.watch r action).progress) ∧
      (d.watch r action).progress.context =
        (d.context r).pushAll (Event.lines (d.watch r action).events) ∧
      ∀ depth c, .look depth c ∈ (d.watch r action).events → c.Faces (d.context r) depth :=
  Action.follows (d.follows_cascades d.depth) action 0 ⟨d.context r, 0, []⟩ (.refl _)

/-- **Cascades keep the caller and every cookie.** However the methods call each other, all of them
see the caller of the root, and the reply has the session that the root was issued, if it was, and
then the lines that were added, whether the methods that added them failed or not. There is no
reply only if the output is larger than may be sent. -/
theorem Handler.cascades_keep (h : Handler) (d : Dispatch) (r : Request) (protocol : Protocol)
    (layout : Json.Layout) (input : h.method.input.Data)
    (hread : h.method.input.read? protocol r.payload = some input) :
    let root := d.context r
    let watched := d.watch r (h.method.run h.name input)
    h.invoke d r input = (watched.result, watched.progress) ∧
      (∀ depth c, .look depth c ∈ watched.events →
        c.Faces root depth ∧ c.session? = root.session?) ∧
      (root.outbox =
        if ((Cookie.read r.cookie).get? d.settings.cookieName).any (!·.isEmpty) then []
        else [Cookie.write d.settings.cookieName d.freshSession
          (Context.sessionAttributes d.settings)]) ∧
      ((∃ reply, (h.process d r protocol layout).reply = .ok reply ∧
          reply.cookies = root.outbox ++ Event.lines watched.events) ∨
        ∃ output payload, watched.result = .ok output ∧
          h.method.output.write protocol layout output = .ok payload ∧
          d.limits.of protocol < payload.length) := by
  intro root watched
  obtain ⟨hrun, hcontext, hlooks⟩ : h.invoke d r input = (watched.result, watched.progress) ∧
      watched.progress.context = root.pushAll (Event.lines watched.events) ∧
      ∀ depth c, Event.look depth c ∈ watched.events → c.Faces root depth :=
    d.watch_spec r (h.method.run h.name input)
  refine ⟨hrun, fun depth c hc => ?_, d.outbox_context r, ?_⟩
  · exact ⟨hlooks depth c hc, (hlooks depth c hc).session?⟩
  · clear_value watched
    rw [process_of_read? hread, hrun]
    obtain ⟨reply, hreply, hcookies⟩ | hlarge :=
      h.reply_answerOf_or d.limits protocol layout (watched.result, watched.progress)
    · refine .inl ⟨reply, hreply, hcookies.trans ?_⟩
      show watched.progress.context.outbox = _
      rw [hcontext]
      rfl
    · exact .inr hlarge

/-- A caller without a session has a method call one that leaves a cookie when it is asked for
canned output, has none, sets two more cookies and fails. -/
theorem Handler.cascades_keep_relay :
    let callee := Sample.Gallery.inspect "CTX"
    let d : Dispatch := { lonely with registry := some ⟨[], Dict.ofList [("ctx", ⟨callee, none⟩)]⟩ }
    let h := Sample.Gallery.relay "RELAY"
    let input : h.method.input.Data :=
      Payload.toData (⟨"ctx", "ctx", 1, 1⟩ : Sample.Gallery.Relay)
    let r : Request := { Request.plain "RELAY" (h.method.input.pack input) with
      args := Dict.ofList [("mock", "CTX:fall"), ("q", "1")] }
    h.method.input.read? .binary r.payload = some input ∧
      ∃ reply, (h.process d r .binary .compact).reply = .ok reply ∧ reply.cookies =
        ["rpcsession=f; Max-Age=315360000; path=/", "before=1", "mocked=fall", "pushed=by callee",
          "from%20callee=1; path=/"] := by
  intro callee d h input r
  have hread : h.method.input.read? .binary r.payload = some input := by decide +kernel
  have hfails : (d.watch r (h.method.run h.name input)).result.toOption = none := by decide +kernel
  have hlines : (d.context r).outbox ++
      Event.lines (d.watch r (h.method.run h.name input)).events =
        ["rpcsession=f; Max-Age=315360000; path=/", "before=1", "mocked=fall", "pushed=by callee",
          "from%20callee=1; path=/"] := by
    decide +kernel
  obtain ⟨-, -, -, ⟨reply, hreply, hcookies⟩ | ⟨output, payload, houtput, -⟩⟩ :=
    h.cascades_keep d r .binary .compact input hread
  · exact ⟨hread, reply, hreply, hcookies.trans hlines⟩
  · rw [houtput] at hfails
    cases hfails

end Switchboard
