import Switchboard.Forward
import Switchboard.Proofs.Cascades
import Switchboard.Proofs.Client
import Switchboard.Proofs.Session

/-!
# Forwarding is transparent

A method that stands for the method of another server writes its caller into a request, and the
other server makes a context of that request. The context is the one the caller had, up to the
connection, a name for the client and the cookies of the reply (`Forward.context_arriving`): every
caller has a session by the time a method sees it, and cookies with names, so none of its cookies
are lost on the way and no session is issued again (`Context.Given.recognizable`). What comes back
is a reply that tells the result of the run there, which becomes the result here, while the cookies
are added to those of the caller (`Forward.perform_call`). The two are put together in
`Forward.transparent`.
-/

namespace Switchboard

/-! ## The contexts of methods -/

namespace Context

/-- The contexts that methods are given where sessions are kept in some way: those of requests, of
calls that methods make, and of methods that have added cookies. A session that is issued is never
empty. -/
inductive Given (settings : SessionSettings) : Context → Prop
  | request (connection : Connection) (fresh : String) (r : Request) (hfresh : fresh ≠ "") :
    Given settings (ofRequest connection settings fresh r)
  | nested {c : Context} (h : Given settings c) : Given settings c.nested
  | push {c : Context} (line : String) (h : Given settings c) : Given settings (c.push line)

variable {c : Context} {settings : SessionSettings} {fresh : String}

/-- Whether a server that is told the cookies of a caller finds the session among them. -/
structure Recognizable (c : Context) : Prop where
  session : c.session?.isSome = true
  names : ∀ name ∈ c.cookies.keys, name ≠ ""

theorem recognizable_ensureSession (hname : c.settings.cookieName ≠ "") (hfresh : fresh ≠ "")
    (hnames : ∀ name ∈ c.cookies.keys, name ≠ "") : (c.ensureSession fresh).Recognizable := by
  refine ⟨?_, ?_⟩
  · rw [session?_ensureSession hfresh]
    cases c.session? <;> rfl
  · unfold ensureSession
    split
    · exact hnames
    · intro name hmem
      obtain ⟨e, he, rfl⟩ := List.mem_map.1 hmem
      rcases Dict.mem_place he with rfl | he
      · exact hname
      · exact hnames e.1 (List.mem_map_of_mem he)

theorem Given.settings_eq (h : c.Given settings) : c.settings = settings := by
  induction h with
  | request connection fresh r hfresh =>
    unfold ofRequest ensureSession
    split <;> rfl
  | nested _ ih => exact ih
  | push line _ ih => exact ih

/-- **Sessions.** Every caller that a method can see is recognized by a server that keeps sessions
in the same way. -/
theorem Given.recognizable (h : c.Given settings) (hname : settings.cookieName ≠ "") :
    c.Recognizable := by
  induction h with
  | request connection fresh r hfresh =>
    exact recognizable_ensureSession hname hfresh fun name => Cookie.ne_empty_of_mem_read
  | nested _ ih => exact ⟨ih.session, ih.names⟩
  | push line _ ih => exact ⟨ih.session, ih.names⟩

end Context

namespace Forward

variable {directory : Directory} {entry : ForwardEntry} {network : Network} {cascades : Cascades}
  {input output : Shape} {data : input.Data} {p : Progress} {reply : Reply} {address : Address}
  {remote : Remote}

/-! ## The way there -/

/-- The request as it arrives at the other server. -/
def arriving (entry : ForwardEntry) (payload : Bytes) (caller : Context) : Request :=
  Client.sign Client.defaultUserAgent (request entry payload caller)

/-- **The same caller.** The context that the other server makes differs from that of the caller in
the connection and in the cookies of the reply, of which there are none, and a client without a name
has been given one. -/
theorem context_arriving {caller : Context} {d : Dispatch} {payload : Bytes}
    (hcaller : caller.Given d.settings) (hname : d.settings.cookieName ≠ "") :
    d.context (arriving entry payload caller) =
      let headers := caller.headers.insertIfNew "user-agent" Client.defaultUserAgent
      { caller with
        connection := d.connection
        headers
        internal := Context.isInternal d.settings headers
        outbox := [] } := by
  obtain ⟨hsession, hnames⟩ := hcaller.recognizable hname
  have hcookies : Cookie.read (arriving entry payload caller).cookie = caller.cookies :=
    Cookie.read_header hnames
  unfold Dispatch.context Context.ofRequest
  rw [hcookies, Context.ensureSession_of_isSome]
  · rw [← hcaller.settings_eq]
    rfl
  · rw [← hcaller.settings_eq]
    exact hsession

/-! ## The way back -/

theorem perform_pushAll {α : Type} (lines : List String) (next : Action α) :
    ((pushAll lines).bind fun _ => next).perform network cascades p =
      next.perform network cascades { p with context := p.context.pushAll lines } := by
  induction lines generalizing p with
  | nil =>
    have hnothing : p.context.pushAll [] = p.context := by
      unfold Context.pushAll
      rw [List.append_nil]
    rw [hnothing]
    rfl
  | cons line lines ih =>
    refine (ih (p := { p with context := p.context.push line })).trans ?_
    show next.perform network cascades { p with context := (p.context.push line).pushAll lines } = _
    unfold Context.push Context.pushAll
    rw [List.append_assoc]
    rfl

/-- A reply is waited for no longer than the limit, and one that comes before it is taken. -/
theorem reach_of_exchange {r : Request} {limit : Nat} {client : Client}
    (hnetwork : network address = .ok remote)
    (hexchange : (Client.connect remote).exchange r = (.ok reply, client))
    (htime : (client.remote client.sent).delay < limit) :
    Stage.reach network address r limit = (.ok reply, (client.remote client.sent).delay) := by
  unfold Stage.reach
  rw [hnetwork]
  dsimp only
  unfold Client.exchangeWithin
  rw [hexchange]
  dsimp only
  rw [if_neg (Nat.not_le.2 htime), Nat.min_eq_right (Nat.le_of_lt htime)]

theorem perform_exchange {α : Type} {r : Request} {limit delay : Nat}
    {answer : Except CallFault Reply} {next : Except CallFault Reply → Action α}
    (hreach : Stage.reach network address r limit = (answer, delay)) :
    (Action.exchange address r limit next).perform network cascades p =
      (next answer).perform network cascades
        { p with elapsed := p.elapsed + delay, sent := p.sent ++ [(address, r)] } := by
  rw [Action.perform, hreach]
  rfl

theorem call_of_resolve (hresolve : directory entry.identity = some address) :
    call directory entry input output data = .look fun caller =>
      .exchange address (request entry (input.pack data) caller) entry.limit fun
        | .error fault => .pure (.error (faultMessage entry fault))
        | .ok reply => (pushAll reply.cookies).bind fun _ => .pure (result output reply) := by
  unfold call resolve
  rw [hresolve]
  rfl

/-- **A reply.** Its cookies are added to those of the caller, and the result in it is the result,
whatever that is. -/
theorem perform_call {delay : Nat} (hresolve : directory entry.identity = some address)
    (hreach : Stage.reach network address (request entry (input.pack data) p.context) entry.limit =
      (.ok reply, delay)) :
    (call directory entry input output data).perform network cascades p =
      (result output reply, {
        context := p.context.pushAll reply.cookies
        elapsed := p.elapsed + delay
        sent := p.sent ++ [(address, request entry (input.pack data) p.context)] }) := by
  rw [call_of_resolve hresolve]
  refine (perform_exchange hreach).trans ?_
  show ((pushAll reply.cookies).bind fun _ => Action.pure (result output reply)).perform network
    cascades _ = _
  rw [perform_pushAll]
  rfl

theorem perform_context {α : Type} (k : Context → Action α) :
    (Action.context >>= k).perform network cascades p = (k p.context).perform network cascades p :=
  rfl

/-- There is no canned output for a forwarding method, so whether it is asked for makes no
difference. -/
theorem perform_run (name : String) :
    ((method directory entry input output).run name data).perform network cascades p =
      (call directory entry input output data).perform network cascades p := by
  unfold Method.run
  rw [perform_context]
  cases Method.mockKind p.context.args name <;> rfl

/-- A reply that tells a result brings it back. -/
theorem result_of_tells {h : Handler} {told : Except String h.method.output.Data}
    (htells : h.Tells .binary reply told) : result h.method.output reply = told := by
  unfold result
  cases told with
  | error message =>
    have hfailed : reply.success = false := htells.1
    rw [hfailed, Handler.errorMessage_of_tells htells]
    rfl
  | ok output =>
    rw [htells.1, if_pos rfl, toOption_eq_some_iff.1 htells.2]

/-! ## There and back -/

/-- **Forwarding is transparent.** One server has a method that stands for a method of another, and
both keep sessions in the same way. Whatever context the method is given, the other server makes the
same context, up to the connection and a name for the client, and issues no session. The result is
the result of the run there, and the cookies of that run are added to those of the caller, whether
it failed or not. -/
theorem transparent (directory : Directory) (entry : ForwardEntry) (name : String)
    (network : Network) (cascades : Cascades) (p : Progress) (address : Address) (remote : Remote)
    (s : Server) (clock : Server.State → Nat) (connection : Connection) (st : Server.State)
    (h : Handler) (data : h.method.input.Data)
    (hcaller : p.context.Given s.settings.session) (hname : s.settings.session.cookieName ≠ "")
    (hresolve : directory entry.identity = some address) (hnetwork : network address = .ok remote)
    (hget : s.registry.get? entry.method = some h) (hrunning : st.lifecycle.isStopping = false)
    (hbehind : s.Behind clock remote [Client.message Client.defaultUserAgent
      (request entry (h.method.input.pack data) p.context)] [] (.new connection) st)
    (hcarries : h.Carries (s.stage connection (st.requests + 1)) s.network.maxRequestSize
      (arriving entry (h.method.input.pack data) p.context) data)
    (htime : (remote (Client.message Client.defaultUserAgent
      (request entry (h.method.input.pack data) p.context))).delay < entry.limit) :
    let d := s.stage connection (st.requests + 1)
    let r := arriving entry (h.method.input.pack data) p.context
    let there := h.invoke d r data
    let headers := p.context.headers.insertIfNew "user-agent" Client.defaultUserAgent
    d.context r = { p.context with
        connection, headers, internal := Context.isInternal d.settings headers, outbox := [] } ∧
      ∃ p', (call directory entry h.method.input h.method.output data).perform network cascades p =
          (there.1, p') ∧
        ((method directory entry h.method.input h.method.output).run name data).perform
          network cascades p = (there.1, p') ∧
        p'.context = p.context.pushAll there.2.context.outbox := by
  intro d r there headers
  refine ⟨context_arriving hcaller hname, ?_⟩
  have hlinked : s.Linked clock [Client.message (Client.connect remote).userAgent
      (request entry (h.method.input.pack data) p.context)] (Client.connect remote)
      (.new connection) st := ⟨rfl, rfl, rfl, hrunning, hbehind⟩
  have hd : s.stage (Server.Conversation.new connection).connection (st.requests + 1) = d := rfl
  have hr : Client.sign (Client.connect remote).userAgent
      (request entry (h.method.input.pack data) p.context) = r := rfl
  obtain ⟨reply, taken, hexchange, hcookies, htells, -⟩ :=
    hlinked.exchange_of_carries hd hr hget hcarries
  -- nothing more needs to be known of the run than that the reply tells of it
  have hthere : h.invoke d r data = there := rfl
  rw [hthere] at hcookies htells
  clear_value there
  have hreach := reach_of_exchange hnetwork hexchange htime
  have hperform : (call directory entry h.method.input h.method.output data).perform network
      cascades p = _ := perform_call hresolve hreach
  rw [result_of_tells htells, hcookies] at hperform
  exact ⟨_, hperform, (perform_run name).trans hperform, rfl⟩

/-- A server on which a method looks around. -/
def lookout : Server := .host "ctx" (Sample.Gallery.inspect "CTX")

/-- A caller who came with one cookie, in a call of a method that has left one already. -/
def visitor : Context :=
  let r : Request :=
    { Request.plain "GO" [] with cookie := "a%3Bb=c d", args := Dict.ofList [("q", "1")] }
  let root := Context.ofRequest ⟨7, ⟨.v4 127 0 0 1, 80⟩⟩ {} (randomSession [0, 1]) r
  root.nested.push "early=1"

/-- The method there fails behind two cookies, and so does the method that stands for it. -/
theorem transparent_inspect :
    let entry : ForwardEntry := ⟨"there", "Ctx", 30000⟩
    let address : Address := ⟨.v4 127 0 0 1, 81⟩
    let connection : Connection := ⟨1, ⟨.v4 127 0 0 1, 80⟩⟩
    let st := lookout.start 0 .empty
    let h := Sample.Gallery.inspect "CTX"
    let data : h.method.input.Data :=
      Payload.toData (⟨["p=1"], [("s", "2")], true⟩ : Sample.Gallery.Errand)
    let remote := lookout.hear (fun _ => 0)
      [Client.message Client.defaultUserAgent (request entry (h.method.input.pack data) visitor)]
      (.new connection) st
    ∃ p', (call (fun _ => some address) entry h.method.input h.method.output data).perform
        (fun _ => .ok remote) (Handler.lonely.cascades 0) ⟨visitor, 0, []⟩ =
          (.error "ctx failed", p') ∧
      p'.context.outbox = ["early=1", "p=1", "s=2; path=/"] := by
  intro entry address connection st h data remote
  have hcaller : visitor.Given {} :=
    .push _ (.nested (.request _ _ _ (Context.randomSession_ne_empty (List.cons_ne_nil _ _))))
  have hbehind : lookout.Behind (fun _ => 0) remote
      [Client.message Client.defaultUserAgent (request entry (h.method.input.pack data) visitor)] []
      (.new connection) st := by
    refine Server.behind_hear (fun m hm => ?_) fun more => rfl
    cases List.mem_singleton.1 hm
    exact Client.message_ne_nil _ _
  have hreads : h.method.input.ofBinary (h.method.input.pack data) = .ok data := by decide +kernel
  have hfails : (h.invoke (lookout.stage connection (st.requests + 1))
      (arriving entry (h.method.input.pack data) visitor) data).1 = .error "ctx failed" := by
    decide +kernel
  have hcookies : (h.invoke (lookout.stage connection (st.requests + 1))
      (arriving entry (h.method.input.pack data) visitor) data).2.context.outbox =
        ["p=1", "s=2; path=/"] := by decide +kernel
  have hcarries : h.Carries (lookout.stage connection (st.requests + 1))
      lookout.network.maxRequestSize (arriving entry (h.method.input.pack data) visitor) data := by
    refine ⟨hreads, by decide +kernel, by decide +kernel, fun output houtput => ?_,
      fun reply => Handler.length_le_of_all (by decide +kernel)⟩
    cases hfails.symm.trans houtput
  have htime : (remote (Client.message Client.defaultUserAgent
      (request entry (h.method.input.pack data) visitor))).delay < entry.limit := by
    rw [Server.delay_hear]
    decide
  have hget : lookout.registry.get? "Ctx" = some h := rfl
  have hrunning : st.lifecycle.isStopping = false := rfl
  have hboth := transparent (fun _ => some address) entry "GO"
    (fun _ => .ok remote) (Handler.lonely.cascades 0) ⟨visitor, 0, []⟩ address remote lookout
    (fun _ => 0) connection st h data hcaller (by decide) rfl rfl hget hrunning hbehind hcarries
    htime
  obtain ⟨-, p', hcall, -, hcontext⟩ := hboth
  dsimp only at hcall hcontext
  rw [hfails] at hcall
  rw [hcookies] at hcontext
  refine ⟨p', hcall, ?_⟩
  rw [hcontext]
  rfl

end Forward

end Switchboard
