import Switchboard.Proofs.Forward

/-!
# Who counts as another server

Whether a caller is another server is not told but found out, from the name that its request
carries: no name counts, and so does the name in the settings. A call that is forwarded is found out
about twice, and in between the client that carries it on gives a name to a caller without one.
That is the name of clients that were given no other, whatever the settings say. So a caller counts
alike on both sides exactly if it came with a name or the settings were left at that name
(`Forward.internal_iff`). Otherwise it no longer counts where the call arrives
(`Forward.internal_ne_of_renamed`); one that did not count before never does.
-/

namespace Switchboard

namespace Client

/-- Whatever comes back, a request has been sent with the name of the client. -/
theorem sent_exchange {c : Client} {r : Request}
    (hsize : (toBinary (sign c.userAgent r)).length ≤ maxReply) :
    (c.exchange r).2.sent = c.sent ++ message c.userAgent r := by
  unfold exchange
  rw [frameOf_sign hsize]
  dsimp only
  split
  · rfl
  · split <;> rfl

theorem snd_exchangeWithin (c : Client) (limit : Nat) (r : Request) :
    (c.exchangeWithin limit r).2 = (c.exchange r).2 := by
  unfold exchangeWithin
  dsimp only
  split
  · rfl
  · split <;> rfl

end Client

namespace Context

variable {c : Context} {settings : SessionSettings} {headers : Headers}

theorem ofRequest_headers (connection : Connection) (settings : SessionSettings) (fresh : String)
    (r : Request) : (ofRequest connection settings fresh r).headers = r.headers := by
  unfold ofRequest ensureSession
  split <;> rfl

theorem ofRequest_internal (connection : Connection) (settings : SessionSettings) (fresh : String)
    (r : Request) :
    (ofRequest connection settings fresh r).internal = isInternal settings r.headers := by
  unfold ofRequest ensureSession
  split <;> rfl

/-- What a method is told about its caller stays with the headers in which it was found. -/
theorem Given.internal_eq (h : c.Given settings) : c.internal = isInternal settings c.headers := by
  induction h with
  | request connection fresh r hfresh => rw [ofRequest_internal, ofRequest_headers]
  | nested _ ih => exact ih
  | push line _ ih => exact ih

theorem isInternal_of_not_contains (h : headers.contains "user-agent" = false) :
    isInternal settings headers = true := by
  have hnone : headers.get? "user-agent" = none := Option.not_isSome_iff_eq_none.1 (by
    rw [← Headers.contains, h]
    exact Bool.false_ne_true)
  unfold isInternal Headers.getD
  rw [hnone]
  rfl

/-- A name that is filled in counts only if it is the one in the settings. -/
theorem isInternal_insertIfNew (agent : String) (hagent : agent ≠ "") :
    isInternal settings (headers.insertIfNew "user-agent" agent) =
      if headers.contains "user-agent" then isInternal settings headers
      else decide (agent = settings.internalAgent) := by
  unfold Headers.insertIfNew
  split
  · rfl
  · have hempty : agent.isEmpty = false := Bool.eq_false_iff.2 (mt String.isEmpty_iff.1 hagent)
    unfold isInternal Headers.getD
    rw [Headers.get?_insert, if_pos rfl, Option.getD_some]
    dsimp only
    rw [hempty, Bool.false_or]
    rfl

end Context

namespace Forward

variable {directory : Directory} {entry : ForwardEntry} {input output : Shape} {data : input.Data}
  {address : Address}

/-- A call that is forwarded sends one request, whatever comes back. -/
theorem exists_perform_run (name : String) (network : Network) (cascades : Cascades) (p : Progress)
    (hresolve : directory entry.identity = some address) :
    ∃ result p', ((method directory entry input output).run name data).perform network cascades p =
        (result, p') ∧
      p'.sent = p.sent ++ [(address, request entry (input.pack data) p.context)] := by
  obtain ⟨answer, delay, hreach⟩ : ∃ answer delay, Stage.reach network address
      (request entry (input.pack data) p.context) entry.limit = (answer, delay) := ⟨_, _, rfl⟩
  rw [perform_run, call_of_resolve hresolve]
  refine ⟨_, _, perform_exchange hreach, ?_⟩
  cases answer with
  | error fault => rfl
  | ok reply =>
    dsimp only
    rw [perform_pushAll]
    rfl

/-- **Who counts on the other side.** A call that is forwarded sends its request, with the headers
of the caller and a name for a caller without one, and a server with the same settings reads it.
The caller counts there as it counts here exactly if it came with a name, or if the name of other
servers in the settings is that of clients without another. If it counts there it counts here. -/
theorem internal_iff (directory : Directory) (entry : ForwardEntry) (name : String)
    (network : Network) (cascades : Cascades) (p : Progress) (address : Address)
    (input output : Shape) (data : input.Data) (settings : SessionSettings)
    (hcaller : p.context.Given settings) (hresolve : directory entry.identity = some address)
    (hsize : (toBinary (arriving entry (input.pack data) p.context)).length ≤ Client.maxReply) :
    ∃ result p' arrived,
      ((method directory entry input output).run name data).perform network cascades p =
        (result, p') ∧
      p'.sent = p.sent ++ [(address, request entry (input.pack data) p.context)] ∧
      (∀ remote, Frame.value ((Client.connect remote).exchangeWithin entry.limit
        (request entry (input.pack data) p.context)).2.sent = .ok arrived) ∧
      ∀ (s : Server) (connection : Connection) (st : Server.State), s.settings.session = settings →
        let there := (s.dispatch connection st).context arrived
        (there.internal = p.context.internal ↔
          p.context.headers.contains "user-agent" = true ∨
            settings.internalAgent = Client.defaultUserAgent) ∧
        (there.internal = true → p.context.internal = true) := by
  obtain ⟨result, p', hperform, hsent⟩ := exists_perform_run name network cascades p hresolve
  refine ⟨result, p', arriving entry (input.pack data) p.context, hperform, hsent, ?_, ?_⟩
  · intro remote
    have hsigned : Client.sign (Client.connect remote).userAgent
        (request entry (input.pack data) p.context) =
          arriving entry (input.pack data) p.context := rfl
    rw [Client.snd_exchangeWithin, Client.sent_exchange (hsigned ▸ hsize)]
    exact (Client.message_spec hsize).1
  · intro s connection st hsettings there
    have hthere : there.internal = if p.context.headers.contains "user-agent" then
        p.context.internal else decide (Client.defaultUserAgent = settings.internalAgent) := by
      have hheaders := Context.ofRequest_internal connection s.settings.session
        (s.dispatch connection st).freshSession (arriving entry (input.pack data) p.context)
      rw [hcaller.internal_eq, ← Context.isInternal_insertIfNew _ (by decide), ← hsettings]
      exact hheaders
    rw [hthere]
    cases hnamed : p.context.headers.contains "user-agent" with
    | true => exact ⟨⟨fun _ => .inl rfl, fun _ => rfl⟩, id⟩
    | false =>
      have hhere : p.context.internal = true := by
        rw [hcaller.internal_eq]
        exact Context.isInternal_of_not_contains hnamed
      rw [hhere]
      refine ⟨⟨fun heq => .inr ?_, fun hor => ?_⟩, fun _ => rfl⟩
      · exact (of_decide_eq_true heq).symm
      · exact decide_eq_true (hor.resolve_left Bool.false_ne_true).symm

/-- Settings in which other servers have a name of their own. -/
def mesh : SessionSettings := { internalAgent := "mesh" }

/-- A server with these settings. -/
def meshed : Server :=
  { lookout with settings := { lookout.settings with session := mesh } }

/-- A caller of such a server, with some headers. -/
def guest (headers : List (String × String)) : Context :=
  Context.ofRequest ⟨7, ⟨.v4 127 0 0 1, 80⟩⟩ mesh (randomSession [0, 1])
    { Request.plain "GO" [] with headers := Headers.ofList headers }

theorem given_guest (headers : List (String × String)) : (guest headers).Given mesh :=
  .request _ _ _ (Context.randomSession_ne_empty (List.cons_ne_nil _ _))

/-- A caller with the name of other servers counts as one on both sides. -/
theorem internal_iff_named :
    let entry : ForwardEntry := ⟨"there", "Ctx", 30000⟩
    let address : Address := ⟨.v4 127 0 0 1, 81⟩
    let caller := guest [("User-Agent", "mesh")]
    caller.Given mesh ∧
      (toBinary (arriving entry (Shape.text.pack "x") caller)).length ≤ Client.maxReply ∧
      caller.internal = true ∧
      ∃ result p' arrived,
        ((method (fun _ => some address) entry .text .text).run "GO" "x").perform
          (fun _ => .error "nobody") (Handler.lonely.cascades 0) ⟨caller, 0, []⟩ = (result, p') ∧
        p'.sent = [(address, request entry (Shape.text.pack "x") caller)] ∧
        ((meshed.dispatch ⟨1, address⟩ (meshed.start 0 .empty)).context arrived).internal =
          true := by
  intro entry address caller
  have hcaller : caller.Given mesh := given_guest _
  have hsize : (toBinary (arriving entry (Shape.text.pack "x") caller)).length ≤
      Client.maxReply := by decide +kernel
  have hhere : caller.internal = true := by decide +kernel
  obtain ⟨result, p', arrived, hperform, hsent, -, hthere⟩ :=
    internal_iff (fun _ => some address) entry "GO" (fun _ => .error "nobody")
      (Handler.lonely.cascades 0) ⟨caller, 0, []⟩ address .text .text "x" mesh hcaller rfl hsize
  have hnamed : caller.headers.contains "user-agent" = true := by decide +kernel
  have hsame := (hthere meshed ⟨1, address⟩ (meshed.start 0 .empty) rfl).1.2 (.inl hnamed)
  exact ⟨hcaller, hsize, hhere, result, p', arrived, hperform, hsent, hsame.trans hhere⟩

/-- A caller without a name counts as another server where it is, and no longer where its call
arrives, if other servers have a name of their own. -/
theorem internal_ne_of_renamed :
    let entry : ForwardEntry := ⟨"there", "Ctx", 30000⟩
    let address : Address := ⟨.v4 127 0 0 1, 81⟩
    let caller := guest []
    let arrived := arriving entry (Shape.text.pack "x") caller
    caller.Given mesh ∧ meshed.settings.session = mesh ∧ caller.internal = true ∧
      Frame.value (Client.message Client.defaultUserAgent
        (request entry (Shape.text.pack "x") caller)) = .ok arrived ∧
      ((meshed.dispatch ⟨1, address⟩ (meshed.start 0 .empty)).context arrived).internal =
        false :=
  ⟨given_guest _, rfl, by decide +kernel, by decide +kernel, by decide +kernel⟩

end Forward

end Switchboard
