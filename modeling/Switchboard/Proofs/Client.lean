import Switchboard.Proofs.Delivery
import Switchboard.Proofs.Protocols

/-!
# Client and server agree

A client and a server write frames each in its own way, and between them is a transport that keeps
the bytes and no borders. What a client hears is known from what it has sent, so the server comes in
as a condition on that (`Server.Behind`): behind every message of the client, what is heard is what
the server has written when the message has arrived, in whatever chunks. While nothing is under way
the two sides agree on how far they have come (`Server.Linked`), and one exchange leads from there
to the reply of the method that is called, and back to such a state (`Server.Linked.exchange`).
From this it follows by induction that every call of a client comes to what its own method does
(`Client.calls_agree`).
-/

namespace Switchboard

/-! ## Bodies and frames -/

section

variable {heard : Heard} {body frame before : Bytes} {r : Request} {reply : Reply}
  {userAgent : String}

theorem Carried.ofBinary_toBinary {α : Type} [Payload α] (h : Carried α) {a : α}
    (hlen : (toBinary a).length < bodyLimit) : ofBinary (toBinary a) = .ok a := by
  obtain ⟨frame, hframe, hfound, -⟩ := h.framed a hlen
  have hvalue := (hfound []).1
  unfold Frame.value at hvalue
  rw [Frame.body_append hframe []] at hvalue
  cases hread : (ofBinary (toBinary a) : Except MessagePack.Fault α) with
  | ok b =>
    simp only [bind, Except.bind, hread] at hvalue
    rw [Except.ok.inj hvalue]
  | error fault =>
    simp only [bind, Except.bind, hread] at hvalue
    cases hvalue

namespace Client

/-- No body that is sent or taken is as long as one whose frame could be mistaken. -/
theorem lt_bodyLimit_of_le {n : Nat} (h : n ≤ maxReply) : n < bodyLimit :=
  Nat.lt_of_le_of_lt h (by decide)

/-- The message in which a client sends a request. -/
def message (userAgent : String) (r : Request) : Bytes :=
  Bytes.bigEndian Frame.prefixLength (toBinary (sign userAgent r)).length ++
    toBinary (sign userAgent r)

theorem length_message (userAgent : String) (r : Request) :
    (message userAgent r).length = Frame.prefixLength + (toBinary (sign userAgent r)).length := by
  unfold message
  rw [List.length_append, Bytes.length_bigEndian]

theorem message_ne_nil (userAgent : String) (r : Request) : message userAgent r ≠ [] := by
  refine List.ne_nil_of_length_pos ?_
  rw [length_message]
  exact Nat.lt_of_lt_of_le (by decide) (Nat.le_add_right _ _)

theorem ofValue_sign (h : (toBinary (sign userAgent r)).length ≤ maxReply) :
    Frame.ofValue (sign userAgent r) = .ok (message userAgent r) :=
  Frame.encode_eq_ok_iff.2 ⟨Nat.lt_of_le_of_lt h (by decide), rfl⟩

theorem frameOf_sign (h : (toBinary (sign userAgent r)).length ≤ maxReply) :
    frameOf (sign userAgent r) = .ok (message userAgent r) := by
  unfold frameOf
  rw [if_neg (Nat.not_lt.2 h), ofValue_sign h]
  rfl

/-- A message is a frame, and the request in it is the one that is sent. -/
theorem message_spec (h : (toBinary (sign userAgent r)).length ≤ maxReply) :
    Frame.value (message userAgent r) = .ok (sign userAgent r) ∧
      Boundary.of? (message userAgent r) = some ⟨.binary, (message userAgent r).length⟩ := by
  obtain ⟨frame, hframe, hfound, -⟩ :=
    Request.carried.framed (sign userAgent r) (lt_bodyLimit_of_le h)
  cases hframe.symm.trans (ofValue_sign h)
  have hwhole := hfound []
  rw [List.append_nil] at hwhole
  exact hwhole

/-- The reply behind those that have been taken is found whole. -/
theorem nextReply_of_frame (hbytes : heard.bytes = before ++ frame)
    (hframe : Frame.encode body = .ok frame) (hsize : body.length ≤ maxReply) :
    nextReply heard before.length = .ok (body, frame.length) := by
  have hlen := Frame.length_of_encode hframe
  have hfound : Frame.length? frame = some frame.length :=
    Frame.length?_of_encode hframe (List.take_prefix _ frame)
  have hbody : (frame.take frame.length).drop Frame.prefixLength = body := by
    obtain ⟨_, rfl⟩ := Frame.encode_eq_ok_iff.1 hframe
    rw [List.take_length, List.drop_left' (Bytes.length_bigEndian _ _)]
  unfold nextReply
  rw [hbytes, List.drop_left]
  simp only [hfound]
  rw [if_neg (by omega), if_pos (Nat.le_refl _), hbody]

/-- Behind the last reply there is nothing on a connection that has closed. -/
theorem nextReply_of_closed (hbytes : heard.bytes = before) (hclosed : heard.closed = true) :
    nextReply heard before.length = .error .closed := by
  unfold nextReply
  rw [hbytes, List.drop_length, hclosed]
  rfl

end Client

end

/-! ## A server on the other side -/

namespace Server

variable {s : Server} {clock : State → Nat} {st : State} {c : Conversation} {client : Client}
  {messages : List Bytes} {r : Request} {reply : Reply} {h : Handler}

/-- Whether a server is behind what a client hears. It has come to a conversation and a state, so
many bytes have been sent to it, and behind each message that is still to come, what is heard is
what it has written when the message has arrived in some chunks. -/
def Behind (s : Server) (clock : State → Nat) (remote : Remote) :
    (messages : List Bytes) → (sent : Bytes) → Conversation → State → Prop
  | [], _, _, _ => True
  | message :: messages, sent, c, st => ∃ chunks : List Bytes, chunks.flatten = message ∧
      ∀ c' st', chunks.foldlM (Conversation.receive s clock) c st = .ok (c', st') →
        (remote (sent ++ message)).bytes = c'.written ∧
        (remote (sent ++ message)).closed = !c'.isOpen ∧
        Behind s clock remote messages (sent ++ message) c' st'

theorem Behind.left {remote : Remote} {messages more : List Bytes} {sent : Bytes}
    (hbehind : s.Behind clock remote (messages ++ more) sent c st) :
    s.Behind clock remote messages sent c st := by
  induction messages generalizing sent c st with
  | nil => exact True.intro
  | cons message messages ih =>
    obtain ⟨chunks, hchunks, hheard⟩ := hbehind
    refine ⟨chunks, hchunks, fun c' st' hrun => ?_⟩
    obtain ⟨hbytes, hclosed, hmore⟩ := hheard c' st' hrun
    exact ⟨hbytes, hclosed, ih hmore⟩

/-- What is heard from a server to which messages come one after another, each in one piece. -/
def hear (s : Server) (clock : State → Nat) :
    (messages : List Bytes) → Conversation → State → Remote
  | [], c, _, _ => ⟨c.written, !c.isOpen, 0⟩
  | message :: messages, c, st, sent =>
    if message.isPrefixOf sent then
      match c.receive s clock message st with
      | .ok (c', st') => hear s clock messages c' st' (sent.drop message.length)
      | .error _ => ⟨c.written, true, 0⟩
    else ⟨c.written, !c.isOpen, 0⟩

theorem hear_nil (hmessages : ∀ message ∈ messages, message ≠ []) :
    hear s clock messages c st [] = ⟨c.written, !c.isOpen, 0⟩ := by
  cases messages with
  | nil => rfl
  | cons message messages =>
    obtain ⟨b, bs, rfl⟩ := List.exists_cons_of_ne_nil (hmessages message List.mem_cons_self)
    rfl

/-- There is such a server behind what is heard from it. -/
theorem behind_hear {remote : Remote} {sent : Bytes}
    (hmessages : ∀ message ∈ messages, message ≠ [])
    (hremote : ∀ more, remote (sent ++ more) = hear s clock messages c st more) :
    s.Behind clock remote messages sent c st := by
  induction messages generalizing sent c st with
  | nil => exact True.intro
  | cons message messages ih =>
    refine ⟨[message], List.flatten_singleton, fun c' st' hrun => ?_⟩
    have hmore : ∀ message ∈ messages, message ≠ [] := fun m hm =>
      hmessages m (List.mem_cons_of_mem _ hm)
    have hreceive : c.receive s clock message st = .ok (c', st') := by
      rw [List.foldlM_cons] at hrun
      cases hreceive : c.receive s clock message st with
      | error e =>
        rw [bind_of_error hreceive] at hrun
        cases hrun
      | ok p =>
        rw [bind_of_ok hreceive] at hrun
        cases hrun
        rfl
    have hstep : ∀ more, remote (sent ++ message ++ more) = hear s clock messages c' st' more := by
      intro more
      have hfront : message.isPrefixOf (message ++ more) = true :=
        List.isPrefixOf_iff_prefix.2 (List.prefix_append message more)
      rw [List.append_assoc, hremote, hear, if_pos hfront, hreceive, List.drop_left]
    have hhere := hstep []
    rw [List.append_nil, hear_nil hmore] at hhere
    exact ⟨congrArg Heard.bytes hhere, congrArg Heard.closed hhere, ih hmore hstep⟩

theorem delay_hear (s : Server) (clock : State → Nat) (messages : List Bytes) (c : Conversation)
    (st : State) (sent : Bytes) : (hear s clock messages c st sent).delay = 0 := by
  induction messages generalizing c st sent with
  | nil => rfl
  | cons message messages ih =>
    rw [hear]
    split
    · split
      · exact ih _ _ _
      · rfl
    · rfl

/-- A server with one method under a name. -/
def host (name : String) (h : Handler) : Server :=
  .new {} {} ⟨[], Dict.ofList [(name, ⟨h, none⟩)]⟩ 0
    { network := fun _ => .error "nobody"
      draw := fun _ => 0
      probes := id
      session := fun _ => "f" }

/-- A client and a server with nothing under way between them, and messages still to come. -/
structure Linked (s : Server) (clock : State → Nat) (messages : List Bytes) (client : Client)
    (c : Conversation) (st : State) : Prop where
  isOpen : c.isOpen = true
  buffer : c.buffer = []
  /-- All that the server has written has been taken. -/
  taken : client.taken = c.written.length
  running : st.lifecycle.isStopping = false
  behind : s.Behind clock client.remote messages client.sent c st

namespace Linked

variable (hlinked : Linked s clock (Client.message client.userAgent r :: messages) client c st)
include hlinked

/-- The message of a request has come to the server and was processed. -/
theorem exists_heard {processed : Processed} {st' : State}
    (hsize : (toBinary (Client.sign client.userAgent r)).length ≤ Client.maxReply)
    (hfits : (Client.message client.userAgent r).length ≤ s.network.maxRequestSize)
    (hrespond : s.respond clock c.connection ⟨.binary, Client.message client.userAgent r, true⟩ st =
      .ok (processed, st'))
    (hlife : st'.lifecycle.isStopping = st.lifecycle.isStopping) :
    ∃ c' st'', c'.connection = c.connection ∧ c'.buffer = [] ∧
      c'.written = c.written ++ processed.reply ∧ c'.isOpen = s.staysOpen processed ∧
      st''.lifecycle.isStopping = false ∧ st''.requests = st'.requests ∧
      (client.remote (client.sent ++ Client.message client.userAgent r)).bytes = c'.written ∧
      (client.remote (client.sent ++ Client.message client.userAgent r)).closed = !c'.isOpen ∧
      s.Behind clock client.remote messages
        (client.sent ++ Client.message client.userAgent r) c' st'' := by
  obtain ⟨chunks, hchunks, hheard⟩ := hlinked.behind
  have hstop' : st'.lifecycle.isStopping = false := hlife.trans hlinked.running
  have hwhole : c.buffer ++ chunks.flatten = Client.message client.userAgent r := by
    rw [hlinked.buffer, hchunks, List.nil_append]
  have hbound := (Client.message_spec hsize).2
  have hnone : Boundary.of? c.buffer = none := by
    rw [hlinked.buffer]
    rfl
  rw [← hwhole] at hbound hfits hrespond
  obtain ⟨c', st'', hrun, hconnection, hbuf, hwritten, hopen, hlife'', hrequests⟩ :=
    Conversation.foldlM_receive_frame hlinked.isOpen hnone hbound hfits hrespond hlinked.running
      hstop'
  obtain ⟨hbytes, hclosed, hbehind⟩ := hheard c' st'' hrun
  refine ⟨c', st'', hconnection, hbuf, hwritten, hopen, ?_, hrequests, hbytes, hclosed, hbehind⟩
  rw [hlife'']
  exact hstop'

/-- **One exchange.** The reply of the method that is called comes to the client, and if the server
keeps the connection, nothing is under way behind it. -/
theorem exchange
    (hsize : (toBinary (Client.sign client.userAgent r)).length ≤ Client.maxReply)
    (hfits : (Client.message client.userAgent r).length ≤ s.network.maxRequestSize)
    (hget : s.registry.get? r.name = some h)
    (hreply : (h.processBinary (s.stage c.connection (st.requests + 1))
      (Client.sign client.userAgent r)).reply = .ok reply)
    (hreplySize : (toBinary reply).length ≤ Client.maxReply) :
    ∃ taken c' st', client.exchange r =
        (.ok reply, { client with
          sent := client.sent ++ Client.message client.userAgent r, taken }) ∧
      c'.connection = c.connection ∧ st'.requests = st.requests + 1 ∧
      (s.settings.oneRequest = false → Linked s clock messages { client with
        sent := client.sent ++ Client.message client.userAgent r, taken } c' st') := by
  obtain ⟨frame, hframe, -, -⟩ := Reply.carried.framed reply (Client.lt_bodyLimit_of_le hreplySize)
  obtain ⟨st1, hrespond, hlife, hrequests⟩ :=
    respond_of_reply clock (Client.message_spec hsize).1 hget hreply hframe
  obtain ⟨c', st', hconnection, hbuf, hwritten, hopen, hrunning, hrequests', hbytes, hclosed,
    hbehind⟩ := hlinked.exists_heard hsize hfits hrespond hlife
  have hnext : Client.nextReply
      (client.remote (client.sent ++ Client.message client.userAgent r)) client.taken =
        .ok (toBinary reply, frame.length) := by
    rw [hlinked.taken]
    exact Client.nextReply_of_frame (hbytes.trans hwritten) hframe hreplySize
  refine ⟨client.taken + frame.length, c', st', ?_, hconnection, hrequests'.trans hrequests,
    fun hlasting => ⟨?_, hbuf, ?_, hrunning, hbehind⟩⟩
  · unfold Client.exchange
    rw [Client.frameOf_sign hsize]
    dsimp only
    rw [hnext]
    dsimp only
    rw [Reply.carried.ofBinary_toBinary (Client.lt_bodyLimit_of_le hreplySize)]
  · rw [hopen]
    unfold staysOpen
    rw [hlasting]
    rfl
  · show client.taken + frame.length = c'.written.length
    rw [hwritten, List.length_append, hlinked.taken]

/-- **No method.** The server closes the connection without a word. -/
theorem exchange_of_unknown
    (hsize : (toBinary (Client.sign client.userAgent r)).length ≤ Client.maxReply)
    (hfits : (Client.message client.userAgent r).length ≤ s.network.maxRequestSize)
    (hget : s.registry.get? r.name = none) : (client.exchange r).1 = .error .closed := by
  obtain ⟨st1, hrespond, hlife, -⟩ :=
    respond_of_unknown clock c.connection st (Client.message_spec hsize).1 hget
  obtain ⟨c', st', -, -, hwritten, hopen, -, -, hbytes, hclosed, -⟩ :=
    hlinked.exists_heard hsize hfits hrespond hlife
  have hnext : Client.nextReply
      (client.remote (client.sent ++ Client.message client.userAgent r)) client.taken =
        .error .closed := by
    rw [hlinked.taken]
    refine Client.nextReply_of_closed (hbytes.trans ?_) ?_
    · rw [hwritten]
      exact List.append_nil _
    · rw [hclosed, hopen]
      rfl
  unfold Client.exchange
  rw [Client.frameOf_sign hsize]
  dsimp only
  rw [hnext]

end Linked

end Server

/-! ## Results that are carried -/

namespace Handler

variable {h : Handler} {d : Dispatch} {r : Request} {reply : Reply} {limit : Nat}
  {result : Except String h.method.output.Data}

/-- Whether a request brings an input to a method, and a reply its result back: the input and the
output are read back from their forms, and nothing is longer than may be sent. -/
structure Carries (h : Handler) (d : Dispatch) (limit : Nat) (r : Request)
    (input : h.method.input.Data) : Prop where
  reads : h.method.input.ofBinary r.payload = .ok input
  /-- The client sends the request, and the server holds its frame. -/
  requestSize : (toBinary r).length ≤ Client.maxReply
  frameSize : Frame.prefixLength + (toBinary r).length ≤ limit
  /-- The server sends the output, and it is read back. -/
  output : ∀ output, (h.invoke d r input).1 = .ok output →
    h.method.output.ofBinary (h.method.output.pack output) = .ok output ∧
      (h.method.output.pack output).length ≤ d.limits.binary
  /-- The client takes the reply. -/
  replySize : ∀ reply, (h.processBinary d r).reply = .ok reply →
    (toBinary reply).length ≤ Client.maxReply

/-- That a reply is small can be computed. -/
theorem length_le_of_all {answer : Answer}
    (hall : answer.reply.toOption.all (fun reply => (toBinary reply).length ≤ limit) = true)
    (hreply : answer.reply = .ok reply) : (toBinary reply).length ≤ limit := by
  rw [hreply] at hall
  exact of_decide_eq_true hall

/-- An error message in a reply that is not too long is short enough to be read back. -/
theorem length_lt_of_toBinary_le {message : String} {cookies : List String}
    (hsize : (toBinary (⟨false, binaryError message, cookies⟩ : Reply)).length ≤
      Client.maxReply) : (Utf8.ofString message).length < 2 ^ 32 := by
  have hreply := Shape.fits_of_length_pack (Payload.shape Reply)
    (Payload.toData (⟨false, binaryError message, cookies⟩ : Reply))
    (Nat.lt_of_le_of_lt hsize (by decide))
  have hmessage := Shape.fits_of_length_pack (Payload.shape ErrorMessage)
    (Payload.toData (⟨message⟩ : ErrorMessage)) hreply.2.1
  exact hmessage.1

/-- A request that is carried has a reply, which tells the result of the run behind its cookies. -/
theorem Carries.exists_reply {input : h.method.input.Data} (hc : h.Carries d limit r input) :
    ∃ reply, (h.processBinary d r).reply = .ok reply ∧
      (toBinary reply).length ≤ Client.maxReply ∧
      reply.cookies = (h.invoke d r input).2.context.outbox ∧
      h.Tells .binary reply (h.invoke d r input).1 := by
  have hprocess := processBinary_of_ofBinary (d := d) hc.reads .compact
  have hsizes := hc.replySize
  rw [hprocess] at hsizes ⊢
  have htell : h.Tellable d.limits .binary .compact (h.invoke d r input).1 := by
    cases hresult : (h.invoke d r input).1 with
    | ok output =>
      obtain ⟨hread, hsize⟩ := hc.output output hresult
      exact ⟨_, rfl, toOption_eq_some_iff.2 hread, hsize⟩
    | error message =>
      have hreply : (h.answerOf d.limits .binary .compact (h.invoke d r input)).reply =
          .ok ⟨false, binaryError message, (h.invoke d r input).2.context.outbox⟩ := by
        unfold answerOf
        rw [hresult]
        rfl
      exact length_lt_of_toBinary_le (hsizes _ hreply)
  obtain ⟨reply, hanswer, hcookies, htells⟩ := exists_reply_answerOf htell
  have hreply := congrArg Answer.reply hanswer
  exact ⟨reply, hreply, hsizes reply hreply, hcookies, htells⟩

/-- A reply that tells of a failure has the message of the failure. -/
theorem errorMessage_of_tells {message : String} (htells : h.Tells .binary reply (.error message)) :
    reply.errorMessage = message := by
  obtain ⟨error, herror, htext⟩ := Option.map_eq_some_iff.1 htells.2
  unfold Reply.errorMessage
  rw [toOption_eq_some_iff.1 herror]
  exact htext

end Handler

/-- **One call.** What comes back from a server tells the result of the run there, behind its
cookies. -/
theorem Server.Linked.exchange_of_carries {s : Server} {clock : Server.State → Nat}
    {st : Server.State} {c : Server.Conversation} {client : Client} {messages : List Bytes}
    {h : Handler} {d : Dispatch} {r signed : Request} {input : h.method.input.Data}
    (hlinked : s.Linked clock (Client.message client.userAgent r :: messages) client c st)
    (hd : s.stage c.connection (st.requests + 1) = d)
    (hsigned : Client.sign client.userAgent r = signed) (hget : s.registry.get? r.name = some h)
    (hcarries : h.Carries d s.network.maxRequestSize signed input) :
    ∃ reply taken, client.exchange r = (.ok reply, { client with
        sent := client.sent ++ Client.message client.userAgent r, taken }) ∧
      reply.cookies = (h.invoke d signed input).2.context.outbox ∧
      h.Tells .binary reply (h.invoke d signed input).1 ∧
      (s.settings.oneRequest = false → ∃ c' st', c'.connection = c.connection ∧
        st'.requests = st.requests + 1 ∧ s.Linked clock messages { client with
          sent := client.sent ++ Client.message client.userAgent r, taken } c' st') := by
  subst hd hsigned
  obtain ⟨reply, hreply, hsize, hcookies, htells⟩ := hcarries.exists_reply
  have hfits : (Client.message client.userAgent r).length ≤ s.network.maxRequestSize := by
    rw [Client.length_message]
    exact hcarries.frameSize
  obtain ⟨taken, c', st', hexchange, hconnection, hrequests, hnext⟩ :=
    hlinked.exchange hcarries.requestSize hfits hget hreply hsize
  exact ⟨reply, taken, hexchange, hcookies, htells, fun hlasting =>
    ⟨c', st', hconnection, hrequests, hnext hlasting⟩⟩

/-! ## Typed calls -/

theorem Shape.ofBinary_cast {shape shape' : Shape} {bytes : Bytes} {data : shape.Data}
    (hsame : shape = shape') (hread : shape.ofBinary bytes = .ok data) :
    shape'.ofBinary bytes = .ok (hsame ▸ data) := by
  subst hsame
  exact hread

namespace Client

/-- A call of a method, with types of its own for what is sent and what is expected. -/
structure Call where
  name : String
  Input : Type
  Output : Type
  [payloadInput : Payload Input]
  [payloadOutput : Payload Output]
  input : Input

attribute [instance] Call.payloadInput Call.payloadOutput

namespace Call

variable {call : Call} {h : Handler} {d : Dispatch} {reply : Reply} {userAgent : String}

/-- The request of a call before a client signs it. -/
def request (call : Call) : Request := Request.plain call.name (toBinary call.input)

/-- Makes the call. -/
def send (call : Call) (client : Client) : Except CallFault call.Output × Client :=
  client.call call.name call.input

theorem send_eq (call : Call) (client : Client) : call.send client =
    (outputOf (client.exchange call.request).1, (client.exchange call.request).2) := by
  unfold send Client.call request
  generalize client.exchange (Request.plain call.name (toBinary call.input)) = exchanged
  rfl

/-- Whether the types of a call are those of a method. -/
structure Suits (call : Call) (h : Handler) : Prop where
  input : Payload.shape call.Input = h.method.input
  output : h.method.output = Payload.shape call.Output

/-- The input of a call as data of the method. -/
def Suits.data (hs : call.Suits h) : h.method.input.Data := hs.input ▸ Payload.toData call.input

/-- The result of a run as a value of the type that the call expects. -/
def Suits.result (hs : call.Suits h) (result : Except String h.method.output.Data) :
    Except String call.Output :=
  result.map fun data => Payload.ofData (hs.output ▸ data)

/-- What a reply tells is what the client gives to its caller. -/
theorem Suits.outputOf_of_tells (hs : call.Suits h) {result : Except String h.method.output.Data}
    (htells : h.Tells .binary reply result) :
    (outputOf (.ok reply) : Except CallFault call.Output) =
      (hs.result result).mapError .remote := by
  cases result with
  | error message =>
    have hfailed : reply.success = false := htells.1
    show (if reply.success = true then _ else
      (.error (.remote reply.errorMessage) : Except CallFault call.Output)) = _
    rw [hfailed, Handler.errorMessage_of_tells htells]
    rfl
  | ok output =>
    have hread := Shape.ofBinary_cast hs.output (toOption_eq_some_iff.1 htells.2)
    have houtput : (reply.output : Except MessagePack.Fault call.Output) =
        .ok (Payload.ofData (hs.output ▸ output)) :=
      congrArg (Except.map Payload.ofData) hread
    show (if reply.success = true then _ else _) = _
    rw [htells.1, if_pos rfl, houtput]
    rfl

/-- Whether a call finds a method under its name, in any case, and can be carried there and
back. -/
structure Served (call : Call) (s : Server) (d : Dispatch) (userAgent : String) (h : Handler) :
    Prop where
  registered : s.registry.get? call.name = some h
  suits : call.Suits h
  carries : h.Carries d s.network.maxRequestSize (sign userAgent call.request) suits.data

/-- What a run of the method comes to for a call. -/
def Served.outcome {s : Server} (hserved : call.Served s d userAgent h) :
    Except String call.Output :=
  hserved.suits.result (h.invoke d (sign userAgent call.request) hserved.suits.data).1

end Call

end Client

namespace Server.Linked

variable {s : Server} {clock : State → Nat} {st : State} {c : Conversation} {client : Client}
  {messages : List Bytes} {call : Client.Call} {h : Handler}

/-- **One typed call.** It comes to what its own method does with its input, and the next one can
follow. -/
theorem send (hlinked : Linked s clock (Client.message client.userAgent call.request :: messages)
      client c st)
    (hserved : call.Served s (s.stage c.connection (st.requests + 1)) client.userAgent h) :
    (call.send client).1 = hserved.outcome.mapError .remote ∧
      (call.send client).2.userAgent = client.userAgent ∧
      (s.settings.oneRequest = false → ∃ c' st', c'.connection = c.connection ∧
        st'.requests = st.requests + 1 ∧ Linked s clock messages (call.send client).2 c' st') := by
  obtain ⟨hget, hs, hcarries⟩ := hserved
  obtain ⟨reply, taken, hexchange, -, htells, hnext⟩ :=
    hlinked.exchange_of_carries rfl rfl hget hcarries
  rw [call.send_eq, hexchange]
  exact ⟨hs.outputOf_of_tells htells, rfl, hnext⟩

end Server.Linked

namespace Client

variable {s : Server} {clock : Server.State → Nat} {st : Server.State} {c : Server.Conversation}
  {client : Client} {messages : List Bytes} {connection : Connection} {userAgent : String}

/-- A client that has made calls. -/
def afterAll (calls : List Call) (client : Client) : Client :=
  calls.foldl (fun client call => (call.send client).2) client

theorem afterAll_cons (call : Call) (calls : List Call) (client : Client) :
    afterAll (call :: calls) client = afterAll calls (call.send client).2 :=
  List.foldl_cons

/-- **Calls in a row.** Behind calls that are served the two sides are linked as before. -/
theorem linked_afterAll {calls : List Call} (hlasting : s.settings.oneRequest = false)
    (hagent : client.userAgent = userAgent) (hconnection : c.connection = connection)
    (hlinked : s.Linked clock (calls.map (fun call => message userAgent call.request) ++
      messages) client c st)
    (hcalls : ∀ i (hi : i < calls.length), ∃ h, (calls[i]).Served s
      (s.stage connection (st.requests + i + 1)) userAgent h) :
    ∃ c' st', c'.connection = connection ∧ st'.requests = st.requests + calls.length ∧
      (afterAll calls client).userAgent = userAgent ∧
      s.Linked clock messages (afterAll calls client) c' st' := by
  induction calls generalizing client c st with
  | nil => exact ⟨c, st, hconnection, rfl, hagent, hlinked⟩
  | cons call calls ih =>
    subst hagent hconnection
    obtain ⟨h, hserved⟩ := hcalls 0 (Nat.zero_lt_succ _)
    obtain ⟨-, hagent, hnext⟩ := hlinked.send hserved
    obtain ⟨c1, st1, hconnection, hrequests, hlinked1⟩ := hnext hlasting
    have hcalls1 : ∀ i (hi : i < calls.length), ∃ h, (calls[i]).Served s
        (s.stage c.connection (st1.requests + i + 1)) client.userAgent h := by
      intro i hi
      rw [hrequests, Nat.add_assoc st.requests 1 i, Nat.add_comm 1 i]
      exact hcalls (i + 1) (Nat.succ_lt_succ hi)
    rw [afterAll_cons, List.length_cons, Nat.add_comm calls.length, ← Nat.add_assoc, ← hrequests]
    exact ih hagent hconnection hlinked1 hcalls1

/-- **Client and server agree.** A client makes calls of methods that are there, one after another,
over a connection that the server keeps. One more call comes to what its own method does with its
own input: the output, or the error with the same message. If its method is not there, the
connection is found closed. -/
theorem calls_agree (s : Server) (clock : Server.State → Nat) (connection : Connection)
    (st : Server.State) (userAgent : String) (remote : Remote) (calls : List Call) (next : Call)
    (hlasting : s.settings.oneRequest = false) (hrunning : st.lifecycle.isStopping = false)
    (hbehind : s.Behind clock remote
      ((calls ++ [next]).map fun call => message userAgent call.request) [] (.new connection) st)
    (hcalls : ∀ i (hi : i < calls.length), ∃ h, (calls[i]).Served s
      (s.stage connection (st.requests + i + 1)) userAgent h) :
    (∀ h (hserved : next.Served s (s.stage connection (st.requests + calls.length + 1))
        userAgent h),
      (next.send (afterAll calls { remote, userAgent })).1 = hserved.outcome.mapError .remote) ∧
    (s.registry.get? next.name = none →
      (toBinary (sign userAgent next.request)).length ≤ maxReply →
      (message userAgent next.request).length ≤ s.network.maxRequestSize →
      (next.send (afterAll calls { remote, userAgent })).1 = .error .closed) := by
  rw [List.map_append] at hbehind
  have hstart : s.Linked clock (calls.map (fun call => message userAgent call.request) ++
      [message userAgent next.request]) { remote, userAgent } (.new connection) st :=
    ⟨rfl, rfl, rfl, hrunning, hbehind⟩
  have hagent : ({ remote, userAgent } : Client).userAgent = userAgent := rfl
  have hconnection : (Server.Conversation.new connection).connection = connection := rfl
  obtain ⟨c, st', hconnection, hrequests, hagent, hlinked⟩ :=
    linked_afterAll hlasting hagent hconnection hstart hcalls
  generalize afterAll calls { remote, userAgent } = client at hagent hlinked ⊢
  subst hconnection hagent
  rw [← hrequests]
  refine ⟨fun h hserved => (hlinked.send hserved).1, fun hget hsize hfits => ?_⟩
  have hclosed : (client.exchange next.request).1 = .error .closed :=
    hlinked.exchange_of_unknown hsize hfits hget
  rw [Call.send_eq, hclosed]
  rfl

/-- A server that answers anybody. -/
def sounder : Server := .host "ping" (Sample.Gallery.ping "PING")

/-- The method is found in another case, and behind its answer a method that is not there closes
the connection. -/
theorem calls_agree_ping :
    let connection : Connection := ⟨1, ⟨.v4 127 0 0 1, 80⟩⟩
    let st := sounder.start 0 .empty
    let ping : Call := { name := "Ping", Input := Sample.Empty, Output := String, input := {} }
    let pong : Call := { name := "Pong", Input := Sample.Empty, Output := String, input := {} }
    let remote := sounder.hear (fun _ => 0)
      ([ping, pong].map fun call => message "tester" call.request) (.new connection) st
    (ping.send { remote, userAgent := "tester" }).1 = .ok "pong" ∧
      (pong.send (afterAll [ping] { remote, userAgent := "tester" })).1 = .error .closed := by
  intro connection st ping pong remote
  have hbehind : sounder.Behind (fun _ => 0) remote
      ([ping, pong].map fun call => message "tester" call.request) [] (.new connection) st := by
    refine Server.behind_hear (fun m hm => ?_) fun more => rfl
    obtain ⟨call, -, rfl⟩ := List.mem_map.1 hm
    exact message_ne_nil _ _
  have hrun : ((Sample.Gallery.ping "PING").invoke (sounder.stage connection 1)
      (sign "tester" ping.request) ()).1 = .ok "pong" := rfl
  have hregistered : sounder.registry.get? "Ping" = some (Sample.Gallery.ping "PING") := rfl
  have hreads : (Payload.shape Sample.Empty).ofBinary (toBinary ({} : Sample.Empty)) =
      .ok (Payload.toData ({} : Sample.Empty)) := by decide +kernel
  have hsize : (toBinary (sign "tester" ping.request)).length ≤ maxReply := by decide +kernel
  have hback : (Payload.shape String).ofBinary ((Payload.shape String).pack "pong") = .ok "pong" :=
    by decide +kernel
  have hcarries : (Sample.Gallery.ping "PING").Carries (sounder.stage connection 1)
      sounder.network.maxRequestSize (sign "tester" ping.request)
      (Payload.toData ({} : Sample.Empty)) := by
    refine ⟨hreads, hsize, by decide +kernel, fun output houtput => ?_,
      fun reply => Handler.length_le_of_all (by decide +kernel)⟩
    cases hrun.symm.trans houtput
    exact ⟨hback, by decide +kernel⟩
  have hserved : ping.Served sounder (sounder.stage connection 1) "tester"
      (Sample.Gallery.ping "PING") := ⟨hregistered, ⟨rfl, rfl⟩, hcarries⟩
  have hgone : sounder.registry.get? "Pong" = none := rfl
  have hnone : ∀ i (hi : i < ([] : List Call).length), ∃ h, (([] : List Call)[i]).Served sounder
      (sounder.stage connection (st.requests + i + 1)) "tester" h :=
    fun i hi => absurd hi (Nat.not_lt_zero i)
  have hfirst := (calls_agree sounder (fun _ => 0) connection st "tester" remote [] ping rfl rfl
    (Server.Behind.left hbehind) hnone).1 _ hserved
  have hone : ∀ i (hi : i < [ping].length), ∃ h, ([ping][i]).Served sounder
      (sounder.stage connection (st.requests + i + 1)) "tester" h := by
    intro i hi
    obtain rfl : i = 0 := Nat.lt_one_iff.1 hi
    exact ⟨_, hserved⟩
  have hpong : (toBinary (sign "tester" pong.request)).length ≤ maxReply := by decide +kernel
  have hfits : (message "tester" pong.request).length ≤ sounder.network.maxRequestSize := by
    decide +kernel
  have hsecond := (calls_agree sounder (fun _ => 0) connection st "tester" remote [ping] pong rfl
    rfl hbehind hone).2 hgone hpong hfits
  refine ⟨?_, hsecond⟩
  have houtcome : hserved.outcome = .ok "pong" := by
    show (Except.map _ ((Sample.Gallery.ping "PING").invoke (sounder.stage connection 1)
      (sign "tester" ping.request) ()).1) = _
    rw [hrun]
    rfl
  exact hfirst.trans (congrArg (Except.mapError CallFault.remote) houtcome)

end Client

end Switchboard
