import Switchboard.Dispatch
import Switchboard.Proofs.Json.Texts
import Switchboard.Proofs.MessagePack.RoundTrip
import Switchboard.Sample.Gallery

/-!
# The two forms of a call agree

A call comes in the binary form or as JSON, and is answered in the form in which it came. Two
functions make the answers, and they have little more than the run of the method in common. Here
both are put behind one name (`Handler.process`), and what they do is said once for both protocols:
a payload that can be read leads to one run of the method, of which the reply tells
(`Handler.process_of_read?`), and any other payload to no run at all
(`Handler.process_of_unread`). From this the two forms are seen to agree as far as the two ways of
writing can carry the values (`Handler.protocols_agree`).
-/

namespace Switchboard

/-! ## Values in both forms -/

instance instDecidableEqExcept {ε α : Type} [DecidableEq ε] [DecidableEq α] :
    DecidableEq (Except ε α)
  | .ok a, .ok b => decidable_of_iff (a = b) (by simp)
  | .error a, .error b => decidable_of_iff (a = b) (by simp)
  | .ok _, .error _ => .isFalse nofun
  | .error _, .ok _ => .isFalse nofun

section

variable {ε α : Type} {x : Except ε α}

theorem toOption_eq_some_iff {a : α} : x.toOption = some a ↔ x = .ok a := by
  cases x <;> simp [Except.toOption]

theorem toOption_eq_none_iff : x.toOption = none ↔ ∃ e, x = .error e := by
  cases x <;> simp [Except.toOption]

end

namespace Shape

variable {shape : Shape} {protocol : Protocol} {layout : Json.Layout} {data : shape.Data}

/-- The data in a payload, if it can be read in the form of a protocol. -/
def read? (shape : Shape) : Protocol → Bytes → Option shape.Data
  | .binary, payload => (shape.ofBinary payload).toOption
  | .json, payload => (shape.ofJsonText (Utf8.toStringLossy payload)).toOption

/-- The payload with data in the form of a protocol, or why there is none. -/
def write (shape : Shape) : Protocol → Json.Layout → shape.Data → Except String Bytes
  | .binary, _, data => .ok (shape.pack data)
  | .json, layout, data =>
    ((shape.toJsonText layout data).map Utf8.ofString).mapError Json.Fault.message

/-- Whether data is read back from both of its forms. -/
structure RoundTrips (shape : Shape) (data : shape.Data) : Prop where
  binary : shape.ofBinary (shape.pack data) = .ok data
  json : ∀ layout, ∃ text, shape.toJsonText layout data = .ok text ∧
    shape.ofJsonText text = .ok data

/-- The data that is read back from the JSON of data. -/
def reread? (shape : Shape) (data : shape.Data) (layout : Json.Layout) : Option shape.Data :=
  (shape.toJsonText layout data).toOption.bind fun text => (shape.ofJsonText text).toOption

theorem reread?_eq_some_iff : shape.reread? data layout = some data ↔
    ∃ text, shape.toJsonText layout data = .ok text ∧ shape.ofJsonText text = .ok data := by
  simp only [reread?, Option.bind_eq_some_iff, toOption_eq_some_iff]

theorem roundTrips_iff : shape.RoundTrips data ↔ shape.read? .binary (shape.pack data) = some data ∧
    shape.reread? data .compact = some data ∧ shape.reread? data .pretty = some data := by
  simp only [reread?_eq_some_iff]
  refine ⟨fun h => ⟨toOption_eq_some_iff.2 h.binary, h.json .compact, h.json .pretty⟩,
    fun ⟨hbinary, hcompact, hpretty⟩ => ⟨toOption_eq_some_iff.1 hbinary, fun layout => ?_⟩⟩
  cases layout with
  | compact => exact hcompact
  | pretty => exact hpretty

instance : Decidable (shape.RoundTrips data) := decidable_of_iff' _ roundTrips_iff

theorem RoundTrips.exists_write (h : shape.RoundTrips data) (protocol : Protocol)
    (layout : Json.Layout) : ∃ payload, shape.write protocol layout data = .ok payload ∧
      shape.read? protocol payload = some data := by
  cases protocol with
  | binary => exact ⟨shape.pack data, rfl, toOption_eq_some_iff.2 h.binary⟩
  | json =>
    obtain ⟨text, htext, hback⟩ := h.json layout
    refine ⟨Utf8.ofString text, ?_, toOption_eq_some_iff.2 ?_⟩
    · show ((shape.toJsonText layout data).map Utf8.ofString).mapError _ = .ok (Utf8.ofString text)
      rw [htext]
      rfl
    · rw [Utf8.toStringLossy_ofString, hback]

theorem RoundTrips.read?_of_write {payload : Bytes} (h : shape.RoundTrips data)
    (hwrite : shape.write protocol layout data = .ok payload) :
    shape.read? protocol payload = some data := by
  obtain ⟨payload', hwrite', hread⟩ := h.exists_write protocol layout
  rw [hwrite] at hwrite'
  cases hwrite'
  exact hread

end Shape

/-! ## Error messages in both forms -/

namespace Protocol

/-- The payload with an error message in the form of a protocol. -/
def failure : Protocol → String → Bytes
  | .binary => Handler.binaryError
  | .json => Handler.jsonError

/-- The error message in a payload, if it can be read in the form of a protocol. -/
def message? : Protocol → Bytes → Option String
  | .binary, payload =>
    (ofBinary payload : Except MessagePack.Fault ErrorMessage).toOption.map (·.text)
  | .json, payload =>
    (ofJsonText (Utf8.toStringLossy payload) : Except Json.Fault ErrorMessage).toOption.map (·.text)

theorem ofBinary_binaryError {message : String} (h : (Utf8.ofString message).length < 2 ^ 32) :
    ofBinary (Handler.binaryError message) = .ok (⟨message⟩ : ErrorMessage) := by
  have hreg : (Payload.shape ErrorMessage).Regular := ⟨by decide, True.intro, True.intro⟩
  have hfits : (Payload.shape ErrorMessage).Fits (Payload.toData (⟨message⟩ : ErrorMessage)) :=
    ⟨h, True.intro⟩
  have hread := ofBinary_toBinary_append hreg (by decide) (⟨message⟩ : ErrorMessage) hfits []
  rw [List.append_nil] at hread
  exact hread

theorem ofJsonText_jsonError (message : String) :
    ofJsonText (Utf8.toStringLossy (Handler.jsonError message)) =
      .ok (⟨message⟩ : ErrorMessage) := by
  obtain ⟨text, htext, hback⟩ := ofJsonText_errorMessage .pretty message
  unfold Handler.jsonError
  rw [htext]
  show ofJsonText (Utf8.toStringLossy (Utf8.ofString text)) = _
  rw [Utf8.toStringLossy_ofString, hback]

/-- An error message is read back in both forms. The binary form writes the length of a text in
four bytes, so that longer ones are beyond it. -/
theorem message?_failure (protocol : Protocol) {message : String}
    (h : (Utf8.ofString message).length < 2 ^ 32) :
    protocol.message? (protocol.failure message) = some message := by
  cases protocol with
  | binary =>
    show (ofBinary (Handler.binaryError message)).toOption.map ErrorMessage.text = some message
    rw [ofBinary_binaryError h]
    rfl
  | json =>
    show (ofJsonText (Utf8.toStringLossy (Handler.jsonError message))).toOption.map
      ErrorMessage.text = some message
    rw [ofJsonText_jsonError]
    rfl

end Protocol

/-! ## Calls in both forms -/

/-- The largest output that may be sent in the form of a protocol. -/
def Limits.of (limits : Limits) : Protocol → Nat
  | .binary => limits.binary
  | .json => limits.json

namespace Handler

variable {h : Handler} {d : Dispatch} {r : Request} {protocol : Protocol} {layout : Json.Layout}

/-- Answers a call in the form of a protocol. -/
def process (h : Handler) (d : Dispatch) (r : Request) : Protocol → Json.Layout → Answer
  | .binary, _ => h.processBinary d r
  | .json, layout => h.processJson d r layout

/-- A run of the method for a request, with what has come of the stage. -/
def invoke (h : Handler) (d : Dispatch) (r : Request) (input : h.method.input.Data) :
    Except String h.method.output.Data × Progress :=
  d.start r (h.method.run h.name input)

/-- The answer that tells of a run. -/
def answerOf (h : Handler) (limits : Limits) (protocol : Protocol) (layout : Json.Layout)
    (run : Except String h.method.output.Data × Progress) : Answer :=
  ⟨replyOf protocol (limits.of protocol) (h.method.output.write protocol layout) protocol.failure
    run.2.context.outbox run.1, run.2.elapsed, run.2.sent⟩

/-- What a caller is told whose payload is no input of some shape. -/
def complaint (input : Shape) : Protocol → Bytes → String
  | .binary, _ => unreadable
  | .json, payload =>
    match input.ofJsonText (Utf8.toStringLossy payload) with
    | .ok _ => unreadable
    | .error fault => fault.message

/-- **A payload that can be read.** The answer tells of one run of the method, on what was
read. -/
theorem process_of_read? {input : h.method.input.Data}
    (hread : h.method.input.read? protocol r.payload = some input) :
    h.process d r protocol layout = h.answerOf d.limits protocol layout (h.invoke d r input) := by
  cases protocol with
  | binary =>
    have hok : h.method.input.ofBinary r.payload = .ok input :=
      toOption_eq_some_iff.1 hread
    show h.processBinary d r = _
    unfold processBinary answerOf invoke
    rw [hok]
    dsimp only
    -- what the run does is of no concern here
    generalize d.start r (h.method.run h.name input) = run
    rfl
  | json =>
    have hok : h.method.input.ofJsonText (Utf8.toStringLossy r.payload) = .ok input :=
      toOption_eq_some_iff.1 hread
    show h.processJson d r layout = _
    unfold processJson answerOf invoke
    rw [hok]
    dsimp only
    generalize d.start r (h.method.run h.name input) = run
    rfl

theorem processBinary_of_ofBinary {input : h.method.input.Data}
    (hread : h.method.input.ofBinary r.payload = .ok input) (layout : Json.Layout) :
    h.processBinary d r = h.answerOf d.limits .binary layout (h.invoke d r input) := by
  have hread : h.method.input.read? .binary r.payload = some input :=
    toOption_eq_some_iff.2 hread
  exact process_of_read? hread

/-- **A payload that cannot be read.** The answer is a complaint, which depends on nothing but the
payload and the shape of the input. -/
theorem process_of_unread (hread : h.method.input.read? protocol r.payload = none) :
    h.process d r protocol layout =
      .refused (protocol.failure (complaint h.method.input protocol r.payload)) := by
  cases protocol with
  | binary =>
    obtain ⟨fault, herror⟩ := toOption_eq_none_iff.1 hread
    show h.processBinary d r = _
    unfold processBinary
    rw [herror]
    rfl
  | json =>
    obtain ⟨fault, herror⟩ := toOption_eq_none_iff.1 hread
    have hcomplaint : complaint h.method.input .json r.payload = fault.message := by
      unfold complaint
      simp only [herror]
    show h.processJson d r layout = .refused (jsonError (complaint h.method.input .json r.payload))
    rw [hcomplaint]
    unfold processJson
    rw [herror]

/-- The reply to a run has the cookies of the run, and there is one unless the output is larger
than may be sent. -/
theorem reply_answerOf_or (h : Handler) (limits : Limits) (protocol : Protocol)
    (layout : Json.Layout) (run : Except String h.method.output.Data × Progress) :
    (∃ reply, (h.answerOf limits protocol layout run).reply = .ok reply ∧
      reply.cookies = run.2.context.outbox) ∨
    ∃ output payload, run.1 = .ok output ∧
      h.method.output.write protocol layout output = .ok payload ∧
      limits.of protocol < payload.length := by
  obtain ⟨result, p⟩ := run
  unfold answerOf replyOf
  cases result with
  | error message => exact .inl ⟨_, rfl, rfl⟩
  | ok output =>
    dsimp only
    cases hwrite : h.method.output.write protocol layout output with
    | error message => exact .inl ⟨_, rfl, rfl⟩
    | ok payload =>
      dsimp only
      split
      · rename_i hlarge
        exact .inr ⟨output, payload, rfl, hwrite, hlarge⟩
      · exact .inl ⟨_, rfl, rfl⟩

/-! ## Agreement -/

/-- Whether the result of a run can be told in the form of a protocol: an output has to be read back
and must not be larger than may be sent. -/
def Tellable (h : Handler) (limits : Limits) (protocol : Protocol) (layout : Json.Layout) :
    Except String h.method.output.Data → Prop
  | .ok output => ∃ payload, h.method.output.write protocol layout output = .ok payload ∧
      h.method.output.read? protocol payload = some output ∧ payload.length ≤ limits.of protocol
  | .error message => (Utf8.ofString message).length < 2 ^ 32

/-- What a reply in the form of a protocol says about a result. -/
def Tells (h : Handler) (protocol : Protocol) (reply : Reply) :
    Except String h.method.output.Data → Prop
  | .ok output => reply.success = true ∧ h.method.output.read? protocol reply.payload = some output
  | .error message => reply.success = false ∧ protocol.message? reply.payload = some message

/-- The reply to a run whose result can be told tells it, behind the cookies of the run. -/
theorem exists_reply_answerOf {run : Except String h.method.output.Data × Progress}
    (htell : h.Tellable d.limits protocol layout run.1) :
    ∃ reply, h.answerOf d.limits protocol layout run = ⟨.ok reply, run.2.elapsed, run.2.sent⟩ ∧
      reply.cookies = run.2.context.outbox ∧ h.Tells protocol reply run.1 := by
  obtain ⟨result, p⟩ := run
  cases result with
  | error message =>
    exact ⟨⟨false, protocol.failure message, p.context.outbox⟩, rfl, rfl, rfl,
      Protocol.message?_failure protocol htell⟩
  | ok output =>
    obtain ⟨payload, hwrite, hread, hsize⟩ := htell
    refine ⟨⟨true, payload, p.context.outbox⟩, ?_, rfl, rfl, hread⟩
    unfold answerOf replyOf
    simp only [hwrite, if_neg (Nat.not_lt.2 hsize)]

/-- Whether the result of a run can be told in both forms. -/
def Portable (h : Handler) (limits : Limits) (layout : Json.Layout) :
    Except String h.method.output.Data → Prop
  | .ok output => h.method.output.RoundTrips output ∧ ∀ protocol payload,
      h.method.output.write protocol layout output = .ok payload →
        payload.length ≤ limits.of protocol
  | .error message => (Utf8.ofString message).length < 2 ^ 32

theorem Portable.tellable {result : Except String h.method.output.Data}
    (hport : h.Portable d.limits layout result) (protocol : Protocol) :
    h.Tellable d.limits protocol layout result := by
  cases result with
  | error message => exact hport
  | ok output =>
    obtain ⟨hround, hsizes⟩ := hport
    obtain ⟨payload, hwrite, hread⟩ := hround.exists_write protocol layout
    exact ⟨payload, hwrite, hread, hsizes _ _ hwrite⟩

/-- **Both forms of a call agree.** An input that is read back from both of its forms, sent in both
of them by the same caller, is run in the same context; both replies succeed or both fail, they
have the same cookies, and they tell the same result, if it can be told in both forms. A payload
that cannot be read is answered without a cookie and without a run: any other method with the same
input would be answered for in the same way. -/
theorem protocols_agree (h : Handler) (d : Dispatch) (r : Request) (layout : Json.Layout) :
    (∀ (written : Json.Layout) (input : h.method.input.Data) (packed text : Bytes),
      h.method.input.RoundTrips input →
      h.method.input.write .binary written input = .ok packed →
      h.method.input.write .json written input = .ok text →
      h.Portable d.limits layout (h.invoke d r input).1 →
        let run := h.invoke d r input
        d.context { r with payload := packed } = d.context { r with payload := text } ∧
        ∃ b j : Reply,
          h.processBinary d { r with payload := packed } =
            ⟨.ok b, run.2.elapsed, run.2.sent⟩ ∧
          h.processJson d { r with payload := text } layout =
            ⟨.ok j, run.2.elapsed, run.2.sent⟩ ∧
          b.success = j.success ∧ b.cookies = j.cookies ∧ b.cookies = run.2.context.outbox ∧
          h.Tells .binary b run.1 ∧ h.Tells .json j run.1) ∧
    ∀ protocol, h.method.input.read? protocol r.payload = none → ∃ payload,
      ∀ call mock, process { h with method := { h.method with call, mock } } d r protocol layout =
        ⟨.ok ⟨false, payload, []⟩, 0, []⟩ := by
  refine ⟨fun written input packed text hround hpacked htext hport => ?_, fun protocol hread =>
    ⟨protocol.failure (complaint h.method.input protocol r.payload), fun call mock => ?_⟩⟩
  · refine ⟨rfl, ?_⟩
    obtain ⟨b, hb, hbCookies, hbTells⟩ := exists_reply_answerOf (hport.tellable .binary)
    obtain ⟨j, hj, hjCookies, hjTells⟩ := exists_reply_answerOf (hport.tellable .json)
    have hbinary : h.process d { r with payload := packed } .binary layout = _ :=
      process_of_read? (hround.read?_of_write hpacked)
    have hjson : h.process d { r with payload := text } .json layout = _ :=
      process_of_read? (hround.read?_of_write htext)
    refine ⟨b, j, hbinary.trans hb, hjson.trans hj, ?_, ?_, hbCookies, hbTells, hjTells⟩
    · cases hresult : (h.invoke d r input).1 with
      | error message =>
        rw [hresult] at hbTells hjTells
        rw [hbTells.1, hjTells.1]
      | ok output =>
        rw [hresult] at hbTells hjTells
        rw [hbTells.1, hjTells.1]
    · rw [hbCookies, hjCookies]
  · exact process_of_unread (h := { h with method := { h.method with call, mock } }) hread

/-- What a server brings that hosts nothing and reaches nobody. -/
def lonely : Dispatch where
  connection := ⟨1, ⟨.v4 127 0 0 1, 80⟩⟩
  settings := {}
  limits := {}
  registry := none
  network := fun _ => .error "nobody"
  freshSession := "f"

/-- A sentence with quotes comes back in both forms from the method that fails with it, and in both
forms nothing is no input. -/
theorem protocols_agree_refuse :
    let h := Sample.Gallery.refuse "REFUSE"
    let sentence : Sample.Gallery.Message := ⟨"a \"b\""⟩
    let packed := (Payload.shape Sample.Gallery.Message).pack (Payload.toData sentence)
    let text := Utf8.ofString "\x7b\"message\":\"a \\\"b\\\"\"\x7d"
    let r := Request.plain "REFUSE" []
    h.method.input.RoundTrips (Payload.toData sentence) ∧
      h.method.input.write .json .compact (Payload.toData sentence) = .ok text ∧
      h.Portable lonely.limits .pretty (h.invoke lonely r (Payload.toData sentence)).1 ∧
      (∃ b j : Reply, (h.processBinary lonely { r with payload := packed }).reply = .ok b ∧
        (h.processJson lonely { r with payload := text } .pretty).reply = .ok j ∧
        b.success = j.success ∧ b.cookies = j.cookies ∧
        Protocol.binary.message? b.payload = some "a \"b\"" ∧
        Protocol.json.message? j.payload = some "a \"b\"") ∧
      ∀ protocol, h.method.input.read? protocol r.payload = none ∧
        ∃ payload, h.process lonely r protocol .pretty = ⟨.ok ⟨false, payload, []⟩, 0, []⟩ := by
  intro h sentence packed text r
  have hround : (Payload.shape Sample.Gallery.Message).RoundTrips (Payload.toData sentence) := by
    decide +kernel
  have htext : (Payload.shape Sample.Gallery.Message).write .json .compact
      (Payload.toData sentence) = .ok text :=
    by decide +kernel
  have hrun : (h.invoke lonely r (Payload.toData sentence)).1 = .error "a \"b\"" := rfl
  have hport : h.Portable lonely.limits .pretty
      (h.invoke lonely r (Payload.toData sentence)).1 := by
    rw [hrun]
    show (Utf8.ofString "a \"b\"").length < 2 ^ 32
    decide
  obtain ⟨hsame, hunread⟩ := protocols_agree h lonely r .pretty
  refine ⟨hround, htext, hport, ?_, fun protocol => ?_⟩
  · obtain ⟨-, b, j, hb, hj, hsuccess, hcookies, -, hbTells, hjTells⟩ :=
      hsame .compact (Payload.toData sentence) packed text hround rfl htext hport
    rw [hrun] at hbTells hjTells
    exact ⟨b, j, congrArg Answer.reply hb, congrArg Answer.reply hj, hsuccess, hcookies,
      hbTells.2, hjTells.2⟩
  · have hnone : (Payload.shape Sample.Gallery.Message).read? protocol [] = none := by
      cases protocol <;> decide +kernel
    obtain ⟨payload, hall⟩ := hunread protocol hnone
    exact ⟨hnone, payload, hall h.method.call h.method.mock⟩

end Handler

end Switchboard
