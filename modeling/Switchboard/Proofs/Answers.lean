import Switchboard.Proofs.Json.Values
import Switchboard.Proofs.MessagePack.Fits
import Switchboard.Proofs.Protocols

/-!
# What answers say

Every call comes to something: to the result of a run of the method, or to a complaint about a
payload that cannot be read (`Handler.outcome`), and the answer tells of it in either case
(`Handler.process_eq_answerOf`). With JSON the answer is a text that says one value, `Handler.said`,
in one layout or the other (`Handler.exists_reply_json`). In the binary form it is the output or the
error message (`Handler.reply_binary`), and the output is read back if it is not too large.
-/

namespace Switchboard

/-- What a failed call says, as JSON. -/
def Json.ofMessage (message : String) : Json := .object [("error_msg", .text message)]

namespace Handler

variable {h : Handler} {d : Dispatch} {limits : Limits} {layout : Json.Layout}
  {run : Except String h.method.output.Data × Progress} {output : h.method.output.Data} {j : Json}

/-! ## What a call comes to -/

/-- What a call comes to: a run of the method, or nothing but a complaint about the payload. -/
def outcome (h : Handler) (d : Dispatch) (r : Request) (protocol : Protocol) :
    Except String h.method.output.Data × Progress :=
  match h.method.input.read? protocol r.payload with
  | some input => h.invoke d r input
  | none => (.error (complaint h.method.input protocol r.payload),
      ⟨{ d.context r with outbox := [] }, 0, []⟩)

/-- Whatever a call comes to, it is answered with that. -/
theorem process_eq_answerOf (h : Handler) (d : Dispatch) (r : Request) (protocol : Protocol)
    (layout : Json.Layout) :
    h.process d r protocol layout =
      h.answerOf d.limits protocol layout (h.outcome d r protocol) := by
  unfold outcome
  cases hread : h.method.input.read? protocol r.payload with
  | none => exact process_of_unread hread
  | some input => exact process_of_read? hread

/-! ## Answers with JSON -/

/-- What a result says with JSON. An output without any is told as an error. -/
def said (h : Handler) : Except String h.method.output.Data → Json
  | .ok output =>
    match h.method.output.toJson output with
    | .ok j => j
    | .error fault => .ofMessage fault.message
  | .error message => .ofMessage message

/-- Whether a result is an output that has some JSON. -/
def succeeds (h : Handler) : Except String h.method.output.Data → Bool
  | .ok output => (h.method.output.toJson output).toBool
  | .error _ => false

/-- Whether the JSON of an output is not larger than may be sent. -/
def FitsJson (h : Handler) (limits : Limits) (layout : Json.Layout) :
    Except String h.method.output.Data → Prop
  | .ok output => ∀ j, h.method.output.toJson output = .ok j →
      (Utf8.ofString (Json.render layout j)).length ≤ limits.json
  | .error _ => True

theorem jsonError_eq (message : String) :
    jsonError message = Utf8.ofString (Json.render .pretty (.ofMessage message)) := rfl

/-- **Answers with JSON.** The answer to a run is a text that says the result of the run. -/
theorem exists_reply_json (hfits : h.FitsJson limits layout run.1) :
    ∃ written, (h.answerOf limits .json layout run).reply = .ok ⟨h.succeeds run.1,
      Utf8.ofString (Json.render written (h.said run.1)), run.2.context.outbox⟩ := by
  obtain ⟨result, p⟩ := run
  cases result with
  | error message => exact ⟨.pretty, rfl⟩
  | ok output =>
    unfold answerOf replyOf Shape.write Shape.toJsonText said succeeds
    dsimp only
    cases hjson : h.method.output.toJson output with
    | error fault => exact ⟨.pretty, rfl⟩
    | ok j =>
      have hsize : ¬ limits.json < (Utf8.ofString (Json.render layout j)).length :=
        Nat.not_lt.2 (hfits j hjson)
      refine ⟨layout, ?_⟩
      show (if limits.json < (Utf8.ofString (Json.render layout j)).length then _ else _) = _
      rw [if_neg hsize]
      rfl

/-! ## Answers in the binary form -/

/-- Whether the binary form of an output is not larger than may be sent, and the length of an error
message can be written. -/
def FitsBinary (h : Handler) (limits : Limits) : Except String h.method.output.Data → Prop
  | .ok output => (h.method.output.pack output).length ≤ limits.binary
  | .error message => (Utf8.ofString message).length < 2 ^ 32

/-- The reply with a result in the binary form. -/
def binaryReply (h : Handler) (cookies : List String) : Except String h.method.output.Data → Reply
  | .ok output => ⟨true, h.method.output.pack output, cookies⟩
  | .error message => ⟨false, binaryError message, cookies⟩

/-- **Answers in the binary form.** The answer to a run is its output or its error message. -/
theorem reply_binary (hfits : h.FitsBinary limits run.1) (layout : Json.Layout) :
    (h.answerOf limits .binary layout run).reply =
      .ok (h.binaryReply run.2.context.outbox run.1) := by
  obtain ⟨result, p⟩ := run
  cases result with
  | error message => rfl
  | ok output =>
    have hsize : ¬ limits.binary < (h.method.output.pack output).length := Nat.not_lt.2 hfits
    show (if limits.binary < (h.method.output.pack output).length then _ else _) = _
    rw [if_neg hsize]
    rfl

/-- An output that is not too large is read back from its binary form. -/
theorem ofBinary_pack {shape : Shape} {data : shape.Data} (hreg : shape.Regular)
    (hdepth : shape.depth < MessagePack.Reader.depthLimit)
    (hlength : (shape.pack data).length < 2 ^ 32) :
    shape.ofBinary (shape.pack data) = .ok data := by
  have hread := shape.reads_unpack _ hreg hdepth data (shape.fits_of_length_pack data hlength) []
  rw [List.append_nil] at hread
  unfold Shape.ofBinary
  rw [hread]
  rfl

end Handler

end Switchboard
