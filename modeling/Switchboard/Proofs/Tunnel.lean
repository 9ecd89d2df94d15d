import Switchboard.Proofs.Client
import Switchboard.Proofs.Tracking

/-!
# Frames inside HTTP requests

Whoever can only speak HTTP posts the frame of a request to `/_rpc` and finds the frame of the reply
in the body of the response. What the HTTP request says about the caller is merged into the request
only after that has been shown to the recorder and the tracker, and the merged request is nowhere on
the wire. Nobody can tell: merging keeps the name and the payload, which is all that is shown, and
the merged request survives the wire, so the same call in a frame of its own is the same step of the
server (`dispatchFrame_merge`).
-/

namespace Switchboard.Server

variable {s : Server} {connection : Connection} {now : Nat} {st : State} {q : Http.Request}
  {raw : RawRequest}

/-- What is sent for a frame that came in an HTTP request and was answered with some bytes, or with
none. -/
def tunnelled (q : Http.Request) (reply : Bytes) : Processed :=
  ⟨(⟨200, "application/octet-stream", reply, [], 0, q.keepAlive⟩ : Http.Response).toBytes,
    q.keepAlive⟩

/-! ## Both ways to the handler -/

/-- A request that takes over what concerns the caller is answered like one that has it. -/
theorem dispatchFrame_merge {frame merged : Bytes} {request outer : Request}
    (hrequest : Frame.value frame = .ok request)
    (hmerged : Frame.value merged = .ok (request.merge outer)) :
    dispatchFrame s connection now frame (some outer) =
      dispatchFrame s connection now merged none := by
  unfold dispatchFrame
  rw [hrequest, hmerged]
  rfl

/-- A frame that reaches no handler leaves no trace. -/
theorem dispatchFrame_of_not_reaches {frame : Bytes} (outer : Option Request)
    (hreaches : ∀ h, ¬FrameReaches s frame h) :
    dispatchFrame s connection now frame outer = return none := by
  unfold dispatchFrame
  cases hvalue : (Frame.value frame : Except Frame.Fault Request) with
  | error fault => rfl
  | ok request =>
    cases hget : s.registry.get? request.name with
    | none => simp only [hget]
    | some h => exact absurd ⟨request, hvalue, hget⟩ (hreaches h)

theorem process_of_tunnel (hhttp : raw.framing = .http)
    (hq : Http.Request.ofBytes? raw.bytes = some q) (hname : q.methodName = "_rpc") :
    s.process connection now raw st =
      ((fun reply => tunnelled q (reply.getD [])) <$>
        dispatchFrame s connection now q.body (some (outerRequest q ∅)))
          { st with requests := st.requests + 1 } := by
  have hroute : route s connection now q =
      (fun reply => Routed.response
        { Http.Response.ok (reply.getD []) "" with contentType := "application/octet-stream" }) <$>
          dispatchFrame s connection now q.body (some (outerRequest q ∅)) := by
    unfold route
    rw [of?_eq_some_tunnel.2 hname, map_eq_pure_bind]
    rfl
  rw [process_of_ofBytes? s connection now st hhttp hq, hroute, Functor.map_map]
  rfl

/-- What a frame is answered with on a connection of its own, if with anything. -/
theorem reply_processedFrame (reply : Option Bytes) :
    (processedFrame reply).reply = reply.getD [] := by
  cases reply with
  | none => rfl
  | some reply => rfl

/-! ## The same call -/

/-- **A frame inside an HTTP request is the same call.** Whatever is answered is a response with
status 200. If there is a request in the frame, it holds what a connection with frames hears for the
request that has taken over what the HTTP request says about the caller, and everything else
happens as there, where that request is a frame of its own unless it is beyond all limits. If there
is none or none for a method, it holds nothing and leaves no trace. -/
theorem tunnel_is_call (s : Server) (connection : Connection) (now : Nat) (st : State)
    {raw : RawRequest} {q : Http.Request} (hhttp : raw.framing = .http)
    (hq : Http.Request.ofBytes? raw.bytes = some q) (hname : q.methodName = "_rpc") :
    (∀ processed st', s.process connection now raw st = .ok (processed, st') →
      ∃ body, processed = tunnelled q body) ∧
    (∀ (request : Request) (frame : Bytes), Frame.value q.body = .ok request →
      Frame.ofValue (request.merge (outerRequest q ∅)) = .ok frame →
      s.process connection now raw st =
          (fun p => (tunnelled q p.1.reply, p.2)) <$>
            s.process connection now ⟨.binary, frame, true⟩ st ∧
        ((toBinary (request.merge (outerRequest q ∅))).length < bodyLimit →
          Boundary.of? frame = some ⟨.binary, frame.length⟩)) ∧
    ((∀ h, ¬FrameReaches s q.body h) →
      s.process connection now raw st =
        .ok (tunnelled q [], { st with requests := st.requests + 1 })) := by
  refine ⟨fun processed st' hrun => ?_, fun request frame hrequest hframe => ⟨?_, fun hsize => ?_⟩,
    fun hreaches => ?_⟩
  · rw [process_of_tunnel hhttp hq hname, map_eq_pure_bind] at hrun
    obtain ⟨reply, st'', -, hreturn⟩ := exists_of_bind hrun
    have hpair : (tunnelled q (reply.getD []), st'') = (processed, st') := Except.ok.inj hreturn
    exact ⟨reply.getD [], (congrArg Prod.fst hpair).symm⟩
  · -- the merged request comes out of its frame as it went in, so both ways lead to one step
    have hmerged := value_append_of_ofValue Request.regular Request.depth_lt hframe []
    rw [List.append_nil] at hmerged
    rw [process_of_tunnel hhttp hq hname, process_of_frame, dispatchFrame_merge hrequest hmerged]
    generalize dispatchFrame s connection now frame none = m
    show ((fun reply => tunnelled q (reply.getD [])) <$> m).run _ =
      (fun p => (tunnelled q p.1.reply, p.2)) <$> (processedFrame <$> m).run _
    rw [StateT.run_map, StateT.run_map, Functor.map_map]
    simp only [reply_processedFrame]
  · have hfound := Boundary.of?_frame hframe (Nat.lt_trans hsize (by decide)) []
    rw [List.append_nil] at hfound
    exact hfound
  · rw [process_of_tunnel hhttp hq hname, dispatchFrame_of_not_reaches _ hreaches]
    rfl

/-- The frame has no cookie and the HTTP request has one, so the call that comes to the same has it
in its frame. -/
theorem tunnel_is_call_ping :
    let connection : Connection := ⟨1, ⟨.v4 127 0 0 1, 80⟩⟩
    let st := Client.sounder.start 0 .empty
    let request : Request := .plain "Ping" (toBinary ({} : Sample.Empty))
    let body := (Frame.ofValue request).toOption.getD []
    let raw : RawRequest := ⟨.http, Utf8.ofString
      ("POST /_rpc HTTP/1.1\r\nCookie: a=b\r\nContent-Length: 17\r\n\r\n") ++ body, true⟩
    ∃ q frame, Http.Request.ofBytes? raw.bytes = some q ∧ Frame.value q.body = .ok request ∧
      Frame.ofValue (request.merge (outerRequest q ∅)) = .ok frame ∧
      (request.merge (outerRequest q ∅)).cookie = "a=b" ∧
      Client.sounder.process connection 5 raw st =
        (fun p => (tunnelled q p.1.reply, p.2)) <$>
          Client.sounder.process connection 5 ⟨.binary, frame, true⟩ st := by
  intro connection st request body raw
  let q : Http.Request :=
    ⟨.post, "/_rpc", "", .ofDict (.ofList [("cookie", "a=b"), ("content-length", "17")]), body⟩
  let frame := (Frame.ofValue (request.merge (outerRequest q ∅))).toOption.getD []
  have hq : Http.Request.ofBytes? raw.bytes = some q := by decide +kernel
  have hrequest : Frame.value q.body = .ok request := by decide +kernel
  have hframe : Frame.ofValue (request.merge (outerRequest q ∅)) = .ok frame := by decide +kernel
  have hhttp : raw.framing = .http := rfl
  have hsame := ((tunnel_is_call Client.sounder connection 5 st hhttp hq
    (by decide +kernel)).2.1 request frame hrequest hframe).1
  have hcookie : (request.merge (outerRequest q ∅)).cookie = "a=b" := by decide +kernel
  exact ⟨q, frame, hq, hrequest, hframe, hcookie, hsame⟩

end Switchboard.Server
