import Switchboard.Proofs.Conversation
import Switchboard.Proofs.Envelope

/-!
# What a server makes of a frame

A client that waits for each reply sends one frame at a time, and the transport may cut it into
chunks wherever it likes. Here it is told what the server does with such a frame. The frame is put
together again and processed as one request (`Conversation.foldlM_receive_frame`). If its method is
there, what is written is the frame of the reply of that method (`respond_of_reply`), and if it is
not, nothing is written and the connection closes (`respond_of_unknown`). In between the life of
the server is left as it is and one request is counted; `Settles` says so of every part of a step.
-/

namespace Switchboard.Server

open Splitter (announcesTooMuch)

variable {s : Server} {clock : State → Nat} {connection : Connection} {st st' : State} {now : Nat}
  {frame bytes : Bytes} {request : Request} {reply : Reply} {h : Handler} {r : RawRequest}

/-! ## Parts of a step -/

section

variable {α β : Type} {m : Step α} {f : α → Step β} {a : α} {b : β}

/-- A step has a result, and leaves the life of the server and the count of requests alone. -/
def Settles (m : Step α) (st : State) (a : α) : Prop :=
  ∃ st', m st = .ok (a, st') ∧ st'.lifecycle = st.lifecycle ∧ st'.requests = st.requests

namespace Settles

theorem pure (a : α) : Settles (return a) st a := ⟨st, rfl, rfl, rfl⟩

theorem get : Settles get st st := ⟨st, rfl, rfl, rfl⟩

/-- A change settles if it keeps the life of the server and the number of requests. -/
theorem modify {change : State → State} (hlife : (change st).lifecycle = st.lifecycle)
    (hrequests : (change st).requests = st.requests) : Settles (modify change) st () :=
  ⟨change st, rfl, hlife, hrequests⟩

theorem lift (a : α) : Settles (liftM (Except.ok a : Except Oversize α)) st a := ⟨st, rfl, rfl, rfl⟩

/-- Two steps that settle settle one after the other, the second wherever the first may lead. -/
theorem bind (hm : Settles m st a)
    (hf : ∀ st', st'.lifecycle = st.lifecycle → st'.requests = st.requests → Settles (f a) st' b) :
    Settles (m >>= f) st b := by
  obtain ⟨st1, hrun, hlife, hrequests⟩ := hm
  obtain ⟨st2, hrun', hlife', hrequests'⟩ := hf st1 hlife hrequests
  exact ⟨st2, (bind_of_ok hrun).trans hrun', hlife'.trans hlife, hrequests'.trans hrequests⟩

theorem recordsNow (now : Nat) (h : Handler) :
    Settles (recordsNow now h) st (h.method.canRecord && st.recorder.isRecording now) :=
  .bind .get fun _ _ _ => .pure _

theorem recordInput (now : Nat) (name json : String) : Settles (recordInput now name json) st () :=
  .modify rfl rfl

theorem recordOutput (now : Nat) (name : String) (success : Bool) (json : String) :
    Settles (recordOutput now name success json) st () :=
  .modify rfl rfl

/-- A call that is tracked gives its reply. Of the state in which it is made only the count of
requests is known. -/
theorem tracked {name input : String} {protocol : Protocol} {call : State → Answer}
    {answer : Answer} (hcall : ∀ st', st'.requests = st.requests → call st' = answer)
    (hreply : answer.reply = .ok reply) :
    Settles (tracked s now name protocol input call) st (reply, s.later now answer.elapsed) := by
  refine .bind .get fun st1 _ hst1 => .bind (.modify rfl rfl) fun st2 _ hst2 =>
    .bind .get fun st3 _ _ => ?_
  rw [hcall st2 (hst2.trans hst1)]
  refine .bind (.modify rfl rfl) fun _ _ _ => .bind (.modify rfl rfl) fun _ _ _ => ?_
  rw [hreply]
  exact .bind (.lift reply) fun _ _ _ => .pure _

/-- Whatever is recorded of a call, its reply is the one that its handler gives. -/
theorem recorded {input : String} {protocol : Protocol} {call : State → Answer}
    {shown : Reply → String} {answer : Answer}
    (hcall : ∀ st', st'.requests = st.requests → call st' = answer)
    (hreply : answer.reply = .ok reply) :
    Settles (recorded s now h protocol input call shown) st reply := by
  refine .bind (.recordsNow now h) fun st1 _ hst1 => ?_
  cases h.method.canRecord && st.recorder.isRecording now with
  | true =>
    refine .bind (.recordInput now h.name _) fun st2 _ hst2 => ?_
    have hcall' : ∀ st', st'.requests = st2.requests → call st' = answer :=
      fun st' hst' => hcall st' (hst'.trans (hst2.trans hst1))
    refine .bind (.tracked hcall' hreply) fun _ _ _ => ?_
    exact .bind (.recordOutput _ h.name _ _) fun _ _ _ => .pure _
  | false =>
    have hcall' : ∀ st', st'.requests = st1.requests → call st' = answer :=
      fun st' hst' => hcall st' (hst'.trans hst1)
    exact .bind (.tracked hcall' hreply) fun _ _ _ => .pure _

end Settles

end

/-! ## Frames -/

/-- A request for a method that is not there has no answer. -/
theorem dispatchFrame_of_unknown (hvalue : Frame.value frame = .ok request)
    (hget : s.registry.get? request.name = none) :
    Settles (dispatchFrame s connection now frame none) st none := by
  unfold dispatchFrame
  rw [hvalue]
  dsimp only
  rw [hget]
  exact .pure none

/-- A request is answered with the reply of its handler, in a frame. -/
theorem dispatchFrame_of_reply (hvalue : Frame.value frame = .ok request)
    (hget : s.registry.get? request.name = some h)
    (hreply : (h.processBinary (s.stage connection st.requests) request).reply = .ok reply)
    (hframe : Frame.ofValue reply = .ok bytes) :
    Settles (dispatchFrame s connection now frame none) st (some bytes) := by
  unfold dispatchFrame
  rw [hvalue]
  dsimp only
  rw [hget]
  have hcall : ∀ st', st'.requests = st.requests →
      h.processBinary (s.dispatch connection st') request =
        h.processBinary (s.stage connection st.requests) request := by
    intro st' hst'
    rw [dispatch, hst']
  have hreturn : (Frame.ofValue reply).toOption = some bytes := by
    rw [hframe]
    rfl
  refine .bind (.recorded hcall hreply) fun _ _ _ => ?_
  rw [hreturn]
  exact .pure _

/-- A frame on a connection of its own is answered with what is in it. -/
theorem process_of_frame (s : Server) (connection : Connection) (now : Nat) (st : State)
    (frame : Bytes) :
    s.process connection now ⟨.binary, frame, true⟩ st =
      (processedFrame <$> dispatchFrame s connection now frame none)
        { st with requests := st.requests + 1 } := by
  rw [map_eq_pure_bind]
  rfl

/-- A frame is one request, which is counted and leaves the life of the server as it is. -/
theorem respond_of_frame {answer : Option Bytes}
    (hframe : ∀ now st', st'.requests = st.requests + 1 →
      Settles (dispatchFrame s connection now frame none) st' answer) :
    ∃ st', s.respond clock connection ⟨.binary, frame, true⟩ st =
        .ok (processedFrame answer, st') ∧
      st'.lifecycle.isStopping = st.lifecycle.isStopping ∧ st'.requests = st.requests + 1 := by
  obtain ⟨st', hrun, hlife, hrequests⟩ := hframe (clock (begun connection st))
    { begun connection st with requests := st.requests + 1 } rfl
  have hprocess : s.process connection (clock (begun connection st)) ⟨.binary, frame, true⟩
      (begun connection st) = .ok (processedFrame answer, st') := by
    rw [process_of_frame, map_eq_pure_bind]
    exact bind_of_ok hrun
  refine ⟨_, respond_of_process hprocess, ?_, hrequests⟩
  show st'.lifecycle.isStopping = _
  rw [hlife]
  rfl

/-- So the connection is closed behind it. -/
theorem respond_of_unknown (clock : State → Nat) (connection : Connection) (st : State)
    (hvalue : Frame.value frame = .ok request) (hget : s.registry.get? request.name = none) :
    ∃ st', s.respond clock connection ⟨.binary, frame, true⟩ st = .ok (.close, st') ∧
      st'.lifecycle.isStopping = st.lifecycle.isStopping ∧ st'.requests = st.requests + 1 :=
  respond_of_frame fun _ _ _ => dispatchFrame_of_unknown hvalue hget

/-- So the frame of the reply is sent, and the connection may carry another request. -/
theorem respond_of_reply (clock : State → Nat) (hvalue : Frame.value frame = .ok request)
    (hget : s.registry.get? request.name = some h)
    (hreply : (h.processBinary (s.stage connection (st.requests + 1)) request).reply = .ok reply)
    (hframe : Frame.ofValue reply = .ok bytes) :
    ∃ st', s.respond clock connection ⟨.binary, frame, true⟩ st = .ok (⟨bytes, true⟩, st') ∧
      st'.lifecycle.isStopping = st.lifecycle.isStopping ∧ st'.requests = st.requests + 1 := by
  refine respond_of_frame fun _ st' hst' => dispatchFrame_of_reply hvalue hget ?_ hframe
  rw [hst', hreply]

/-! ## A frame in chunks -/

namespace Conversation

variable {c : Conversation}

/-- What a chunk does not complete waits in the buffer. -/
theorem receive_of_none {chunk : Bytes} (hopen : c.isOpen = true)
    (hle : (c.buffer ++ chunk).length ≤ s.network.maxRequestSize)
    (hnone : Boundary.of? (c.buffer ++ chunk) = none)
    (hsmall : announcesTooMuch s.network.maxRequestSize (c.buffer ++ chunk) = false)
    (hstop : st.lifecycle.isStopping = false) :
    receive s clock c chunk st = .ok ({ c with buffer := c.buffer ++ chunk }, st) := by
  have hundisturbed : Undisturbed s clock c.connection [] st := by
    intro front hfront answers st' hrun _
    obtain rfl := List.prefix_nil.1 hfront
    cases hrun
    exact hstop
  unfold receive
  rw [if_pos hopen]
  refine (advance_of_cut (c := ⟨c.connection, c.buffer ++ chunk, c.written, c.isOpen, c.requests⟩)
    (.rest hnone) hle (Nat.lt_succ_self _) hopen rfl hundisturbed).trans ?_
  show goOn _ _ ⟨[], true⟩ _ st = _
  rw [goOn_of_open rfl hsmall]
  show Except.ok (_, _) = _
  rw [List.append_nil]

/-- The frame that a chunk completes is processed. -/
theorem receive_of_frame {chunk : Bytes} {processed : Processed} (hopen : c.isOpen = true)
    (hle : (c.buffer ++ chunk).length ≤ s.network.maxRequestSize)
    (hbound : Boundary.of? (c.buffer ++ chunk) = some ⟨.binary, (c.buffer ++ chunk).length⟩)
    (hrun : s.respond clock c.connection ⟨.binary, c.buffer ++ chunk, true⟩ st =
      .ok (processed, st'))
    (hstop : st.lifecycle.isStopping = false) (hstop' : st'.lifecycle.isStopping = false) :
    ∃ c' st'', receive s clock c chunk st = .ok (c', st'') ∧
      c'.connection = c.connection ∧ c'.buffer = [] ∧
      c'.written = c.written ++ processed.reply ∧ c'.isOpen = s.staysOpen processed ∧
      st''.lifecycle = st'.lifecycle ∧ st''.requests = st'.requests := by
  have hcut : Cut (c.buffer ++ chunk) [⟨.binary, c.buffer ++ chunk, true⟩] [] := by
    have hrest : Cut ((c.buffer ++ chunk).drop (c.buffer ++ chunk).length) [] [] := by
      rw [List.drop_length]
      exact .rest rfl
    have hcut := Cut.request hbound hrest
    rw [List.take_length] at hcut
    exact hcut
  have hundisturbed : Undisturbed s clock c.connection [⟨.binary, c.buffer ++ chunk, true⟩] st := by
    refine undisturbed_cons hstop fun processed' st'' hrun' _ front hfront answers st3 hnone _ => ?_
    rw [hrun] at hrun'
    cases hrun'
    obtain rfl := List.prefix_nil.1 hfront
    cases hnone
    exact hstop'
  have hadvance : receive s clock c chunk st =
      goOn s.network.maxRequestSize c ⟨processed.reply, s.staysOpen processed⟩ [] st' := by
    unfold receive
    rw [if_pos hopen]
    refine (advance_of_cut
      (c := ⟨c.connection, c.buffer ++ chunk, c.written, c.isOpen, c.requests⟩) hcut hle
      (Nat.lt_succ_self _) hopen rfl hundisturbed).trans ?_
    exact bind_of_ok (answerAll_singleton hrun)
  cases hstays : s.staysOpen processed with
  | true =>
    rw [hstays, goOn_of_open rfl rfl] at hadvance
    exact ⟨_, st', hadvance, rfl, rfl, rfl, hopen, rfl, rfl⟩
  | false =>
    rw [hstays, goOn_of_closed rfl] at hadvance
    exact ⟨_, _, hadvance, rfl, rfl, rfl, rfl, rfl, rfl⟩

/-- Nothing arrives, and nothing happens. -/
theorem foldlM_receive_nothing {chunks : List Bytes} (hnothing : chunks.flatten = [])
    (hbuf : c.buffer = []) (hstop : c.isOpen = true → st.lifecycle.isStopping = false) :
    chunks.foldlM (receive s clock) c st = .ok (c, st) := by
  induction chunks with
  | nil => rfl
  | cons chunk chunks ih =>
    obtain ⟨rfl, hmore⟩ := List.append_eq_nil_iff.1 hnothing
    have hreceive : receive s clock c [] st = .ok (c, st) := by
      cases hopen : c.isOpen with
      | false =>
        unfold receive
        rw [hopen]
        rfl
      | true =>
        have hempty : c.buffer ++ [] = [] := by rw [hbuf, List.append_nil]
        have hwaits : receive s clock c [] st = .ok ({ c with buffer := c.buffer ++ [] }, st) :=
          receive_of_none hopen (by rw [hempty]; exact Nat.zero_le _) (by rw [hempty]; rfl)
            (by rw [hempty]; rfl) (hstop hopen)
        rw [hwaits, hempty, ← hbuf]
    rw [List.foldlM_cons, bind_of_ok hreceive]
    exact ih hmore

/-- **One frame.** However a frame is cut into chunks, it is processed as one request. -/
theorem foldlM_receive_frame {chunks : List Bytes} {processed : Processed}
    (hopen : c.isOpen = true) (hnone : Boundary.of? c.buffer = none)
    (hbound : Boundary.of? (c.buffer ++ chunks.flatten) =
      some ⟨.binary, (c.buffer ++ chunks.flatten).length⟩)
    (hle : (c.buffer ++ chunks.flatten).length ≤ s.network.maxRequestSize)
    (hrun : s.respond clock c.connection ⟨.binary, c.buffer ++ chunks.flatten, true⟩ st =
      .ok (processed, st'))
    (hstop : st.lifecycle.isStopping = false) (hstop' : st'.lifecycle.isStopping = false) :
    ∃ c' st'', chunks.foldlM (receive s clock) c st = .ok (c', st'') ∧
      c'.connection = c.connection ∧ c'.buffer = [] ∧
      c'.written = c.written ++ processed.reply ∧ c'.isOpen = s.staysOpen processed ∧
      st''.lifecycle = st'.lifecycle ∧ st''.requests = st'.requests := by
  induction chunks generalizing c with
  | nil =>
    rw [List.flatten_nil, List.append_nil, hnone] at hbound
    cases hbound
  | cons chunk chunks ih =>
    rw [List.flatten_cons, ← List.append_assoc] at hbound hle hrun
    have hlen : (c.buffer ++ chunk).length ≤ s.network.maxRequestSize := by
      rw [List.length_append] at hle
      omega
    rw [List.foldlM_cons]
    cases hfound : Boundary.of? (c.buffer ++ chunk) with
    | none =>
      have hsmall : announcesTooMuch s.network.maxRequestSize (c.buffer ++ chunk) = false := by
        refine Bool.eq_false_iff.2 fun hmuch => ?_
        have hmore := Splitter.announcesTooMuch_append hmuch chunks.flatten
        rw [Splitter.of?_eq_none_of_announcesTooMuch hmore hle] at hbound
        cases hbound
      rw [bind_of_ok (receive_of_none hopen hlen hfound hsmall hstop)]
      exact ih (c := ⟨c.connection, c.buffer ++ chunk, c.written, c.isOpen, c.requests⟩) hopen
        hfound hbound hle hrun
    | some b =>
      -- the frame is there, so that nothing is left for the other chunks
      have hmore := Boundary.of?_append hfound chunks.flatten
      rw [hbound] at hmore
      cases hmore
      have hend := (Boundary.bounds_of_of? hfound).2
      have hnothing : chunks.flatten = [] := by
        refine List.eq_nil_of_length_eq_zero ?_
        have hend : (c.buffer ++ chunk ++ chunks.flatten).length ≤ (c.buffer ++ chunk).length :=
          hend
        rw [List.length_append] at hend
        omega
      rw [hnothing, List.append_nil] at hfound hrun
      obtain ⟨c', st'', hreceive, hconnection, hbuf, hwritten, hstays, hlife, hrequests⟩ :=
        receive_of_frame hopen hlen hfound hrun hstop hstop'
      rw [bind_of_ok hreceive]
      refine ⟨c', st'', foldlM_receive_nothing hnothing hbuf fun _ => ?_, hconnection, hbuf,
        hwritten, hstays, hlife, hrequests⟩
      rw [hlife]
      exact hstop'

end Conversation

end Switchboard.Server
