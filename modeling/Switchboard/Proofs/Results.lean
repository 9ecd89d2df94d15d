import Switchboard.Proofs.Client
import Switchboard.Proofs.Json.Quotation
import Switchboard.Proofs.Recorded

/-!
# Recorded results

A result is recorded as it is shown by whoever answers the call. With JSON that is the reply as it
is. For a frame the output is written once more, as JSON, but an error message is recorded as it is,
although the caller with JSON is sent an object in which it stands. No text says an object in which
it stands itself, so the two lines about one call say the same value exactly if the call succeeds
(`Server.recorded_alike_iff`).
-/

namespace Switchboard

open Recorder (outputLine singleLine)
open MessagePack.Reader (depthLimit)

/-! ## Where results go -/

namespace Recorder

variable {r : Recorder} {fs : Files} {path : String} {lines : List String} {now : Nat}

/-- Whether results go into the file at a path, behind the lines that are there, and inputs go
elsewhere. -/
def Logs (r : Recorder) (fs : Files) (path : String) (lines : List String) : Prop :=
  ∃ recording w, r.recording = some recording ∧ recording.output = some w ∧
    w.Follows fs path lines ∧ w.trail ≠ recording.input.trail

theorem Logs.holds (h : r.Logs fs path lines) : fs.Holds path lines := by
  obtain ⟨recording, w, -, -, hfollows, -⟩ := h
  exact hfollows.holds

/-- A writer stays with its file. -/
theorem trail_writeLine (fs : Files) (w : Writer) (line : String) :
    (writeLine fs w line).1.trail = w.trail := rfl

/-- An input changes nothing about when the recording ends. -/
theorem isRecording_recordInput (r : Recorder) (now : Nat) (name text : String) (fs : Files) :
    (r.recordInput now name text fs).1.isRecording = r.isRecording := by
  unfold recordInput
  cases hrecording : r.recording with
  | none => rfl
  | some recording =>
    dsimp only
    split
    · unfold isRecording
      rw [hrecording]
    · rfl

/-- An input does not touch the results. -/
theorem Logs.input (h : r.Logs fs path lines) (htime : r.isRecording now = true)
    (name text : String) :
    (r.recordInput now name text fs).1.Logs (r.recordInput now name text fs).2 path lines := by
  obtain ⟨recording, w, hrecording, hw, hfollows, hne⟩ := h
  rw [recordInput_of_recording hrecording htime]
  refine ⟨_, w, rfl, hw, hfollows.insert hne _, ?_⟩
  rw [trail_writeLine]
  exact hne

/-- What is written about a result: a line, or nothing if the recording is over. -/
def resultLines (r : Recorder) (now : Nat) (name : String) (success : Bool) (text : String) :
    List String :=
  if r.isRecording now then [outputLine now name success text] else []

/-- What is written about a result goes behind the others. -/
theorem Logs.output (h : r.Logs fs path lines) (now : Nat) (name : String) (success : Bool)
    (text : String) :
    (r.recordOutput now name success text fs).1.Logs (r.recordOutput now name success text fs).2
      path (lines ++ r.resultLines now name success text) := by
  obtain ⟨recording, w, hrecording, hw, hfollows, hne⟩ := h
  unfold resultLines
  by_cases htime : r.isRecording now = true
  · rw [recordOutput_of_recording hrecording hw htime, if_pos htime]
    refine ⟨_, _, rfl, rfl, hfollows.writeLine _, ?_⟩
    rw [trail_writeLine]
    exact hne
  · have hsame : r.recordOutput now name success text fs = (r, fs) := by
      unfold recordOutput
      rw [hrecording]
      dsimp only
      rw [hw]
      exact if_neg htime
    rw [hsame, if_neg htime, List.append_nil]
    exact ⟨recording, w, hrecording, hw, hfollows, hne⟩

end Recorder

/-! ## Messages on one line -/

theorem length_singleLine (s : String) :
    (Utf8.ofString (singleLine s)).length = (Utf8.ofString s).length := by
  have hchar (c : Char) : (Utf8.encodeChar (Text.unbroken c)).length =
      (Utf8.encodeChar c).length := by
    unfold Text.unbroken
    split
    · rename_i hc
      rcases hc with rfl | rfl
      · rfl
      · rfl
    · rfl
  show (Utf8.ofString (String.ofList (s.toList.map Text.unbroken))).length = _
  unfold Utf8.ofString Utf8.encode
  rw [String.toList_ofList, List.flatMap_map, List.length_flatMap, List.length_flatMap]
  simp only [hchar]

/-- No message is the JSON text with which it is sent. -/
theorem ofText?_singleLine_ne (message : String) :
    Json.ofText? (singleLine message) ≠ some (.ofMessage message) := by
  intro hsays
  have hlt := Json.length_lt_of_holds hsays (s := message) ⟨"error_msg", List.mem_singleton_self _⟩
  rw [length_singleLine] at hlt
  exact Nat.lt_irrefl _ hlt

namespace Server

variable {s : Server} {connection : Connection} {now : Nat} {h : Handler} {st : State}
  {path : String} {lines : List String} {frame : Bytes} {own q : Request} {outer : Option Request}
  {r : Http.Request} {args : Dict String String}

/-! ## What the recorder is shown -/

/-- What is recorded of a result behind a call in a frame. -/
def frameText (h : Handler) : Except String h.method.output.Data → String
  | .ok output => Json.render .compact (h.said (.ok output))
  | .error message => message

/-- Of a reply in the binary form, the output is shown as JSON and an error message as it is. -/
theorem shownResult_binaryReply {limits : Limits} {result : Except String h.method.output.Data}
    (hjson : ∀ data, ∃ j, h.method.output.toJson data = .ok j)
    (hreg : h.method.output.Regular) (hdepth : h.method.output.depth < depthLimit)
    (hlimit : limits.binary < 2 ^ 32) (hfits : h.FitsBinary limits result)
    (cookies : List String) :
    (h.binaryReply cookies result).success = h.succeeds result ∧
      shownResult h (h.binaryReply cookies result) = frameText h result := by
  cases result with
  | error message =>
    refine ⟨rfl, ?_⟩
    show Reply.errorMessage _ = message
    unfold Reply.errorMessage Handler.binaryReply
    rw [Protocol.ofBinary_binaryError hfits]
  | ok output =>
    obtain ⟨j, hj⟩ := hjson output
    have hread := Handler.ofBinary_pack hreg hdepth (Nat.lt_of_le_of_lt hfits hlimit)
    unfold Handler.succeeds frameText Handler.said
    simp only [hj]
    refine ⟨rfl, ?_⟩
    show Handler.showPayload h.method.output .compact (h.method.output.pack output) = _
    unfold Handler.showPayload Shape.toJsonText
    simp only [hread, hj]
    rfl

/-! ## The line about a call -/

/-- A recorded call leaves a line about its result, unless the recording is over when it ends. -/
theorem logs_behind (hlogs : st.recorder.Logs st.files path lines)
    (hrecords : st.records now h = true) (protocol : Protocol) (input : String) (elapsed : Nat)
    (success : Bool) (shown : String) :
    (st.behind s now h protocol input elapsed success shown).recorder.Logs
      (st.behind s now h protocol input elapsed success shown).files path
      (lines ++ st.recorder.resultLines (s.later now elapsed) h.name success shown) := by
  have htime : st.recorder.isRecording now = true := (Bool.and_eq_true_iff.1 hrecords).2
  have hresult := (hlogs.input htime h.name input).output (s.later now elapsed) h.name success shown
  unfold Recorder.resultLines at hresult ⊢
  rw [Recorder.isRecording_recordInput] at hresult
  unfold State.behind State.captured State.noted
  rw [if_pos hrecords, if_pos hrecords]
  exact hresult

/-- A call in a frame leaves a line with its output as JSON, or with its error message. -/
theorem frame_logs (hjson : ∀ data, ∃ j, h.method.output.toJson data = .ok j)
    (hreg : h.method.output.Regular) (hdepth : h.method.output.depth < depthLimit)
    (hlimit : s.settings.limits.binary < 2 ^ 32) (hvalue : Frame.value frame = .ok own)
    (hget : s.registry.get? own.name = some h) (hrecords : st.records now h = true)
    (hlogs : st.recorder.Logs st.files path lines)
    {run : Except String h.method.output.Data × Progress}
    (hrun : h.outcome (s.stage connection st.requests) (outer.elim own own.merge) .binary = run)
    (hfits : h.FitsBinary s.settings.limits run.1) :
    ∃ sent st', dispatchFrame s connection now frame outer st = .ok (sent, st') ∧
      st'.recorder.Logs st'.files path (lines ++ st.recorder.resultLines
        (s.later now run.2.elapsed) h.name (h.succeeds run.1) (frameText h run.1)) := by
  subst hrun
  have hanswer := Handler.process_eq_answerOf h (s.stage connection st.requests)
    (outer.elim own own.merge) .binary .compact
  refine ⟨_, _, dispatchFrame_of_answer hvalue hget hanswer (Handler.reply_binary hfits _), ?_⟩
  obtain ⟨hsuccess, hshown⟩ := shownResult_binaryReply hjson hreg hdepth hlimit hfits _
  rw [hsuccess, hshown]
  exact logs_behind hlogs hrecords _ _ _ _ _

/-- A call with JSON leaves a line with a text that says its result. -/
theorem json_logs {input : String} (hargs : r.args? = some args)
    (hbranch : branchOf h args = .call input)
    (hrecords : st.records (s.later now (s.delay args)) h = true)
    (hlogs : st.recorder.Logs st.files path lines)
    {run : Except String h.method.output.Data × Progress}
    (hrun : h.outcome (s.stage connection st.requests) (jsonRequest h r args) .json = run)
    (hfits : h.FitsJson s.settings.limits (layoutOf s.settings.debugJson args) run.1) :
    ∃ written sent st', jsonCall s connection now h r st = .ok (sent, st') ∧
      st'.recorder.Logs st'.files path (lines ++ st.recorder.resultLines
        (s.later (s.later now (s.delay args)) run.2.elapsed) h.name (h.succeeds run.1)
        (Json.render written (h.said run.1))) := by
  obtain ⟨written, hcall⟩ := exists_jsonCall now hargs hbranch hrun hfits
  -- the delay changes nothing that is recorded
  have hlogs' : (st.delayed s args).recorder.Logs (st.delayed s args).files path lines := hlogs
  exact ⟨written, _, _, hcall, logs_behind hlogs' hrecords _ _ _ _ _⟩

/-! ## Both lines -/

theorem ofText?_singleLine_render (written : Json.Layout) (j : Json) :
    Json.ofText? (singleLine (Json.render written j)) = some j :=
  Json.ofText?_unbroken_render written j

/-- Whether two requests say the same about their caller. -/
structure SameCaller (a b : Request) : Prop where
  referrer : a.referrer = b.referrer
  cookie : a.cookie = b.cookie
  headers : a.headers = b.headers
  args : a.args = b.args

theorem SameCaller.context_eq {d : Dispatch} {a b : Request} (h : SameCaller a b) :
    d.context a = d.context b := by
  unfold Dispatch.context Context.ofRequest
  rw [h.referrer, h.cookie, h.headers, h.args]

/-- Whether two calls come to the same, or are both complained about, the one in a frame in the
words for that. -/
def Matches (h : Handler) (result answer : Except String h.method.output.Data) : Prop :=
  result = answer ∨ result = .error Handler.unreadable ∧ ∃ message, answer = .error message

/-- Calls with the same input from the same caller come to the same. -/
theorem matches_outcome {d : Dispatch} {packed told : Request}
    (hcaller : SameCaller packed told)
    (hsame : h.method.input.read? .binary packed.payload =
      h.method.input.read? .json told.payload) :
    Matches h (h.outcome d packed .binary).1 (h.outcome d told .json).1 := by
  unfold Handler.outcome
  rw [← hsame]
  cases h.method.input.read? .binary packed.payload with
  | none => exact .inr ⟨rfl, _, rfl⟩
  | some input =>
    left
    show (h.invoke d packed input).1 = (h.invoke d told input).1
    unfold Handler.invoke Dispatch.start
    rw [hcaller.context_eq]

/-- The texts about two such calls say the same value exactly if the calls succeed. -/
theorem ofText?_frameText_eq_iff {result answer : Except String h.method.output.Data}
    (hmatches : Matches h result answer) (hjson : ∀ data, ∃ j, h.method.output.toJson data = .ok j)
    (written : Json.Layout) :
    Json.ofText? (singleLine (frameText h result)) =
        Json.ofText? (singleLine (Json.render written (h.said answer))) ↔
      h.succeeds result = true := by
  rw [ofText?_singleLine_render]
  rcases hmatches with rfl | ⟨rfl, message, rfl⟩
  · cases result with
    | ok output =>
      obtain ⟨j, hj⟩ := hjson output
      have hsucceeds : h.succeeds (.ok output) = true := by
        unfold Handler.succeeds
        simp only [hj]
        rfl
      exact iff_of_true (ofText?_singleLine_render _ _) hsucceeds
    | error message => exact iff_of_false (ofText?_singleLine_ne message) Bool.false_ne_true
  · have hnone : Json.ofText? (singleLine Handler.unreadable) = none := by
      decide +kernel
    refine iff_of_false (fun heq => ?_) Bool.false_ne_true
    cases hnone.symm.trans heq

theorem Matches.succeeds_eq {result answer : Except String h.method.output.Data}
    (hmatches : Matches h result answer) : h.succeeds answer = h.succeeds result := by
  rcases hmatches with rfl | ⟨rfl, message, rfl⟩
  · rfl
  · rfl

/-- **Both lines say the same value exactly if the call succeeds.** A method is called in a frame
and with JSON, with the same input and for the same caller, while results are recorded. Each call
leaves a line as of its end, unless the recording is over by then. The line about the call with JSON
says the result. The line about the frame says the same value if the call succeeds. If it fails, it
has the bare message, which is not what the other line says. -/
theorem recorded_alike_iff (s : Server) (connection : Connection) (now : Nat) (st : State)
    {h : Handler} (path : String) (lines : List String) {frame : Bytes} {own : Request}
    (outer : Option Request) {r : Http.Request} {args : Dict String String} {input : String}
    (hjson : ∀ data, ∃ j, h.method.output.toJson data = .ok j)
    (hreg : h.method.output.Regular) (hdepth : h.method.output.depth < depthLimit)
    (hlimit : s.settings.limits.binary < 2 ^ 32)
    (hvalue : Frame.value frame = .ok own) (hget : s.registry.get? own.name = some h)
    (hargs : r.args? = some args) (hbranch : branchOf h args = .call input)
    (hcaller : SameCaller (outer.elim own own.merge) (jsonRequest h r args))
    (hsame : h.method.input.read? .binary own.payload =
      h.method.input.read? .json (jsonRequest h r args).payload)
    (hrecords : st.records now h = true)
    (hrecords' : st.records (s.later now (s.delay args)) h = true)
    (hlogs : st.recorder.Logs st.files path lines)
    {run run' : Except String h.method.output.Data × Progress}
    (hrun : h.outcome (s.stage connection st.requests) (outer.elim own own.merge) .binary = run)
    (hrun' : h.outcome (s.stage connection st.requests) (jsonRequest h r args) .json = run')
    (hframe : h.FitsBinary s.settings.limits run.1)
    (htext : h.FitsJson s.settings.limits (layoutOf s.settings.debugJson args) run'.1) :
    let ended := s.later now run.2.elapsed
    let ended' := s.later (s.later now (s.delay args)) run'.2.elapsed
    ∃ shown text sent st₁ answered st₂,
      dispatchFrame s connection now frame outer st = .ok (sent, st₁) ∧
      jsonCall s connection now h r st = .ok (answered, st₂) ∧
      st₁.recorder.Logs st₁.files path
        (lines ++ st.recorder.resultLines ended h.name (h.succeeds run.1) shown) ∧
      st₂.recorder.Logs st₂.files path
        (lines ++ st.recorder.resultLines ended' h.name (h.succeeds run.1) text) ∧
      Json.ofText? (singleLine text) = some (h.said run'.1) ∧
      (∀ message, run.1 = .error message → shown = message) ∧
      (Json.ofText? (singleLine shown) = Json.ofText? (singleLine text) ↔
        h.succeeds run.1 = true) := by
  have hpayload : (outer.elim own own.merge).payload = own.payload := by cases outer <;> rfl
  have hmatches := matches_outcome (d := s.stage connection st.requests) hcaller (hpayload ▸ hsame)
  rw [hrun, hrun'] at hmatches
  obtain ⟨sent, st₁, hstep₁, hlogs₁⟩ := frame_logs hjson hreg hdepth hlimit hvalue hget hrecords
    hlogs hrun hframe
  obtain ⟨written, answered, st₂, hstep₂, hlogs₂⟩ := json_logs hargs hbranch hrecords' hlogs hrun'
    htext
  rw [hmatches.succeeds_eq] at hlogs₂
  refine ⟨_, _, sent, st₁, answered, st₂, hstep₁, hstep₂, hlogs₁, hlogs₂,
    ofText?_singleLine_render _ _, ?_, ofText?_frameText_eq_iff hmatches hjson written⟩
  intro message hmessage
  rw [hmessage]
  rfl

/-- A server with one method that records results. -/
def taped (name : String) (h : Handler) : Server :=
  { host name h with settings := { recording := { outputPath := some "out" } } }

/-- The state in which such a server has just begun to record. -/
def rolling (s : Server) : State :=
  let st := s.start 0 .empty
  let started := st.recorder.start 0 st.files
  { st with recorder := started.2.1, files := started.2.2 }

/-- A request for a method with an input in the arguments. -/
def asking (path query : String) : Http.Request := ⟨.get, path, query, ∅, []⟩

/-- Two numbers are exchanged, and both lines say so. -/
theorem recorded_alike_iff_swap :
    let h := Sample.Gallery.swap "SWAP"
    let s := taped "swap" h
    let connection : Connection := ⟨1, ⟨.v4 127 0 0 1, 80⟩⟩
    let args : Dict String String := Dict.ofList [("q", "\x7b\"a\":1,\"b\":2\x7d")]
    let own : Request :=
      { Request.plain "Swap" (toBinary (⟨1, 2⟩ : Sample.Gallery.Exchange)) with args }
    let frame := (Frame.ofValue own).toOption.getD []
    let r := asking "/swap" "q=%7B%22a%22%3A1%2C%22b%22%3A2%7D"
    SameCaller own (jsonRequest h r args) ∧ s.rolling.records 0 h = true ∧
      ∃ shown text sent st₁ answered st₂,
        dispatchFrame s connection 0 frame none s.rolling = .ok (sent, st₁) ∧
        jsonCall s connection 0 h r s.rolling = .ok (answered, st₂) ∧
        st₁.files.Holds "out_0" [outputLine 0 "SWAP" true shown] ∧
        st₂.files.Holds "out_0" [outputLine 0 "SWAP" true text] ∧
        Json.ofText? (singleLine shown) = Json.ofText? (singleLine text) := by
  intro h s connection args own frame r
  have hargs : r.args? = some args := by decide +kernel
  have hcaller : SameCaller own (jsonRequest h r args) := ⟨rfl, rfl, rfl, rfl⟩
  have hrecords : s.rolling.records 0 h = true := by decide +kernel
  have hrecords' : s.rolling.records (s.later 0 (s.delay args)) h = true := by decide +kernel
  let output : h.method.output.Data := Payload.toData (⟨2, 1⟩ : Sample.Gallery.Exchange)
  obtain ⟨run, hrun⟩ : ∃ run, h.outcome (s.stage connection s.rolling.requests) own .binary = run :=
    ⟨_, rfl⟩
  obtain ⟨run', hrun'⟩ : ∃ run, h.outcome (s.stage connection s.rolling.requests)
      (jsonRequest h r args) .json = run := ⟨_, rfl⟩
  have hresult : run.1 = .ok output := by
    rw [← hrun]
    decide +kernel
  have hresult' : run'.1 = .ok output := by
    rw [← hrun']
    decide +kernel
  -- no time passes, so the recording is still on when the calls end
  have hended : s.later 0 run.2.elapsed = 0 := by
    rw [← hrun]
    decide +kernel
  have hended' : s.later (s.later 0 (s.delay args)) run'.2.elapsed = 0 := by
    rw [← hrun']
    decide +kernel
  have hopen : s.rolling.recorder.isRecording 0 = true := by decide +kernel
  have hframe : h.FitsBinary s.settings.limits run.1 := by
    rw [hresult]
    show (h.method.output.pack output).length ≤ s.settings.limits.binary
    decide +kernel
  have htext : h.FitsJson s.settings.limits (layoutOf s.settings.debugJson args) run'.1 := by
    rw [hresult']
    intro j hj
    cases hj
    decide +kernel
  have hlogs : s.rolling.recorder.Logs s.rolling.files "out_0" [] := by
    refine ⟨⟨0, ⟨["recorded_input_0"], 0⟩, some ⟨["out_0"], 0⟩⟩, ⟨["out_0"], 0⟩, ?_, rfl,
      ⟨?_, ?_, rfl⟩, by decide⟩
    all_goals decide +kernel
  have hjson : ∀ data, ∃ j, h.method.output.toJson data = .ok j := fun data => ⟨_, rfl⟩
  have hreg : h.method.output.Regular := ⟨by decide, trivial, trivial, trivial⟩
  have hdepth : h.method.output.depth < depthLimit := by decide
  have hvalue : Frame.value frame = .ok own := by decide +kernel
  have hget : (taped "swap" (Sample.Gallery.swap "SWAP")).registry.get? "Swap" =
      some (Sample.Gallery.swap "SWAP") := rfl
  have hbranch : branchOf h args = .call "\x7b\"a\":1,\"b\":2\x7d" := by decide +kernel
  have hsame : h.method.input.read? .binary own.payload =
      h.method.input.read? .json (jsonRequest h r args).payload := by decide +kernel
  obtain ⟨shown, text, sent, st₁, answered, st₂, hstep₁, hstep₂, hlogs₁, hlogs₂, -, -, halike⟩ :=
    recorded_alike_iff s connection 0 s.rolling "out_0" [] none hjson hreg hdepth (by decide)
      hvalue hget hargs hbranch hcaller hsame hrecords hrecords' hlogs hrun hrun' hframe htext
  have hsucceeds : h.succeeds run.1 = true := by
    rw [hresult]
    rfl
  unfold Recorder.resultLines at hlogs₁ hlogs₂
  rw [hended, if_pos hopen, hsucceeds] at hlogs₁
  rw [hended', if_pos hopen, hsucceeds] at hlogs₂
  exact ⟨hcaller, hrecords, shown, text, sent, st₁, answered, st₂, hstep₁, hstep₂, hlogs₁.holds,
    hlogs₂.holds, halike.2 hsucceeds⟩

/-- On a clock that runs a call outlasts the recording. Its input is recorded, its result is not. -/
example :
    let host := host "sleep" (Sample.Gallery.sleep "SLEEP")
    let s := { host with
      settings := { recording := { outputPath := some "out", maxDuration := 50 } }
      world := { host.world with pace := 1000000 } }
    let frame := (Frame.ofValue (Request.plain "SLEEP" (toBinary (200 : UInt64)))).toOption.getD []
    ((dispatchFrame s ⟨1, ⟨.v4 127 0 0 1, 80⟩⟩ 0 frame none s.rolling).toOption.map fun p =>
      (p.2.files.read? "recorded_input_0", p.2.files.read? "out_0")) =
        some (some (Utf8.ofString "0\tSLEEP\t200\n"), some []) := by
  decide +kernel

/-- A method refuses a call in the same words both times, but only one of the two lines is JSON. -/
theorem not_recorded_alike :
    let s := taped "fail" (Sample.Gallery.refuse "FAIL")
    let h := Sample.Gallery.refuse "FAIL"
    let connection : Connection := ⟨1, ⟨.v4 127 0 0 1, 80⟩⟩
    let args : Dict String String := Dict.ofList [("q", "\x7b\"message\":\"no\"\x7d")]
    let own : Request :=
      { Request.plain "FAIL" (toBinary (⟨"no"⟩ : Sample.Gallery.Message)) with args }
    let frame := (Frame.ofValue own).toOption.getD []
    let r := asking "/FAIL" "q=%7B%22message%22%3A%22no%22%7D"
    (∀ data, ∃ j, h.method.output.toJson data = .ok j) ∧ r.args? = some args ∧
      SameCaller own (jsonRequest h r args) ∧
      h.method.input.read? .binary own.payload =
        h.method.input.read? .json (jsonRequest h r args).payload ∧
      s.rolling.records 0 h = true ∧
      ((dispatchFrame s connection 0 frame none s.rolling).toOption.bind fun p =>
        p.2.files.read? "out_0") = some (Utf8.ofString "0\tFAIL\tfalse\tno\n") ∧
      Json.ofText? "no" = none ∧
      ((jsonCall s connection 0 h r s.rolling).toOption.bind fun p => p.2.files.read? "out_0") =
        some (Utf8.ofString "0\tFAIL\tfalse\t\x7b   \"error_msg\": \"no\" \x7d\n") := by
  intro s h connection args own frame r
  refine ⟨fun data => ⟨_, rfl⟩, ?_, ⟨rfl, rfl, rfl, rfl⟩, ?_⟩
  · decide +kernel
  · decide +kernel

end Server

end Switchboard
