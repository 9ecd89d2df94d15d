import Switchboard.Proofs.Answers
import Switchboard.Proofs.Capture
import Switchboard.Proofs.Delivery

/-!
# What a call leaves behind

A call in a frame and a call with JSON differ in how the input is shown, who answers and how the
result is shown; all else is the same. `recorded_of_ok` says exactly what a recorded call leaves
behind, given the answer. Of the state in which the handler is asked only the number of the request
matters, so the answer may be taken from the state before. The input is recorded at the begin of the
call and the result at its end, each at its own reading of the clock.
-/

namespace Switchboard.Server

variable {s : Server} {connection : Connection} {now : Nat} {h : Handler} {st : State}
  {reply : Reply} {answer : Answer} {input shown : String} {protocol : Protocol}

/-! ## The calls -/

/-- A call in a frame whose request can be read and whose method is there is recorded. -/
theorem dispatchFrame_eq {frame : Bytes} {own : Request} (outer : Option Request)
    (hvalue : Frame.value frame = .ok own) (hget : s.registry.get? own.name = some h) :
    dispatchFrame s connection now frame outer =
      recorded s now h .binary (h.inputToJson .compact own.payload) (fun st =>
        h.processBinary (s.dispatch connection st) (outer.elim own own.merge)) (shownResult h) >>=
        fun reply => return (Frame.ofValue reply).toOption := by
  unfold dispatchFrame
  rw [hvalue]
  dsimp only
  rw [hget]

/-- The state behind the delay that arguments ask for. -/
def State.delayed (st : State) (s : Server) (args : Dict String String) : State :=
  { st with elapsed := st.elapsed + s.delay args }

/-- What a call with JSON can lead to. -/
inductive Branch
  /-- The input is missing. -/
  | missing
  /-- The caller asks for an error, so many seconds from now. -/
  | forced (seconds : Nat)
  /-- The method is called with an input. -/
  | call (input : String)
  deriving DecidableEq

/-- What a call with some arguments leads to. -/
def branchOf (h : Handler) (args : Dict String String) : Branch :=
  if hasInput h args then
    match args.get? "e" with
    | some value => .forced (delaySeconds value)
    | none => .call (inputOf args)
  else .missing

/-- A call with JSON follows the branch that its arguments lead to. The method is called when the
delay is over. -/
theorem jsonCall_eq (s : Server) (connection : Connection) (now : Nat) (h : Handler) (st : State)
    {r : Http.Request} {args : Dict String String} (hargs : r.args? = some args) :
    jsonCall s connection now h r st =
      match branchOf h args with
      | .missing =>
        .ok ((Presentation.ofArgs args).json (Handler.jsonError "Missing input (q).") [], st)
      | .forced seconds =>
        .ok ((Presentation.ofArgs args).json (Handler.jsonError "Caller-requested error.") [],
          { st with elapsed := st.elapsed + seconds * 1000 })
      | .call _ =>
        callMethod s connection (s.later now (s.delay args)) h r args (st.delayed s args) := by
  unfold jsonCall branchOf
  rw [hargs]
  dsimp only
  cases hasInput h args with
  | false => rfl
  | true =>
    rw [Bool.not_true, if_neg Bool.false_ne_true, if_pos rfl]
    cases args.get? "e" with
    | some value => rfl
    | none => exact bind_of_ok (m := pass _) rfl

/-- The input of a call is the one in the arguments. -/
theorem inputOf_of_branchOf {args : Dict String String} (h' : branchOf h args = .call input) :
    inputOf args = input := by
  unfold branchOf at h'
  split at h'
  · split at h'
    · cases h'
    · exact Branch.call.inj h'
  · cases h'

/-! ## What is left behind -/

/-- Whether calls of a method are recorded. -/
def State.records (st : State) (now : Nat) (h : Handler) : Bool :=
  h.method.canRecord && st.recorder.isRecording now

/-- The recorder and the files behind an input, if calls are recorded when it comes. -/
def State.noted (st : State) (now : Nat) (h : Handler) (input : String) : Recorder × Files :=
  if st.records now h then st.recorder.recordInput now h.name input st.files
  else (st.recorder, st.files)

/-- The recorder and the files behind an input and a result. Both are recorded if calls are recorded
when the input comes, but the result at the end of the call. -/
def State.captured (st : State) (now ended : Nat) (h : Handler) (input : String) (success : Bool)
    (shown : String) : Recorder × Files :=
  let noted := st.noted now h input
  if st.records now h then noted.1.recordOutput ended h.name success shown noted.2 else noted

/-- The tracker behind a call that takes so many milliseconds. -/
def State.counted (st : State) (s : Server) (now : Nat) (name : String) (protocol : Protocol)
    (input : String) (elapsed : Nat) : Tracker :=
  let (id, tracker) := st.tracker.begin now name protocol input
  tracker.finish (s.later now elapsed) id

/-- The state behind a recorded call. -/
def State.behind (st : State) (s : Server) (now : Nat) (h : Handler) (protocol : Protocol)
    (input : String) (elapsed : Nat) (success : Bool) (shown : String) : State :=
  let captured := st.captured now (s.later now elapsed) h input success shown
  { st with
    tracker := st.counted s now h.name protocol input elapsed
    recorder := captured.1
    files := captured.2
    elapsed := st.elapsed + elapsed }

/-- A tracked call whose answer is a reply gives the reply and the reading of the clock at its end,
and leaves behind a tracker that has counted it. -/
theorem tracked_of_ok (st : State) {call : State → Answer}
    (hcall : ∀ st', st'.requests = st.requests → call st' = answer)
    (hreply : answer.reply = .ok reply) :
    tracked s now h.name protocol input call st =
      .ok ((reply, s.later now answer.elapsed), { st with
        tracker := st.counted s now h.name protocol input answer.elapsed
        elapsed := st.elapsed + answer.elapsed }) := by
  have hanswer : ∀ tracker, call { st with tracker } = answer := fun _ => hcall _ rfl
  unfold tracked
  refine (bind_of_ok rfl).trans ((bind_of_ok rfl).trans ((bind_of_ok rfl).trans ?_))
  dsimp only
  rw [hanswer]
  refine (bind_of_ok rfl).trans ((bind_of_ok rfl).trans ?_)
  rw [hreply]
  rfl

/-- A recorded call whose answer is a reply gives the reply and leaves behind what is to be left
behind. -/
theorem recorded_of_ok {call : State → Answer} {shown : Reply → String}
    (hcall : ∀ st', st'.requests = st.requests → call st' = answer)
    (hreply : answer.reply = .ok reply) :
    recorded s now h protocol input call shown st =
      .ok (reply, st.behind s now h protocol input answer.elapsed reply.success (shown reply)) := by
  unfold recorded
  have hrecords : recordsNow now h st = .ok (st.records now h, st) := rfl
  refine (bind_of_ok hrecords).trans ?_
  unfold State.behind State.captured State.noted
  cases st.records now h with
  | true =>
    let noted := st.recorder.recordInput now h.name input st.files
    let st₁ : State := { st with recorder := noted.1, files := noted.2 }
    have hnoted : recordInput now h.name input st = .ok ((), st₁) := rfl
    refine (bind_of_ok hnoted).trans ((bind_of_ok (tracked_of_ok st₁ hcall hreply)).trans ?_)
    exact bind_of_ok (a := ()) rfl
  | false => exact bind_of_ok (tracked_of_ok st hcall hreply)

/-- What a call in a frame leaves behind. -/
theorem dispatchFrame_of_answer {frame : Bytes} {own : Request} {outer : Option Request}
    (hvalue : Frame.value frame = .ok own) (hget : s.registry.get? own.name = some h)
    (hanswer : h.processBinary (s.stage connection st.requests) (outer.elim own own.merge) = answer)
    (hreply : answer.reply = .ok reply) :
    dispatchFrame s connection now frame outer st = .ok ((Frame.ofValue reply).toOption,
      st.behind s now h .binary (h.inputToJson .compact own.payload) answer.elapsed reply.success
        (shownResult h reply)) := by
  rw [dispatchFrame_eq outer hvalue hget]
  refine bind_of_ok (recorded_of_ok (h := h) (fun st' hst' => ?_) hreply)
  rw [dispatch, hst', hanswer]

/-- What a call with JSON leaves behind. -/
theorem callMethod_of_answer (now : Nat) (st : State) {r : Http.Request}
    {args : Dict String String}
    (hanswer : h.processJson (s.stage connection st.requests) (jsonRequest h r args)
      (layoutOf s.settings.debugJson args) = answer)
    (hreply : answer.reply = .ok reply) :
    callMethod s connection now h r args st =
      .ok ((Presentation.ofArgs args).json reply.payload reply.cookies,
        st.behind s now h .json (inputOf args) answer.elapsed reply.success
          (Utf8.toStringLossy reply.payload)) := by
  unfold callMethod
  refine bind_of_ok (recorded_of_ok (h := h) (fun st' hst' => ?_) hreply)
  rw [dispatch, hst', hanswer]

/-- A call with JSON is answered with a text that says what it comes to, and leaves that text
behind. The call takes as long as the method. -/
theorem exists_jsonCall (now : Nat) {r : Http.Request} {args : Dict String String}
    (hargs : r.args? = some args)
    (hbranch : branchOf h args = .call input)
    {run : Except String h.method.output.Data × Progress}
    (hrun : h.outcome (s.stage connection st.requests) (jsonRequest h r args) .json = run)
    (hfits : h.FitsJson s.settings.limits (layoutOf s.settings.debugJson args) run.1) :
    ∃ written, jsonCall s connection now h r st =
      .ok ((Presentation.ofArgs args).json (Utf8.ofString (Json.render written (h.said run.1)))
          run.2.context.outbox,
        (st.delayed s args).behind s (s.later now (s.delay args)) h .json input run.2.elapsed
          (h.succeeds run.1) (Json.render written (h.said run.1))) := by
  subst hrun
  obtain ⟨written, hreply⟩ := Handler.exists_reply_json hfits
  have hanswer := h.process_eq_answerOf (s.stage connection (st.delayed s args).requests)
    (jsonRequest h r args) .json (layoutOf s.settings.debugJson args)
  have hcall := callMethod_of_answer (s.later now (s.delay args)) (st.delayed s args) hanswer hreply
  rw [Utf8.toStringLossy_ofString, inputOf_of_branchOf hbranch] at hcall
  have hbranched := jsonCall_eq s connection now h st hargs
  rw [hbranch] at hbranched
  exact ⟨written, hbranched.trans hcall⟩

end Switchboard.Server
