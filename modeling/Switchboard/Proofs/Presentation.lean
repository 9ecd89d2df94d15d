import Switchboard.Proofs.Answers
import Switchboard.Proofs.Mock
import Switchboard.Proofs.Recorded
import Switchboard.Proofs.Tracking

/-!
# Presentation

Three arguments of a call with JSON are about the looks of its answer: `d` lays it out, `callback`
wraps it in a call of a function, and `header` sends it alone. Two calls that differ in nothing else
are followed side by side. Their contexts are alike from the first to the last if the method does
not heed these arguments (`Context.Alike`, `Method.Heedless`), so both come to the same, and each
answer is a text that says it in a layout of its own. What is left behind differs in nothing but how
long the calls took and how the result is written (`State.Alike`). `presented_alike` puts this
together for whole requests, whether the method is called or an error is sent in its place.
-/

namespace Switchboard

/-! ## Callers alike -/

/-- The arguments about the looks of the answer. -/
def looks : List String := ["d", "callback", "header"]

/-- Whether arguments are the same apart from those about the looks of the answer. -/
def ArgsAlike (args args' : Dict String String) : Prop :=
  ∀ name, name ∉ looks → args.get? name = args'.get? name

theorem argsAlike_of_erase {args args' : Dict String String}
    (h : looks.foldl Dict.erase args = looks.foldl Dict.erase args') : ArgsAlike args args' := by
  intro name hname
  rw [← Dict.get?_foldl_erase args looks name hname, h, Dict.get?_foldl_erase _ _ _ hname]

/-- Whether contexts are the same apart from the arguments about the looks of the answer and as far
as headers are to be told apart. -/
structure Context.Alike (near : Headers → Headers → Prop) (c c' : Context) : Prop where
  connection : c.connection = c'.connection
  referrer : c.referrer = c'.referrer
  cookies : c.cookies = c'.cookies
  headers : near c.headers c'.headers
  args : ArgsAlike c.args c'.args
  internal : c.internal = c'.internal
  settings : c.settings = c'.settings
  outbox : c.outbox = c'.outbox

/-- Whether a computation has the same result for contexts alike, and leaves them alike. -/
def Stage.Alike {α : Type} (near : Headers → Headers → Prop) (m : Stage α) : Prop :=
  ∀ p p', p.context.Alike near p'.context →
    (m p).1 = (m p').1 ∧ (m p).2.context.Alike near (m p').2.context

/-- Whether neither the real call of a method nor its canned output depends on the arguments about
the looks of the answer. -/
structure Method.Heedless (near : Headers → Headers → Prop) (m : Method) (d : Dispatch) :
    Prop where
  call : ∀ data, Stage.Alike near (d.perform (m.call data))
  mock : ∀ kind data, Stage.Alike near (d.perform (m.mock kind data))

section

variable {near : Headers → Headers → Prop} {α β : Type} {d : Dispatch} {c c' : Context}

theorem Stage.Alike.pure (a : α) : Stage.Alike near (pure a) := fun _ _ h => ⟨rfl, h⟩

theorem Stage.Alike.bind {m : Stage α} {f : α → Stage β} (hm : Stage.Alike near m)
    (hf : ∀ a, Stage.Alike near (f a)) : Stage.Alike near (m >>= f) := by
  intro p p' hp
  obtain ⟨hresult, hcontext⟩ := hm p p' hp
  have hnext : (m >>= f) p' = f (m p).1 (m p').2 := by
    rw [hresult]
    rfl
  rw [hnext]
  exact hf (m p).1 (m p).2 (m p').2 hcontext

namespace Method.Heedless

variable {m : Method}

theorem follow (h : m.Heedless near d) (name : String) (data : m.input.Data)
    (selection : Option String) : Stage.Alike near (d.perform (m.follow name data selection)) := by
  unfold Method.follow
  cases selection.filter (!·.isEmpty) with
  | none => exact h.call data
  | some kind =>
    unfold Dispatch.perform
    rw [Action.perform_bind]
    refine (h.mock kind data).bind fun outcome => ?_
    cases outcome with
    | success output => exact .pure _
    | failure => exact .pure _
    | unimplemented => exact h.call data

/-- A run follows the same selection for contexts alike. -/
theorem run (h : m.Heedless near d) (name : String) (data : m.input.Data) :
    Stage.Alike near (d.perform (m.run name data)) := by
  intro p p' hp
  have hselect : Mock.select p.context.args name = Mock.select p'.context.args name := by
    unfold Mock.select
    rw [hp.args "mock" (by decide)]
  unfold Dispatch.perform
  rw [perform_run_eq_follow, perform_run_eq_follow, hselect]
  exact h.follow name data _ p p' hp

end Method.Heedless

/-- Callers alike are issued the same session. -/
theorem Context.Alike.ensureSession (h : c.Alike near c') (fresh : String) :
    (c.ensureSession fresh).Alike near (c'.ensureSession fresh) := by
  have hsession : c.session? = c'.session? := by
    unfold Context.session?
    rw [h.cookies, h.settings]
  unfold Context.ensureSession
  rw [hsession]
  split
  · exact h
  · refine { h with cookies := ?_, outbox := ?_ }
    · show c.cookies.insert c.settings.cookieName fresh = _
      rw [h.cookies, h.settings]
      rfl
    · show c.outbox ++ [_] = c'.outbox ++ [_]
      rw [h.outbox, h.settings]

/-- Calls of a heedless method with the same input for contexts alike come to the same. -/
theorem Handler.outcome_alike {h : Handler} {r r' : Request} (hmethod : h.method.Heedless near d)
    (hpayload : r.payload = r'.payload) (hcontext : (d.context r).Alike near (d.context r'))
    (protocol : Protocol) : (h.outcome d r protocol).1 = (h.outcome d r' protocol).1 ∧
      (h.outcome d r protocol).2.context.outbox = (h.outcome d r' protocol).2.context.outbox := by
  unfold Handler.outcome
  rw [hpayload]
  cases h.method.input.read? protocol r'.payload with
  | none => exact ⟨rfl, rfl⟩
  | some input =>
    obtain ⟨hresult, hafter⟩ :=
      hmethod.run h.name input ⟨d.context r, 0, []⟩ ⟨d.context r', 0, []⟩ hcontext
    have hinvoke (r : Request) : h.invoke d r input =
        d.perform (h.method.run h.name input) ⟨d.context r, 0, []⟩ := rfl
    dsimp only
    rw [hinvoke, hinvoke]
    exact ⟨hresult, hafter.outbox⟩

end

/-! ## States alike -/

/-- Whether trackers are the same apart from how long calls took. -/
structure Tracker.Alike (t t' : Tracker) : Prop where
  nextId : t.nextId = t'.nextId
  pending : t.pending = t'.pending
  started : t.started = t'.started
  counts : ∀ name, (t.stats.get? name).map Stat.count = (t'.stats.get? name).map Stat.count

theorem Tracker.Alike.refl (t : Tracker) : t.Alike t := ⟨rfl, rfl, rfl, fun _ => rfl⟩

/-- However long a call took, it is counted once. -/
theorem Tracker.finish_alike (t : Tracker) (now now' id : Nat) :
    (t.finish now id).Alike (t.finish now' id) := by
  unfold finish
  cases t.pending.get? id with
  | none => exact .refl t
  | some call =>
    refine ⟨rfl, rfl, rfl, fun name => ?_⟩
    show ((t.stats.insert _ _).get? name).map _ = ((t.stats.insert _ _).get? name).map _
    rw [Dict.get?_insert, Dict.get?_insert]
    split
    · rw [Option.map_some, Option.map_some, Stat.count_merge_single, Stat.count_merge_single]
    · rfl

namespace Recorder

variable {ended : Nat} {name : String} {before after : Recorder × Files}

/-- Whether a recorder and its files are as they were, or one result has been recorded, at a reading
of the clock. -/
def Follows (ended : Nat) (name : String) (before after : Recorder × Files) : Prop :=
  after = before ∨ ∃ success text, after = before.1.recordOutput ended name success text before.2

/-- Whether results are written to the end of a trail. -/
def WritesTo (r : Recorder) (trail : Trail) : Prop :=
  ∃ recording w, r.recording = some recording ∧ recording.output = some w ∧ w.trail = trail

/-- A result leaves the writer of the inputs and all other files alone. -/
theorem Follows.inputs (h : Follows ended name before after) :
    after.1.recording.map (·.input) = before.1.recording.map (·.input) ∧
      ∀ trail, ¬ before.1.WritesTo trail →
        after.2.contents.get? trail = before.2.contents.get? trail := by
  obtain ⟨r, fs⟩ := before
  rcases h with rfl | ⟨success, text, rfl⟩
  · exact ⟨rfl, fun _ _ => rfl⟩
  · unfold recordOutput
    dsimp only
    cases hrecording : r.recording with
    | none =>
      dsimp only
      exact ⟨by rw [hrecording], fun _ _ => rfl⟩
    | some recording =>
      dsimp only
      cases houtput : recording.output with
      | none =>
        dsimp only
        exact ⟨by rw [hrecording], fun _ _ => rfl⟩
      | some w =>
        dsimp only
        split
        · refine ⟨rfl, fun trail hother => ?_⟩
          have hne : w.trail ≠ trail := fun heq => hother ⟨recording, w, hrecording, houtput, heq⟩
          show (fs.contents.insert w.trail _).get? trail = _
          rw [Dict.get?_insert, if_neg fun heq => hne (Std.LawfulEqCmp.eq_of_compare heq).symm]
        · exact ⟨by rw [hrecording], fun _ _ => rfl⟩

end Recorder

namespace Server

variable {s : Server} {connection : Connection} {now : Nat} {h : Handler} {st st' : State}
  {near : Headers → Headers → Prop} {q q' : Http.Request} {args args' : Dict String String}
  {raw : RawRequest} {before : Recorder × Files}

/-- The reading of the clock in a state, if it was at `now` when so many milliseconds were spent. -/
def State.clock (st : State) (s : Server) (spent now : Nat) : Nat :=
  s.later now (st.elapsed - spent)

/-- Whether states are the same apart from how long calls took and how a result was written. Before
the result they had one recorder and one set of files, and the result is recorded when the call has
ended. -/
structure State.Alike (s : Server) (spent now : Nat) (name : String)
    (before : Recorder × Files) (st st' : State) : Prop where
  tracker : st.tracker.Alike st'.tracker
  follows : Recorder.Follows (st.clock s spent now) name before (st.recorder, st.files)
  follows' : Recorder.Follows (st'.clock s spent now) name before (st'.recorder, st'.files)
  lifecycle : st.lifecycle = st'.lifecycle
  connections : st.connections = st'.connections
  requests : st.requests = st'.requests

/-- **Inputs are captured alike.** States alike write the inputs in the same way, and have the same
files but for the results. -/
theorem State.Alike.inputs {spent : Nat} {name : String}
    (halike : State.Alike s spent now name before st st') :
    st.recorder.recording.map (·.input) = st'.recorder.recording.map (·.input) ∧
      ∀ trail, ¬ before.1.WritesTo trail →
        st.files.contents.get? trail = st'.files.contents.get? trail := by
  obtain ⟨hinput, hfiles⟩ := halike.follows.inputs
  obtain ⟨hinput', hfiles'⟩ := halike.follows'.inputs
  exact ⟨hinput.trans hinput'.symm, fun trail hother =>
    (hfiles trail hother).trans (hfiles' trail hother).symm⟩

/-- The recorder and the files in front of the result of a call with JSON, if it has one. -/
def State.noticed (st : State) (now : Nat) (h : Handler) : Branch → Recorder × Files
  | .call input => st.noted now h input
  | _ => (st.recorder, st.files)

theorem State.follows_captured (st : State) (now ended : Nat) (h : Handler) (input : String)
    (success : Bool) (shown : String) :
    Recorder.Follows ended h.name (st.noted now h input)
      (st.captured now ended h input success shown) := by
  unfold State.captured
  cases st.records now h with
  | false => exact .inl rfl
  | true => exact .inr ⟨success, shown, rfl⟩

/-- However long a call took and however its result is written, the states behind it are alike. -/
theorem State.behind_alike (st : State) (s : Server) (args : Dict String String) (now : Nat)
    (h : Handler) (protocol : Protocol) (input : String) (elapsed elapsed' : Nat)
    (success success' : Bool) (shown shown' : String) :
    let told := s.later now (s.delay args)
    State.Alike s st.elapsed now h.name (st.noted told h input)
      ((st.delayed s args).behind s told h protocol input elapsed success shown)
      ((st.delayed s args).behind s told h protocol input elapsed' success' shown') := by
  intro told
  have hclock (elapsed : Nat) (success : Bool) (shown : String) :
      ((st.delayed s args).behind s told h protocol input elapsed success shown).clock
        s st.elapsed now = s.later told elapsed := by
    have hspent : st.elapsed + s.delay args + elapsed - st.elapsed = s.delay args + elapsed := by
      omega
    show now + (st.elapsed + s.delay args + elapsed - st.elapsed) * s.world.pace =
      now + s.delay args * s.world.pace + elapsed * s.world.pace
    rw [hspent, Nat.add_mul, Nat.add_assoc]
  have hfollows (elapsed : Nat) (success : Bool) (shown : String) :=
    (st.delayed s args).follows_captured told (s.later told elapsed) h input success shown
  refine ⟨Tracker.finish_alike _ _ _ _, ?_, ?_, rfl, rfl, rfl⟩
  · rw [hclock]
    exact hfollows elapsed success shown
  · rw [hclock]
    exact hfollows elapsed' success' shown'

/-! ## Calls alike -/

/-- Whether requests say the same about their caller, as far as headers are to be told apart. -/
structure SameVisitor (near : Headers → Headers → Prop) (q q' : Http.Request) : Prop where
  referrer : q.referrer = q'.referrer
  cookie : q.cookie = q'.cookie
  userAgent : q.userAgent = q'.userAgent
  headers : near q.headers q'.headers

theorem context_alike (d : Dispatch) (h : Handler) (hvisitor : SameVisitor near q q')
    (hargs : ArgsAlike args args') :
    (d.context (jsonRequest h q args)).Alike near (d.context (jsonRequest h q' args')) := by
  unfold Dispatch.context Context.ofRequest
  refine Context.Alike.ensureSession ?_ _
  refine ⟨rfl, hvisitor.referrer, ?_, hvisitor.headers, hargs, ?_, rfl, rfl⟩
  · show Cookie.read q.cookie = Cookie.read q'.cookie
    rw [hvisitor.cookie]
  · show Context.isInternal _ q.headers = Context.isInternal _ q'.headers
    have hagent : q.headers.getD "user-agent" = q'.headers.getD "user-agent" := hvisitor.userAgent
    unfold Context.isInternal
    rw [hagent]

theorem branchOf_alike (hargs : ArgsAlike args args') : branchOf h args = branchOf h args' := by
  unfold branchOf hasInput inputOf Dict.contains
  rw [hargs "q" (by decide), hargs "no_input" (by decide), hargs "e" (by decide)]

theorem delay_alike (s : Server) (hargs : ArgsAlike args args') : s.delay args = s.delay args' := by
  unfold delay
  rw [hargs "y" (by decide)]

theorem payload_alike (hargs : ArgsAlike args args') :
    (jsonRequest h q args).payload = (jsonRequest h q' args').payload := by
  show Utf8.ofString (inputOf args) = Utf8.ofString (inputOf args')
  unfold inputOf
  rw [hargs "q" (by decide)]

/-- Two calls with JSON that differ in the looks of their answers are answered with texts of one
value, and leave behind states alike. -/
theorem jsonCall_alike (now : Nat) (st : State) (hq : q.args? = some args)
    (hq' : q'.args? = some args') (hvisitor : SameVisitor near q q') (hargs : ArgsAlike args args')
    (hmethod : h.method.Heedless near (s.stage connection st.requests))
    (hfits : ∀ input, branchOf h args = .call input → ∀ layout, h.FitsJson s.settings.limits layout
      (h.outcome (s.stage connection st.requests) (jsonRequest h q args) .json).1) :
    ∃ body body' j cookies st₁ st₂,
      jsonCall s connection now h q st =
        .ok ((Presentation.ofArgs args).json (Utf8.ofString body) cookies, st₁) ∧
      jsonCall s connection now h q' st =
        .ok ((Presentation.ofArgs args').json (Utf8.ofString body') cookies, st₂) ∧
      Json.ofText? body = some j ∧ Json.ofText? body' = some j ∧
      State.Alike s st.elapsed now h.name
        (st.noticed (s.later now (s.delay args)) h (branchOf h args)) st₁ st₂ := by
  have hcall := jsonCall_eq s connection now h st hq
  have hcall' := jsonCall_eq s connection now h st hq'
  have hsays (message : String) := Json.ofText?_render .pretty (.ofMessage message)
  rw [← branchOf_alike hargs] at hcall'
  cases hbranch : branchOf h args with
  | call input =>
    have hbranch' : branchOf h args' = .call input := by rw [← branchOf_alike hargs, hbranch]
    obtain ⟨hresult, houtbox⟩ := Handler.outcome_alike hmethod (payload_alike hargs)
      (context_alike (s.stage connection st.requests) h hvisitor hargs) .json
    have hfits' := hfits input hbranch (layoutOf s.settings.debugJson args')
    rw [hresult] at hfits'
    obtain ⟨written, hrun⟩ := exists_jsonCall now hq hbranch rfl (hfits input hbranch _)
    obtain ⟨written', hrun'⟩ := exists_jsonCall now hq' hbranch' rfl hfits'
    have hdelayed : st.delayed s args' = st.delayed s args := by
      unfold State.delayed
      rw [delay_alike s hargs]
    rw [← hresult, ← houtbox, hdelayed, ← delay_alike s hargs] at hrun'
    exact ⟨_, _, _, _, _, _, hrun, hrun', Json.ofText?_render _ _, Json.ofText?_render _ _,
      st.behind_alike s args now h .json input _ _ _ _ _ _⟩
  -- an error is sent in place of a call, and it is the same text both times
  | _ =>
    rw [hbranch] at hcall hcall'
    dsimp only at hcall hcall'
    rw [Handler.jsonError_eq] at hcall hcall'
    exact ⟨_, _, _, [], _, _, hcall, hcall', hsays _, hsays _,
      .refl _, .inl rfl, .inl rfl, rfl, rfl, rfl⟩

/-! ## What the caller is sent -/

/-- The function in a call of which arguments want the answer. -/
def callback? (args : Dict String String) : Option String :=
  (args.get? "callback").filter (!·.isEmpty)

/-- A text in a call of a function, if one is named. -/
def wrapped : Option String → String → String
  | some callback, body => callback ++ "(" ++ body ++ ");"
  | none, body => body

/-- What is sent for a text and some cookies. -/
structure Presents (q : Http.Request) (args : Dict String String) (body : String)
    (cookies : List String) (processed : Processed) : Prop where
  /-- Unless arguments ask for a body alone, it comes with a head. -/
  response : args.get? "header" = none ∨ args.get? "header" = some "1" →
    processed = ⟨Http.Response.toBytes
      { status := 200
        contentType := (if (callback? args).isSome then "application/javascript"
          else "application/json") ++ "; charset=utf-8"
        body := Utf8.ofString (wrapped (callback? args) body)
        cookies := cookies
        maxAge := 0
        keepAlive := q.keepAlive }, q.keepAlive⟩
  /-- A body alone ends with the connection. -/
  bare : ∀ value, args.get? "header" = some value → value ≠ "1" →
    processed = ⟨Utf8.ofString (wrapped (callback? args) body), false⟩

theorem wrap_ofString (callback : Option String) (body : String) :
    Routed.wrap callback (Utf8.ofString body) = Utf8.ofString (wrapped callback body) := by
  cases callback with
  | none => rfl
  | some name =>
    unfold Routed.wrap wrapped
    unfold Utf8.ofString
    simp only [String.toList_append, Utf8.encode_append]

/-- The answer in a presentation is sent as its arguments want it. -/
theorem presents (q : Http.Request) (args : Dict String String) (body : String)
    (cookies : List String) : Presents q args body cookies
      (processedHttp q ((Presentation.ofArgs args).json (Utf8.ofString body) cookies)) := by
  have hwrap := wrap_ofString (callback? args) body
  constructor
  · intro hheader
    have hbare : (Presentation.ofArgs args).bare = false := by
      unfold Presentation.ofArgs
      rcases hheader with hheader | hheader
      · rw [hheader]
      · rw [hheader]
        rfl
    unfold Presentation.json Routed.json
    rw [hbare, ← hwrap]
    rfl
  · intro value hheader hvalue
    have hbare : (Presentation.ofArgs args).bare = true := by
      unfold Presentation.ofArgs
      rw [hheader]
      exact bne_iff_ne.2 hvalue
    unfold Presentation.json Routed.json
    rw [hbare, ← hwrap]
    rfl

/-! ## Whole requests -/

/-- Whether a request is an HTTP request for a method, with some arguments. -/
structure Calls (s : Server) (h : Handler) (raw : RawRequest) (q : Http.Request)
    (args : Dict String String) : Prop where
  framing : raw.framing = .http
  reads : Http.Request.ofBytes? raw.bytes = some q
  route : Route.of? q.methodName = none
  handler : s.registry.get? q.methodName = some h
  args : q.args? = some args

theorem Calls.process (hcalls : s.Calls h raw q args) :
    s.process connection now raw st =
      (processedHttp q <$> jsonCall s connection now h q)
        { st with requests := st.requests + 1 } := by
  rw [process_of_ofBytes? s connection now st hcalls.framing hcalls.reads]
  unfold Server.route
  rw [hcalls.route, hcalls.handler]

/-- **Presentation.** Two HTTP requests call one method, with arguments that differ in nothing but
the looks of the answer. They take the same branch, and are answered with texts of one value and
with the same cookies, each as its arguments want it. What they leave behind is alike: an input is
recorded when the delay is over, and a result when the call ends. The server is in one state before
both, so a session that is new is the same in both answers. -/
theorem presented_alike (s : Server) (connection : Connection) (now : Nat) (st : State)
    {h : Handler} {near : Headers → Headers → Prop} {raw raw' : RawRequest} {q q' : Http.Request}
    {args args' : Dict String String} (hcalls : s.Calls h raw q args)
    (hcalls' : s.Calls h raw' q' args') (hvisitor : SameVisitor near q q')
    (hargs : ArgsAlike args args')
    (hmethod : h.method.Heedless near (s.stage connection (st.requests + 1)))
    {result : Except String h.method.output.Data}
    (hresult : (h.outcome (s.stage connection (st.requests + 1)) (jsonRequest h q args) .json).1 =
      result)
    (hfits : ∀ input, branchOf h args = .call input →
      ∀ layout, h.FitsJson s.settings.limits layout result) :
    branchOf h args = branchOf h args' ∧
      ∃ body body' j cookies processed processed' st₁ st₂,
        s.process connection now raw st = .ok (processed, st₁) ∧
        s.process connection now raw' st = .ok (processed', st₂) ∧
        Presents q args body cookies processed ∧ Presents q' args' body' cookies processed' ∧
        Json.ofText? body = some j ∧ Json.ofText? body' = some j ∧
        State.Alike s st.elapsed now h.name
          (st.noticed (s.later now (s.delay args)) h (branchOf h args)) st₁ st₂ := by
  subst hresult
  obtain ⟨body, body', j, cookies, st₁, st₂, hrun, hrun', hsays, hsays', halike⟩ :=
    jsonCall_alike now { st with requests := st.requests + 1 } hcalls.args hcalls'.args hvisitor
      hargs hmethod hfits
  refine ⟨branchOf_alike hargs, body, body', j, cookies, _, _, st₁, st₂, ?_, ?_,
    presents q args body cookies, presents q' args' body' cookies, hsays, hsays', ?_⟩
  · rw [hcalls.process, map_eq_pure_bind]
    exact bind_of_ok hrun
  · rw [hcalls'.process, map_eq_pure_bind]
    exact bind_of_ok hrun'
  · exact halike

theorem perform_addUnlessAsked (network : Network) (cascades : Cascades) (p : Progress)
    (pair : Sample.Pair) : (Sample.Gallery.addUnlessAsked pair).perform network cascades p =
      (if p.context.args.contains "explode" then .error "asked to fail" else Sample.add pair,
        p) := by
  show (if p.context.args.contains "explode" then _ else _ : Action _).perform _ _ p = _
  split <;> rfl

/-- The method that adds looks at one argument only. -/
theorem heedless_sum (near : Headers → Headers → Prop) (d : Dispatch) :
    Sample.Gallery.sum.Heedless near d := by
  constructor
  · intro data
    show Stage.Alike near ((Sample.Gallery.addUnlessAsked (Payload.ofData data) >>= fun result =>
      pure (result.map Payload.toData)).perform _ _)
    rw [Action.perform_bind]
    refine Stage.Alike.bind (fun p p' hp => ?_) fun _ => .pure _
    rw [perform_addUnlessAsked, perform_addUnlessAsked]
    unfold Dict.contains
    rw [hp.args "explode" (by decide)]
    exact ⟨rfl, hp⟩
  · intro kind data
    exact .pure _

/-- A sum is asked for twice, once as a laid out call of a function and once as a body alone. -/
theorem presented_alike_sum :
    let s := host "add" (Sample.Gallery.add "ADD")
    let connection : Connection := ⟨1, ⟨.v4 127 0 0 1, 80⟩⟩
    let sum := "q=%7B%22a%22%3A1%2C%22b%22%3A10%7D"
    let call : RawRequest :=
      ⟨.http, Utf8.ofString ("GET /add?" ++ sum ++ "&callback=cb&d=1 HTTP/1.0\n\n"), true⟩
    let bare : RawRequest :=
      ⟨.http, Utf8.ofString ("GET /add?header=0&" ++ sum ++ " HTTP/1.0\n\n"), true⟩
    ∃ body body' j cookies st₁ st₂,
      s.process connection 5 call (s.start 0 .empty) = .ok (⟨Http.Response.toBytes
        ⟨200, "application/javascript; charset=utf-8", Utf8.ofString ("cb(" ++ body ++ ");"),
          cookies, 0, false⟩, false⟩, st₁) ∧
      s.process connection 5 bare (s.start 0 .empty) = .ok (⟨Utf8.ofString body', false⟩, st₂) ∧
      Json.ofText? body = some j ∧ Json.ofText? body' = some j ∧
      st₁.tracker.Alike st₂.tracker := by
  intro s connection sum call bare
  let h := Sample.Gallery.add "ADD"
  let input := "\x7b\"a\":1,\"b\":10\x7d"
  let q := (⟨.get, "/add", sum ++ "&callback=cb&d=1", ∅, []⟩ : Http.Request)
  let q' := (⟨.get, "/add", "header=0&" ++ sum, ∅, []⟩ : Http.Request)
  let args : Dict String String := Dict.ofList [("q", input), ("callback", "cb"), ("d", "1")]
  let args' : Dict String String := Dict.ofList [("header", "0"), ("q", input)]
  have hget : (host "add" (Sample.Gallery.add "ADD")).registry.get? "add" =
      some (Sample.Gallery.add "ADD") := rfl
  have hname : q.methodName = "add" := by decide +kernel
  have hname' : q'.methodName = "add" := by decide +kernel
  have hroute : Route.of? "add" = none := by decide +kernel
  have hcalls : s.Calls h call q args := by
    refine ⟨rfl, ?_, hname ▸ hroute, hname ▸ hget, ?_⟩
    · decide +kernel
    · decide +kernel
  have hcalls' : s.Calls h bare q' args' := by
    refine ⟨rfl, ?_, hname' ▸ hroute, hname' ▸ hget, ?_⟩
    · decide +kernel
    · decide +kernel
  have hargs : ArgsAlike args args' := argsAlike_of_erase (by decide +kernel)
  have hvisitor : SameVisitor Eq q q' := ⟨rfl, rfl, rfl, rfl⟩
  have hmethod : h.method.Heedless Eq (s.stage connection 1) := heedless_sum _ _
  have hbranch : branchOf h args = .call input := by decide +kernel
  let output : h.method.output.Data := (11 : Int64)
  have hresult : (h.outcome (s.stage connection 1) (jsonRequest h q args) .json).1 =
      .ok output := by
    decide +kernel
  have hsmall : ∀ layout j, h.method.output.toJson output = .ok j →
      (Utf8.ofString (Json.render layout j)).length ≤ s.settings.limits.json := by
    intro layout j hj
    cases hj
    cases layout <;> decide +kernel
  obtain ⟨-, body, body', j, cookies, processed, processed', st₁, st₂, hrun, hrun', hpresents,
    hpresents', hsays, hsays', halike⟩ := presented_alike s connection 5 (s.start 0 .empty) hcalls
      hcalls' hvisitor hargs hmethod hresult
      fun _ _ layout => hsmall layout
  have hcallback : callback? args = some "cb" := by decide +kernel
  have hcallback' : callback? args' = none := by decide +kernel
  have hheaded := hpresents.response (.inl (by decide +kernel))
  have hbare := hpresents'.bare "0" (by decide +kernel) (by decide)
  have hclose : q.keepAlive = false := by decide +kernel
  rw [hcallback, hclose] at hheaded
  rw [hcallback'] at hbare
  subst hheaded hbare
  exact ⟨body, body', j, cookies, st₁, st₂, hrun, hrun', hsays, hsays', halike.tracker⟩

end Server

end Switchboard
