import Switchboard.Proofs.Client
import Switchboard.Proofs.Noted
import Switchboard.Proofs.Tracker

/-!
# Tracked calls

A server begins a call in its tracker before it asks a handler, and ends it behind that. Between the
two it does nothing with the tracker, so what is left of a call is one more among the finished calls
of its method (`Tracker.Counts`), and everything else in the tracker is as it was.

`Reaches` says of a request, without running anything, which handler is to be asked and in which
protocol. `Accounted` says what a step may leave behind, by what is noted in it: if nobody is asked,
neither the tracker nor a line of a file is touched; if a handler is asked, one call is counted, or
the step fails over the size of what the handler has answered. That the two belong together is
proved branch by branch, in the order in which the steps are built from one another
(`accounts_frame` to `accounts_process`), and for a run of many requests by induction
(`tallies_processAll`).
-/

namespace Switchboard

/-! ## A call that begins and ends -/

namespace Tracker

/-- Whether no pending call has the next number or a later one. -/
def Numbered (t : Tracker) : Prop := ∀ e ∈ t.pending.toList, e.1 < t.nextId

/-- How many calls of a method have ended. -/
def count (t : Tracker) (name : String) : Nat := ((t.stats.get? name).getD .none).count

/-- Whether a tracker is another one after one more call of a method. -/
structure Counts (t : Tracker) (name : String) (t' : Tracker) : Prop where
  pending : t'.pending = t.pending
  nextId : t'.nextId = t.nextId + 1
  total : t'.total = t.total + 1
  count : t'.count name = t.count name + 1
  others : ∀ other, other ≠ name → t'.stats.get? other = t.stats.get? other

variable {t t' : Tracker} {name : String}

/-- The tracker of any history gives a number only once. -/
theorem numbered_run (now : Nat) (events : List Event) : ((new now).run events).Numbered := by
  intro e he
  exact (shows_run now events).id_lt he

/-- The number for the next call is nobody's yet. -/
theorem Numbered.get?_nextId (h : t.Numbered) : t.pending.get? t.nextId = none := by
  rw [Option.eq_none_iff_forall_ne_some]
  intro call hcall
  have hlt := h _ (Dict.get?_eq_some_iff.1 hcall)
  omega

theorem Counts.numbered (h : Counts t name t') (ht : t.Numbered) : t'.Numbered := by
  intro e he
  rw [h.pending] at he
  have hlt := ht e he
  rw [h.nextId]
  omega

/-- A call that begins and ends is one more finished call, and nothing else. -/
theorem counts_finish_begin (h : t.Numbered) (now later : Nat) (name : String)
    (protocol : Protocol) (input : String) :
    Counts t name ((t.begin now name protocol input).2.finish later
      (t.begin now name protocol input).1) := by
  have hget : (t.begin now name protocol input).2.pending.get? t.nextId =
      some ⟨name, protocol, now, input⟩ := by
    simp [begin]
  show Counts t name ((t.begin now name protocol input).2.finish later t.nextId)
  rw [finish_of_get?_eq_some later hget]
  refine ⟨?_, rfl, ?_, ?_, ?_⟩
  · show (t.pending.insert t.nextId _).erase t.nextId = t.pending
    rw [Dict.erase_insert, Dict.erase_of_get?_eq_none h.get?_nextId]
  · rw [total_eq_sum, total_eq_sum]
    exact total_insert_merge _ _ _
  · simp [count, begin, Stat.count_merge_single]
  · intro other hother
    simp [begin, hother]

end Tracker

/-! ## Files that are not written to -/

/-- Whether no file of some has got a line that it did not have: each is empty or as it was. -/
def Files.Unwritten (files files' : Files) : Prop :=
  ∀ trail bytes, files'.contents.get? trail = some bytes →
    bytes = [] ∨ files.contents.get? trail = some bytes

namespace Files.Unwritten

theorem refl (files : Files) : Unwritten files files := fun _ _ h => .inr h

theorem trans {files files' files'' : Files} (h : Unwritten files files')
    (h' : Unwritten files' files'') : Unwritten files files'' := by
  intro trail bytes hget
  rcases h' trail bytes hget with hempty | hget'
  · exact .inl hempty
  · exact h trail bytes hget'

/-- Creating a file empties it and leaves the others alone. -/
theorem create? {files files' : Files} {path : String} {trail : Trail}
    (h : files.create? path = some (trail, files')) : Unwritten files files' := by
  unfold Files.create? at h
  rw [Option.bind_eq_bind, Option.bind_eq_some_iff] at h
  obtain ⟨found, -, h⟩ := h
  split at h
  · cases h
  · cases h
    intro other bytes hget
    rw [Dict.get?_insert] at hget
    split at hget
    · exact .inl (Option.some.inj hget).symm
    · exact .inr hget

/-- The file of outputs is created like any other, if there is to be one. -/
theorem createOutput {files files' : Files} {path : Option String} {output : Option Writer}
    (h : Recorder.createOutput files path = some (output, files')) : Unwritten files files' := by
  cases path with
  | none =>
    cases h
    exact refl files
  | some path =>
    obtain ⟨⟨trail, created⟩, hcreate, h⟩ := Option.map_eq_some_iff.1 h
    cases h
    exact create? hcreate

/-- Files are emptied when a recording starts, and nothing is written to them. -/
theorem start (r : Recorder) (now : Nat) (files : Files) :
    Unwritten files (r.start now files).2.2 := by
  unfold Recorder.start
  split
  · exact refl files
  · rename_i trail created hcreate
    split
    · exact create? hcreate
    · rename_i output files' houtput
      exact (create? hcreate).trans (createOutput houtput)

end Files.Unwritten

/-! ## Requests that reach a handler -/

namespace Server

/-- Whether a frame reaches a handler: there is a request in it, for the method of the handler. -/
def FrameReaches (s : Server) (frame : Bytes) (h : Handler) : Prop :=
  ∃ request : Request, Frame.value frame = .ok request ∧ s.registry.get? request.name = some h

/-- Whether an HTTP request reaches a handler as a call with JSON: it is for none of the server's
own paths but for the method of the handler, its arguments can be read, there is an input among them
or the method can do without one, and they do not ask for an error. -/
def JsonReaches (s : Server) (q : Http.Request) (h : Handler) : Prop :=
  Route.of? q.methodName = none ∧ s.registry.get? q.methodName = some h ∧
    ∃ args, q.args? = some args ∧
      (args.contains "q" ∨ args.contains "no_input" ∨ h.method.allowEmpty) ∧ ¬args.contains "e"

/-- Whether a request reaches a handler, and in which protocol. -/
inductive Reaches (s : Server) (r : RawRequest) : Handler → Protocol → Prop
  /-- In a frame. -/
  | frame {h : Handler} : r.framing = .binary → FrameReaches s r.bytes h → Reaches s r h .binary
  /-- In a frame that comes inside an HTTP request. -/
  | tunnel {h : Handler} {q : Http.Request} : r.framing = .http →
      Http.Request.ofBytes? r.bytes = some q → q.methodName = "_rpc" →
      FrameReaches s q.body h → Reaches s r h .binary
  /-- In a call with JSON. -/
  | json {h : Handler} {q : Http.Request} : r.framing = .http →
      Http.Request.ofBytes? r.bytes = some q → JsonReaches s q h → Reaches s r h .json

/-! ## What steps leave behind -/

section

variable {α β : Type} {st st' : State} {h : Handler} {p : Protocol}
  {R : State → State → Prop} {P Q : Handler → Protocol → Prop} {w : Noted α} {f : α → Noted β}

/-- Whether a state has the tracker of another one. -/
def SameTracker (st st' : State) : Prop := st'.tracker = st.tracker

/-- Whether a state has the tracker of another one and no new line in a file. -/
def Untouched (st st' : State) : Prop := SameTracker st st' ∧ st.files.Unwritten st'.files

/-- What the run of a step from a state may leave behind, by what is noted in it. -/
inductive Accounted (st : State) : List Invocation × Except Oversize (α × State) → Prop
  /-- Nobody is asked. -/
  | nobody {a : α} {st' : State} (h : Untouched st st') : Accounted st ([], .ok (a, st'))
  /-- A handler is asked, and a call of its method is counted. -/
  | call {i : Invocation} {a : α} {st' : State}
      (h : st.tracker.Counts i.handler.name st'.tracker) : Accounted st ([i], .ok (a, st'))
  /-- A handler is asked, and answers with more than the server is meant to send. -/
  | oversize {i : Invocation} {e : Oversize} (h : i.answer.reply = .error e) :
      Accounted st ([i], .error e)

/-- Whether nobody is asked in a step, which goes well and leads to a related state. -/
def Calm (R : State → State → Prop) (w : Noted α) : Prop :=
  ∀ st, ∃ a st', w st = ([], .ok (a, st')) ∧ R st st'

/-- Whether a handler is asked once in a step, in a protocol: a call of its method is counted, or
the step fails with what the handler has answered. -/
def Asks (h : Handler) (p : Protocol) (w : Noted α) : Prop :=
  ∀ st, st.tracker.Numbered → ∃ i, i.handler = h ∧ i.protocol = p ∧
    ((∃ a st', w st = ([i], .ok (a, st')) ∧ st.tracker.Counts h.name st'.tracker) ∨
      ∃ e, w st = ([i], .error e) ∧ i.answer.reply = .error e)

/-- Whether in a step those handlers are asked that a predicate tells, and what is left behind
agrees with it. -/
def Accounts (P : Handler → Protocol → Prop) (w : Noted α) : Prop :=
  ∀ st, st.tracker.Numbered →
    Accounted st (w st) ∧ ∀ h p, P h p ↔ ∃ i ∈ (w st).1, i.handler = h ∧ i.protocol = p

/-! ### One step behind another -/

theorem still_get_bind (m : State → Step α) (st : State) :
    Noted.still (get >>= m) st = Noted.still (m st) st := rfl

instance : Std.Refl SameTracker := ⟨fun _ => rfl⟩

instance : IsTrans State SameTracker := ⟨fun _ _ _ h h' => h'.trans h⟩

theorem Untouched.refl (st : State) : Untouched st st := ⟨rfl, .refl _⟩

theorem Untouched.trans {st₁ st₂ st₃ : State} (h : Untouched st₁ st₂) (h' : Untouched st₂ st₃) :
    Untouched st₁ st₃ :=
  ⟨h'.1.trans h.1, h.2.trans h'.2⟩

instance : Std.Refl Untouched := ⟨.refl⟩

/-- What is left behind from a state is left behind from every untouched state before it. -/
theorem Accounted.of_untouched {run : List Invocation × Except Oversize (α × State)}
    (hst : Untouched st st') (hrun : Accounted st' run) : Accounted st run := by
  cases hrun with
  | nobody hrun => exact .nobody (hst.trans hrun)
  | call hrun =>
    rw [hst.1] at hrun
    exact .call hrun
  | oversize hrun => exact .oversize hrun

namespace Calm

theorem pure [Std.Refl R] (a : α) : Calm R (return a) := fun st => ⟨a, st, rfl, Std.Refl.refl st⟩

theorem bind [IsTrans State R] (hw : Calm R w) (hf : ∀ a, Calm R (f a)) : Calm R (w >>= f) := by
  intro st
  obtain ⟨a, st₁, hrun, hst₁⟩ := hw st
  obtain ⟨b, st₂, hrun', hst₂⟩ := hf a st₁
  refine ⟨b, st₂, ?_, trans_of R hst₁ hst₂⟩
  rw [Noted.bind_of_ok hrun, hrun']
  rfl

end Calm

namespace Asks

/-- A handler is asked once if it is asked once behind a step that leaves the tracker alone. -/
theorem after (hw : Calm SameTracker w) (hf : ∀ a, Asks h p (f a)) : Asks h p (w >>= f) := by
  intro st hst
  obtain ⟨a, st₁, hrun, hsame⟩ := hw st
  have hst₁ : st₁.tracker.Numbered := by
    rw [hsame]
    exact hst
  obtain ⟨i, hi, hp, ⟨b, st₂, hask, hcounts⟩ | ⟨e, hask, he⟩⟩ := hf a st₁ hst₁
  · refine ⟨i, hi, hp, .inl ⟨b, st₂, ?_, ?_⟩⟩
    · rw [Noted.bind_of_ok hrun, hask]
      rfl
    · rw [← hsame]
      exact hcounts
  · refine ⟨i, hi, hp, .inr ⟨e, ?_, he⟩⟩
    rw [Noted.bind_of_ok hrun, hask]
    rfl

/-- So it is if such a step comes behind it. -/
theorem before (hw : Asks h p w) (hf : ∀ a, Calm SameTracker (f a)) : Asks h p (w >>= f) := by
  intro st hst
  obtain ⟨i, hi, hp, ⟨a, st₁, hask, hcounts⟩ | ⟨e, hask, he⟩⟩ := hw st hst
  · obtain ⟨b, st₂, hrun, hsame⟩ := hf a st₁
    refine ⟨i, hi, hp, .inl ⟨b, st₂, ?_, ?_⟩⟩
    · rw [Noted.bind_of_ok hask, hrun]
      rfl
    · rw [hsame]
      exact hcounts
  · exact ⟨i, hi, hp, .inr ⟨e, Noted.bind_of_error hask, he⟩⟩

end Asks

namespace Accounts

/-- Where no handler is to be asked, a step that touches nothing accounts for it. -/
theorem of_calm (hP : ∀ h p, ¬P h p) (hw : Calm Untouched w) : Accounts P w := by
  intro st _
  obtain ⟨a, st', hrun, huntouched⟩ := hw st
  rw [hrun]
  refine ⟨.nobody huntouched, ?_⟩
  intro h p
  simp [hP]

/-- Where one handler is to be asked, a step that asks it accounts for it. -/
theorem of_asks (hP : ∀ h' p', P h' p' ↔ h = h' ∧ p = p') (hw : Asks h p w) : Accounts P w := by
  intro st hst
  obtain ⟨i, rfl, rfl, ⟨a, st', hrun, hcounts⟩ | ⟨e, hrun, he⟩⟩ := hw st hst
  · rw [hrun]
    refine ⟨.call hcounts, ?_⟩
    intro h' p'
    simp [hP]
  · rw [hrun]
    refine ⟨.oversize he, ?_⟩
    intro h' p'
    simp [hP]

theorem congr (hPQ : ∀ h p, P h p ↔ Q h p) (hw : Accounts Q w) : Accounts P w := by
  intro st hst
  refine ⟨(hw st hst).1, ?_⟩
  intro h p
  rw [hPQ, (hw st hst).2]

theorem after (hw : Calm Untouched w) (hf : ∀ a, Accounts P (f a)) : Accounts P (w >>= f) := by
  intro st hst
  obtain ⟨a, st₁, hrun, huntouched⟩ := hw st
  have hst₁ : st₁.tracker.Numbered := by
    rw [huntouched.1]
    exact hst
  have hnext := hf a st₁ hst₁
  rw [Noted.bind_of_ok hrun]
  exact ⟨hnext.1.of_untouched huntouched, hnext.2⟩

theorem map (hw : Accounts P w) (g : α → β) : Accounts P (w >>= fun a => pure (g a)) := by
  intro st hst
  have hbefore := hw st hst
  rcases hrun : w st with ⟨asked, e | ⟨a, st'⟩⟩
  · rw [hrun] at hbefore
    rw [Noted.bind_of_error hrun]
    refine ⟨?_, hbefore.2⟩
    rcases hbefore.1 with _ | _ | he
    exact .oversize he
  · rw [hrun] at hbefore
    rw [Noted.bind_of_ok hrun]
    show Accounted st (asked ++ [], .ok (g a, st')) ∧
      ∀ h p, P h p ↔ ∃ i ∈ asked ++ [], i.handler = h ∧ i.protocol = p
    rw [List.append_nil]
    refine ⟨?_, hbefore.2⟩
    rcases hbefore.1 with huntouched | hcounts | _
    · exact .nobody huntouched
    · exact .call hcounts

end Accounts

/-! ## The steps of a server -/

theorem calm_recordsNow (now : Nat) (h : Handler) : Calm SameTracker (.still (recordsNow now h)) :=
  fun st => ⟨_, st, rfl, rfl⟩

theorem calm_recordInput (now : Nat) (name json : String) :
    Calm SameTracker (.still (recordInput now name json)) :=
  fun _ => ⟨_, _, rfl, rfl⟩

theorem calm_recordOutput (now : Nat) (name : String) (success : Bool) (json : String) :
    Calm SameTracker (.still (recordOutput now name success json)) :=
  fun _ => ⟨_, _, rfl, rfl⟩

theorem calm_pass (ms : Nat) : Calm SameTracker (.still (pass ms)) := fun _ => ⟨_, _, rfl, rfl⟩

/-- A file is only looked at. -/
theorem calm_staticFile (s : Server) (path : String) :
    Calm Untouched (.still (staticFile s path)) := by
  intro st
  unfold staticFile
  rw [still_get_bind]
  split
  · exact ⟨_, st, rfl, .refl st⟩
  · exact ⟨_, st, rfl, .refl st⟩

/-- Only a recording that starts changes files, and it empties them. -/
theorem calm_serveRoute (s : Server) (connection : Connection) (now : Nat) (q : Http.Request)
    {route : Route} (hroute : route ≠ .tunnel) :
    Calm Untouched (.still (serveRoute s connection now q route)) := by
  intro st
  cases route with
  | tunnel => exact absurd rfl hroute
  | startRecording =>
    exact ⟨_, _, rfl, rfl, .start _ _ _⟩
  | redirect =>
    dsimp only [serveRoute]
    split
    · exact ⟨_, st, rfl, .refl st⟩
    · exact ⟨_, st, rfl, .refl st⟩
  | validate =>
    dsimp only [serveRoute, validationText]
    rw [bind_assoc, still_get_bind]
    split
    · exact ⟨_, _, rfl, rfl, .refl _⟩
    · exact ⟨_, _, rfl, rfl, .refl _⟩
  | health =>
    dsimp only [serveRoute]
    rw [still_get_bind]
    split
    · exact ⟨_, st, rfl, .refl st⟩
    · split
      · exact ⟨_, st, rfl, .refl st⟩
      · exact ⟨_, st, rfl, .refl st⟩
  | stopRecording => exact ⟨_, _, rfl, rfl, .refl _⟩
  | shutdown kind => exact ⟨_, _, rfl, rfl, .refl _⟩
  | _ => exact ⟨_, st, rfl, .refl st⟩

/-- A call between its begin and its end. -/
theorem asks_tracked (s : Server) (now : Nat) (input : String) {invocation : State → Invocation}
    (hhandler : ∀ st, (invocation st).handler = h)
    (hprotocol : ∀ st, (invocation st).protocol = p) :
    Asks h p (notedTracked s now h.name p input invocation) := by
  intro st hst
  let began := st.tracker.begin now h.name p input
  let i := invocation { st with tracker := began.2 }
  let st' := { st with
    tracker := began.2.finish (s.later now i.answer.elapsed) began.1
    elapsed := st.elapsed + i.answer.elapsed }
  refine ⟨i, hhandler _, hprotocol _, ?_⟩
  -- what is left of the call behind the answer is its reply, if there is one
  have hrun : notedTracked s now h.name p input invocation st =
      (let rest : Noted (Reply × Nat) := do
        let reply ← Noted.still i.answer.reply
        return (reply, s.later now i.answer.elapsed)
      ([i] ++ (rest st').1, (rest st').2)) := rfl
  cases hreply : i.answer.reply with
  | ok reply =>
    rw [hreply] at hrun
    exact .inl ⟨_, st', hrun, Tracker.counts_finish_begin hst _ _ _ _ _⟩
  | error e =>
    rw [hreply] at hrun
    exact .inr ⟨e, hrun, rfl⟩

/-- Whether the input and the result of a call are recorded makes no difference. -/
theorem asks_recorded (s : Server) (now : Nat) (input : String) (shown : Reply → String)
    {invocation : State → Invocation} (hhandler : ∀ st, (invocation st).handler = h)
    (hprotocol : ∀ st, (invocation st).protocol = p) :
    Asks h p (notedRecorded s now h p input invocation shown) := by
  have hasks := asks_tracked s now input hhandler hprotocol
  apply Asks.after (calm_recordsNow now h)
  intro recording
  cases recording with
  | true =>
    apply Asks.after (calm_recordInput _ _ _)
    intro _
    apply Asks.before hasks
    intro _
    exact .bind (calm_recordOutput _ _ _ _) fun _ => .pure _
  | false =>
    apply Asks.before hasks
    intro _
    exact .pure _

/-- A frame with a request for a method that is there asks its handler, once. -/
theorem asks_frame (s : Server) (connection : Connection) (now : Nat) {frame : Bytes}
    (outer : Option Request) {request : Request} (hvalue : Frame.value frame = .ok request)
    (hget : s.registry.get? request.name = some h) :
    Asks h .binary (notedFrame s connection now frame outer) := by
  unfold notedFrame
  rw [hvalue]
  dsimp only
  rw [hget]
  exact .before (asks_recorded _ _ _ _ (fun _ => rfl) (fun _ => rfl)) fun _ => .pure _

/-- A call with JSON asks its handler, once. -/
theorem asks_method (s : Server) (connection : Connection) (now : Nat) (h : Handler)
    (q : Http.Request) (args : Dict String String) :
    Asks h .json (notedMethod s connection now h q args) :=
  .before (asks_recorded _ _ _ _ (fun _ => rfl) (fun _ => rfl)) fun _ => .pure _

/-! ## What the processing of a request leaves behind -/

/-- Only the handler that the name in a frame leads to can be reached. -/
theorem frameReaches_iff {s : Server} {frame : Bytes} {request : Request}
    (hvalue : Frame.value frame = .ok request) :
    FrameReaches s frame h ↔ s.registry.get? request.name = some h := by
  constructor
  · rintro ⟨request', hvalue', hget⟩
    rw [hvalue] at hvalue'
    cases hvalue'
    exact hget
  · intro hget
    exact ⟨request, hvalue, hget⟩

/-- A frame asks the handler that its request reaches, and nobody if it reaches none. -/
theorem accounts_frame (s : Server) (connection : Connection) (now : Nat) (frame : Bytes)
    (outer : Option Request) :
    Accounts (fun h p => p = .binary ∧ FrameReaches s frame h)
      (notedFrame s connection now frame outer) := by
  cases hvalue : (Frame.value frame : Except Frame.Fault Request) with
  | error fault =>
    apply Accounts.of_calm
    · rintro h p ⟨-, request, hrequest, -⟩
      rw [hvalue] at hrequest
      cases hrequest
    · unfold notedFrame
      rw [hvalue]
      exact .pure _
  | ok request =>
    simp only [frameReaches_iff hvalue]
    cases hget : s.registry.get? request.name with
    | none =>
      apply Accounts.of_calm
      · simp
      · unfold notedFrame
        rw [hvalue]
        dsimp only
        rw [hget]
        exact .pure _
    | some h =>
      refine .of_asks ?_ (asks_frame s connection now outer hvalue hget)
      intro h' p
      rw [Option.some.injEq]
      tauto

/-- Only the handler that the name of a call leads to can be reached. -/
theorem jsonReaches_iff {s : Server} {q : Http.Request} {h h' : Handler}
    (hroute : Route.of? q.methodName = none) (hget : s.registry.get? q.methodName = some h) :
    JsonReaches s q h' ↔ h = h' ∧
      ∃ args, q.args? = some args ∧ hasInput h args = true ∧ args.get? "e" = none := by
  have hinput : ∀ args, (args.contains "q" ∨ args.contains "no_input" ∨ h.method.allowEmpty) ↔
      hasInput h args = true := by
    intro args
    simp [hasInput, or_assoc]
  constructor
  · rintro ⟨-, hget', args, hargs, hsome, he⟩
    rw [hget] at hget'
    cases hget'
    refine ⟨rfl, args, hargs, (hinput args).1 hsome, ?_⟩
    simpa [Dict.contains] using he
  · rintro ⟨rfl, args, hargs, hsome, he⟩
    refine ⟨hroute, hget, args, hargs, (hinput args).2 hsome, ?_⟩
    simp [Dict.contains, he]

/-- An HTTP request for a method asks its handler unless the input is missing, an error is wanted or
the arguments cannot be read. -/
theorem accounts_json (s : Server) (connection : Connection) (now : Nat) {q : Http.Request}
    (hroute : Route.of? q.methodName = none) (hget : s.registry.get? q.methodName = some h) :
    Accounts (fun h p => p = .json ∧ JsonReaches s q h) (notedJson s connection now h q) := by
  simp only [jsonReaches_iff hroute hget]
  unfold notedJson
  cases q.args? with
  | none =>
    apply Accounts.of_calm
    · simp
    · exact .pure _
  | some args =>
    dsimp only
    by_cases hinput : hasInput h args
    · simp only [hinput, Bool.not_true, Bool.false_eq_true, if_false]
      cases he : args.get? "e" with
      | some value =>
        apply Accounts.of_calm
        · simp [he]
        · intro st
          exact ⟨_, _, rfl, rfl, .refl _⟩
      | none =>
        have hasks := fun now => asks_method s connection now h q args
        apply Accounts.of_asks (h := h) (p := .json)
        · intro h' p'
          simp only [Option.some.injEq, exists_eq_left', hinput, he, and_true]
          tauto
        · exact Asks.after (calm_pass _) fun _ => hasks _
    · simp only [hinput, Bool.not_false, if_true]
      apply Accounts.of_calm
      · simp [hinput]
      · exact .pure _

theorem of?_eq_some_tunnel {word : String} : Route.of? word = some .tunnel ↔ word = "_rpc" := by
  constructor
  · intro h
    obtain ⟨l₁, l₂, hwords, -⟩ := List.lookup_eq_some_iff.1 h
    have hmem : (word, Route.tunnel) ∈ Route.words := by
      rw [hwords]
      simp
    simpa [Route.words] using hmem
  · rintro rfl
    rfl

/-- Of the server's own paths only the tunnel reaches a handler; all else is a call with JSON, or
reaches nobody. -/
theorem accounts_routed (s : Server) (connection : Connection) (now : Nat) (q : Http.Request) :
    Accounts (fun h p => p = .binary ∧ q.methodName = "_rpc" ∧ FrameReaches s q.body h ∨
      p = .json ∧ JsonReaches s q h) (notedRouted s connection now q) := by
  unfold notedRouted
  cases hroute : Route.of? q.methodName with
  | some route =>
    have hnot : ∀ h, ¬JsonReaches s q h := by
      rintro h ⟨hnone, -⟩
      rw [hroute] at hnone
      cases hnone
    by_cases htunnel : route = .tunnel
    · subst htunnel
      have hname := of?_eq_some_tunnel.1 hroute
      apply Accounts.congr (Q := fun h p => p = .binary ∧ FrameReaches s q.body h)
      · simp [hnot, hname]
      · exact (accounts_frame s connection now q.body _).map _
    · have hname : q.methodName ≠ "_rpc" := by
        intro hname
        rw [of?_eq_some_tunnel.2 hname] at hroute
        exact htunnel (Option.some.inj hroute).symm
      apply Accounts.of_calm
      · simp [hnot, hname]
      · have hcalm := calm_serveRoute s connection now q htunnel
        cases route with
        | tunnel => exact absurd rfl htunnel
        | _ => exact hcalm
  | none =>
    have hname : q.methodName ≠ "_rpc" := by
      intro hname
      rw [of?_eq_some_tunnel.2 hname] at hroute
      cases hroute
    dsimp only
    cases hget : s.registry.get? q.methodName with
    | some h =>
      apply Accounts.congr (Q := fun h p => p = .json ∧ JsonReaches s q h)
      · simp [hname]
      · exact accounts_json s connection now hroute hget
    | none =>
      apply Accounts.of_calm
      · rintro h p (⟨-, htunnel, -⟩ | ⟨-, -, hget', -⟩)
        · exact hname htunnel
        · rw [hget] at hget'
          cases hget'
      · exact calm_staticFile s q.methodName

/-- An HTTP request asks the handler that it reaches. -/
theorem accounts_http (s : Server) (connection : Connection) (now : Nat) {r : RawRequest}
    (hframing : r.framing = .http) :
    Accounts (Reaches s r) (notedHttp s connection now r.bytes) := by
  unfold notedHttp
  cases hq : Http.Request.ofBytes? r.bytes with
  | none =>
    apply Accounts.of_calm
    · intro h p hreaches
      cases hreaches with
      | frame hbinary =>
        rw [hframing] at hbinary
        cases hbinary
      | tunnel _ hq' =>
        rw [hq] at hq'
        cases hq'
      | json _ hq' =>
        rw [hq] at hq'
        cases hq'
    · exact .pure _
  | some q =>
    refine .congr ?_ ((accounts_routed s connection now q).map _)
    intro h p
    constructor
    · intro hreaches
      cases hreaches with
      | frame hbinary =>
        rw [hframing] at hbinary
        cases hbinary
      | tunnel _ hq' hname hframe =>
        rw [hq] at hq'
        cases hq'
        exact .inl ⟨rfl, hname, hframe⟩
      | json _ hq' hjson =>
        rw [hq] at hq'
        cases hq'
        exact .inr ⟨rfl, hjson⟩
    · rintro (⟨rfl, hname, hframe⟩ | ⟨rfl, hjson⟩)
      · exact .tunnel hframing hq hname hframe
      · exact .json hframing hq hjson

/-! ### Requests that were cut off -/

/-- Whether a request that was cut off is framed as its bytes tell. -/
def Genuine (r : RawRequest) : Prop := r.complete = true ∨ r.framing = Boundary.sniff r.bytes

/-- What a splitter hands over is genuine. -/
theorem genuine_of_nextAtEnd {limit : Nat} {buf rest : Bytes} {r : RawRequest}
    (h : Splitter.nextAtEnd limit buf = .request r rest) : Genuine r := by
  unfold Splitter.nextAtEnd at h
  split at h
  · split at h
    · cases h
    · cases h
      exact .inr rfl
  · exact .inl (Splitter.complete_of_next h)

/-- A frame with a request in it is complete. -/
theorem boundary_isSome_of_value {frame : Bytes} {request : Request}
    (hsniff : Boundary.sniff frame = .binary) (hvalue : Frame.value frame = .ok request) :
    (Boundary.of? frame).isSome := by
  unfold Boundary.of?
  rw [hsniff]
  dsimp only
  unfold Frame.value Frame.body at hvalue
  cases hlength : Frame.length? frame with
  | none =>
    rw [hlength] at hvalue
    cases hvalue
  | some total =>
    rw [hlength] at hvalue
    by_cases hle : total ≤ frame.length
    · simp [hle]
    · simp only [hle, if_false] at hvalue
      cases hvalue

theorem boundary_isSome_of_ofBytes? {bytes : Bytes} {q : Http.Request}
    (h : Http.Request.ofBytes? bytes = some q) : (Boundary.of? bytes).isSome := by
  unfold Http.Request.ofBytes? at h
  rw [Option.bind_eq_bind, Option.bind_eq_some_iff] at h
  obtain ⟨found, hfound, -⟩ := h
  rw [hfound]
  rfl

/-- What holds an HTTP request is processed by answering that, even if it was cut off behind it. -/
theorem process_of_ofBytes? (s : Server) (connection : Connection) (now : Nat) (st : State)
    {r : RawRequest} {q : Http.Request} (hhttp : r.framing = .http)
    (hq : Http.Request.ofBytes? r.bytes = some q) :
    s.process connection now r st =
      (processedHttp q <$> route s connection now q) { st with requests := st.requests + 1 } := by
  have hwhole : (!r.complete && (Boundary.of? r.bytes).isNone) = false := by
    rw [Option.isNone_eq_false_iff.2 (boundary_isSome_of_ofBytes? hq), Bool.and_false]
  unfold process
  rw [hwhole, if_neg Bool.false_ne_true, hhttp]
  show processHttp s connection now r.bytes { st with requests := st.requests + 1 } = _
  unfold processHttp
  rw [hq, map_eq_pure_bind]

/-- What reaches a handler is a complete request, even if it was cut off behind that. -/
theorem Reaches.boundary_isSome {s : Server} {r : RawRequest} (hreaches : s.Reaches r h p)
    (hr : Genuine r) : r.complete = true ∨ (Boundary.of? r.bytes).isSome := by
  rcases hr with hcomplete | hsniff
  · exact .inl hcomplete
  · right
    cases hreaches with
    | frame hbinary hframe =>
      obtain ⟨request, hvalue, -⟩ := hframe
      rw [hbinary] at hsniff
      exact boundary_isSome_of_value hsniff.symm hvalue
    | tunnel _ hq => exact boundary_isSome_of_ofBytes? hq
    | json _ hq => exact boundary_isSome_of_ofBytes? hq

/-- **Whoever is to be asked is asked, once**, for any request as it is cut from a stream. -/
theorem accounts_process (s : Server) (connection : Connection) (now : Nat) {r : RawRequest}
    (hr : Genuine r) : Accounts (s.Reaches r) (notedProcess s connection now r) := by
  unfold notedProcess
  by_cases hcut : !r.complete && (Boundary.of? r.bytes).isNone
  · rw [if_pos hcut]
    apply Accounts.of_calm
    · intro h p hreaches
      rcases hreaches.boundary_isSome hr with hcomplete | hsome
      · simp [hcomplete] at hcut
      · simp [Option.isSome_iff_ne_none.1 hsome] at hcut
    · exact .pure _
  · rw [if_neg hcut]
    apply Accounts.after
    · intro st
      exact ⟨_, _, rfl, rfl, .refl _⟩
    · intro _
      cases hframing : r.framing with
      | binary =>
        refine .congr ?_ ((accounts_frame s connection now r.bytes none).map _)
        intro h p
        constructor
        · intro hreaches
          cases hreaches with
          | frame _ hframe => exact ⟨rfl, hframe⟩
          | tunnel hhttp =>
            rw [hframing] at hhttp
            cases hhttp
          | json hhttp =>
            rw [hframing] at hhttp
            cases hhttp
        · rintro ⟨rfl, hframe⟩
          exact .frame hframing hframe
      | http => exact accounts_http s connection now hframing

/-! ## One request -/

variable {s : Server} {r : RawRequest}

/-- What is done with a request that reaches a handler. -/
theorem process_of_reaches (connection : Connection) (now : Nat) (hr : Genuine r)
    (hst : st.tracker.Numbered) (hreaches : s.Reaches r h p) :
    ∃ i, (notedProcess s connection now r st).1 = [i] ∧ i.handler = h ∧ i.protocol = p ∧
      ((∃ processed st', s.process connection now r st = .ok (processed, st') ∧
          st.tracker.Counts h.name st'.tracker) ∨
        ∃ e, s.process connection now r st = .error e ∧ i.answer.reply = .error e) := by
  obtain ⟨haccounted, hasked⟩ := accounts_process s connection now hr st hst
  obtain ⟨i, hi, hh, hp⟩ := (hasked h p).1 hreaches
  rw [← notes_process s connection now r st]
  generalize notedProcess s connection now r st = run at haccounted hi ⊢
  cases haccounted with
  | nobody => cases hi
  | call hcounts =>
    cases List.mem_singleton.1 hi
    rw [hh] at hcounts
    exact ⟨i, rfl, hh, hp, .inl ⟨_, _, rfl, hcounts⟩⟩
  | oversize he =>
    cases List.mem_singleton.1 hi
    exact ⟨i, rfl, hh, hp, .inr ⟨_, rfl, he⟩⟩

/-- What is done with a request that reaches no handler. -/
theorem process_of_not_reaches (connection : Connection) (now : Nat) (hr : Genuine r)
    (hst : st.tracker.Numbered) (hreaches : ∀ h p, ¬s.Reaches r h p) :
    (notedProcess s connection now r st).1 = [] ∧
      ∃ processed st', s.process connection now r st = .ok (processed, st') ∧
        Untouched st st' := by
  obtain ⟨haccounted, hasked⟩ := accounts_process s connection now hr st hst
  rw [← notes_process s connection now r st]
  generalize notedProcess s connection now r st = run at haccounted hasked ⊢
  cases haccounted with
  | nobody huntouched => exact ⟨rfl, _, _, rfl, huntouched⟩
  | call =>
    have hreached := (hasked _ _).2 ⟨_, List.mem_singleton_self _, rfl, rfl⟩
    exact absurd hreached (hreaches _ _)
  | oversize =>
    have hreached := (hasked _ _).2 ⟨_, List.mem_singleton_self _, rfl, rfl⟩
    exact absurd hreached (hreaches _ _)

/-- A request reaches one handler at most, in one form. -/
theorem Reaches.unique {h' : Handler} {p' : Protocol} (hr : Genuine r)
    (hreaches : s.Reaches r h p) (hreaches' : s.Reaches r h' p') : h = h' := by
  have hst : (s.start 0 .empty).tracker.Numbered := Tracker.numbered_run 0 []
  let connection : Connection := ⟨0, ⟨.v4 0 0 0 0, 0⟩⟩
  obtain ⟨i, hi, rfl, -⟩ := process_of_reaches connection 0 hr hst hreaches
  obtain ⟨i', hi', rfl, -⟩ := process_of_reaches connection 0 hr hst hreaches'
  rw [hi] at hi'
  cases hi'
  rfl

/-! ## Many requests -/

/-- A request as it arrives on a connection. -/
structure Arrival where
  connection : Connection
  now : Nat
  request : RawRequest

/-- Processes requests one after another. -/
def processAll (s : Server) (arrivals : List Arrival) : Step (List Processed) :=
  arrivals.mapM fun a => s.process a.connection a.now a.request

open Classical in
/-- How many requests reach one of some handlers. -/
noncomputable def reaching (s : Server) (P : Handler → Prop) (arrivals : List Arrival) : Nat :=
  arrivals.countP fun a => ∃ h p, s.Reaches a.request h p ∧ P h

/-- Whether a tracker is another one after requests of which each that reaches a handler is one more
finished call of its method. -/
structure Tallies (s : Server) (t : Tracker) (arrivals : List Arrival) (t' : Tracker) : Prop where
  numbered : t'.Numbered
  pending : t'.pending = t.pending
  total : t'.total = t.total + s.reaching (fun _ => True) arrivals
  count : ∀ name, t'.count name = t.count name + s.reaching (·.name = name) arrivals

/-- What two stretches of requests add to the counts adds up. -/
theorem Tallies.append {t t' t'' : Tracker} {arrivals more : List Arrival}
    (h : s.Tallies t arrivals t') (h' : s.Tallies t' more t'') :
    s.Tallies t (arrivals ++ more) t'' := by
  refine ⟨h'.numbered, h'.pending.trans h.pending, ?_, ?_⟩
  · rw [h'.total, h.total, reaching, reaching, reaching, List.countP_append, Nat.add_assoc]
  · intro name
    rw [h'.count, h.count, reaching, reaching, reaching, List.countP_append, Nat.add_assoc]

theorem reaching_nobody {a : Arrival} (P : Handler → Prop)
    (hreaches : ∀ h p, ¬s.Reaches a.request h p) : s.reaching P [a] = 0 := by
  simp [reaching, hreaches]

open Classical in
/-- A request that reaches a handler counts once for whatever holds of that handler. -/
theorem reaching_one {a : Arrival} (P : Handler → Prop) (ha : Genuine a.request)
    (hreaches : s.Reaches a.request h p) : s.reaching P [a] = if P h then 1 else 0 := by
  have hone : (∃ h p, s.Reaches a.request h p ∧ P h) ↔ P h := by
    constructor
    · rintro ⟨h', p', hreaches', hP⟩
      rw [hreaches.unique ha hreaches']
      exact hP
    · intro hP
      exact ⟨h, p, hreaches, hP⟩
  unfold reaching
  rw [List.countP_singleton]
  simp only [hone, decide_eq_true_eq]

/-- One request adds one to the count of the method that it reaches. -/
theorem tallies_process {a : Arrival} {processed : Processed} (ha : Genuine a.request)
    (hst : st.tracker.Numbered)
    (hrun : s.process a.connection a.now a.request st = .ok (processed, st')) :
    s.Tallies st.tracker [a] st'.tracker := by
  by_cases hreaches : ∃ h p, s.Reaches a.request h p
  · obtain ⟨h, p, hreaches⟩ := hreaches
    obtain ⟨i, -, -, -, ⟨processed', st'', hrun', hcounts⟩ | ⟨e, hrun', -⟩⟩ :=
      process_of_reaches a.connection a.now ha hst hreaches
    · rw [hrun] at hrun'
      cases hrun'
      refine ⟨hcounts.numbered hst, hcounts.pending, ?_, ?_⟩
      · rw [hcounts.total, reaching_one _ ha hreaches, if_pos trivial]
      · intro name
        rw [reaching_one _ ha hreaches]
        by_cases hname : h.name = name
        · rw [if_pos hname, ← hname, hcounts.count]
        · rw [if_neg hname, Tracker.count, hcounts.others name (Ne.symm hname)]
          rfl
    · rw [hrun] at hrun'
      cases hrun'
  · have hnobody : ∀ h p, ¬s.Reaches a.request h p := by
      intro h p hreaches'
      exact hreaches ⟨h, p, hreaches'⟩
    obtain ⟨-, processed', st'', hrun', hsame, -⟩ :=
      process_of_not_reaches a.connection a.now ha hst hnobody
    rw [hrun] at hrun'
    cases hrun'
    rw [show st'.tracker = st.tracker from hsame]
    refine ⟨hst, rfl, ?_, ?_⟩
    · rw [reaching_nobody _ hnobody, Nat.add_zero]
    · intro name
      rw [reaching_nobody _ hnobody, Nat.add_zero]

/-- So do many, by induction on the requests. -/
theorem tallies_processAll {arrivals : List Arrival} {processed : List Processed}
    (harrivals : ∀ a ∈ arrivals, Genuine a.request) (hst : st.tracker.Numbered)
    (hrun : s.processAll arrivals st = .ok (processed, st')) :
    s.Tallies st.tracker arrivals st'.tracker := by
  induction arrivals generalizing st processed with
  | nil =>
    cases hrun
    exact ⟨hst, rfl, rfl, fun _ => rfl⟩
  | cons a arrivals ih =>
    unfold processAll at hrun
    rw [List.mapM_cons] at hrun
    obtain ⟨first, st₁, hfirst, hrun⟩ := exists_of_bind hrun
    obtain ⟨rest, st₂, hrest, hrun⟩ := exists_of_bind hrun
    cases hrun
    have hstep := tallies_process (harrivals a List.mem_cons_self) hst hfirst
    have hmore := ih (fun b hb => harrivals b (List.mem_cons_of_mem a hb)) hstep.numbered hrest
    exact hstep.append hmore

end

/-- **Every call is tracked once, and nothing else is.** Behind requests that were processed one
after another, those calls are pending that were pending before them, and the finished calls of a
method are as many more as requests reached a handler of that name. If the next request reaches a
handler, then this handler is asked, once and in that protocol, and its call is counted and nothing
else, unless the program is given up over the size of the answer; if it reaches none, nobody is
asked, the tracker stays as it is, and no file gets a line. -/
theorem tracked_once (s : Server) {st st' : State} (hst : st.tracker.Numbered)
    (earlier : List Arrival) (a : Arrival) (hgenuine : ∀ b ∈ a :: earlier, Genuine b.request)
    {answers : List Processed} (hrun : s.processAll earlier st = .ok (answers, st')) :
    let r := a.request
    let run := s.process a.connection a.now r st'
    let noted := s.notedProcess a.connection a.now r st'
    st'.tracker.pending = st.tracker.pending ∧
      st'.tracker.total = st.tracker.total + s.reaching (fun _ => True) earlier ∧
      (∀ name, st'.tracker.count name =
        st.tracker.count name + s.reaching (·.name = name) earlier) ∧
      noted.2 = run ∧
      (∀ h p, s.Reaches r h p → ∃ i, noted.1 = [i] ∧ i.handler = h ∧ i.protocol = p ∧
        ((∃ answer st'', run = .ok (answer, st'') ∧
            st'.tracker.Counts h.name st''.tracker) ∨
          ∃ e, run = .error e ∧ i.answer.reply = .error e)) ∧
      ((∀ h p, ¬s.Reaches r h p) → noted.1 = [] ∧
        ∃ answer st'', run = .ok (answer, st'') ∧ st''.tracker = st'.tracker ∧
          st'.files.Unwritten st''.files) := by
  intro r run noted
  have hr : Genuine r := hgenuine a List.mem_cons_self
  have htallies : s.Tallies st.tracker earlier st'.tracker :=
    tallies_processAll (fun b hb => hgenuine b (List.mem_cons_of_mem a hb)) hst hrun
  refine ⟨htallies.pending, htallies.total, htallies.count, notes_process s _ _ r st', ?_, ?_⟩
  · intro h p hreaches
    exact process_of_reaches a.connection a.now hr htallies.numbered hreaches
  · intro hnobody
    exact process_of_not_reaches a.connection a.now hr htallies.numbered hnobody

/-- A call with JSON has been answered. A frame for the same method comes next, with a payload that
cannot be read as its input; it is a call all the same. -/
theorem tracked_once_ping :
    let connection : Connection := ⟨1, ⟨.v4 127 0 0 1, 80⟩⟩
    let call : RawRequest := ⟨.http, Utf8.ofString "GET /Ping HTTP/1.0\n\n", true⟩
    let request : Request := ⟨"Ping", [0xC1], "", "", ∅, ∅⟩
    let frame : RawRequest := ⟨.binary, (Frame.ofValue request).toOption.getD [], true⟩
    ∃ answers st' i, Client.sounder.processAll [⟨connection, 5, call⟩]
        (Client.sounder.start 0 .empty) = .ok (answers, st') ∧
      st'.tracker.count "PING" = 1 ∧
      (Client.sounder.notedProcess connection 9 frame st').1 = [i] ∧
      i.handler = Sample.Gallery.ping "PING" := by
  intro connection call request frame
  have hstart : (Client.sounder.start 0 .empty).tracker.Numbered := Tracker.numbered_run 0 []
  have hcount : (Client.sounder.processAll [⟨connection, 5, call⟩]
      (Client.sounder.start 0 .empty)).toOption.map (fun one => one.2.tracker.count "PING") =
        some 1 := by
    decide +kernel
  have hvalue : (Frame.value frame.bytes : Except Frame.Fault Request) = .ok request := by
    decide +kernel
  have hget : Client.sounder.registry.get? "Ping" = some (Sample.Gallery.ping "PING") := rfl
  have hreaches : Client.sounder.Reaches frame (Sample.Gallery.ping "PING") .binary :=
    .frame rfl ⟨request, hvalue, hget⟩
  have hgenuine : ∀ b ∈ [(⟨connection, 9, frame⟩ : Arrival), ⟨connection, 5, call⟩],
      Genuine b.request := by
    intro b hb
    simp only [List.mem_cons, List.not_mem_nil, or_false] at hb
    rcases hb with rfl | rfl
    · exact .inl rfl
    · exact .inl rfl
  rcases hrun : Client.sounder.processAll [⟨connection, 5, call⟩]
    (Client.sounder.start 0 .empty) with e | ⟨answers, st'⟩
  · rw [hrun] at hcount
    cases hcount
  · rw [hrun] at hcount
    obtain ⟨-, -, -, -, hasked, -⟩ := tracked_once Client.sounder hstart [⟨connection, 5, call⟩]
      ⟨connection, 9, frame⟩ hgenuine hrun
    obtain ⟨i, hi, hh, -⟩ := hasked _ _ hreaches
    exact ⟨answers, st', i, rfl, Option.some.inj hcount, hi, hh⟩

end Server

end Switchboard
