import Mathlib.Data.List.Induction
import Mathlib.Data.List.TakeWhile
import Switchboard.Proofs.Dict
import Switchboard.Proofs.Responses
import Switchboard.Recorder

/-!
# What the capture files hold

A recorder is started and stopped, and in between it writes. Here its history is a list of calls,
and what its files should hold is read off the history: the lines of the records that were made
behind the last start and before any stop (`Recorder.beforeStop`). A writer that goes on where its
file ends adds its line to the file (`Writer.Follows.writeLine`) and leaves every other file alone,
so two writers do not disturb each other as long as their files are two. What every call preserves
is `Recorder.Stands`, and a whole history follows by induction on its calls
(`Recorder.stands_run`). What is a line for the writer is a line for a reader, too, because no line
has a line feed in it; and the tabs that cut a line into its fields are the first in it.
-/

namespace Switchboard

/-! ## Paths among more files -/

namespace Files

variable {fs fs' : Files} {trail trail' : Trail} {path name : String}

/-- Whether all files are still there. -/
def Within (fs fs' : Files) : Prop := ∀ trail ∈ fs.contents.keys, trail ∈ fs'.contents.keys

/-- A file more takes none away. -/
theorem within_insert (fs : Files) (trail : Trail) (contents : Bytes) :
    Within fs ⟨fs.contents.insert trail contents⟩ := by
  intro other hother
  rw [Dict.mem_keys_iff] at hother ⊢
  obtain ⟨old, hold⟩ := hother
  show ∃ a, (fs.contents.insert trail contents).get? other = some a
  rw [Dict.get?_insert]
  split
  · exact ⟨contents, rfl⟩
  · exact ⟨old, hold⟩

/-- Directories stay directories when there are more files. -/
theorem Within.isDirectory (h : Within fs fs') (hdir : fs.isDirectory trail = true) :
    fs'.isDirectory trail = true := by
  unfold Files.isDirectory at hdir ⊢
  rw [Bool.or_eq_true, List.any_eq_true] at hdir ⊢
  exact hdir.imp_right fun ⟨file, hfile, hlonger⟩ => ⟨file, h file hfile, hlonger⟩

/-- A way through the files is still there when there are more. -/
theorem Within.step (h : Within fs fs') (hstep : fs.step trail name = some trail') :
    fs'.step trail name = some trail' := by
  unfold Files.step at hstep ⊢
  rw [ite_eq_iff] at hstep
  obtain ⟨-, hnone⟩ | ⟨hpasses, hstep⟩ := hstep
  · cases hnone
  · have hdir : fs.isDirectory trail = true := by
      by_contra hno
      exact hpasses (by simp [hno])
    rw [if_neg (by simpa [hdir, h.isDirectory hdir] using hpasses)]
    exact hstep

/-- What can be reached can still be reached when there are more files. -/
theorem Within.resolve (h : Within fs fs') (hresolve : fs.resolve path = some trail) :
    fs'.resolve path = some trail := by
  have hfold : ∀ (names : List String) (start : Trail), names.foldlM fs.step start = some trail →
      names.foldlM fs'.step start = some trail := by
    intro names
    induction names with
    | nil => exact fun start hstart => hstart
    | cons name names ih =>
      intro start hstart
      rw [List.foldlM_cons] at hstart ⊢
      obtain ⟨next, hnext, hrest⟩ := Option.bind_eq_some_iff.1 hstart
      exact Option.bind_eq_some_iff.2 ⟨next, h.step hnext, ih next hrest⟩
  unfold Files.resolve at hresolve ⊢
  split at hresolve
  · cases hresolve
  · rename_i hshort
    rw [if_neg hshort]
    exact hfold _ [] hresolve

/-- **A file can be created exactly where a path leads and no directory stands.** -/
theorem create?_eq_some_iff : fs.create? path = some (trail, fs') ↔
    fs.resolve path = some trail ∧ fs.isDirectory trail = false ∧
      fs' = ⟨fs.contents.insert trail []⟩ := by
  unfold create?
  rw [Option.bind_eq_bind, Option.bind_eq_some_iff]
  constructor
  · rintro ⟨found, hfound, hcreate⟩
    split at hcreate
    · cases hcreate
    · rename_i hdir
      cases hcreate
      exact ⟨hfound, eq_false_of_ne_true hdir, rfl⟩
  · rintro ⟨hresolve, hdir, rfl⟩
    refine ⟨trail, hresolve, ?_⟩
    rw [hdir]
    rfl

/-- Whether two paths lead to one file, wherever both lead. -/
def SameFile (path other : String) : Prop :=
  ∃ (fs : Files) (trail : Trail), fs.resolve path = some trail ∧ fs.resolve other = some trail

/-- A path of a single step leads to the file of that name. -/
theorem eq_of_resolve_single (hsteps : steps path = [name]) (hname : name ≠ "..")
    (hresolve : fs.resolve path = some trail) : trail = [name] := by
  unfold resolve at hresolve
  split at hresolve
  · cases hresolve
  · rw [hsteps, List.foldlM_cons] at hresolve
    obtain ⟨next, hnext, hrest⟩ := Option.bind_eq_some_iff.1 hresolve
    cases hrest
    unfold step at hnext
    split at hnext
    · cases hnext
    · exact (Option.some.inj hnext).symm

/-- What is written at the end of a file is added to it. -/
theorem overwrite_length (new old : Bytes) : overwrite old.length new old = old ++ new := by
  unfold overwrite
  rw [List.take_length, Nat.sub_self, List.drop_of_length_le (Nat.le_add_right _ _)]
  simp only [List.replicate_zero, List.append_nil]

end Files

/-! ## Writing at the end of a file -/

/-- The bytes of lines that were written one after another. -/
def writtenLines (lines : List String) : Bytes :=
  lines.flatMap fun line => Utf8.ofString (line ++ "\n")

/-- Whether a path leads to a file with just these lines. -/
def Files.Holds (fs : Files) (path : String) (lines : List String) : Prop :=
  fs.read? path = some (writtenLines lines)

/-- Whether a path leads to the file that is being written, and the next line goes behind the lines
that are in it. -/
structure Writer.Follows (w : Writer) (fs : Files) (path : String) (lines : List String) :
    Prop where
  resolve : fs.resolve path = some w.trail
  contents : fs.contents.get? w.trail = some (writtenLines lines)
  offset : w.offset = (writtenLines lines).length

namespace Writer

variable {w other : Writer} {fs fs' : Files} {path otherPath : String} {lines : List String}

theorem Follows.holds (h : w.Follows fs path lines) : fs.Holds path lines := by
  unfold Files.Holds Files.read?
  rw [h.resolve]
  exact h.contents

/-- A file that was just created is empty. -/
theorem follows_of_create? {trail : Trail} (h : fs.create? path = some (trail, fs')) :
    Follows ⟨trail, 0⟩ fs' path [] := by
  obtain ⟨hresolve, -, rfl⟩ := Files.create?_eq_some_iff.1 h
  refine ⟨(Files.within_insert fs trail []).resolve hresolve, ?_, rfl⟩
  show (fs.contents.insert trail []).get? trail = some []
  rw [Dict.get?_insert, if_pos Std.ReflCmp.compare_self]

/-- What is put elsewhere leaves the file alone. -/
theorem Follows.insert {trail : Trail} (h : w.Follows fs path lines) (hne : w.trail ≠ trail)
    (contents : Bytes) : w.Follows ⟨fs.contents.insert trail contents⟩ path lines := by
  refine ⟨(Files.within_insert fs trail contents).resolve h.resolve, ?_, h.offset⟩
  show (fs.contents.insert trail contents).get? w.trail = _
  rw [Dict.get?_insert, if_neg fun heq => hne (Std.LawfulEqCmp.eq_of_compare heq)]
  exact h.contents

/-- A line goes behind the lines that are there. -/
theorem Follows.writeLine (h : w.Follows fs path lines) (line : String) :
    (Recorder.writeLine fs w line).1.Follows (Recorder.writeLine fs w line).2 path
      (lines ++ [line]) := by
  have hwritten : writtenLines (lines ++ [line]) =
      writtenLines lines ++ Utf8.ofString (line ++ "\n") := by
    unfold writtenLines
    rw [List.flatMap_append, List.flatMap_singleton]
  refine ⟨(Files.within_insert fs w.trail _).resolve h.resolve, ?_, ?_⟩
  · show (fs.contents.insert w.trail (Files.overwrite w.offset _ _)).get? w.trail = _
    rw [Dict.get?_insert, if_pos Std.ReflCmp.compare_self, h.contents, h.offset]
    show some (Files.overwrite (writtenLines lines).length _ (writtenLines lines)) = _
    rw [Files.overwrite_length, hwritten]
  · show w.offset + _ = _
    rw [hwritten, List.length_append, h.offset]

/-- Writers to paths that do not lead to one file write to two. -/
theorem Follows.trail_ne {otherLines : List String} (h : w.Follows fs path lines)
    (h' : other.Follows fs otherPath otherLines) (hfiles : ¬ Files.SameFile path otherPath) :
    w.trail ≠ other.trail :=
  fun heq => hfiles ⟨fs, w.trail, h.resolve, heq ▸ h'.resolve⟩

end Writer

namespace Recorder

/-! ## Histories -/

/-- A call on a recorder. -/
inductive Call
  | start
  | stop
  | input (name text : String)
  | output (name : String) (success : Bool) (text : String)
  deriving DecidableEq

/-- The calls on a recorder in order, with what the clock shows at each. -/
abbrev History := List (Nat × Call)

/-- What a call does to a recorder and the files. -/
def Call.perform (now : Nat) : Call → Recorder × Files → Recorder × Files
  | .start, (r, fs) => (r.start now fs).2
  | .stop, (r, fs) => (r.stop, fs)
  | .input name text, (r, fs) => r.recordInput now name text fs
  | .output name success text, (r, fs) => r.recordOutput now name success text fs

/-- What a history does to a recorder and the files. -/
def run (history : History) (s : Recorder × Files) : Recorder × Files :=
  history.foldl (fun s e => e.2.perform e.1 s) s

/-- Whether a name fits into a field of a line. -/
def FitsField (name : String) : Prop :=
  '\t' ∉ name.toList ∧ '\n' ∉ name.toList ∧ '\r' ∉ name.toList

/-- Whether nothing goes wrong at a call: a start can create its files, and a record is made under
a name that fits and before the time of the recording is over. -/
def Call.GoesWell (now : Nat) : Call → Recorder × Files → Prop
  | .start, (r, fs) => (r.start now fs).1 = true
  | .stop, _ => True
  | .input name _, (r, _) => FitsField name ∧ (r.recording.isSome → r.isRecording now = true)
  | .output name _ _, (r, _) => FitsField name ∧ (r.recording.isSome → r.isRecording now = true)

/-- Whether nothing goes wrong at any call of a history. -/
def GoesWell : History → Recorder × Files → Prop
  | [], _ => True
  | e :: es, s => e.2.GoesWell e.1 s ∧ GoesWell es (e.2.perform e.1 s)

/-- The calls behind the last start, if there was one. -/
def sinceStart? : History → Option History
  | [] => none
  | e :: es => (sinceStart? es).or (if e.2 = .start then some es else none)

/-- The calls before the first stop. -/
def beforeStop (calls : History) : History := calls.takeWhile fun e => e.2 ≠ .stop

/-- Whether there is no stop among calls. -/
def Going (calls : History) : Prop := ∀ e ∈ calls, e.2 ≠ .stop

/-- The line about an input. -/
def inputLine? : Nat × Call → Option String
  | (now, .input name text) => some (inputLine now name text)
  | _ => none

/-- The line about a result. -/
def outputLine? : Nat × Call → Option String
  | (now, .output name success text) => some (outputLine now name success text)
  | _ => none

/-- The lines about the inputs that calls record before a stop. -/
def inputLines (calls : History) : List String := (beforeStop calls).filterMap inputLine?

/-- The lines about the results that calls record before a stop. -/
def outputLines (calls : History) : List String := (beforeStop calls).filterMap outputLine?

section

variable {history calls : History} {e : Nat × Call} {s : Recorder × Files}

/-- The last call of a history is performed behind the others. -/
theorem run_concat (history : History) (e : Nat × Call) (s : Recorder × Files) :
    run (history ++ [e]) s = e.2.perform e.1 (run history s) := by
  unfold run
  rw [List.foldl_append]
  rfl

/-- A history goes well if it did so far and its last call does. -/
theorem goesWell_concat :
    GoesWell (history ++ [e]) s ↔ GoesWell history s ∧ e.2.GoesWell e.1 (run history s) := by
  induction history generalizing s with
  | nil => exact ⟨fun ⟨h, _⟩ => ⟨trivial, h⟩, fun ⟨_, h⟩ => ⟨h, trivial⟩⟩
  | cons e' es ih =>
    show e'.2.GoesWell e'.1 s ∧ GoesWell (es ++ [e]) _ ↔ (_ ∧ GoesWell es _) ∧ _
    rw [ih, and_assoc]
    rfl

/-- A start begins a new stretch, and any other call prolongs the one that is there. -/
theorem sinceStart?_concat (history : History) (e : Nat × Call) : sinceStart? (history ++ [e]) =
    if e.2 = .start then some [] else (sinceStart? history).map (· ++ [e]) := by
  induction history with
  | nil =>
    show (sinceStart? []).or _ = _
    split <;> rfl
  | cons e' es ih =>
    show (sinceStart? (es ++ [e])).or _ = _
    rw [ih]
    show _ = if e.2 = .start then some [] else ((sinceStart? es).or _).map (· ++ [e])
    by_cases he : e.2 = .start
    · rw [if_pos he, if_pos he]
      rfl
    · rw [if_neg he, if_neg he]
      cases sinceStart? es with
      | some calls => rfl
      | none =>
        by_cases he' : e'.2 = .start
        · simp only [if_pos he', Option.map_none, Option.none_or, Option.map_some]
          rfl
        · simp only [if_neg he', Option.map_none, Option.none_or]

theorem beforeStop_of_going (h : Going calls) : beforeStop calls = calls :=
  List.takeWhile_eq_self_iff.2 fun e he => decide_eq_true (h e he)

/-- A recording goes on with every call but a stop. -/
theorem going_concat (h : Going calls) (he : e.2 ≠ .stop) :
    Going (calls ++ [e]) := by
  intro e' he'
  rcases List.mem_append.1 he' with hmem | hmem
  · exact h e' hmem
  · rw [List.mem_singleton.1 hmem]
    exact he

theorem beforeStop_concat_of_going (h : Going calls) (he : e.2 ≠ .stop) :
    beforeStop (calls ++ [e]) = beforeStop calls ++ [e] := by
  rw [beforeStop_of_going (going_concat h he), beforeStop_of_going h]

/-- Behind a stop, or at one, nothing more is taken. -/
theorem beforeStop_concat_of_stop (h : ¬ Going calls ∨ e.2 = .stop) :
    beforeStop (calls ++ [e]) = beforeStop calls := by
  unfold beforeStop
  rw [List.takeWhile_append]
  split
  · rename_i hall
    have hgoing : Going calls := by
      have hself := List.takeWhile_eq_self_iff.1 ((List.takeWhile_prefix _).eq_of_length hall)
      exact fun e' he' => of_decide_eq_true (hself e' he')
    have hstop : e.2 = .stop := h.resolve_left (not_not_intro hgoing)
    rw [List.takeWhile_cons_of_neg (by simp [hstop]), List.append_nil]
    exact (beforeStop_of_going hgoing).symm
  · rfl

end

/-! ## What a call preserves -/

/-- Where a recorder stands behind a history, if it was `r₀` among the files `fs₀` before. -/
inductive Stands (r₀ : Recorder) (fs₀ : Files) (history : History) : Recorder × Files → Prop
  /-- It has not been started. -/
  | fresh (h : sinceStart? history = none) : Stands r₀ fs₀ history (r₀, fs₀)
  /-- It has been started and not been stopped since, and each of its writers goes on behind what
  has been recorded. -/
  | running {calls : History} {recording : Recording} {fs : Files}
      (h : sinceStart? history = some calls) (hgoing : Going calls)
      (input : recording.input.Follows fs r₀.inputPath (inputLines calls))
      (output : ∀ path ∈ r₀.outputPath, ∃ w, recording.output = some w ∧
        w.Follows fs path (outputLines calls))
      (single : r₀.outputPath = none → recording.output = none) :
      Stands r₀ fs₀ history ({ r₀ with recording := some recording }, fs)
  /-- It has been started and stopped, and its files hold what has been recorded before. -/
  | stopped {calls : History} {fs : Files}
      (h : sinceStart? history = some calls) (hstop : ¬ Going calls)
      (input : fs.Holds r₀.inputPath (inputLines calls))
      (output : ∀ path ∈ r₀.outputPath, fs.Holds path (outputLines calls)) :
      Stands r₀ fs₀ history ({ r₀ with recording := none }, fs)

variable {r r₀ : Recorder} {fs fs₀ : Files} {history calls : History} {now : Nat}
  {s : Recorder × Files}

/-- A start leaves two writers at the beginning of empty files. -/
theorem start_spec (hfiles : ∀ path ∈ r.outputPath, ¬ Files.SameFile r.inputPath path)
    (hstart : (r.start now fs).1 = true) : ∃ recording fs',
      r.start now fs = (true, { r with recording := some recording }, fs') ∧
      recording.input.Follows fs' r.inputPath [] ∧
      (∀ path ∈ r.outputPath, ∃ w, recording.output = some w ∧ w.Follows fs' path []) ∧
      (r.outputPath = none → recording.output = none) := by
  unfold start at hstart ⊢
  cases hinput : fs.create? r.inputPath with
  | none =>
    rw [hinput] at hstart
    cases hstart
  | some created =>
    obtain ⟨trail, fs₁⟩ := created
    have hfirst : Writer.Follows ⟨trail, 0⟩ fs₁ r.inputPath [] := Writer.follows_of_create? hinput
    rw [hinput] at hstart
    dsimp only at hstart ⊢
    cases hpath : r.outputPath with
    | none => exact ⟨_, fs₁, rfl, hfirst, nofun, fun _ => rfl⟩
    | some path =>
      cases houtput : fs₁.create? path with
      | none =>
        rw [hpath, createOutput, houtput] at hstart
        cases hstart
      | some created =>
        obtain ⟨otherTrail, fs₂⟩ := created
        rw [createOutput, houtput]
        have hsecond : Writer.Follows ⟨otherTrail, 0⟩ fs₂ path [] :=
          Writer.follows_of_create? houtput
        obtain ⟨hresolve, -, rfl⟩ := Files.create?_eq_some_iff.1 houtput
        have hne : trail ≠ otherTrail := fun heq =>
          hfiles path hpath ⟨fs₁, trail, hfirst.resolve, heq ▸ hresolve⟩
        refine ⟨_, _, rfl, hfirst.insert hne [], ?_, nofun⟩
        intro path' hpath'
        cases hpath'
        exact ⟨_, rfl, hsecond⟩

/-- The paths are settled once and for all. -/
theorem Stands.paths (h : Stands r₀ fs₀ history s) (hnew : r₀.recording = none) :
    ∃ recording, s.1 = { r₀ with recording } := by
  cases h with
  | fresh h => exact ⟨none, by rw [← hnew]⟩
  | running _ _ _ _ _ => exact ⟨_, rfl⟩
  | stopped _ _ _ _ => exact ⟨_, rfl⟩

/-- A start puts new files in place of the old ones, both empty. -/
theorem Stands.start (h : Stands r₀ fs₀ history s) (hnew : r₀.recording = none)
    (hfiles : ∀ path ∈ r₀.outputPath, ¬ Files.SameFile r₀.inputPath path)
    (hwell : Call.start.GoesWell now s) :
    Stands r₀ fs₀ (history ++ [(now, .start)]) (Call.start.perform now s) := by
  obtain ⟨earlier, hpaths⟩ := h.paths hnew
  obtain ⟨r, fs⟩ := s
  subst hpaths
  obtain ⟨recording, fs', hstart, hinput, houtput, hsingle⟩ :=
    start_spec (r := { r₀ with recording := earlier }) hfiles hwell
  have hperform : Call.start.perform now ({ r₀ with recording := earlier }, fs) =
      ({ r₀ with recording := some recording }, fs') := congrArg Prod.snd hstart
  rw [hperform]
  have hcalls : sinceStart? (history ++ [(now, .start)]) = some [] := by
    rw [sinceStart?_concat, if_pos rfl]
  exact .running hcalls (fun _ => nofun) hinput houtput hsingle

/-- Without a recording, nothing but a start changes anything. -/
theorem perform_of_idle {call : Call} (hcall : call ≠ .start) (hidle : s.1.recording = none) :
    call.perform now s = s := by
  obtain ⟨r, fs⟩ := s
  change r.recording = none at hidle
  cases call with
  | start => exact absurd rfl hcall
  | stop =>
    show ({ r with recording := none }, fs) = (r, fs)
    rw [← hidle]
  | input name text =>
    show r.recordInput now name text fs = (r, fs)
    unfold recordInput
    rw [hidle]
  | output name success text =>
    show r.recordOutput now name success text fs = (r, fs)
    unfold recordOutput
    rw [hidle]

/-- Before the first start and behind a stop, calls leave all as it is. -/
theorem Stands.idle {call : Call} (h : Stands r₀ fs₀ history s) (hcall : call ≠ .start)
    (hidle : s.1.recording = none) :
    Stands r₀ fs₀ (history ++ [(now, call)]) (call.perform now s) := by
  rw [perform_of_idle hcall hidle]
  have hsince := sinceStart?_concat history (now, call)
  rw [if_neg hcall] at hsince
  cases h with
  | fresh h =>
    rw [h] at hsince
    exact .fresh hsince
  | running h hgoing hinput houtput hsingle => cases hidle
  | @stopped calls fs h hstop hinput houtput =>
    rw [h] at hsince
    have hbefore : beforeStop (calls ++ [(now, call)]) = beforeStop calls :=
      beforeStop_concat_of_stop (.inl hstop)
    refine .stopped hsince (fun hgoing => hstop fun e he => ?_) ?_ ?_
    · exact hgoing e (List.mem_append_left _ he)
    · unfold inputLines
      rw [hbefore]
      exact hinput
    · unfold outputLines
      rw [hbefore]
      exact houtput

/-- A stop leaves the files as they are. -/
theorem Stands.stop {recording : Recording} (hnew : r₀.recording = none)
    (h : Stands r₀ fs₀ history s) (hrecording : s.1.recording = some recording) :
    Stands r₀ fs₀ (history ++ [(now, .stop)]) (Call.stop.perform now s) := by
  have hsince := sinceStart?_concat history (now, .stop)
  rw [if_neg nofun] at hsince
  cases h with
  | fresh h => cases hnew.symm.trans hrecording
  | @running calls recording fs h hgoing hinput houtput hsingle =>
    rw [h] at hsince
    have hbefore : beforeStop (calls ++ [(now, .stop)]) = beforeStop calls :=
      beforeStop_concat_of_stop (.inr rfl)
    refine .stopped hsince (fun hgoing => hgoing _ List.mem_concat_self rfl) ?_ ?_
    · unfold inputLines
      rw [hbefore]
      exact hinput.holds
    · intro path hpath
      obtain ⟨w, -, hfollows⟩ := houtput path hpath
      unfold outputLines
      rw [hbefore]
      exact hfollows.holds
  | stopped h hstop hinput houtput => cases hrecording

/-- While a recording is on, an input is written behind the others. -/
theorem recordInput_of_recording {recording : Recording} (hrecording : r.recording = some recording)
    (htime : r.isRecording now = true) (name text : String) (fs : Files) :
    r.recordInput now name text fs =
      let written := writeLine fs recording.input (inputLine now name text)
      ({ r with recording := some { recording with input := written.1 } }, written.2) := by
  unfold recordInput
  rw [hrecording]
  dsimp only
  rw [if_pos htime]

/-- While a recording is on, a result is written behind the others. -/
theorem recordOutput_of_recording {recording : Recording} {w : Writer}
    (hrecording : r.recording = some recording) (hw : recording.output = some w)
    (htime : r.isRecording now = true) (name : String) (success : Bool) (text : String)
    (fs : Files) : r.recordOutput now name success text fs =
      let written := writeLine fs w (outputLine now name success text)
      ({ r with recording := some { recording with output := some written.1 } }, written.2) := by
  unfold recordOutput
  rw [hrecording]
  dsimp only
  rw [hw]
  dsimp only
  rw [if_pos htime]

/-- Without a file of outputs no result is recorded. -/
theorem recordOutput_of_single {recording : Recording} (hrecording : r.recording = some recording)
    (hw : recording.output = none) (name : String) (success : Bool) (text : String) (fs : Files) :
    r.recordOutput now name success text fs = (r, fs) := by
  unfold recordOutput
  rw [hrecording]
  dsimp only
  rw [hw]

/-- An input adds a line to the file of inputs, and none to the other. -/
theorem Stands.input {recording : Recording} {name text : String} (hnew : r₀.recording = none)
    (hfiles : ∀ path ∈ r₀.outputPath, ¬ Files.SameFile r₀.inputPath path)
    (h : Stands r₀ fs₀ history s) (hrecording : s.1.recording = some recording)
    (hwell : (Call.input name text).GoesWell now s) :
    Stands r₀ fs₀ (history ++ [(now, .input name text)])
      ((Call.input name text).perform now s) := by
  have hsince := sinceStart?_concat history (now, .input name text)
  rw [if_neg nofun] at hsince
  cases h with
  | fresh h => cases hnew.symm.trans hrecording
  | @running calls recording fs h hgoing hinput houtput hsingle =>
    rw [h] at hsince
    have hbefore : beforeStop (calls ++ [(now, .input name text)]) = beforeStop calls ++ [_] :=
      beforeStop_concat_of_going hgoing nofun
    have hperform : (Call.input name text).perform now
        ({ r₀ with recording := some recording }, fs) = _ :=
      recordInput_of_recording rfl (hwell.2 rfl) name text fs
    rw [hperform]
    refine .running hsince (going_concat hgoing nofun) ?_ ?_ hsingle
    · unfold inputLines
      rw [hbefore, List.filterMap_append]
      exact hinput.writeLine (inputLine now name text)
    · intro path hpath
      obtain ⟨w, hw, hfollows⟩ := houtput path hpath
      refine ⟨w, hw, ?_⟩
      unfold outputLines
      rw [hbefore, List.filterMap_append]
      show w.Follows _ path (outputLines calls ++ [])
      rw [List.append_nil]
      exact hfollows.insert (hinput.trail_ne hfollows (hfiles path hpath)).symm _
  | stopped h hstop hinput houtput => cases hrecording

/-- A result adds a line to the file of outputs if there is one, and none to the other. -/
theorem Stands.output {recording : Recording} {name text : String} {success : Bool}
    (hnew : r₀.recording = none)
    (hfiles : ∀ path ∈ r₀.outputPath, ¬ Files.SameFile r₀.inputPath path)
    (h : Stands r₀ fs₀ history s) (hrecording : s.1.recording = some recording)
    (hwell : (Call.output name success text).GoesWell now s) :
    Stands r₀ fs₀ (history ++ [(now, .output name success text)])
      ((Call.output name success text).perform now s) := by
  have hsince := sinceStart?_concat history (now, .output name success text)
  rw [if_neg nofun] at hsince
  cases h with
  | fresh h => cases hnew.symm.trans hrecording
  | @running calls recording fs h hgoing hinput houtput hsingle =>
    rw [h] at hsince
    have hbefore : beforeStop (calls ++ [(now, .output name success text)]) =
        beforeStop calls ++ [_] := beforeStop_concat_of_going hgoing nofun
    have hinput' : inputLines (calls ++ [(now, .output name success text)]) = inputLines calls := by
      unfold inputLines
      rw [hbefore, List.filterMap_append]
      exact List.append_nil _
    obtain hpath | ⟨path, hpath⟩ := r₀.outputPath.eq_none_or_eq_some
    · have hperform : (Call.output name success text).perform now
          ({ r₀ with recording := some recording }, fs) =
          ({ r₀ with recording := some recording }, fs) :=
        recordOutput_of_single (r := { r₀ with recording := some recording }) rfl (hsingle hpath)
          name success text fs
      rw [hperform]
      refine .running hsince (going_concat hgoing nofun) ?_ ?_ hsingle
      · rw [hinput']
        exact hinput
      · intro path hsome
        cases hpath.symm.trans hsome
    · obtain ⟨w, hw, hfollows⟩ := houtput path hpath
      have hperform : (Call.output name success text).perform now
          ({ r₀ with recording := some recording }, fs) = _ :=
        recordOutput_of_recording rfl hw (hwell.2 rfl) name success text fs
      rw [hperform]
      refine .running hsince (going_concat hgoing nofun) ?_ ?_ ?_
      · rw [hinput']
        exact hinput.insert (hinput.trail_ne hfollows (hfiles path hpath)) _
      · intro path' hpath'
        cases hpath.symm.trans hpath'
        refine ⟨_, rfl, ?_⟩
        unfold outputLines
        rw [hbefore, List.filterMap_append]
        exact hfollows.writeLine (outputLine now name success text)
      · intro hnone
        cases hpath.symm.trans hnone
  | stopped h hstop hinput houtput => cases hrecording

/-- **One call.** -/
theorem Stands.perform {call : Call} (hnew : r₀.recording = none)
    (hfiles : ∀ path ∈ r₀.outputPath, ¬ Files.SameFile r₀.inputPath path)
    (h : Stands r₀ fs₀ history s) (hwell : call.GoesWell now s) :
    Stands r₀ fs₀ (history ++ [(now, call)]) (call.perform now s) := by
  by_cases hcall : call = .start
  · subst hcall
    exact h.start hnew hfiles hwell
  · cases hrecording : s.1.recording with
    | none => exact h.idle hcall hrecording
    | some recording =>
      cases call with
      | start => exact absurd rfl hcall
      | stop => exact h.stop hnew hrecording
      | input name text => exact h.input hnew hfiles hrecording hwell
      | output name success text => exact h.output hnew hfiles hrecording hwell

/-- **A whole history.** -/
theorem stands_run (hnew : r₀.recording = none)
    (hfiles : ∀ path ∈ r₀.outputPath, ¬ Files.SameFile r₀.inputPath path)
    (hwell : GoesWell history (r₀, fs₀)) :
    Stands r₀ fs₀ history (run history (r₀, fs₀)) := by
  induction history using List.reverseRecOn with
  | nil => exact .fresh rfl
  | append_singleton history e ih =>
    obtain ⟨hbefore, hcall⟩ := goesWell_concat.1 hwell
    rw [run_concat]
    exact (ih hbefore).perform hnew hfiles hcall

end Recorder

/-! ## Lines for a reader -/

namespace Text

variable {sep : Char} {p : List Char}

/-- A text cut at its first separators, so many at most. -/
def cutFirst (sep : Char) : Nat → List Char → List (List Char)
  | 0, cs => [cs]
  | n + 1, cs =>
    match splitFirst sep cs with
    | none => [cs]
    | some (p, rest) => p :: cutFirst sep n rest

/-- A field ends at the first separator. -/
theorem cutFirst_append (h : sep ∉ p) (n : Nat) (cs : List Char) :
    cutFirst sep (n + 1) (p ++ sep :: cs) = p :: cutFirst sep n cs := by
  rw [cutFirst, splitFirst_append h]

/-- Ended lines are the pieces of what they make together, and behind the last is nothing. -/
theorem pieces_flatMap_ended {lines : List String} (h : ∀ line ∈ lines, '\n' ∉ line.toList) :
    pieces '\n' (lines.flatMap fun line => line.toList ++ ['\n']) =
      lines.map String.toList ++ [[]] := by
  induction lines with
  | nil => rfl
  | cons line lines ih =>
    rw [List.flatMap_cons, List.append_assoc, List.singleton_append,
      pieces_append (h line List.mem_cons_self), ih fun l hl => h l (List.mem_cons_of_mem _ hl)]
    rfl

end Text

/-- Whether a path leads to a file of ended lines which, cut at so many tabs from the left, are
these. -/
def Files.Shows (fs : Files) (path : String) (tabs : Nat) (entries : List (List (List Char))) :
    Prop :=
  ∃ (text : String) (lines : List (List Char)), fs.read? path = some (Utf8.ofString text) ∧
    Text.pieces '\n' text.toList = lines ++ [[]] ∧ lines.map (Text.cutFirst '\t' tabs) = entries

/-- A file of whole lines shows a reader the fields of each line. -/
theorem Files.Holds.shows {fs : Files} {path : String} {lines : List String}
    (h : fs.Holds path lines) (hlines : ∀ line ∈ lines, '\n' ∉ line.toList) (tabs : Nat) :
    fs.Shows path tabs (lines.map fun line => Text.cutFirst '\t' tabs line.toList) := by
  have hbytes : writtenLines lines =
      Utf8.ofString (String.ofList (lines.flatMap fun line => line.toList ++ ['\n'])) := by
    unfold writtenLines Utf8.ofString
    rw [String.toList_ofList]
    clear h hlines
    induction lines with
    | nil => rfl
    | cons line lines ih =>
      rw [List.flatMap_cons, List.flatMap_cons, Utf8.encode_append, ih, String.toList_append]
      rfl
  refine ⟨_, lines.map String.toList, h.trans (congrArg some hbytes), ?_, ?_⟩
  · rw [String.toList_ofList]
    exact Text.pieces_flatMap_ended hlines
  · rw [List.map_map]
    rfl

namespace Recorder

/-- What a line says about an input: when it came, to which method, and what it is. -/
def inputEntry? : Nat × Call → Option (List (List Char))
  | (now, .input name text) => some [(Text.decimal (now / 1000000)).toList, name.toList,
      text.toList.map Text.unbroken]
  | _ => none

/-- What a line says about a result: when it was there, of which method, whether the call
succeeded, and what it is. -/
def outputEntry? : Nat × Call → Option (List (List Char))
  | (now, .output name success text) => some [(Text.decimal (now / 1000000)).toList, name.toList,
      (if success then "true" else "false").toList, text.toList.map Text.unbroken]
  | _ => none

/-- What the file of inputs is to show: an entry for each input that was recorded before a stop. -/
def inputEntries (calls : History) : List (List (List Char)) :=
  (beforeStop calls).filterMap inputEntry?

/-- What the file of outputs is to show: an entry for each result that was recorded before a
stop. -/
def outputEntries (calls : History) : List (List (List Char)) :=
  (beforeStop calls).filterMap outputEntry?

/-- Whether a call records nothing, or does so under a name that fits. -/
def Call.NameFits : Call → Prop
  | .start => True
  | .stop => True
  | .input name _ => FitsField name
  | .output name _ _ => FitsField name

section

variable {name : String} {now : Nat} {history calls : History} {s : Recorder × Files}

theorem toList_inputLine (now : Nat) (name text : String) : (inputLine now name text).toList =
    (Text.decimal (now / 1000000)).toList ++ '\t' :: (name.toList ++ '\t' ::
      text.toList.map Text.unbroken) := by
  unfold inputLine singleLine
  simp only [String.toList_append, String.toList_ofList, List.append_assoc]
  rfl

theorem toList_outputLine (now : Nat) (name : String) (success : Bool) (text : String) :
    (outputLine now name success text).toList =
      (Text.decimal (now / 1000000)).toList ++ '\t' :: (name.toList ++ '\t' ::
        ((if success then "true" else "false").toList ++ '\t' :: text.toList.map Text.unbroken)) := by
  unfold outputLine singleLine
  simp only [String.toList_append, String.toList_ofList, List.append_assoc]
  rfl

/-- Neither a tab nor a line feed is a digit. -/
theorem not_mem_stamp (now : Nat) : '\t' ∉ (Text.decimal (now / 1000000)).toList ∧
    '\n' ∉ (Text.decimal (now / 1000000)).toList :=
  ⟨Text.not_mem_decimal_of_isBlank (by decide), Text.not_mem_decimal_of_isBlank (by decide)⟩

/-- **An input line has three fields**: when, of which method, and what. The last one may have tabs
in it. -/
theorem cutFirst_inputLine (h : FitsField name) (now : Nat) (text : String) :
    Text.cutFirst '\t' 2 (inputLine now name text).toList =
      [(Text.decimal (now / 1000000)).toList, name.toList, text.toList.map Text.unbroken] := by
  rw [toList_inputLine, Text.cutFirst_append (not_mem_stamp now).1, Text.cutFirst_append h.1]
  rfl

/-- **An output line has four fields.** -/
theorem cutFirst_outputLine (h : FitsField name) (now : Nat) (success : Bool) (text : String) :
    Text.cutFirst '\t' 3 (outputLine now name success text).toList =
      [(Text.decimal (now / 1000000)).toList, name.toList,
        (if success then "true" else "false").toList, text.toList.map Text.unbroken] := by
  have hword : '\t' ∉ (if success then "true" else "false").toList := by cases success <;> decide
  rw [toList_outputLine, Text.cutFirst_append (not_mem_stamp now).1, Text.cutFirst_append h.1,
    Text.cutFirst_append hword]
  rfl

/-- An input line is one line. -/
theorem feed_not_mem_inputLine (h : FitsField name) (now : Nat) (text : String) :
    '\n' ∉ (inputLine now name text).toList := by
  have hfields := And.intro (not_mem_stamp now).2
    (And.intro h.2.1 (Text.not_mem_map_unbroken text.toList))
  rw [toList_inputLine]
  simpa [List.mem_append, List.mem_cons] using hfields

/-- An output line is one line. -/
theorem feed_not_mem_outputLine (h : FitsField name) (now : Nat) (success : Bool) (text : String) :
    '\n' ∉ (outputLine now name success text).toList := by
  have hword : '\n' ∉ (if success then "true" else "false").toList := by cases success <;> decide
  have hfields := And.intro (not_mem_stamp now).2
    (And.intro h.2.1 (And.intro hword (Text.not_mem_map_unbroken text.toList)))
  rw [toList_outputLine]
  simpa [List.mem_append, List.mem_cons] using hfields

theorem nameFits_of_goesWell (h : GoesWell history s) : ∀ e ∈ history, e.2.NameFits := by
  induction history generalizing s with
  | nil => exact fun _ => nofun
  | cons e es ih =>
    obtain ⟨hfirst, hrest⟩ := h
    intro e' he'
    rcases List.mem_cons.1 he' with rfl | hmem
    · obtain ⟨now, call⟩ := e'
      cases call with
      | start => trivial
      | stop => trivial
      | input name text => exact hfirst.1
      | output name success text => exact hfirst.1
    · exact ih hrest e' hmem

theorem mem_of_sinceStart? (h : sinceStart? history = some calls) : ∀ e ∈ calls, e ∈ history := by
  induction history generalizing calls with
  | nil => cases h
  | cons e es ih =>
    intro e' he'
    rcases Option.or_eq_some_iff.1 h with hlater | ⟨-, hhere⟩
    · exact List.mem_cons_of_mem e (ih hlater e' he')
    · split at hhere
      · cases hhere
        exact List.mem_cons_of_mem e he'
      · cases hhere

/-- Lines show what they say. -/
theorem shows_of_lines {fs : Files} {path : String} {tabs : Nat}
    {line? : Nat × Call → Option String} {shown? : Nat × Call → Option (List (List Char))}
    (hfeed : ∀ e ∈ calls, ∀ line, line? e = some line → '\n' ∉ line.toList)
    (hcut : ∀ e ∈ calls, (line? e).map (fun line => Text.cutFirst '\t' tabs line.toList) = shown? e)
    (h : fs.Holds path ((beforeStop calls).filterMap line?)) :
    fs.Shows path tabs ((beforeStop calls).filterMap shown?) := by
  have hrecorded : ∀ e ∈ beforeStop calls, e ∈ calls := fun e he =>
    (List.takeWhile_prefix _).subset he
  have hlines : ∀ line ∈ (beforeStop calls).filterMap line?, '\n' ∉ line.toList := by
    intro line hline
    obtain ⟨e, he, hsome⟩ := List.mem_filterMap.1 hline
    exact hfeed e (hrecorded e he) line hsome
  have hshows := h.shows hlines tabs
  rw [List.map_filterMap, List.filterMap_congr fun e he => hcut e (hrecorded e he)] at hshows
  exact hshows

/-- The file of inputs shows the calls of the stretch. -/
theorem shows_inputs {fs : Files} {path : String} (hfits : ∀ e ∈ calls, e.2.NameFits)
    (h : fs.Holds path (inputLines calls)) : fs.Shows path 2 (inputEntries calls) := by
  refine shows_of_lines ?_ ?_ h
  · rintro ⟨now, call⟩ he line hline
    cases call with
    | input name text =>
      cases hline
      exact feed_not_mem_inputLine (hfits _ he) now text
    | _ => cases hline
  · rintro ⟨now, call⟩ he
    cases call with
    | input name text => exact congrArg some (cutFirst_inputLine (hfits _ he) now text)
    | _ => rfl

/-- The file of outputs shows their results. -/
theorem shows_outputs {fs : Files} {path : String} (hfits : ∀ e ∈ calls, e.2.NameFits)
    (h : fs.Holds path (outputLines calls)) : fs.Shows path 3 (outputEntries calls) := by
  refine shows_of_lines ?_ ?_ h
  · rintro ⟨now, call⟩ he line hline
    cases call with
    | output name success text =>
      cases hline
      exact feed_not_mem_outputLine (hfits _ he) now success text
    | _ => cases hline
  · rintro ⟨now, call⟩ he
    cases call with
    | output name success text =>
      exact congrArg some (cutFirst_outputLine (hfits _ he) now success text)
    | _ => rfl

end

/-! ## The log since the last start -/

/-- **The capture files are the log since the last start.** -/
theorem captures_since_start (r : Recorder) (fs : Files) (history : History)
    (hnew : r.recording = none)
    (hfiles : ∀ path ∈ r.outputPath, ¬ Files.SameFile r.inputPath path)
    (hwell : GoesWell history (r, fs)) :
    (match sinceStart? history with
      | none => (run history (r, fs)).2 = fs
      | some calls => (run history (r, fs)).2.Shows r.inputPath 2 (inputEntries calls) ∧
        ∀ path ∈ r.outputPath, (run history (r, fs)).2.Shows path 3 (outputEntries calls)) ∧
    ((∀ calls, sinceStart? history = some calls → ∃ now, (now, Call.stop) ∈ calls) →
      ∀ (now : Nat) (call : Call), call ≠ .start →
        (call.perform now (run history (r, fs))).2 = (run history (r, fs)).2) := by
  have hstands : Stands r fs history (run history (r, fs)) := stands_run hnew hfiles hwell
  have hfits := nameFits_of_goesWell hwell
  generalize run history (r, fs) = s at hstands
  cases hstands with
  | fresh h =>
    rw [h]
    exact ⟨rfl, fun _ now call hcall =>
      congrArg Prod.snd (perform_of_idle (s := (r, fs)) hcall hnew)⟩
  | @running calls recording fs' h hgoing hinput houtput hsingle =>
    have hfits' : ∀ e ∈ calls, e.2.NameFits := fun e he => hfits e (mem_of_sinceStart? h e he)
    rw [h]
    refine ⟨⟨shows_inputs hfits' hinput.holds, fun path hpath => ?_⟩, fun hstop => ?_⟩
    · obtain ⟨w, -, hfollows⟩ := houtput path hpath
      exact shows_outputs hfits' hfollows.holds
    · obtain ⟨now, hmem⟩ := hstop calls rfl
      exact absurd rfl (hgoing _ hmem)
  | @stopped calls fs' h hstop hinput houtput =>
    have hfits' : ∀ e ∈ calls, e.2.NameFits := fun e he => hfits e (mem_of_sinceStart? h e he)
    rw [h]
    exact ⟨⟨shows_inputs hfits' hinput,
        fun path hpath => shows_outputs hfits' (houtput path hpath)⟩,
      fun _ now call hcall => congrArg Prod.snd
        (perform_of_idle (s := ({ r with recording := none }, fs')) hcall rfl)⟩

/-- Two files of one server, with a record before the start, one of each kind behind it, and one
behind the stop. -/
theorem captures_since_start_add :
    let r := Recorder.new "in" (some "out") 60000000000 8080
    let history : History := [(0, .input "ADD" "early"), (1000000, .start),
      (2000000, .input "ADD" "1\t\n2"), (3000000, .output "ADD" true "3"), (4000000, .stop),
      (5000000, .input "ADD" "late")]
    GoesWell history (r, Files.empty) ∧
      (run history (r, Files.empty)).2.Shows "in_8080" 2
        [["2".toList, "ADD".toList, "1\t 2".toList]] ∧
      (run history (r, Files.empty)).2.Shows "out_8080" 3
        [["3".toList, "ADD".toList, "true".toList, "3".toList]] := by
  intro r history
  have hfits : FitsField "ADD" := ⟨by decide, by decide, by decide⟩
  have hwell : GoesWell history (r, Files.empty) := by
    have hstart : (r.start 1000000 Files.empty).1 = true := by decide +kernel
    refine ⟨⟨hfits, ?_⟩, hstart, ⟨hfits, ?_⟩, ⟨hfits, ?_⟩, trivial, ⟨hfits, ?_⟩, trivial⟩
    all_goals decide +kernel
  have hfiles : ∀ path ∈ r.outputPath, ¬ Files.SameFile r.inputPath path := by
    rintro path hpath ⟨fs, trail, hin, hout⟩
    cases hpath
    have hin : trail = ["in_8080"] :=
      Files.eq_of_resolve_single (by decide +kernel) (by decide) hin
    have hout : trail = ["out_8080"] :=
      Files.eq_of_resolve_single (by decide +kernel) (by decide) hout
    exact absurd (hin.symm.trans hout) (by decide)
  have hentries := (captures_since_start r Files.empty history rfl hfiles hwell).1
  exact ⟨hwell, hentries.1, hentries.2 "out_8080" rfl⟩

/-- With one path for both, the two writers write over each other: behind a record of each kind
there is one line, and it is the one about the result. -/
theorem same_file_overwritten :
    let r := Recorder.new "x" (some "x") 60000000000 8080
    let history : History := [(0, .start), (1000000, .input "ADD" "1"),
      (2000000, .output "ADD" true "2")]
    r.recording = none ∧ GoesWell history (r, Files.empty) ∧
      ∃ calls, sinceStart? history = some calls ∧
        ¬ (run history (r, Files.empty)).2.Shows r.inputPath 2 (inputEntries calls) := by
  intro r history
  have hfits : FitsField "ADD" := ⟨by decide, by decide, by decide⟩
  have hwell : GoesWell history (r, Files.empty) := by
    have hstart : (r.start 0 Files.empty).1 = true := by decide +kernel
    refine ⟨hstart, ⟨hfits, ?_⟩, ⟨hfits, ?_⟩, trivial⟩
    all_goals decide +kernel
  have hread : (run history (r, Files.empty)).2.read? r.inputPath =
      some (Utf8.ofString "2\tADD\ttrue\t2\n") := by
    decide +kernel
  refine ⟨rfl, hwell, history.tail, rfl, ?_⟩
  rintro ⟨text, lines, htext, hpieces, hentries⟩
  have htext : text = "2\tADD\ttrue\t2\n" :=
    Utf8.ofString_injective (Option.some.inj (htext.symm.trans hread))
  have hlines : lines = ["2\tADD\ttrue\t2".toList] := by
    have hcut : Text.pieces '\n' text.toList = ["2\tADD\ttrue\t2".toList] ++ [[]] := by
      rw [htext]
      decide +kernel
    exact List.append_cancel_right (hpieces.symm.trans hcut)
  rw [hlines] at hentries
  exact absurd hentries (by decide +kernel)

end Recorder

end Switchboard
