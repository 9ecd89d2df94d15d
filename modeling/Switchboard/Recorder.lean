import Switchboard.Files
import Switchboard.Text.Blank
import Switchboard.Text.Numeral

/-!
# Recording

A recorder writes one line for every call to a file of inputs, and one for every result to a file
of outputs if there is to be one. It writes between a start, which empties the files, and a stop,
and for a limited time at most. Times are readings of a clock that counts nanoseconds.
-/

namespace Switchboard

/-- A file that is being written. -/
structure Writer where
  trail : Trail
  /-- Where the next line goes. -/
  offset : Nat
  deriving DecidableEq, Repr

/-- A recording that has been started. -/
structure Recording where
  started : Nat
  input : Writer
  output : Option Writer
  deriving DecidableEq, Repr

/-- A recorder. -/
structure Recorder where
  inputPath : String
  outputPath : Option String
  /-- How many nanoseconds a recording lasts. -/
  maxDuration : Nat
  recording : Option Recording
  deriving DecidableEq, Repr

namespace Recorder

/-- The path of a file of the server on a port. -/
def withPort (path : String) (port : Nat) : String := path ++ "_" ++ Text.decimal port

/-- A recorder that has not been started. -/
def new (inputPath : String) (outputPath : Option String) (maxDuration port : Nat) : Recorder :=
  ⟨withPort inputPath port, outputPath.map (withPort · port), maxDuration, none⟩

/-- The file of outputs, if there is to be one; fails if it cannot be there. -/
def createOutput (files : Files) : Option String → Option (Option Writer × Files)
  | none => some (none, files)
  | some path => (files.create? path).map fun (trail, files) => (some ⟨trail, 0⟩, files)

/-- Starts a recording in empty files. Tells whether they can be there; if not, everything stays
as it was, save that the file of inputs may be there and empty. -/
def start (r : Recorder) (now : Nat) (files : Files) : Bool × Recorder × Files :=
  match files.create? r.inputPath with
  | none => (false, r, files)
  | some (trail, files) =>
    match createOutput files r.outputPath with
    | none => (false, r, files)
    | some (output, files) => (true, { r with recording := some ⟨now, ⟨trail, 0⟩, output⟩ }, files)

/-- Ends the recording. -/
def stop (r : Recorder) : Recorder := { r with recording := none }

/-- Whether a recording has been started and its time is not over. -/
def isRecording (r : Recorder) (now : Nat) : Bool :=
  match r.recording with
  | some recording => now - recording.started ≤ r.maxDuration
  | none => false

/-! ## Lines -/

/-- A text with blanks in place of line ends. -/
def singleLine (s : String) : String :=
  String.ofList (s.toList.map Text.unbroken)

/-- The line about an input: when, of which method, and what. -/
def inputLine (now : Nat) (name json : String) : String :=
  Text.decimal (now / 1000000) ++ "\t" ++ name ++ "\t" ++ singleLine json

/-- The line about a result: when, of which method, whether the call succeeded, and what. -/
def outputLine (now : Nat) (name : String) (success : Bool) (json : String) : String :=
  Text.decimal (now / 1000000) ++ "\t" ++ name ++ "\t" ++ (if success then "true" else "false") ++
    "\t" ++ singleLine json

/-- Writes a line. -/
def writeLine (files : Files) (w : Writer) (line : String) : Writer × Files :=
  let bytes := Utf8.ofString (line ++ "\n")
  ({ w with offset := w.offset + bytes.length }, files.write w.trail w.offset bytes)

/-- Records an input. -/
def recordInput (r : Recorder) (now : Nat) (name json : String) (files : Files) :
    Recorder × Files :=
  match r.recording with
  | none => (r, files)
  | some recording =>
    if r.isRecording now then
      let (input, files) := writeLine files recording.input (inputLine now name json)
      ({ r with recording := some { recording with input } }, files)
    else (r, files)

/-- Records a result, if results are recorded. -/
def recordOutput (r : Recorder) (now : Nat) (name : String) (success : Bool) (json : String)
    (files : Files) : Recorder × Files :=
  match r.recording with
  | none => (r, files)
  | some recording =>
    match recording.output with
    | none => (r, files)
    | some writer =>
      if r.isRecording now then
        let (writer, files) := writeLine files writer (outputLine now name success json)
        ({ r with recording := some { recording with output := some writer } }, files)
      else (r, files)

end Recorder

end Switchboard
