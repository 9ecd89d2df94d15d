import Switchboard.Bytes
import Switchboard.Dict
import Switchboard.Text.Pieces
import Switchboard.Text.Utf8

/-!
# Files

The files that a server reads and writes, by the path that leads to them from the directory it
runs in. A directory is there if a file is in it. Different spellings of one path lead to one
file: repeated slashes and steps that stay where they are do not count, and a step upwards undoes
the one before it.
-/

namespace Switchboard

/-- A path to a file or directory, step by step. -/
abbrev Trail := List String

/-- The files that are there. -/
structure Files where
  contents : Dict Trail Bytes
  deriving DecidableEq

namespace Files

/-- No files. -/
def empty : Files := ⟨∅⟩

/-- The longest name of a file, in bytes. -/
def longestName : Nat := 255

/-- The longest path, in bytes. -/
def longestPath : Nat := 4095

/-- Whether there is a directory at the end of a trail. The one the server runs in is there, and
so are those above it. -/
def isDirectory (fs : Files) (trail : Trail) : Bool :=
  trail.all (· == "..") ||
    fs.contents.keys.any fun file => trail.isPrefixOf file && trail.length < file.length

/-- The steps that a path consists of. A path from the top begins with a slash as a step. -/
def steps (path : String) : Trail :=
  let names := (Text.pieces '/' path.toList).filter fun s => s ≠ [] ∧ s ≠ ['.']
  (if path.toList.head? = some '/' then ["/"] else []) ++ names.map String.ofList

/-- One step on from a trail that leads to a directory. -/
def step (fs : Files) (trail : Trail) (name : String) : Option Trail :=
  if !fs.isDirectory trail || longestName < (Utf8.ofString name).length then none
  else if name = ".." then
    if trail.all (· == "..") then some (trail ++ [".."]) else some trail.dropLast
  else some (trail ++ [name])

/-- The trail of a path, if it is not too long and all directories on it are there. -/
def resolve (fs : Files) (path : String) : Option Trail :=
  if path.toList.contains '\x00' || longestPath < (Utf8.ofString path).length then none
  else (steps path).foldlM fs.step []

/-- The contents of the file that a path leads to. -/
def read? (fs : Files) (path : String) : Option Bytes :=
  (fs.resolve path).bind fs.contents.get?

/-- The files with one put there, together with the directories on its path. -/
def add (fs : Files) (path : String) (contents : Bytes) : Files :=
  ⟨fs.contents.insert (steps path) contents⟩

/-- The files with an empty one at a path, and the trail to it, if it can be there. -/
def create? (fs : Files) (path : String) : Option (Trail × Files) := do
  let trail ← fs.resolve path
  if fs.isDirectory trail then none else some (trail, ⟨fs.contents.insert trail []⟩)

/-- Bytes with others put in their place from an offset on. -/
def overwrite (offset : Nat) (new old : Bytes) : Bytes :=
  old.take offset ++ List.replicate (offset - old.length) 0 ++ new ++
    old.drop (offset + new.length)

/-- The files with bytes written into one from an offset on. -/
def write (fs : Files) (trail : Trail) (offset : Nat) (new : Bytes) : Files :=
  ⟨fs.contents.insert trail (overwrite offset new ((fs.contents.get? trail).getD []))⟩

end Files

end Switchboard
