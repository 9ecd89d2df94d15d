import Switchboard.Frame
import Switchboard.Text.Ascii
import Switchboard.Text.Blank
import Switchboard.Text.Pieces

/-!
# Where a request ends

One connection carries frames and HTTP requests, and which of the two comes next is read off the
first bytes. `Boundary.of?` finds the request at the front of what has arrived, or says that
bytes of it are missing. Nothing that arrives is refused here; a malformed request is merely one
that never becomes complete.
-/

namespace Switchboard

/-- How a request is delimited. -/
inductive Framing
  /-- By a length in front of it. -/
  | binary
  /-- By the rules of HTTP. -/
  | http
  deriving DecidableEq, Repr

/-- A request that has arrived in full. -/
structure Boundary where
  framing : Framing
  /-- The number of bytes that belong to the request. -/
  length : Nat
  deriving DecidableEq, Repr

namespace Boundary

/-- The verb of a request without a body. -/
def getVerb : Bytes := [0x47, 0x45, 0x54]

/-- The verb of a request with a body. -/
def postVerb : Bytes := [0x50, 0x4F, 0x53, 0x54]

/-- The framing that the first bytes tell. -/
def sniff (buf : Bytes) : Framing :=
  if getVerb.isPrefixOf buf || postVerb.isPrefixOf buf then .http else .binary

/-- The offset behind the blank line that ends the head of an HTTP request. The line may be
written with or without carriage returns; whichever form comes first counts. -/
def headEnd (buf : Bytes) : Option Nat :=
  match Bytes.find [0x0D, 0x0A, 0x0D, 0x0A] buf, Bytes.find [0x0A, 0x0A] buf with
  | some long, some short => some (if long ≤ short then long + 4 else short + 2)
  | some long, none => some (long + 4)
  | none, some short => some (short + 2)
  | none, none => none

/-- The length that a header line announces, if it is such a line. -/
def lengthOfLine (line : Bytes) : Option Nat := do
  let cs ← Utf8.decode? line
  let (name, value) ← Text.splitFirst ':' cs
  if Text.sameFold (String.ofList (Text.trim name)) "content-length" then
    Text.readNat Text.maxWord (Text.trim value)
  else none

/-- The length that the first usable header line announces. -/
def contentLength (head : Bytes) : Option Nat :=
  (Bytes.pieces 0x0A head).findSome? lengthOfLine

/-- The length of an HTTP request that has arrived in full. A body whose length is not announced
is one byte long. -/
def httpLength (buf : Bytes) : Option Nat := do
  let head ← headEnd buf
  if postVerb.isPrefixOf buf then
    let total := head + (contentLength (buf.take head)).getD 1
    if total ≤ Text.maxWord ∧ total ≤ buf.length then some total else none
  else some head

/-- The request at the front of the bytes, if it has arrived in full. -/
def of? (buf : Bytes) : Option Boundary :=
  match sniff buf with
  | .binary => ((Frame.length? buf).filter (· ≤ buf.length)).map (⟨.binary, ·⟩)
  | .http => (httpLength buf).map (⟨.http, ·⟩)

end Boundary

end Switchboard
