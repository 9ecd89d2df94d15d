import Switchboard.Boundary

/-!
# Splitting a stream into requests

Bytes arrive in chunks that need not agree with the requests. A splitter holds the bytes that
have not become a request yet, takes requests off their front as long as they are complete, and
refuses to hold more than a limit, or to wait for a frame that announces more. When the stream
ends, what is left is handed over as a request that was cut off.
-/

namespace Switchboard

/-- A request as it was cut from the stream. -/
structure RawRequest where
  framing : Framing
  bytes : Bytes
  /-- Whether it arrived in full; what a closed stream leaves behind did not. -/
  complete : Bool
  deriving DecidableEq, Repr

namespace Splitter

/-- What a splitter answers when it is asked for the next request. -/
inductive Answer
  /-- A request, and the bytes behind it. -/
  | request (request : RawRequest) (rest : Bytes)
  /-- No request is complete. -/
  | incomplete
  /-- There are more bytes than the limit allows, or more are announced. -/
  | tooLarge
  deriving DecidableEq, Repr

/-- The sentence about bytes beyond the limit. -/
def tooLargeMessage (limit : Nat) : String :=
  "request exceeds the " ++ Text.decimal limit ++ " byte limit"

/-- The length of the frame that the bytes held begin, if they begin one and it has been told. -/
def announced (buf : Bytes) : Option Nat :=
  match Boundary.sniff buf with
  | .binary => Frame.length? buf
  | .http => none

/-- Whether a frame is announced that is longer than the limit allows. -/
def announcesTooMuch (limit : Nat) (buf : Bytes) : Bool := (announced buf).any (limit < ·)

/-- The next request among the bytes held. -/
def next (limit : Nat) (buf : Bytes) : Answer :=
  if limit < buf.length then .tooLarge
  else match Boundary.of? buf with
    | some found => .request ⟨found.framing, buf.take found.length, true⟩ (buf.drop found.length)
    | none => if announcesTooMuch limit buf then .tooLarge else .incomplete

/-- The next request among the bytes held when no more bytes will come: what is no complete
request is handed over as one that was cut off. -/
def nextAtEnd (limit : Nat) (buf : Bytes) : Answer :=
  match next limit buf with
  | .incomplete =>
    if buf.isEmpty then .incomplete else .request ⟨Boundary.sniff buf, buf, false⟩ []
  | answer => answer

/-- The requests taken off the front of the bytes held, what is left of them, and whether the
limit put an end to it. -/
structure Run where
  requests : List RawRequest
  rest : Bytes
  refused : Bool
  deriving DecidableEq, Repr

/-- Asks for the next request until there is none, at most `fuel` times. -/
def takeUpTo (ask : Bytes → Answer) : (fuel : Nat) → Bytes → Run
  | 0, buf => ⟨[], buf, false⟩
  | fuel + 1, buf =>
    match ask buf with
    | .request request rest =>
      let run := takeUpTo ask fuel rest
      { run with requests := request :: run.requests }
    | .incomplete => ⟨[], buf, false⟩
    | .tooLarge => ⟨[], buf, true⟩

/-- Takes all complete requests. No request is empty, so there are at most as many as bytes. -/
def takeAll (limit : Nat) (buf : Bytes) : Run :=
  takeUpTo (next limit) (buf.length + 1) buf

/-- Takes all requests of a stream that has ended. -/
def finish (limit : Nat) (buf : Bytes) : Run :=
  takeUpTo (nextAtEnd limit) (buf.length + 1) buf

/-- Goes on with a chunk, unless the limit has put an end to it. -/
def feed (limit : Nat) (run : Run) (chunk : Bytes) : Run :=
  if run.refused then run
  else
    let more := takeAll limit (run.rest ++ chunk)
    { more with requests := run.requests ++ more.requests }

/-- Splits a stream that arrives in chunks. -/
def feedAll (limit : Nat) (chunks : List Bytes) : Run :=
  chunks.foldl (feed limit) ⟨[], [], false⟩

end Splitter

end Switchboard
