import Switchboard.Proofs.Splitter
import Switchboard.Server.Conversation

/-!
# A conversation answers a stream

How the bytes of a connection are cut into chunks is nothing that the two sides can choose, so what
a conversation does must not depend on it. `Conversation.serve` says what it does in terms of the
stream alone: the complete requests are answered in order up to the first behind which the
connection closes. If it closes behind none of them, what is left of the stream is looked at. It may
announce too much, and is refused. If not it was cut off, and the only trace of it is that it is
counted.

That a conversation does just this (`Conversation.run_eq_serve`) is shown in two steps. One call of
`advance` answers the requests in its buffer (`Conversation.advance_of_cut`), which is an induction
on the cut of the buffer. Then the chunks are taken one at a time: what waits in the buffer, with
everything that is to come behind it, is cut as it would have been without the chunk border.
-/

namespace Switchboard.Server

open Splitter (announcesTooMuch)

variable {s : Server} {clock : State → Nat} {connection : Connection} {st st' : State}
  {r : RawRequest} {rs rs' requests : List RawRequest} {buf rest : Bytes}

/-! ## Steps in a row -/

section

variable {α β : Type} {m : Step α} {f : α → Step β} {a : α}

theorem bind_of_ok (h : m st = .ok (a, st')) : (m >>= f) st = f a st' := by
  show (m st >>= fun p => f p.1 p.2) = _
  rw [h]
  rfl

theorem bind_of_eq {m' : Step α} (h : m st = m' st') : (m >>= f) st = (m' >>= f) st' := by
  show (m st >>= fun p => f p.1 p.2) = _
  rw [h]
  rfl

theorem bind_of_error {e : Oversize} (h : m st = .error e) : (m >>= f) st = .error e := by
  show (m st >>= fun p => f p.1 p.2) = _
  rw [h]
  rfl

theorem exists_of_bind {b : β} (hrun : (m >>= f) st = .ok (b, st')) :
    ∃ a st₁, m st = .ok (a, st₁) ∧ f a st₁ = .ok (b, st') := by
  have hrun : (m st >>= fun one => f one.1 one.2) = .ok (b, st') := hrun
  rcases hfirst : m st with e | ⟨a, st₁⟩
  · rw [hfirst] at hrun
    cases hrun
  · rw [hfirst] at hrun
    exact ⟨a, st₁, rfl, hrun⟩

end

/-- The state in which a request is processed, which has been heard on a connection. -/
def begun (connection : Connection) (st : State) : State :=
  { st with
    lifecycle := st.lifecycle.beginRequest
    connections := st.connections.recordRequest connection.id }

/-- What is done with a request is done between its being heard and its being settled. -/
theorem respond_of_process {processed : Processed}
    (hrun : s.process connection (clock (begun connection st)) r (begun connection st) =
      .ok (processed, st')) :
    s.respond clock connection r st =
      .ok (processed, { st' with lifecycle := st'.lifecycle.endRequest }) := by
  show (s.process connection (clock (begun connection st)) r >>= fun processed => do
    modify fun st => { st with lifecycle := st.lifecycle.endRequest }
    return processed : Step Processed) (begun connection st) = _
  rw [bind_of_ok hrun]
  rfl

theorem exists_of_respond {processed : Processed}
    (hrun : s.respond clock connection r st = .ok (processed, st')) :
    ∃ st₁, s.process connection (clock (begun connection st)) r (begun connection st) =
        .ok (processed, st₁) ∧ st' = { st₁ with lifecycle := st₁.lifecycle.endRequest } := by
  have hrun : (s.process connection (clock (begun connection st)) r >>= fun processed => do
      modify fun st => { st with lifecycle := st.lifecycle.endRequest }
      return processed : Step Processed) (begun connection st) = .ok (processed, st') := hrun
  obtain ⟨processed', st₁, hprocess, hrest⟩ := exists_of_bind hrun
  cases hrest
  exact ⟨st₁, hprocess, rfl⟩

/-! ## What is owed to requests -/

/-- What requests in a row are answered with. -/
structure Answers where
  written : Bytes
  /-- Whether the connection stays open behind them. -/
  isOpen : Bool

/-- Whether a connection stays open behind a request. -/
def staysOpen (s : Server) (processed : Processed) : Bool :=
  processed.keepAlive && !s.settings.oneRequest

/-- Answers requests in order, up to the first behind which the connection closes. -/
def answerAll (s : Server) (clock : State → Nat) (connection : Connection) :
    List RawRequest → Step Answers
  | [] => return ⟨[], true⟩
  | r :: rs => do
    let processed ← s.respond clock connection r
    if s.staysOpen processed then
      let more ← answerAll s clock connection rs
      return ⟨processed.reply ++ more.written, more.isOpen⟩
    else return ⟨processed.reply, false⟩

/-- Whether the server is never told to shut down while it answers requests: behind no beginning of
them that leaves the connection open it has been. -/
def Undisturbed (s : Server) (clock : State → Nat) (connection : Connection)
    (requests : List RawRequest) (st : State) : Prop :=
  ∀ front, front <+: requests → ∀ answers st',
    answerAll s clock connection front st = .ok (answers, st') → answers.isOpen = true →
      st'.lifecycle.isStopping = false

theorem answerAll_cons : answerAll s clock connection (r :: rs) = (do
    let processed ← s.respond clock connection r
    if s.staysOpen processed then
      let more ← answerAll s clock connection rs
      return ⟨processed.reply ++ more.written, more.isOpen⟩
    else return ⟨processed.reply, false⟩) := rfl

/-- Requests are answered one after another, as long as the connection stays open. -/
theorem answerAll_append (rs rs' : List RawRequest) :
    answerAll s clock connection (rs ++ rs') = (do
      let answers ← answerAll s clock connection rs
      if answers.isOpen then
        let more ← answerAll s clock connection rs'
        return ⟨answers.written ++ more.written, more.isOpen⟩
      else return answers) := by
  induction rs with
  | nil => simp [answerAll]
  | cons r rs ih =>
    rw [List.cons_append, answerAll_cons, answerAll_cons, bind_assoc]
    congr 1
    funext processed
    cases s.staysOpen processed with
    | false =>
      rw [if_neg Bool.false_ne_true, if_neg Bool.false_ne_true, pure_bind]
      rfl
    | true =>
      rw [if_pos rfl, if_pos rfl, ih, bind_assoc, bind_assoc]
      congr 1
      funext answers
      rw [pure_bind]
      cases answers with
      | mk written isOpen =>
        cases isOpen with
        | false =>
          rw [if_neg Bool.false_ne_true, if_neg Bool.false_ne_true, pure_bind]
        | true =>
          rw [if_pos rfl, if_pos rfl, bind_assoc]
          congr 1
          funext more
          rw [pure_bind, List.append_assoc]

/-! ## Undisturbed requests -/

theorem Undisturbed.not_stopping (h : Undisturbed s clock connection requests st) :
    st.lifecycle.isStopping = false :=
  h [] (List.nil_prefix) ⟨[], true⟩ st rfl rfl

/-- Behind requests that leave the connection open the others are undisturbed. -/
theorem Undisturbed.of_append {answers : Answers}
    (h : Undisturbed s clock connection (rs ++ rs') st)
    (hrun : answerAll s clock connection rs st = .ok (answers, st'))
    (hopen : answers.isOpen = true) : Undisturbed s clock connection rs' st' := by
  intro front hfront more st'' hmore hmoreOpen
  have hprefix : rs ++ front <+: rs ++ rs' := (List.prefix_append_right_inj rs).2 hfront
  refine h _ hprefix ⟨answers.written ++ more.written, more.isOpen⟩ st'' ?_ hmoreOpen
  rw [answerAll_append, bind_of_ok hrun, hopen, if_pos rfl, bind_of_ok hmore]
  rfl

/-- Requests are undisturbed if the first one is and, where it leaves the connection open, the
others are behind it. -/
theorem undisturbed_cons (hst : st.lifecycle.isStopping = false)
    (hrest : ∀ processed st', s.respond clock connection r st = .ok (processed, st') →
      s.staysOpen processed = true → Undisturbed s clock connection rs st') :
    Undisturbed s clock connection (r :: rs) st := by
  intro front hfront answers st' hrun hopen
  cases front with
  | nil =>
    cases hrun
    exact hst
  | cons r' front =>
    obtain ⟨rfl, htail⟩ := List.cons_prefix_cons.1 hfront
    rw [answerAll_cons] at hrun
    cases hrespond : s.respond clock connection r' st with
    | error e =>
      rw [bind_of_error hrespond] at hrun
      cases hrun
    | ok p =>
      rw [bind_of_ok hrespond] at hrun
      cases hstays : s.staysOpen p.1 with
      | false =>
        rw [hstays] at hrun
        cases hrun
        cases hopen
      | true =>
        rw [hstays, if_pos rfl] at hrun
        cases hmore : answerAll s clock connection front p.2 with
        | error e =>
          rw [bind_of_error hmore] at hrun
          cases hrun
        | ok q =>
          rw [bind_of_ok hmore] at hrun
          cases hrun
          exact hrest p.1 p.2 hrespond hstays front htail q.1 _ hmore hopen

/-- Whoever is undisturbed through many requests is so through the first of them. -/
theorem Undisturbed.left (h : Undisturbed s clock connection (rs ++ rs') st) :
    Undisturbed s clock connection rs st :=
  fun front hfront => h front (hfront.trans (List.prefix_append rs rs'))

theorem answerAll_singleton {processed : Processed}
    (hrun : s.respond clock connection r st = .ok (processed, st')) :
    answerAll s clock connection [r] st = .ok (⟨processed.reply, s.staysOpen processed⟩, st') := by
  rw [answerAll_cons, bind_of_ok hrun]
  cases s.staysOpen processed with
  | false => rfl
  | true =>
    show Except.ok (Answers.mk (processed.reply ++ []) true, st') = _
    rw [List.append_nil]

namespace Conversation

variable {c : Conversation} {ask : Bytes → Splitter.Answer} {fuel limit : Nat}

/-! ## What is owed to a stream -/

/-- How it goes on behind answered requests when the bytes behind them have arrived in part: they
may announce too much. -/
def goOn (limit : Nat) (c : Conversation) (answers : Answers) (rest : Bytes) :
    Step Conversation :=
  let c := { c with buffer := rest, written := c.written ++ answers.written }
  if !answers.isOpen then c.close
  else if announcesTooMuch limit rest then c.refuse
  else return c

/-- How it ends behind answered requests when no more bytes come. What is left may announce too
much, and otherwise it is counted if there is any, but of neither does the server keep a trace. -/
def conclude (limit : Nat) (c : Conversation) (answers : Answers) (rest : Bytes) :
    Step Conversation := do
  let st ← get
  let id := c.connection.id
  let tooMuch := answers.isOpen && announcesTooMuch limit rest
  let cutOff := answers.isOpen && !tooMuch && !rest.isEmpty
  let connections := if cutOff then st.connections.recordRequest id else st.connections
  set { st with connections := st.connections.remove id }
  return {
    connection := c.connection
    buffer := []
    written := c.written ++ answers.written ++ if tooMuch then Utf8.ofString tooLong else []
    isOpen := false
    requests := connections.requestsOf id }

/-- What is to happen on a connection on which a stream arrives. -/
def serve (s : Server) (clock : State → Nat) (connection : Connection) (stream : Bytes) :
    Step Conversation := do
  let limit := s.network.maxRequestSize
  let split := Splitter.takeAll limit stream
  let answers ← answerAll s clock connection split.requests
  conclude limit (new connection) answers split.rest

/-! ## One call of `advance` -/

/-- Of a closed connection nothing more is read. -/
theorem advance_of_closed (h : c.isOpen = false) :
    advance s clock ask fuel c = return c := by
  cases fuel with
  | zero => rfl
  | succ fuel =>
    unfold advance
    rw [h]
    rfl

/-- One round of the loop: what is asked of the buffer is a request, a refusal, or more bytes. -/
theorem advance_succ (hopen : c.isOpen = true) (hstop : st.lifecycle.isStopping = false) :
    advance s clock ask (fuel + 1) c st = (match ask c.buffer with
      | .request r rest => do
        let c ← answer s clock { c with buffer := rest } r
        advance s clock ask fuel c
      | .tooLarge => c.refuse
      | .incomplete => return c : Step Conversation) st := by
  rw [advance, hopen]
  show (if st.lifecycle.isStopping then _ else _ : Step Conversation) st = _
  rw [hstop]
  rfl

/-- A server that stops closes the connection in front of the next request. -/
theorem advance_of_stopping (hopen : c.isOpen = true) (hstop : st.lifecycle.isStopping = true) :
    advance s clock ask (fuel + 1) c st = c.close st := by
  rw [advance, hopen]
  show (if st.lifecycle.isStopping then _ else _ : Step Conversation) st = _
  rw [hstop]
  rfl

/-- Behind a conversation that has closed nothing can be done but to give it back. -/
theorem close_bind {f : Conversation → Step Conversation}
    (hf : ∀ c : Conversation, c.isOpen = false → f c = return c) : (c.close >>= f) = c.close := by
  funext st
  show f _ _ = _
  rw [hf _ rfl]
  rfl

/-- A request is answered, and the loop goes on with the rest. -/
theorem advance_of_request (fuel : Nat) (hopen : c.isOpen = true)
    (hstop : st.lifecycle.isStopping = false) (hask : ask c.buffer = .request r rest) :
    advance s clock ask (fuel + 1) c st =
      (answer s clock { c with buffer := rest } r >>= advance s clock ask fuel) st := by
  rw [advance_succ hopen hstop, hask]

/-- A request that has arrived in full is answered, and the conversation goes on if it may. -/
theorem advance_of_respond {processed : Processed} (hopen : c.isOpen = true)
    (hstop : st.lifecycle.isStopping = false) (hask : ask c.buffer = .request r rest)
    (hcomplete : r.complete = true)
    (hrun : s.respond clock c.connection r st = .ok (processed, st')) :
    advance s clock ask (fuel + 1) c st =
      if s.staysOpen processed then
        advance s clock ask fuel
          { c with buffer := rest, written := c.written ++ processed.reply } st'
      else close { c with buffer := rest, written := c.written ++ processed.reply } st' := by
  have hanswer : answer s clock { c with buffer := rest } r = (do
      let processed ← s.respond clock c.connection r
      if s.staysOpen processed then
        return { c with buffer := rest, written := c.written ++ processed.reply }
      else close { c with buffer := rest, written := c.written ++ processed.reply }) := by
    -- the one condition of `answer` that `staysOpen` does not have
    unfold answer staysOpen
    rw [hcomplete]
    simp only [Bool.and_true]
  rw [advance_of_request fuel hopen hstop hask, hanswer, bind_assoc, bind_of_ok hrun]
  cases s.staysOpen processed with
  | true => rfl
  | false => exact congrFun (close_bind fun c => advance_of_closed) st'

theorem goOn_written (limit : Nat) (c : Conversation) (buf written : Bytes) (answers : Answers)
    (rest : Bytes) :
    goOn limit { c with buffer := buf, written := c.written ++ written } answers rest
      = goOn limit c ⟨written ++ answers.written, answers.isOpen⟩ rest := by
  unfold goOn
  simp only [List.append_assoc]

theorem conclude_written (limit : Nat) (c : Conversation) (buf written : Bytes)
    (answers : Answers) (rest : Bytes) :
    conclude limit { c with buffer := buf, written := c.written ++ written } answers rest
      = conclude limit c ⟨written ++ answers.written, answers.isOpen⟩ rest := by
  unfold conclude
  simp only [List.append_assoc]

/-- **One call.** The requests in the buffer are answered as they are owed to. -/
theorem advance_of_cut (hcut : Cut buf requests rest) (hle : buf.length ≤ limit)
    (hfuel : buf.length < fuel) (hopen : c.isOpen = true) (hbuf : c.buffer = buf)
    (hstop : Undisturbed s clock c.connection requests st) :
    advance s clock (Splitter.next limit) fuel c st = (do
      let answers ← answerAll s clock c.connection requests
      goOn limit c answers rest) st := by
  induction hcut generalizing c st fuel with
  | @rest buf hnone =>
    obtain ⟨fuel, rfl⟩ : ∃ k, fuel = k + 1 := ⟨fuel - 1, by omega⟩
    rw [advance_succ hopen hstop.not_stopping, hbuf, Splitter.next_of_of?_eq_none hle hnone]
    show _ = goOn limit c ⟨[], true⟩ buf st
    unfold goOn
    have hsame : { c with buffer := buf, written := c.written ++ [] } = c := by
      rw [List.append_nil, ← hbuf]
    rw [hsame]
    cases announcesTooMuch limit buf <;> rfl
  | @request buf rest b rs hfound hmore ih =>
    subst hbuf
    obtain ⟨fuel, rfl⟩ : ∃ k, fuel = k + 1 := ⟨fuel - 1, by omega⟩
    obtain ⟨h4, hb⟩ := Boundary.bounds_of_of? hfound
    have hdrop : (c.buffer.drop b.length).length = c.buffer.length - b.length := List.length_drop
    have hask := Splitter.next_of_of? hle hfound
    rw [answerAll_cons, bind_assoc]
    cases hrun : s.respond clock c.connection ⟨b.framing, c.buffer.take b.length, true⟩ st with
    | error e =>
      -- a request that cannot be answered ends both sides alike
      rw [advance_of_request fuel hopen hstop.not_stopping hask, bind_of_error hrun]
      exact bind_of_error (bind_of_error hrun)
    | ok p =>
      obtain ⟨processed, st'⟩ := p
      rw [advance_of_respond hopen hstop.not_stopping hask rfl hrun, bind_of_ok hrun]
      cases hstays : s.staysOpen processed with
      | false => rfl
      | true =>
        -- the requests behind it are answered by one question less
        have htail : Undisturbed s clock c.connection rs st' :=
          Undisturbed.of_append hstop (answerAll_singleton hrun) hstays
        rw [if_pos rfl, if_pos rfl, bind_assoc]
        have hfuel : (c.buffer.drop b.length).length < fuel := by omega
        refine (ih (c := ⟨c.connection, c.buffer.drop b.length, c.written ++ processed.reply,
          c.isOpen, c.requests⟩) (by omega) hfuel hopen rfl htail).trans ?_
        simp only [goOn_written, pure_bind]

/-! ## Chunk by chunk -/

section

variable {answers : Answers}

/-- Behind an answer that closes the connection nothing is read. -/
theorem goOn_of_closed (h : answers.isOpen = false) :
    goOn limit c answers rest = close { c with written := c.written ++ answers.written } := by
  unfold goOn
  rw [h]
  rfl

/-- An announcement that is too large is refused. -/
theorem goOn_of_tooMuch (h : answers.isOpen = true) (hmuch : announcesTooMuch limit rest = true) :
    goOn limit c answers rest = refuse { c with written := c.written ++ answers.written } := by
  unfold goOn
  rw [h, hmuch]
  rfl

/-- An open connection waits for more. -/
theorem goOn_of_open (h : answers.isOpen = true) (hmuch : announcesTooMuch limit rest = false) :
    goOn limit c answers rest
      = return { c with buffer := rest, written := c.written ++ answers.written } := by
  unfold goOn
  rw [h, hmuch]
  rfl

theorem conclude_of_closed (h : answers.isOpen = false) :
    conclude limit c answers rest = close { c with written := c.written ++ answers.written } := by
  unfold conclude
  rw [h]
  simp only [Bool.false_and, Bool.false_eq_true, if_false, List.append_nil]
  rfl

theorem conclude_of_tooMuch (h : answers.isOpen = true)
    (hmuch : announcesTooMuch limit rest = true) :
    conclude limit c answers rest
      = refuse { c with written := c.written ++ answers.written } := by
  unfold conclude
  rw [h, hmuch]
  rfl

/-- Bytes that are left are counted as a request. -/
theorem conclude_of_open (h : answers.isOpen = true)
    (hmuch : announcesTooMuch limit rest = false) :
    conclude limit c answers rest st = close { c with written := c.written ++ answers.written }
      (if rest.isEmpty then st
        else { st with connections := st.connections.recordRequest c.connection.id }) := by
  unfold conclude close
  rw [h, hmuch]
  simp only [Bool.and_false, Bool.not_false, Bool.true_and, Bool.false_eq_true, if_false,
    List.append_nil]
  cases rest.isEmpty with
  | true => rfl
  | false =>
    show Except.ok (_, { st with connections := st.connections.remove _ }) =
      .ok (_, { st with connections := (st.connections.recordRequest _).remove _ })
    rw [Connections.remove_recordRequest]
    rfl

end

theorem giveUp_of_closed (h : c.isOpen = false) : giveUp c = return c := by
  unfold giveUp
  rw [h]
  rfl

theorem finish_of_closed (h : c.isOpen = false) : finish s clock c = return c := by
  unfold finish
  rw [advance_of_closed h, pure_bind, giveUp_of_closed h]

/-- On a connection that has closed, whatever arrives changes nothing. -/
theorem foldlM_receive_of_closed (chunks : List Bytes) (h : c.isOpen = false) :
    (chunks.foldlM (receive s clock) c >>= finish s clock) = return c := by
  induction chunks with
  | nil => exact finish_of_closed h
  | cons chunk chunks ih =>
    have hreceive : receive s clock c chunk = return c := by
      unfold receive
      rw [h]
      rfl
    rw [List.foldlM_cons, hreceive, pure_bind, ih]

/-- What was cut off is not processed. -/
theorem respond_of_incomplete (hnone : Boundary.of? buf = none) (framing : Framing) :
    s.respond clock connection ⟨framing, buf, false⟩ st =
      .ok (.close, { st with connections := st.connections.recordRequest connection.id }) := by
  have hprocess : ∀ now, s.process connection now ⟨framing, buf, false⟩ = return .close := by
    intro now
    unfold process
    rw [hnone]
    rfl
  unfold respond
  simp only [hprocess]
  rfl

/-- What was cut off before it was complete is counted, and closes the connection. -/
theorem answer_of_incomplete (hnone : Boundary.of? buf = none) (framing : Framing) :
    answer s clock c ⟨framing, buf, false⟩ st =
      close c { st with connections := st.connections.recordRequest c.connection.id } := by
  unfold answer
  rw [bind_of_ok (respond_of_incomplete hnone framing)]
  show close { c with written := c.written ++ [] } _ = _
  rw [List.append_nil]

/-- When no more bytes come, those that wait are counted and dropped. -/
theorem finish_of_open (hle : c.buffer.length ≤ s.network.maxRequestSize)
    (hopen : c.isOpen = true) (hnone : Boundary.of? c.buffer = none)
    (hsmall : announcesTooMuch s.network.maxRequestSize c.buffer = false)
    (hstop : st.lifecycle.isStopping = false) :
    finish s clock c st = conclude s.network.maxRequestSize c ⟨[], true⟩ c.buffer st := by
  have hnext := Splitter.next_of_of?_eq_none hle hnone
  rw [hsmall, if_neg Bool.false_ne_true] at hnext
  rw [conclude_of_open rfl hsmall]
  simp only [List.append_nil]
  unfold finish
  cases hempty : c.buffer.isEmpty with
  | true =>
    have hask : Splitter.nextAtEnd s.network.maxRequestSize c.buffer = .incomplete := by
      rw [Splitter.nextAtEnd, hnext]
      simp only [hempty, if_true]
    have hadvance : advance s clock (Splitter.nextAtEnd s.network.maxRequestSize)
        (c.buffer.length + 1) c st = .ok (c, st) := by
      rw [advance_succ hopen hstop, hask]
      rfl
    rw [bind_of_ok hadvance, giveUp, hopen]
    rfl
  | false =>
    -- what waits is handed over as a request that was cut off, and that one closes
    have hask : Splitter.nextAtEnd s.network.maxRequestSize c.buffer
        = .request ⟨Boundary.sniff c.buffer, c.buffer, false⟩ [] := by
      rw [Splitter.nextAtEnd, hnext]
      simp only [hempty, Bool.false_eq_true, if_false]
    have hanswer : answer s clock { c with buffer := [] } ⟨Boundary.sniff c.buffer, c.buffer, false⟩
        st = close c { st with connections := st.connections.recordRequest c.connection.id } :=
      answer_of_incomplete hnone _
    have hadvance := (advance_of_request c.buffer.length hopen hstop hask).trans
      (bind_of_eq hanswer)
    rw [close_bind fun c => advance_of_closed] at hadvance
    rw [bind_of_eq hadvance, close_bind fun c => giveUp_of_closed]
    rfl

/-- **All chunks.** What waits in the buffer and all that is to come are answered as one stream. -/
theorem foldlM_receive_of_cut {chunks : List Bytes} (hopen : c.isOpen = true)
    (hnone : Boundary.of? c.buffer = none)
    (hsmall : announcesTooMuch s.network.maxRequestSize c.buffer = false)
    (hle : (c.buffer ++ chunks.flatten).length ≤ s.network.maxRequestSize)
    (hcut : Cut (c.buffer ++ chunks.flatten) requests rest)
    (hstop : Undisturbed s clock c.connection requests st) :
    (chunks.foldlM (receive s clock) c >>= finish s clock) st = (do
      let answers ← answerAll s clock c.connection requests
      conclude s.network.maxRequestSize c answers rest) st := by
  induction chunks generalizing c st requests rest with
  | nil =>
    rw [List.flatten_nil, List.append_nil] at hle hcut
    obtain ⟨rfl, rfl⟩ := hcut.unique (.rest hnone)
    exact finish_of_open hle hopen hnone hsmall hstop.not_stopping
  | cons chunk chunks ih =>
    -- the chunk completes some requests, and what it leaves is cut with what comes later
    obtain ⟨front, left, hfront⟩ := Cut.exists_cut (c.buffer ++ chunk)
    obtain ⟨back, rest', hback⟩ := Cut.exists_cut (left ++ chunks.flatten)
    rw [List.flatten_cons, ← List.append_assoc] at hle hcut
    obtain ⟨rfl, rfl⟩ := hcut.unique (hfront.append hback)
    have hlen : (left ++ chunks.flatten).length ≤ s.network.maxRequestSize := by
      have hleft := hfront.length_rest_le
      rw [List.length_append] at hle ⊢
      omega
    rw [List.length_append] at hle
    have hreceive : receive s clock c chunk st = (do
        let answers ← answerAll s clock c.connection front
        goOn s.network.maxRequestSize c answers left) st := by
      unfold receive
      rw [if_pos hopen]
      exact advance_of_cut (c := ⟨c.connection, c.buffer ++ chunk, c.written, c.isOpen, c.requests⟩)
        hfront (Nat.le_trans (Nat.le_add_right _ _) hle) (Nat.lt_succ_self _) hopen rfl hstop.left
    rw [List.foldlM_cons, bind_assoc, answerAll_append]
    cases hrun : answerAll s clock c.connection front st with
    | error e =>
      rw [bind_of_error (hreceive.trans (bind_of_error hrun))]
      exact (bind_of_error (bind_of_error hrun)).symm
    | ok p =>
      obtain ⟨⟨written, isOpen⟩, st'⟩ := p
      rw [bind_of_eq (hreceive.trans (bind_of_ok hrun)), bind_assoc, bind_of_ok hrun]
      cases isOpen with
      | false =>
        -- closed behind a request of this chunk, so nothing that comes later is looked at
        rw [goOn_of_closed rfl, close_bind fun c => foldlM_receive_of_closed chunks,
          if_neg Bool.false_ne_true, pure_bind, conclude_of_closed rfl]
      | true =>
        rw [if_pos rfl, bind_assoc]
        cases hmuch : announcesTooMuch s.network.maxRequestSize left with
        | true =>
          -- refused here, and it would be refused in the whole stream behind the same requests
          have hmore := Splitter.announcesTooMuch_append hmuch chunks.flatten
          have hnone := Splitter.of?_eq_none_of_announcesTooMuch hmore hlen
          obtain ⟨rfl, rfl⟩ := hback.unique (.rest hnone)
          rw [goOn_of_tooMuch rfl hmuch, refuse,
            close_bind fun c => foldlM_receive_of_closed chunks]
          show _ = conclude _ c ⟨written ++ [], true⟩ (left ++ chunks.flatten) st'
          rw [conclude_of_tooMuch rfl hmore, List.append_nil]
          rfl
        | false =>
          rw [goOn_of_open rfl hmuch, pure_bind]
          refine (ih (c := ⟨c.connection, left, c.written ++ written, c.isOpen, c.requests⟩) hopen
            hfront.of?_rest hmuch hlen hback
            (hstop.of_append hrun rfl)).trans ?_
          simp only [pure_bind, conclude_written]

/-- **Conversations.** However its bytes arrive, a stream of no more bytes than a request may hold
is answered as it is owed to, if the server is not told to shut down meanwhile. -/
theorem run_eq_serve (s : Server) (clock : State → Nat) (connection : Connection)
    (chunks : List Bytes) (st : State)
    (hle : chunks.flatten.length ≤ s.network.maxRequestSize)
    (hstop : Undisturbed s clock connection
      (Splitter.takeAll s.network.maxRequestSize chunks.flatten).requests st) :
    run s clock connection chunks st = serve s clock connection chunks.flatten st := by
  obtain ⟨requests, rest, hcut⟩ := Cut.exists_cut chunks.flatten
  have hsplit := Splitter.takeAll_of_cut hcut hle
  rw [hsplit] at hstop
  unfold run serve
  rw [hsplit]
  exact foldlM_receive_of_cut rfl rfl rfl hle hcut hstop

/-- A server that hosts nothing and reaches nobody. -/
def hermit : Server :=
  .new {} { maxRequestSize := 64 } ⟨[], ∅⟩ 0
    { network := fun _ => .error "nobody", draw := fun _ => 0, probes := id,
      session := fun _ => "" }

/-- A frame without a request in it closes the connection, so the request behind it is neither
answered nor counted. -/
theorem run_eq_serve_frame :
    let connection : Connection := ⟨1, ⟨.v4 127 0 0 1, 80⟩⟩
    let st := { hermit.start 0 .empty with
      connections := (Connections.new.register 0 connection.peer).2 }
    let chunks : List Bytes := [[0, 0, 0], [1, 5, 0x47, 0x45, 0x54], [0x20, 0x0A, 0x0A]]
    chunks.flatten.length ≤ hermit.network.maxRequestSize ∧
      Undisturbed hermit (fun _ => 0) connection
        (Splitter.takeAll hermit.network.maxRequestSize chunks.flatten).requests st ∧
      (run hermit (fun _ => 0) connection chunks st).toOption.map
        (fun p => (p.1, p.2.requests, p.2.connections.count)) =
          some (⟨connection, [], [], false, 1⟩, 1, 0) := by
  intro connection st chunks
  have hsplit : (Splitter.takeAll hermit.network.maxRequestSize chunks.flatten).requests
      = [⟨.binary, [0, 0, 0, 1, 5], true⟩,
        ⟨.http, [0x47, 0x45, 0x54, 0x20, 0x0A, 0x0A], true⟩] := by
    decide
  have hclose : (respond hermit (fun _ => 0) connection ⟨.binary, [0, 0, 0, 1, 5], true⟩
      st).toOption.map Prod.fst = some .close := by
    decide
  have hle : chunks.flatten.length ≤ hermit.network.maxRequestSize := by decide
  have hstop : Undisturbed hermit (fun _ => 0) connection
      (Splitter.takeAll hermit.network.maxRequestSize chunks.flatten).requests st := by
    rw [hsplit]
    refine undisturbed_cons rfl fun processed st' hrun hstays => ?_
    rw [hrun] at hclose
    cases hclose
    cases hstays
  refine ⟨hle, hstop, ?_⟩
  rw [run_eq_serve hermit _ _ _ _ hle hstop]
  decide

end Conversation

end Switchboard.Server
