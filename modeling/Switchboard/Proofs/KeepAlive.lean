import Switchboard.Proofs.Conversation
import Switchboard.Proofs.Tracking

/-!
# What a response says about its connection

A response says whether its connection stays open, and for that only the request is asked. Whether
the connection does stay open is decided later, and then the settings of the server are asked as
well. Nothing else can come between the two: a request that can be read as HTTP has arrived in full,
so it is never one that was cut off. Hence what a response says is true unless the server closes
every connection behind its first answer and the request asks to keep this one
(`answer_announces`).
-/

namespace Switchboard.Server

open Http.Response (line)

variable {s : Server} {clock : State → Nat} {st st₁ : State} {r : RawRequest} {rest buf : Bytes}
  {limit : Nat} {q : Http.Request} {response : Http.Response}

/-- A response with a word about its connection. -/
def announcing (word : String) (response : Http.Response) : Bytes :=
  Utf8.ofString
    (line ("HTTP/1.1 " ++ Text.decimal response.status ++ " " ++ Http.reason response.status) ++
      line ("Content-Type: " ++ response.contentType) ++ response.successLines ++
      line ("Connection: " ++ word) ++
      line ("Content-Length: " ++ Text.decimal response.body.length) ++ line "") ++ response.body

/-- The word for a connection that stays open, or does not. -/
def fateWord (keepAlive : Bool) : String := if keepAlive then "keep-alive" else "close"

theorem fateWord_eq_keepAlive_iff (keepAlive : Bool) :
    fateWord keepAlive = "keep-alive" ↔ keepAlive = true := by
  cases keepAlive <;> decide

theorem toBytes_eq_announcing (keepAlive : Bool) (response : Http.Response) :
    ({ response with keepAlive } : Http.Response).toBytes =
      announcing (fateWord keepAlive) response := rfl

namespace Conversation

variable {c : Conversation}

/-- Whether the loop of a conversation goes on to the next request: it asks for it, and answers it
if it is there. -/
def ReadsOn (s : Server) (clock : State → Nat) (c : Conversation) (st : State) : Prop :=
  ∀ ask fuel r rest, ask c.buffer = .request r rest →
    advance s clock ask (fuel + 1) c st =
      (answer s clock { c with buffer := rest } r >>= advance s clock ask fuel) st

/-- Whether the loop of a conversation has ended: whatever arrives changes nothing. -/
def ReadsNoMore (s : Server) (clock : State → Nat) (c : Conversation) (st : State) : Prop :=
  ∀ chunks : List Bytes,
    (do (← chunks.foldlM (receive s clock) c).finish s clock) st = .ok (c, st)

theorem readsOn_of_open (hopen : c.isOpen = true) (hstop : st.lifecycle.isStopping = false) :
    ReadsOn s clock c st :=
  fun _ fuel _ _ hask => advance_of_request fuel hopen hstop hask

theorem readsNoMore_of_closed (hclosed : c.isOpen = false) : ReadsNoMore s clock c st :=
  fun chunks => congrFun (foldlM_receive_of_closed chunks hclosed) st

/-- A request that can be read as HTTP was not cut off. -/
theorem complete_of_ofBytes? (hr : Splitter.nextAtEnd limit buf = .request r rest)
    (hq : Http.Request.ofBytes? r.bytes = some q) : r.complete = true := by
  unfold Splitter.nextAtEnd at hr
  split at hr
  · rename_i hwaits
    split at hr
    · cases hr
    · -- what is left at the end holds no request, so it cannot be read
      cases hr
      have hnone := Splitter.of?_of_next_eq_incomplete hwaits
      have hsome := boundary_isSome_of_ofBytes? hq
      rw [hnone] at hsome
      cases hsome
  · exact Splitter.complete_of_next hr

/-- What a response says about its connection is decided by the request, and what becomes of the
connection by the request and the settings. -/
theorem answer_of_response (hopen : c.isOpen = true) (hcomplete : r.complete = true)
    (hhttp : r.framing = .http) (hq : Http.Request.ofBytes? r.bytes = some q)
    (hroute : route s c.connection (clock (begun c.connection st)) q
      { begun c.connection st with requests := (begun c.connection st).requests + 1 } =
        .ok (.response response, st₁)) :
    ∃ c' st', answer s clock c r st = .ok (c', st') ∧
      c'.written = c.written ++ announcing (fateWord q.keepAlive) response ∧
      c'.isOpen = (q.keepAlive && !s.settings.oneRequest) ∧
      st'.lifecycle.isStopping = st₁.lifecycle.isStopping := by
  have hprocess : s.process c.connection (clock (begun c.connection st)) r
      (begun c.connection st) =
        .ok (⟨announcing (fateWord q.keepAlive) response, q.keepAlive⟩, st₁) := by
    rw [process_of_ofBytes? s _ _ _ hhttp hq, map_eq_pure_bind, bind_of_ok hroute]
    show Except.ok (processedHttp q (.response response), st₁) = _
    unfold processedHttp
    dsimp only
    rw [toBytes_eq_announcing]
  unfold answer
  -- of the three conditions of `answer` one holds of every request that can be read
  rw [bind_of_ok (respond_of_process hprocess), hcomplete]
  dsimp only
  rw [Bool.and_true]
  cases q.keepAlive && !s.settings.oneRequest with
  | true => exact ⟨_, _, rfl, rfl, hopen, rfl⟩
  | false => exact ⟨_, _, rfl, rfl, rfl, rfl⟩

/-- **A response is true about its connection, but for one setting.** Behind the answer to a request
that the splitter has handed over the connection is open and the next request is read, or it is
closed and nothing more is. A response says which of the two it is, and it says it as it is exactly
if it is not the case that the server closes every connection behind its first answer and the
request asks to keep this one. -/
theorem answer_announces (s : Server) (clock : State → Nat) (c : Conversation) (st : State)
    {limit : Nat} {buf rest : Bytes} {r : RawRequest} {q : Http.Request}
    {response : Http.Response} {st₁ : State} (hopen : c.isOpen = true)
    (hr : Splitter.nextAtEnd limit buf = .request r rest) (hhttp : r.framing = .http)
    (hq : Http.Request.ofBytes? r.bytes = some q)
    (hroute : route s c.connection (clock (begun c.connection st)) q
      { begun c.connection st with requests := (begun c.connection st).requests + 1 } =
        .ok (.response response, st₁))
    (hrunning : st₁.lifecycle.isStopping = false) :
    ∃ c' st', answer s clock c r st = .ok (c', st') ∧
      c'.written = c.written ++ announcing (fateWord q.keepAlive) response ∧
      (c'.isOpen = true → ReadsOn s clock c' st') ∧
      (c'.isOpen = false → ReadsNoMore s clock c' st') ∧
      ((fateWord q.keepAlive = "keep-alive" ↔ c'.isOpen = true) ↔
        ¬(s.settings.oneRequest = true ∧ q.keepAlive = true)) := by
  have hcomplete : r.complete = true := complete_of_ofBytes? hr hq
  obtain ⟨c', st', hanswer, hwritten, hfate, hlife⟩ :=
    answer_of_response hopen hcomplete hhttp hq hroute
  refine ⟨c', st', hanswer, hwritten, ?_, readsNoMore_of_closed, ?_⟩
  · intro hstays
    exact readsOn_of_open hstays (hlife.trans hrunning)
  · rw [fateWord_eq_keepAlive_iff, hfate]
    cases q.keepAlive <;> cases s.settings.oneRequest <;> decide

/-- A request for a page that asks to keep the connection. -/
def lingering : RawRequest :=
  ⟨.http, Utf8.ofString "GET /_threads HTTP/1.0\nConnection: keep-alive\n\n", true⟩

/-- The page that answers it. -/
def threadsPage (s : Server) : Http.Response := .ok (Utf8.ofString s.world.threads) "text/plain"

theorem exists_lingering : ∃ q, Http.Request.ofBytes? lingering.bytes = some q ∧
    q.methodName = "_threads" ∧ q.keepAlive = true := by
  let q : Http.Request :=
    ⟨.get, "/_threads", "", .ofDict (.ofList [("connection", "keep-alive")]), []⟩
  have hq : Http.Request.ofBytes? lingering.bytes = some q := by decide +kernel
  exact ⟨q, hq, by decide +kernel, by decide +kernel⟩

theorem route_threads (s : Server) (connection : Connection) (now : Nat) (st : State)
    (hname : q.methodName = "_threads") :
    route s connection now q st = .ok (.response (threadsPage s), st) := by
  have hroute : Route.of? q.methodName = some .threads := by
    rw [hname]
    rfl
  unfold route
  rw [hroute]
  rfl

/-- The page says that the connection stays open, and it does. -/
theorem answer_announces_lingering :
    let c : Conversation := .new ⟨1, ⟨.v4 127 0 0 1, 80⟩⟩
    ∃ c' st', answer hermit (fun _ => 0) c lingering (hermit.start 0 .empty) = .ok (c', st') ∧
      c'.written = announcing "keep-alive" (threadsPage hermit) ∧ c'.isOpen = true := by
  intro c
  have hr : Splitter.nextAtEnd hermit.network.maxRequestSize lingering.bytes =
      .request lingering [] := by decide +kernel
  obtain ⟨q, hq, hname, hkeep⟩ := exists_lingering
  have hword := (fateWord_eq_keepAlive_iff q.keepAlive).2 hkeep
  obtain ⟨c', st', hanswer, hwritten, -, -, htrue⟩ := answer_announces hermit (fun _ => 0) c
    (hermit.start 0 .empty) rfl hr rfl hq (route_threads hermit _ _ _ hname) rfl
  have hnew : c.written = [] := rfl
  rw [hword, hnew, List.nil_append] at hwritten
  refine ⟨c', st', hanswer, hwritten, (htrue.2 ?_).1 hword⟩
  rintro ⟨hone, -⟩
  cases hone

/-- A server like that one, which closes every connection behind its first answer. -/
def brusque : Server := { hermit with settings := { oneRequest := true } }

/-- The page says that the connection stays open, and it is closed behind it, though nobody has told
the server to shut down. -/
theorem not_answer_announces_lingering :
    let c : Conversation := .new ⟨1, ⟨.v4 127 0 0 1, 80⟩⟩
    ∃ c' st', answer brusque (fun _ => 0) c lingering (brusque.start 0 .empty) = .ok (c', st') ∧
      c'.written = announcing "keep-alive" (threadsPage brusque) ∧ c'.isOpen = false ∧
      st'.lifecycle.isStopping = false := by
  intro c
  obtain ⟨q, hq, hname, hkeep⟩ := exists_lingering
  let clock : State → Nat := fun _ => 0
  let st := begun c.connection (brusque.start 0 .empty)
  have hopen : c.isOpen = true := rfl
  have hroute : route brusque c.connection (clock st) q { st with requests := st.requests + 1 } =
      .ok (.response (threadsPage brusque), { st with requests := st.requests + 1 }) :=
    route_threads brusque c.connection (clock st) _ hname
  obtain ⟨c', st', hanswer, hwritten, hfate, hlife⟩ := answer_of_response hopen rfl rfl hq hroute
  have hnew : c.written = [] := rfl
  rw [(fateWord_eq_keepAlive_iff q.keepAlive).2 hkeep, hnew, List.nil_append] at hwritten
  refine ⟨c', st', hanswer, hwritten, ?_, hlife⟩
  rw [hfate]
  exact Bool.and_false _

end Conversation

end Switchboard.Server
