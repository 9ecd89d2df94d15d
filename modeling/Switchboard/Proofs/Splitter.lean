import Mathlib.Data.List.Induction
import Switchboard.Proofs.Boundary
import Switchboard.Splitter

/-!
# Splitting does not depend on the chunks

The requests of a stream are settled by its bytes alone: `Cut` reads them off, one boundary after
another, without any limit and without chunks. More bytes behind a stream go on where its rest
begins (`Cut.append`), because a request that was found stays where it is. As long as every chunk
fits behind the rest of what was there before (`Fits`), the splitter holds exactly the rest of what
has arrived (`Holds`), so it takes the same requests off the stream however the stream is cut into
chunks, and ends with the same rest or the same refusal.
-/

namespace Switchboard

/-! ## The requests of a stream -/

/-- A stream is complete requests, one behind the other, and a rest that begins with none. -/
inductive Cut : (stream : Bytes) → (requests : List RawRequest) → (rest : Bytes) → Prop
  | rest {buf : Bytes} (none : Boundary.of? buf = none) : Cut buf [] buf
  | request {buf rest : Bytes} {b : Boundary} {rs : List RawRequest}
      (found : Boundary.of? buf = some b) (more : Cut (buf.drop b.length) rs rest) :
      Cut buf (⟨b.framing, buf.take b.length, true⟩ :: rs) rest

namespace Cut

variable {buf rest rest' more : Bytes} {rs rs' : List RawRequest}

/-- Every stream has such a cut. -/
theorem exists_cut (buf : Bytes) : ∃ rs rest, Cut buf rs rest := by
  -- on the length, which every request lowers by at least four
  induction hlen : buf.length using Nat.strongRecOn generalizing buf with
  | ind n ih =>
    cases hfound : Boundary.of? buf with
    | none => exact ⟨[], buf, .rest hfound⟩
    | some b =>
      obtain ⟨h4, hle⟩ := Boundary.bounds_of_of? hfound
      have hlt : (buf.drop b.length).length < n := by rw [List.length_drop]; omega
      obtain ⟨rs, rest, hcut⟩ := ih _ hlt (buf.drop b.length) rfl
      exact ⟨_, rest, .request hfound hcut⟩

/-- No stream has two. -/
theorem unique (h : Cut buf rs rest) (h' : Cut buf rs' rest') : rs = rs' ∧ rest = rest' := by
  induction h generalizing rs' with
  | rest hnone =>
    cases h' with
    | rest _ => exact ⟨rfl, rfl⟩
    | request hfound _ => rw [hnone] at hfound; cases hfound
  | request hfound _ ih =>
    cases h' with
    | rest hnone => rw [hnone] at hfound; cases hfound
    | request hfound' hmore' =>
      obtain rfl := Option.some.inj (hfound.symm.trans hfound')
      obtain ⟨rfl, rfl⟩ := ih hmore'
      exact ⟨rfl, rfl⟩

theorem of?_rest (h : Cut buf rs rest) : Boundary.of? rest = none := by
  induction h with
  | rest hnone => exact hnone
  | request _ _ ih => exact ih

/-- More bytes behind a stream are cut together with its rest. -/
theorem append (h : Cut buf rs rest) (h' : Cut (rest ++ more) rs' rest') :
    Cut (buf ++ more) (rs ++ rs') rest' := by
  induction h with
  | rest _ => exact h'
  | @request buf rest b rs hfound _ ih =>
    have hle := (Boundary.bounds_of_of? hfound).2
    -- the request lies in the bytes that were there before, so its own bytes stay the same
    have htake : (buf ++ more).take b.length = buf.take b.length :=
      List.take_append_of_le_length hle
    have hdrop : (buf ++ more).drop b.length = buf.drop b.length ++ more :=
      List.drop_append_of_le_length hle
    rw [← htake]
    refine .request (Boundary.of?_append hfound more) ?_
    rw [hdrop]
    exact ih h'

/-- Nothing is lost and nothing stands twice. -/
theorem flatten (h : Cut buf rs rest) : (rs.map (·.bytes)).flatten ++ rest = buf := by
  induction h with
  | rest _ => rfl
  | request _ _ ih =>
    rw [List.map_cons, List.flatten_cons, List.append_assoc, ih, List.take_append_drop]

/-- Every request is one in its own right. -/
theorem mem_requests (h : Cut buf rs rest) {r : RawRequest} (hr : r ∈ rs) :
    r.complete = true ∧ Boundary.of? r.bytes = some ⟨r.framing, r.bytes.length⟩ := by
  induction h with
  | rest _ => simp at hr
  | @request buf rest b rs hfound _ ih =>
    rcases List.mem_cons.1 hr with rfl | hr
    · have hle := (Boundary.bounds_of_of? hfound).2
      refine ⟨rfl, ?_⟩
      rw [Boundary.of?_take hfound, List.length_take, Nat.min_eq_left hle]
    · exact ih hr

/-- No request is longer than the stream. -/
theorem length_bytes_le (h : Cut buf rs rest) {r : RawRequest} (hr : r ∈ rs) :
    r.bytes.length ≤ buf.length := by
  have hsub : r.bytes.Sublist (rs.map (·.bytes)).flatten :=
    List.sublist_flatten_of_mem (List.mem_map.2 ⟨r, hr, rfl⟩)
  have hlen := congrArg List.length h.flatten
  rw [List.length_append] at hlen
  have hle := hsub.length_le
  omega

theorem length_rest_le (h : Cut buf rs rest) : rest.length ≤ buf.length := by
  have hlen := congrArg List.length h.flatten
  rw [List.length_append] at hlen
  omega

end Cut

namespace Splitter

variable {limit : Nat} {buf rest more : Bytes} {rs : List RawRequest}

/-! ## Announcements -/

/-- An announcement stays when more bytes arrive. -/
theorem announced_append {total : Nat} (h : announced buf = some total) (more : Bytes) :
    announced (buf ++ more) = some total := by
  have h4 : 4 ≤ buf.length := by
    unfold announced at h
    split at h
    · unfold Frame.length? at h
      split at h
      · rename_i hle
        exact hle
      · simp at h
    · simp at h
  have hp : buf.take buf.length <+: buf ++ more := by
    rw [List.take_length]
    exact List.prefix_append buf more
  have hle := Nat.le_refl buf.length
  rw [← h]
  unfold announced
  rw [Boundary.sniff_of_isPrefix h4 hle hp, Boundary.length?_of_isPrefix h4 hle hp]

/-- The frame that is found is the one that was announced. -/
theorem length_eq_of_announced {total : Nat} {b : Boundary} (h : announced buf = some total)
    (hfound : Boundary.of? buf = some b) : b.length = total := by
  have hb := (Boundary.of?_eq_some_iff.1 hfound).2
  unfold announced at h
  cases hsniff : Boundary.sniff buf with
  | binary =>
    rw [hsniff] at hb h
    exact Option.some.inj (hb.1.symm.trans h)
  | http =>
    rw [hsniff] at h
    cases h

/-- As long as no request is found, what is announced has not arrived in full. -/
theorem lt_of_announced {total : Nat} (h : announced buf = some total)
    (hnone : Boundary.of? buf = none) : buf.length < total := by
  unfold announced at h
  cases hsniff : Boundary.sniff buf with
  | binary =>
    rw [hsniff] at h
    refine Nat.lt_of_not_le fun hle => ?_
    have hfound : Boundary.of? buf = some ⟨.binary, total⟩ := by
      refine Boundary.of?_eq_some_iff.2 ⟨hsniff.symm, ?_⟩
      rw [hsniff]
      exact ⟨h, hle⟩
    rw [hnone] at hfound
    cases hfound
  | http =>
    rw [hsniff] at h
    cases h

theorem announcesTooMuch_iff :
    announcesTooMuch limit buf = true ↔ ∃ total, announced buf = some total ∧ limit < total := by
  unfold announcesTooMuch
  cases announced buf with
  | none => simp
  | some total => simp

theorem announcesTooMuch_append (h : announcesTooMuch limit buf = true) (more : Bytes) :
    announcesTooMuch limit (buf ++ more) = true := by
  obtain ⟨total, htotal, hlt⟩ := announcesTooMuch_iff.1 h
  exact announcesTooMuch_iff.2 ⟨total, announced_append htotal more, hlt⟩

/-- What announces more than the limit does not become a request within the limit. -/
theorem of?_eq_none_of_announcesTooMuch (h : announcesTooMuch limit buf = true)
    (hle : buf.length ≤ limit) : Boundary.of? buf = none := by
  obtain ⟨total, htotal, hlt⟩ := announcesTooMuch_iff.1 h
  cases hfound : Boundary.of? buf with
  | none => rfl
  | some b =>
    have hlen := length_eq_of_announced htotal hfound
    have hb := (Boundary.bounds_of_of? hfound).2
    omega

/-! ## Asking until there is no request -/

/-- Whether every request that is handed out leaves fewer bytes behind it. -/
def Shrinks (ask : Bytes → Answer) : Prop :=
  ∀ buf r rest, ask buf = .request r rest → rest.length < buf.length

theorem next_of_of? {b : Boundary} (hle : buf.length ≤ limit) (h : Boundary.of? buf = some b) :
    next limit buf = .request ⟨b.framing, buf.take b.length, true⟩ (buf.drop b.length) := by
  rw [next, if_neg (Nat.not_lt.2 hle), h]

theorem next_of_of?_eq_none (hle : buf.length ≤ limit) (h : Boundary.of? buf = none) :
    next limit buf = if announcesTooMuch limit buf then .tooLarge else .incomplete := by
  rw [next, if_neg (Nat.not_lt.2 hle), h]

/-- Bytes that wait for more have no request in front. -/
theorem of?_of_next_eq_incomplete (h : next limit buf = .incomplete) :
    Boundary.of? buf = none := by
  unfold next at h
  split at h
  · cases h
  · split at h
    · cases h
    · assumption

/-- Only what a stream leaves behind when it ends can be cut off. -/
theorem complete_of_next {r : RawRequest} (h : next limit buf = .request r rest) :
    r.complete = true := by
  unfold next at h
  split at h
  · cases h
  · split at h
    · cases h
      rfl
    · split at h
      · cases h
      · cases h

theorem shrinks_next (limit : Nat) : Shrinks (next limit) := by
  intro buf r rest h
  unfold next at h
  split at h
  · cases h
  · split at h
    · rename_i b hfound
      injection h with _ hrest
      obtain ⟨h4, hle⟩ := Boundary.bounds_of_of? hfound
      rw [← hrest, List.length_drop]
      omega
    · split at h <;> cases h

/-- Asking more often than there are bytes makes no difference. -/
theorem takeUpTo_of_lt {ask : Bytes → Answer} (hask : Shrinks ask) {fuel fuel' : Nat}
    (h : buf.length < fuel) (h' : buf.length < fuel') :
    takeUpTo ask fuel buf = takeUpTo ask fuel' buf := by
  induction fuel generalizing fuel' buf with
  | zero => omega
  | succ fuel ih =>
    cases fuel' with
    | zero => omega
    | succ fuel' =>
      simp only [takeUpTo]
      -- the answers agree, and behind a request both have more questions left than bytes
      cases hanswer : ask buf with
      | request r rest =>
        have hlt := hask buf r rest hanswer
        have hsame : takeUpTo ask fuel rest = takeUpTo ask fuel' rest :=
          ih (by omega) (by omega)
        simp only [hsame]
      | incomplete => rfl
      | tooLarge => rfl

/-- All requests are the next one and all requests behind it. -/
theorem takeAll_of_request {r : RawRequest} (h : next limit buf = .request r rest) :
    takeAll limit buf =
      { takeAll limit rest with requests := r :: (takeAll limit rest).requests } := by
  have hlt := shrinks_next limit buf r rest h
  have hfuel : takeUpTo (next limit) buf.length rest = takeAll limit rest :=
    takeUpTo_of_lt (shrinks_next limit) hlt (Nat.lt_succ_self _)
  rw [takeAll, takeUpTo, h]
  simp only [hfuel]

/-- Within the limit, the requests taken are those of the bytes, and their rest is refused if it
announces more. -/
theorem takeAll_of_cut (h : Cut buf rs rest) (hle : buf.length ≤ limit) :
    takeAll limit buf = ⟨rs, rest, announcesTooMuch limit rest⟩ := by
  induction h with
  | @rest buf hnone =>
    rw [takeAll, takeUpTo, next_of_of?_eq_none hle hnone]
    cases announcesTooMuch limit buf <;> rfl
  | @request buf rest b rs hfound _ ih =>
    have hdrop : (buf.drop b.length).length ≤ limit := by rw [List.length_drop]; omega
    rw [takeAll_of_request (next_of_of? hle hfound), ih hdrop]

/-! ## Chunks -/

/-- Whether a splitter has what it should have after the bytes of a stream: their requests, and
their rest, unless that has been refused, and no request that it could still hand out. -/
def Holds (limit : Nat) (stream : Bytes) (run : Run) : Prop :=
  (∃ rest, Cut stream run.requests rest ∧ run.refused = announcesTooMuch limit rest ∧
    (run.refused = false → run.rest = rest)) ∧
  next limit run.rest = if run.refused then .tooLarge else .incomplete

theorem holds_takeAll (hle : buf.length ≤ limit) : Holds limit buf (takeAll limit buf) := by
  obtain ⟨rs, rest, hcut⟩ := Cut.exists_cut buf
  rw [takeAll_of_cut hcut hle]
  have hrest := Nat.le_trans hcut.length_rest_le hle
  exact ⟨⟨rest, hcut, rfl, fun _ => rfl⟩, next_of_of?_eq_none hrest hcut.of?_rest⟩

/-- One chunk more, which together with the rest of the stream is within the limit. -/
theorem Holds.feed {stream chunk : Bytes} {run : Run} (h : Holds limit stream run)
    (hle : ∀ rs rest, Cut stream rs rest → (rest ++ chunk).length ≤ limit) :
    Holds limit (stream ++ chunk) (feed limit run chunk) := by
  obtain ⟨⟨rest, hcut, hrefused, hrest⟩, hnext⟩ := h
  have hlen : (rest ++ chunk).length ≤ limit := hle _ rest hcut
  unfold Splitter.feed
  cases hr : run.refused with
  | true =>
    -- the frame that was refused stays announced, and no request comes of it
    rw [hr] at hrefused
    have hmore := announcesTooMuch_append hrefused.symm chunk
    rw [if_pos rfl]
    refine ⟨⟨rest ++ chunk, ?_, ?_, ?_⟩, hnext⟩
    · have hend := Cut.rest (of?_eq_none_of_announcesTooMuch hmore hlen)
      have happ := hcut.append hend
      rw [List.append_nil] at happ
      exact happ
    · rw [hr, hmore]
    · intro hfalse
      rw [hr] at hfalse
      cases hfalse
  | false =>
    -- what is held is the rest of the stream, and the chunk is cut together with it
    rw [if_neg Bool.false_ne_true, hrest hr]
    obtain ⟨⟨rest', hcut', hrefused', hrest'⟩, hnext'⟩ := holds_takeAll hlen
    exact ⟨⟨rest', hcut.append hcut', hrefused', hrest'⟩, hnext'⟩

/-- Whether every chunk is within the limit together with the rest of the bytes before it, which
are still held when it arrives. -/
def Fits (limit : Nat) (chunks : List Bytes) : Prop :=
  ∀ early chunk, early ++ [chunk] <+: chunks →
    ∀ rs rest, Cut early.flatten rs rest → (rest ++ chunk).length ≤ limit

theorem fits_concat_iff {chunks : List Bytes} {chunk : Bytes} :
    Fits limit (chunks ++ [chunk]) ↔ Fits limit chunks ∧
      ∀ rs rest, Cut chunks.flatten rs rest → (rest ++ chunk).length ≤ limit := by
  unfold Fits
  constructor
  · intro h
    refine ⟨fun early c hearly => ?_, h chunks chunk (List.prefix_refl _)⟩
    exact h early c (hearly.trans (List.prefix_append chunks [chunk]))
  · rintro ⟨hchunks, hlast⟩ early c hearly
    rcases List.prefix_concat_iff.1 hearly with heq | hearly
    · obtain ⟨rfl, hc⟩ := List.append_inj' heq rfl
      cases hc
      exact hlast
    · exact hchunks early c hearly

/-- All chunks of a stream within the limit fit. -/
theorem fits_of_le {chunks : List Bytes} (hle : chunks.flatten.length ≤ limit) :
    Fits limit chunks := by
  rintro early chunk ⟨late, rfl⟩ rs rest hcut
  have hrest := hcut.length_rest_le
  simp only [List.flatten_append, List.flatten_cons, List.flatten_nil, List.append_nil,
    List.length_append] at hle ⊢
  omega

theorem feedAll_concat (limit : Nat) (chunks : List Bytes) (chunk : Bytes) :
    feedAll limit (chunks ++ [chunk]) = feed limit (feedAll limit chunks) chunk := by
  unfold feedAll
  rw [List.foldl_append]
  rfl

/-- Whatever the chunks are, if they fit the splitter has what it should have after all of them. -/
theorem holds_of_fits {chunks : List Bytes} (h : Fits limit chunks) :
    Holds limit chunks.flatten (feedAll limit chunks) := by
  induction chunks using List.reverseRecOn with
  | nil => exact ⟨⟨[], .rest rfl, rfl, fun _ => rfl⟩, next_of_of?_eq_none (Nat.zero_le limit) rfl⟩
  | append_singleton chunks chunk ih =>
    obtain ⟨hchunks, hlast⟩ := fits_concat_iff.1 h
    rw [feedAll_concat, List.flatten_append, List.flatten_cons, List.flatten_nil, List.append_nil]
    exact (ih hchunks).feed hlast

/-- In particular they fit if the whole stream is within the limit. -/
theorem holds_feedAll (chunks : List Bytes) (hle : chunks.flatten.length ≤ limit) :
    Holds limit chunks.flatten (feedAll limit chunks) :=
  holds_of_fits (fits_of_le hle)

/-- Two splitters that have what they should have after the same bytes agree. -/
theorem Holds.unique {stream : Bytes} {run run' : Run} (h : Holds limit stream run)
    (h' : Holds limit stream run') :
    run.requests = run'.requests ∧ run.refused = run'.refused ∧
      (run.refused = false → run.rest = run'.rest) := by
  obtain ⟨⟨rest, hcut, hrefused, hrest⟩, _⟩ := h
  obtain ⟨⟨rest', hcut', hrefused', hrest'⟩, _⟩ := h'
  obtain ⟨hrs, rfl⟩ := hcut.unique hcut'
  have hsame : run.refused = run'.refused := by rw [hrefused, hrefused']
  refine ⟨hrs, hsame, fun hr => ?_⟩
  rw [hrest hr, hrest' (hsame ▸ hr)]

/-! ## The end of the stream -/

/-- A nonempty rest that waits for more is handed over as it is, and nothing else. -/
theorem finish_of_rest (hnone : Boundary.of? rest = none) (hle : rest.length ≤ limit)
    (hwaits : announcesTooMuch limit rest = false) :
    finish limit rest =
      ⟨if rest = [] then [] else [⟨Boundary.sniff rest, rest, false⟩], [], false⟩ := by
  have hempty : nextAtEnd limit [] = .incomplete := by
    rw [nextAtEnd, next_of_of?_eq_none (Nat.zero_le limit) rfl]
    rfl
  have hnext : next limit rest = .incomplete := by
    rw [next_of_of?_eq_none hle hnone, hwaits]
    rfl
  cases rest with
  | nil => rw [finish, takeUpTo, hempty, if_pos rfl]
  | cons b bs =>
    have hask : nextAtEnd limit (b :: bs) =
        .request ⟨Boundary.sniff (b :: bs), b :: bs, false⟩ [] := by
      rw [nextAtEnd, hnext]
      rfl
    rw [finish, takeUpTo, hask, if_neg (List.cons_ne_nil b bs)]
    simp only [List.length_cons, takeUpTo, hempty]

/-- What splitting a stream that arrives in chunks has to do with splitting it at once. -/
structure SplitsAlike (limit : Nat) (chunks : List Bytes) : Prop where
  /-- The same requests come of the chunks as of all bytes at once. -/
  requests_eq : (feedAll limit chunks).requests = (feedAll limit [chunks.flatten]).requests
  /-- Both are refused or neither is. -/
  refused_eq : (feedAll limit chunks).refused = (feedAll limit [chunks.flatten]).refused
  /-- What was not refused leaves the same bytes behind. -/
  rest_eq : (feedAll limit chunks).refused = false →
    (feedAll limit chunks).rest = (feedAll limit [chunks.flatten]).rest
  /-- It went on until there was no request or it was refused. -/
  exhausted : next limit (feedAll limit chunks).rest =
    if (feedAll limit chunks).refused then .tooLarge else .incomplete
  /-- Every request is complete in its own right, and no longer than the limit. -/
  complete : ∀ r ∈ (feedAll limit chunks).requests, r.complete = true ∧ r.bytes.length ≤ limit ∧
    Boundary.of? r.bytes = some ⟨r.framing, r.bytes.length⟩
  /-- Nothing is lost and nothing stands twice. -/
  flatten_eq : (feedAll limit chunks).refused = false →
    ((feedAll limit chunks).requests.map (·.bytes)).flatten ++ (feedAll limit chunks).rest =
      chunks.flatten
  /-- The end of the stream hands over the rest, if there is any, as one request that was cut off,
  and nothing stays behind. -/
  finish_eq : (feedAll limit chunks).refused = false →
    finish limit (feedAll limit chunks).rest =
      ⟨if (feedAll limit chunks).rest = [] then []
        else [⟨Boundary.sniff (feedAll limit chunks).rest, (feedAll limit chunks).rest, false⟩],
        [], false⟩

/-- Splitting does not depend on how a stream within the limit arrives, and loses and repeats
nothing. Wherever a splitter waits for a frame, it has fewer bytes than the frame will have. -/
theorem splitsAlike_of_le (limit : Nat) (chunks : List Bytes)
    (hle : chunks.flatten.length ≤ limit) :
    SplitsAlike limit chunks ∧
      ∀ buf total, next limit buf = .incomplete → announced buf = some total →
        buf.length < total := by
  have hrun := holds_feedAll chunks hle
  have hwhole : Holds limit chunks.flatten (feedAll limit [chunks.flatten]) := by
    have hone : [chunks.flatten].flatten = chunks.flatten := by
      rw [List.flatten_cons, List.flatten_nil, List.append_nil]
    have hholds := holds_feedAll [chunks.flatten] (hone.symm ▸ hle)
    rwa [hone] at hholds
  obtain ⟨hrequests, hrefused, hrest⟩ := hrun.unique hwhole
  obtain ⟨⟨rest, hcut, hannounces, hheld⟩, hnext⟩ := hrun
  refine ⟨⟨hrequests, hrefused, hrest, hnext, ?_, ?_, ?_⟩, ?_⟩
  -- the requests are those of the cut, and what is held is its rest
  · intro r hr
    obtain ⟨hcomplete, hfound⟩ := hcut.mem_requests hr
    exact ⟨hcomplete, Nat.le_trans (hcut.length_bytes_le hr) hle, hfound⟩
  · intro hr
    rw [hheld hr]
    exact hcut.flatten
  · intro hr
    rw [hheld hr]
    refine finish_of_rest hcut.of?_rest ?_ (hannounces ▸ hr)
    exact Nat.le_trans hcut.length_rest_le hle
  · intro buf total hwaits htotal
    exact lt_of_announced htotal (of?_of_next_eq_incomplete hwaits)

/-- A verb that arrives byte by byte, and a frame behind it whose length arrives in two parts. -/
theorem splitsAlike_of_le_verb :
    let chunks : List Bytes := [[0x47], [0x45], [0x54, 0x0A, 0x0A, 0, 0], [], [0, 1, 7, 0x50]]
    chunks.flatten.length ≤ 16 ∧ SplitsAlike 16 chunks ∧
      ∀ buf total, next 16 buf = .incomplete → announced buf = some total → buf.length < total :=
  ⟨by decide, splitsAlike_of_le 16 _ (by decide)⟩

/-- A frame that announces too much is refused behind the requests in front of it. -/
example : feedAll 16 [[0x47, 0x45, 0x54, 0x0A, 0x0A, 0, 0], [1, 0, 7]] =
    ⟨[⟨.http, [0x47, 0x45, 0x54, 0x0A, 0x0A], true⟩], [0, 0, 1, 0, 7], true⟩ := by decide

end Splitter

end Switchboard
