import Switchboard.Proofs.Splitter

/-!
# What the limit is about

A splitter asks whether it holds more than the limit before it looks for a request. So the limit is
not one on requests but on what is held at a time: the rest of the request that has begun, and the
chunk that goes on with it, whatever that chunk contains behind the request. Requests within the
limit are therefore taken, all of them, exactly as long as every chunk fits (`takes_all_iff`). Two
short requests in one chunk can be too much where the same two in a chunk each are not
(`not_takes_all_iff_pair`).
-/

namespace Switchboard.Splitter

variable {limit : Nat} {buf rest : Bytes} {chunks : List Bytes} {rs : List RawRequest}

/-! ## One refusal -/

/-- How many of the bytes held belong to the request in front: its own, or all, if it has not
arrived in full. -/
def received (buf : Bytes) : Nat :=
  match Boundary.of? buf with
  | some found => found.length
  | none => buf.length

/-- Whether the request in front is itself longer than the limit, by what it announces or by what
has been received of it. -/
def FrontTooLong (limit : Nat) (buf : Bytes) : Prop :=
  announcesTooMuch limit buf = true ∨ limit < received buf

instance : Decidable (FrontTooLong limit buf) := inferInstanceAs (Decidable (_ ∨ _))

theorem next_of_lt (h : limit < buf.length) : next limit buf = .tooLarge := by
  rw [next, if_pos h]

/-- Bytes are refused if the request in front of them is too long, or if it is not, but there is so
much behind it that they are too long together. -/
theorem next_eq_tooLarge_iff :
    next limit buf = .tooLarge ↔ FrontTooLong limit buf ∨
      ∃ b, Boundary.of? buf = some b ∧ b.length ≤ limit ∧ limit < buf.length := by
  unfold FrontTooLong received
  rcases Nat.lt_or_ge limit buf.length with hlt | hle
  · -- whatever the request in front is, one of the two is the case
    refine iff_of_true (next_of_lt hlt) ?_
    cases hfound : Boundary.of? buf with
    | none => exact .inl (.inr hlt)
    | some b =>
      rcases Nat.lt_or_ge limit b.length with hlong | hshort
      · exact .inl (.inr hlong)
      · exact .inr ⟨b, rfl, hshort, hlt⟩
  · cases hfound : Boundary.of? buf with
    | none =>
      rw [next_of_of?_eq_none hle hfound]
      cases announcesTooMuch limit buf <;> simp [Nat.not_lt.2 hle]
    | some b =>
      have hb := (Boundary.bounds_of_of? hfound).2
      have hannounces : announcesTooMuch limit buf = false := by
        rw [Bool.eq_false_iff]
        intro hmuch
        rw [of?_eq_none_of_announcesTooMuch hmuch hle] at hfound
        cases hfound
      rw [next_of_of? hle hfound, hannounces]
      refine iff_of_false nofun ?_
      rintro ((hmuch | hlong) | ⟨-, -, -, hlt⟩)
      · cases hmuch
      · dsimp only at hlong
        omega
      · omega

/-! ## A whole stream -/

theorem takeAll_of_lt (h : limit < buf.length) : takeAll limit buf = ⟨[], buf, true⟩ := by
  rw [takeAll, takeUpTo, next_of_lt h]

/-- A chunk that is not refused was within the limit together with what was held. -/
theorem length_le_of_feed {run : Run} {chunk : Bytes} (h : (feed limit run chunk).refused = false) :
    run.refused = false ∧ (run.rest ++ chunk).length ≤ limit := by
  unfold feed at h
  cases hr : run.refused with
  | true =>
    rw [if_pos hr, hr] at h
    cases h
  | false =>
    refine ⟨rfl, Nat.le_of_not_lt fun hlt => ?_⟩
    rw [hr, if_neg Bool.false_ne_true, takeAll_of_lt hlt] at h
    cases h

/-- Chunks that are not refused fit. -/
theorem fits_of_refused_eq_false (h : (feedAll limit chunks).refused = false) :
    Fits limit chunks := by
  induction chunks using List.reverseRecOn with
  | nil =>
    intro early chunk hearly
    simp at hearly
  | append_singleton chunks chunk ih =>
    rw [feedAll_concat] at h
    obtain ⟨hr, hle⟩ := length_le_of_feed h
    have hfits := ih hr
    -- what was held is the rest of the chunks before, of which there is only one
    obtain ⟨⟨rest, hcut, -, hrest⟩, -⟩ := holds_of_fits hfits
    rw [hrest hr] at hle
    refine fits_concat_iff.2 ⟨hfits, fun rs' rest' hcut' => ?_⟩
    obtain ⟨-, rfl⟩ := hcut.unique hcut'
    exact hle

/-- Requests one behind the other are cut where they were put together. -/
theorem cut_flatten
    (hrs : ∀ r ∈ rs, r.complete = true ∧
      Boundary.of? r.bytes = some ⟨r.framing, r.bytes.length⟩) :
    Cut (rs.map (·.bytes)).flatten rs [] := by
  induction rs with
  | nil => exact .rest rfl
  | cons r rs ih =>
    obtain ⟨framing, bytes, complete⟩ := r
    obtain ⟨hcomplete, hfound⟩ := hrs _ List.mem_cons_self
    have hmore := ih fun r hr => hrs r (List.mem_cons_of_mem _ hr)
    dsimp only at hcomplete hfound
    subst hcomplete
    rw [List.map_cons, List.flatten_cons]
    have hbehind : Cut ((bytes ++ (rs.map (·.bytes)).flatten).drop bytes.length) rs [] := by
      rw [List.drop_left]
      exact hmore
    have hcut := Cut.request (Boundary.of?_append hfound (rs.map (·.bytes)).flatten) hbehind
    rwa [List.take_left] at hcut

/-- **The limit is one on what is held.** Complete requests that arrive one behind the other in
chunks are all taken, in order, if every chunk fits, and they are refused if one does not. Bytes are
refused if the request in front of them is itself longer than the limit, or if it is not, but more
has arrived behind it than the limit leaves room for. -/
theorem takes_all_iff (limit : Nat) {chunks : List Bytes} {rs : List RawRequest}
    (hrs : ∀ r ∈ rs, r.complete = true ∧
      Boundary.of? r.bytes = some ⟨r.framing, r.bytes.length⟩)
    (hchunks : chunks.flatten = (rs.map (·.bytes)).flatten) :
    (feedAll limit chunks = ⟨rs, [], false⟩ ↔ Fits limit chunks) ∧
      ((feedAll limit chunks).refused = true ↔ ¬Fits limit chunks) ∧
      ∀ buf, next limit buf = .tooLarge ↔ FrontTooLong limit buf ∨
        ∃ b, Boundary.of? buf = some b ∧ b.length ≤ limit ∧ limit < buf.length := by
  have hall : Fits limit chunks → feedAll limit chunks = ⟨rs, [], false⟩ := by
    intro hfits
    obtain ⟨⟨rest, hcut, hrefused, hrest⟩, -⟩ := holds_of_fits hfits
    rw [hchunks] at hcut
    obtain ⟨hrequests, rfl⟩ := hcut.unique (cut_flatten hrs)
    -- nothing is left that could announce anything
    have hr : (feedAll limit chunks).refused = false := hrefused
    have heta : feedAll limit chunks =
        ⟨(feedAll limit chunks).requests, (feedAll limit chunks).rest,
          (feedAll limit chunks).refused⟩ := rfl
    rw [heta, hrequests, hrest hr, hr]
  refine ⟨⟨fun h => ?_, hall⟩, ⟨fun h hfits => ?_, fun hnot => ?_⟩, fun buf => next_eq_tooLarge_iff⟩
  · exact fits_of_refused_eq_false (by rw [h])
  · rw [hall hfits] at h
    cases h
  · by_contra hr
    exact hnot (fits_of_refused_eq_false (Bool.eq_false_iff.2 hr))

/-- A request of five bytes. -/
def shortGet : RawRequest := ⟨.http, [0x47, 0x45, 0x54, 0x0A, 0x0A], true⟩

/-- Two of them in three chunks, of which one has the end of the first and the beginning of the
second. -/
theorem takes_all_iff_three_chunks :
    let rs := [shortGet, shortGet]
    let chunks : List Bytes := [[0x47, 0x45, 0x54], [0x0A, 0x0A, 0x47, 0x45], [0x54, 0x0A, 0x0A]]
    (∀ r ∈ rs, r.complete = true ∧ Boundary.of? r.bytes = some ⟨r.framing, r.bytes.length⟩) ∧
      chunks.flatten = (rs.map (·.bytes)).flatten ∧ Fits 8 chunks ∧
      feedAll 8 chunks = ⟨rs, [], false⟩ := by
  intro rs chunks
  have hrs : ∀ r ∈ rs, r.complete = true ∧
      Boundary.of? r.bytes = some ⟨r.framing, r.bytes.length⟩ := by decide
  have hchunks : chunks.flatten = (rs.map (·.bytes)).flatten := by decide
  obtain ⟨-, hrefused, -⟩ := takes_all_iff 8 hrs hchunks
  have hfits : Fits 8 chunks := by
    by_contra hnot
    exact absurd (hrefused.2 hnot) (by decide)
  exact ⟨hrs, hchunks, hfits, (takes_all_iff 8 hrs hchunks).1.2 hfits⟩

/-- The same two requests, which are within the limit, are refused in one chunk, though the one in
front is not too long, and taken in a chunk each. -/
theorem not_takes_all_iff_pair :
    let rs := [shortGet, shortGet]
    let both := shortGet.bytes ++ shortGet.bytes
    (∀ r ∈ rs, Boundary.of? r.bytes = some ⟨r.framing, r.bytes.length⟩ ∧ r.bytes.length ≤ 8) ∧
      feedAll 8 [both] = ⟨[], both, true⟩ ∧ ¬FrontTooLong 8 both ∧ next 8 both = .tooLarge ∧
      feedAll 8 [shortGet.bytes, shortGet.bytes] = ⟨rs, [], false⟩ := by
  decide

end Switchboard.Splitter
