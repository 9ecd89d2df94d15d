import Switchboard.Boundary

/-!
# Requests end where they end

`Boundary.of?` is asked again whenever bytes arrive, with more of the next request in the buffer
and perhaps the beginning of a later one behind it. This file shows that the answers fit together:
a request that is found is found in every buffer that begins with its bytes, and in no shorter
one.

The argument is about beginnings. The head of an HTTP request is the shortest beginning that ends
in a blank line (`headEnd_eq_some_iff`). The two ways to write that line may overlap in the
buffer, but the one that begins first is also complete first. Everything else that the boundary of
a request depends on stands inside the request, so two buffers that agree on its bytes agree on
its boundary (`of?_of_isPrefix`).
-/

namespace Switchboard

/-! ## Shortest beginnings -/

namespace Bytes

/-- Whether `n` is the length of the shortest beginning of `buf` with a property. -/
structure Shortest (P : Bytes → Prop) (buf : Bytes) (n : Nat) : Prop where
  le_length : n ≤ buf.length
  holds : P (buf.take n)
  not_before : ∀ m < n, ¬ P (buf.take m)

variable {P : Bytes → Prop} {buf buf' : Bytes} {n m k : Nat}

/-- A beginning of a shared beginning is shared. -/
theorem take_of_take_isPrefix (hn : n ≤ buf.length) (h : buf.take n <+: buf') (hm : m ≤ n) :
    buf'.take m = buf.take m := by
  have hlen : (buf.take n).length = n := by rw [List.length_take]; omega
  have heq : buf.take n = buf'.take n := by
    rw [List.prefix_iff_eq_take.1 h, hlen]
  calc buf'.take m = (buf'.take n).take m := by rw [List.take_take, Nat.min_eq_left hm]
    _ = (buf.take n).take m := by rw [heq]
    _ = buf.take m := by rw [List.take_take, Nat.min_eq_left hm]

/-- A shared beginning is no longer than either of the two. -/
theorem le_length_of_take_isPrefix (hn : n ≤ buf.length) (h : buf.take n <+: buf') :
    n ≤ buf'.length := by
  have hle := h.length_le
  rw [List.length_take] at hle
  omega

/-- Whether short bytes stand in front is told by any long enough beginning. -/
theorem prefix_iff_of_take_isPrefix {word : Bytes} (hn : n ≤ buf.length)
    (h : buf.take n <+: buf') (hword : word.length ≤ n) : word <+: buf' ↔ word <+: buf := by
  rw [List.prefix_iff_eq_take, List.prefix_iff_eq_take, take_of_take_isPrefix hn h hword]

theorem Shortest.unique (h : Shortest P buf n) (h' : Shortest P buf m) : n = m := by
  rcases Nat.lt_trichotomy n m with hlt | heq | hgt
  · exact absurd h.holds (h'.not_before n hlt)
  · exact heq
  · exact absurd h'.holds (h.not_before m hgt)

/-- The shortest beginning with a property is the shortest one of all bytes that begin with it. -/
theorem Shortest.of_isPrefix (h : Shortest P buf n) (hp : buf.take n <+: buf') :
    Shortest P buf' n where
  le_length := le_length_of_take_isPrefix h.le_length hp
  holds := by
    rw [take_of_take_isPrefix h.le_length hp (Nat.le_refl n)]
    exact h.holds
  not_before m hm := by
    rw [take_of_take_isPrefix h.le_length hp (Nat.le_of_lt hm)]
    exact h.not_before m hm

/-! ## Searching -/

/-- Bytes occur at an offset if and only if the beginning that ends with them there does. -/
theorem prefix_drop_iff {needle : Bytes} :
    needle <+: buf.drop k ∧ k ≤ buf.length ↔
      k + needle.length ≤ buf.length ∧ needle <:+ buf.take (k + needle.length) := by
  constructor
  · rintro ⟨⟨rest, hrest⟩, hk⟩
    have hlen := congrArg List.length hrest
    rw [List.length_append, List.length_drop] at hlen
    refine ⟨by omega, buf.take k, ?_⟩
    rw [List.take_add, ← hrest, List.take_left]
  · rintro ⟨hle, front, hfront⟩
    have hlen := congrArg List.length hfront
    rw [List.length_append, List.length_take] at hlen
    have hk : front.length = k := by omega
    refine ⟨⟨buf.drop (k + needle.length), ?_⟩, by omega⟩
    calc needle ++ buf.drop (k + needle.length)
        = (front ++ needle ++ buf.drop (k + needle.length)).drop k := by
          rw [List.append_assoc, List.drop_left' hk]
      _ = buf.drop k := by rw [hfront, List.take_append_drop]

/-- The search answers with an offset at which the bytes occur and before which they do not. -/
theorem prefix_of_find {needle : Bytes} (h : find needle buf = some k) :
    needle <+: buf.drop k ∧ k ≤ buf.length ∧ ∀ j < k, ¬ needle <+: buf.drop j := by
  induction buf generalizing k with
  | nil =>
    simp only [find] at h
    split at h
    · rename_i hnil
      obtain rfl := Option.some.inj h
      rw [List.isEmpty_iff.1 hnil]
      simp
    · simp at h
  | cons b bs ih =>
    simp only [find] at h
    split at h
    · rename_i hhere
      obtain rfl := Option.some.inj h
      refine ⟨List.isPrefixOf_iff_prefix.1 hhere, Nat.zero_le _, ?_⟩
      intro j hj
      omega
    · rename_i hhere
      obtain ⟨j, hj, rfl⟩ := Option.map_eq_some_iff.1 h
      obtain ⟨hoccurs, hle, hbefore⟩ := ih hj
      refine ⟨hoccurs, by rw [List.length_cons]; omega, ?_⟩
      intro i hi
      cases i with
      | zero => exact fun hc => hhere (List.isPrefixOf_iff_prefix.2 hc)
      | succ i => exact hbefore i (by omega)

/-- If the search has no answer, the bytes occur nowhere. -/
theorem not_prefix_of_find {needle : Bytes} (h : find needle buf = none) (hk : k ≤ buf.length) :
    ¬ needle <+: buf.drop k := by
  induction buf generalizing k with
  | nil =>
    simp only [find] at h
    split at h
    · simp at h
    · rename_i hne
      intro hc
      rw [List.drop_nil, List.prefix_nil] at hc
      exact hne (List.isEmpty_iff.2 hc)
  | cons b bs ih =>
    simp only [find] at h
    split at h
    · simp at h
    · rename_i hhere
      cases k with
      | zero => exact fun hc => hhere (List.isPrefixOf_iff_prefix.2 hc)
      | succ k =>
        rw [List.length_cons] at hk
        exact ih (Option.map_eq_none_iff.1 h) (by omega)

/-- The search finds the shortest beginning that ends with the bytes. -/
theorem shortest_of_find {needle : Bytes} (h : find needle buf = some k) :
    Shortest (needle <:+ ·) buf (k + needle.length) := by
  obtain ⟨hoccurs, hk, hbefore⟩ := prefix_of_find h
  obtain ⟨hle, hsuffix⟩ := prefix_drop_iff.1 ⟨hoccurs, hk⟩
  refine ⟨hle, hsuffix, ?_⟩
  intro m hm hends
  have hlen := hends.length_le
  rw [List.length_take] at hlen
  have hm' : m - needle.length + needle.length = m := by omega
  refine hbefore (m - needle.length) (by omega) (prefix_drop_iff.2 ⟨by omega, ?_⟩).1
  rw [hm']
  exact hends

/-- If the search has no answer, no beginning ends with the bytes. -/
theorem not_suffix_of_find {needle : Bytes} (h : find needle buf = none) (hn : n ≤ buf.length) :
    ¬ needle <:+ buf.take n := by
  intro hends
  have hlen := hends.length_le
  rw [List.length_take] at hlen
  have hn' : n - needle.length + needle.length = n := by omega
  refine not_prefix_of_find h (k := n - needle.length) (by omega)
    (prefix_drop_iff.2 ⟨by omega, ?_⟩).1
  rw [hn']
  exact hends

end Bytes

namespace Boundary

open Bytes (Shortest)

variable {buf buf' : Bytes} {b : Boundary} {n : Nat}

/-! ## The head of an HTTP request -/

/-- A blank line whose lines end with carriage return and line feed. -/
def longBlank : Bytes := [0x0D, 0x0A, 0x0D, 0x0A]

/-- A blank line whose lines end with a line feed alone. -/
def shortBlank : Bytes := [0x0A, 0x0A]

/-- Whether bytes end in a blank line. -/
def EndsBlank (head : Bytes) : Prop := longBlank <:+ head ∨ shortBlank <:+ head

/-- A short blank line that begins no earlier than a long one ends behind it. -/
theorem add_four_lt_of_occurs {i j : Nat} (hlong : longBlank <+: buf.drop i)
    (hshort : shortBlank <+: buf.drop j) (hij : i ≤ j) : i + 4 < j + 2 := by
  obtain ⟨u, hu⟩ := hlong
  obtain ⟨v, hv⟩ := hshort
  have hl : ∀ m < 4, buf[i + m]? = longBlank[m]? := by
    intro m hm
    rw [← List.getElem?_drop, ← hu, List.getElem?_append_left (by exact hm)]
  have hs : ∀ m < 2, buf[j + m]? = shortBlank[m]? := by
    intro m hm
    rw [← List.getElem?_drop, ← hv, List.getElem?_append_left (by exact hm)]
  -- the long line has a carriage return at its first and at its third byte
  have h0 : j ≠ i := by
    rintro rfl
    exact absurd ((hl 0 (by omega)).symm.trans (hs 0 (by omega))) (by decide)
  have h1 : j ≠ i + 1 := by
    rintro rfl
    exact absurd ((hl 2 (by omega)).symm.trans (hs 1 (by omega))) (by decide)
  have h2 : j ≠ i + 2 := by
    rintro rfl
    exact absurd ((hl 2 (by omega)).symm.trans (hs 0 (by omega))) (by decide)
  omega

/-- The end that is found is behind the blank line that is complete first. -/
theorem shortest_of_headEnd (h : headEnd buf = some n) : Shortest EndsBlank buf n := by
  unfold headEnd at h
  split at h
  · rename_i long short hlong hshort
    obtain rfl := Option.some.inj h
    have hL := Bytes.shortest_of_find hlong
    have hS := Bytes.shortest_of_find hshort
    have hl := (Bytes.prefix_of_find hlong).1
    have hs := (Bytes.prefix_of_find hshort).1
    split
    · rename_i hle
      -- the long line begins first, and it is also complete first
      have hlt := add_four_lt_of_occurs hl hs hle
      refine ⟨hL.le_length, .inl hL.holds, ?_⟩
      rintro m hm (hc | hc)
      · exact hL.not_before m hm hc
      · exact hS.not_before m (Nat.lt_trans hm hlt) hc
    · rename_i hlt
      -- the short line begins first and is the shorter one
      refine ⟨hS.le_length, .inr hS.holds, ?_⟩
      rintro m hm (hc | hc)
      · exact hL.not_before m (by simp; omega) hc
      · exact hS.not_before m hm hc
  · rename_i long hlong hshort
    obtain rfl := Option.some.inj h
    have hL := Bytes.shortest_of_find hlong
    refine ⟨hL.le_length, .inl hL.holds, ?_⟩
    rintro m hm (hc | hc)
    · exact hL.not_before m hm hc
    · have hle := hL.le_length
      exact Bytes.not_suffix_of_find hshort (by simp at hle; omega) hc
  · rename_i short hlong hshort
    obtain rfl := Option.some.inj h
    have hS := Bytes.shortest_of_find hshort
    refine ⟨hS.le_length, .inr hS.holds, ?_⟩
    rintro m hm (hc | hc)
    · have hle := hS.le_length
      exact Bytes.not_suffix_of_find hlong (by simp at hle; omega) hc
    · exact hS.not_before m hm hc
  · simp at h

/-- If no end is found, no beginning ends in a blank line. -/
theorem not_endsBlank_of_headEnd (h : headEnd buf = none) (hn : n ≤ buf.length) :
    ¬ EndsBlank (buf.take n) := by
  unfold headEnd at h
  split at h
  · simp at h
  · simp at h
  · simp at h
  · rename_i hlong hshort
    rintro (hc | hc)
    · exact Bytes.not_suffix_of_find hlong hn hc
    · exact Bytes.not_suffix_of_find hshort hn hc

/-- The head of an HTTP request is its shortest beginning that ends in a blank line. -/
theorem headEnd_eq_some_iff : headEnd buf = some n ↔ Shortest EndsBlank buf n := by
  refine ⟨shortest_of_headEnd, fun h => ?_⟩
  cases hend : headEnd buf with
  | none => exact absurd h.holds (not_endsBlank_of_headEnd hend h.le_length)
  | some m => rw [(shortest_of_headEnd hend).unique h]

theorem headEnd_of_isPrefix (h : headEnd buf = some n) (hp : buf.take n <+: buf') :
    headEnd buf' = some n :=
  headEnd_eq_some_iff.2 ((headEnd_eq_some_iff.1 h).of_isPrefix hp)

theorem le_length_of_headEnd (h : headEnd buf = some n) : n ≤ buf.length :=
  (shortest_of_headEnd h).le_length

theorem two_le_count_of_endsBlank {bs : Bytes} (h : EndsBlank bs) : 2 ≤ bs.count 0x0A := by
  rcases h with h | h
  · exact h.sublist.count_le 0x0A
  · exact h.sublist.count_le 0x0A

/-- Where there is no line feed before two in a row, the head ends with these. -/
theorem headEnd_append_blank {front : Bytes} (h : 0x0A ∉ front) :
    headEnd (front ++ [0x0A, 0x0A]) = some (front.length + 2) := by
  have hlength : (front ++ [0x0A, 0x0A]).length = front.length + 2 := List.length_append
  rw [headEnd_eq_some_iff]
  refine ⟨Nat.le_of_eq hlength.symm, ?_, ?_⟩
  · rw [← hlength, List.take_length]
    exact .inr (List.suffix_append ..)
  · intro m hm hends
    have htake : (front ++ [0x0A, 0x0A]).take m = (front ++ [0x0A]).take m := by
      rw [List.append_cons, List.take_append_of_le_length]
      rw [List.length_append, List.length_singleton]
      omega
    have hcount := two_le_count_of_endsBlank hends
    rw [htake] at hcount
    have hle := (List.take_sublist m (front ++ [0x0A])).count_le 0x0A
    rw [List.count_append, List.count_eq_zero_of_not_mem h, List.count_singleton_self] at hle
    omega

/-- A head begins with a verb, so its blank line ends behind the fourth byte. -/
theorem four_le_of_headEnd (hsniff : sniff buf = .http) (h : headEnd buf = some n) : 4 ≤ n := by
  have hS := shortest_of_headEnd h
  have hn := hS.le_length
  rcases hS.holds with hlong | hshort
  -- a long blank line takes four bytes by itself, a short one needs two in front
  · have hle := hlong.length_le
    rw [List.length_take] at hle
    simp only [longBlank, List.length_cons, List.length_nil] at hle
    omega
  · obtain ⟨front, hfront⟩ := hshort
    have hlen := congrArg List.length hfront
    rw [List.length_append, List.length_take] at hlen
    simp only [shortBlank, List.length_cons, List.length_nil] at hlen
    have hfeed : buf[n - 2]? = some 0x0A := by
      have hlt : n - 2 < n := by omega
      rw [← List.getElem?_take_of_lt hlt, ← hfront, List.getElem?_append_right (by omega)]
      rw [show n - 2 - front.length = 0 by omega]
      rfl
    -- a line feed among the first two bytes would be one of the verb
    have hverb : buf[0]? ≠ some 0x0A ∧ buf[1]? ≠ some 0x0A := by
      unfold sniff at hsniff
      split at hsniff
      · rename_i hv
        rw [Bool.or_eq_true, List.isPrefixOf_iff_prefix, List.isPrefixOf_iff_prefix] at hv
        rcases hv with ⟨rest, rfl⟩ | ⟨rest, rfl⟩
        · exact ⟨by simp [getVerb], by simp [getVerb]⟩
        · exact ⟨by simp [postVerb], by simp [postVerb]⟩
      · simp at hsniff
    by_cases h2 : n = 2
    · subst h2
      exact absurd hfeed hverb.1
    · by_cases h3 : n = 3
      · subst h3
        exact absurd hfeed hverb.2
      · omega

/-! ## The request -/

/-- Which framing applies is told by the first four bytes. -/
theorem sniff_of_isPrefix (h4 : 4 ≤ n) (hn : n ≤ buf.length) (hp : buf.take n <+: buf') :
    sniff buf' = sniff buf := by
  have hget : getVerb.isPrefixOf buf' = getVerb.isPrefixOf buf := by
    rw [Bool.eq_iff_iff, List.isPrefixOf_iff_prefix, List.isPrefixOf_iff_prefix]
    exact Bytes.prefix_iff_of_take_isPrefix hn hp (Nat.le_trans (by decide) h4)
  have hpost : postVerb.isPrefixOf buf' = postVerb.isPrefixOf buf := by
    rw [Bool.eq_iff_iff, List.isPrefixOf_iff_prefix, List.isPrefixOf_iff_prefix]
    exact Bytes.prefix_iff_of_take_isPrefix hn hp h4
  rw [sniff, sniff, hget, hpost]

/-- The length that a frame announces stands in its first four bytes. -/
theorem length?_of_isPrefix (h4 : 4 ≤ n) (hn : n ≤ buf.length) (hp : buf.take n <+: buf') :
    Frame.length? buf' = Frame.length? buf := by
  have hn' := Bytes.le_length_of_take_isPrefix hn hp
  unfold Frame.length? Frame.prefixLength
  rw [if_pos (Nat.le_trans h4 hn), if_pos (Nat.le_trans h4 hn'),
    Bytes.take_of_take_isPrefix hn hp h4]

/-- A request without a body ends with its head. -/
theorem httpLength_eq_headEnd (h : ¬ postVerb <+: buf) : httpLength buf = headEnd buf := by
  have hpost : postVerb.isPrefixOf buf = false := by
    rw [← Bool.not_eq_true, List.isPrefixOf_iff_prefix]
    exact h
  unfold httpLength
  cases headEnd buf with
  | none => rfl
  | some head => simp [hpost]

/-- A request with a body ends as many bytes behind its head as the head announces, or one byte
behind it. -/
theorem httpLength_eq_some_iff (h : postVerb <+: buf) :
    httpLength buf = some n ↔
      ∃ head, headEnd buf = some head ∧
        n = head + (contentLength (buf.take head)).getD 1 ∧ n ≤ Text.maxWord ∧
        n ≤ buf.length := by
  have hpost : postVerb.isPrefixOf buf = true := List.isPrefixOf_iff_prefix.2 h
  unfold httpLength
  cases headEnd buf with
  | none => simp
  | some head =>
    simp only [Option.bind_eq_bind, Option.bind_some, hpost, if_true,
      Option.ite_none_right_eq_some, Option.some.injEq]
    constructor
    · rintro ⟨⟨hmax, hle⟩, rfl⟩
      exact ⟨head, rfl, rfl, hmax, hle⟩
    · rintro ⟨_, rfl, rfl, hmax, hle⟩
      exact ⟨⟨hmax, hle⟩, rfl⟩

/-- An HTTP request holds its head and no more than has arrived. -/
theorem le_of_httpLength (h : httpLength buf = some n) :
    n ≤ buf.length ∧ ∃ head, headEnd buf = some head ∧ head ≤ n := by
  by_cases hpost : postVerb <+: buf
  · obtain ⟨head, hhead, rfl, _, hle⟩ := (httpLength_eq_some_iff hpost).1 h
    exact ⟨hle, head, hhead, Nat.le_add_right _ _⟩
  · rw [httpLength_eq_headEnd hpost] at h
    exact ⟨le_length_of_headEnd h, n, h, Nat.le_refl n⟩

theorem httpLength_of_isPrefix (h4 : 4 ≤ n) (h : httpLength buf = some n)
    (hp : buf.take n <+: buf') : httpLength buf' = some n := by
  obtain ⟨hn, head, hhead, hle⟩ := le_of_httpLength h
  -- the head lies within the request, so it has the same end and announces the same length
  have hfront : buf.take head <+: buf' := by
    refine List.IsPrefix.trans ?_ hp
    exact List.take_prefix_take_left hle
  have hhead' := headEnd_of_isPrefix hhead hfront
  have hverb : postVerb <+: buf' ↔ postVerb <+: buf := Bytes.prefix_iff_of_take_isPrefix hn hp h4
  by_cases hpost : postVerb <+: buf
  · obtain ⟨head₂, hhead₂, hlen, hmax, _⟩ := (httpLength_eq_some_iff hpost).1 h
    obtain rfl := Option.some.inj (hhead.symm.trans hhead₂)
    refine (httpLength_eq_some_iff (hverb.2 hpost)).2 ⟨head, hhead', ?_, hmax, ?_⟩
    · rw [Bytes.take_of_take_isPrefix hn hp hle]
      exact hlen
    · exact Bytes.le_length_of_take_isPrefix hn hp
  · rw [httpLength_eq_headEnd hpost] at h
    rw [httpLength_eq_headEnd (fun hc => hpost (hverb.1 hc))]
    exact headEnd_of_isPrefix h hp

/-- What it takes for a request to be found, by its framing. -/
theorem of?_eq_some_iff : of? buf = some b ↔
    b.framing = sniff buf ∧ match sniff buf with
      | .binary => Frame.length? buf = some b.length ∧ b.length ≤ buf.length
      | .http => httpLength buf = some b.length := by
  obtain ⟨framing, length⟩ := b
  unfold of?
  cases sniff buf with
  | binary =>
    simp only [Option.map_eq_some_iff, Option.filter_eq_some_iff, decide_eq_true_eq,
      Boundary.mk.injEq]
    constructor
    · rintro ⟨_, ⟨hlen, hle⟩, rfl, rfl⟩
      exact ⟨rfl, hlen, hle⟩
    · rintro ⟨rfl, hlen, hle⟩
      exact ⟨length, ⟨hlen, hle⟩, rfl, rfl⟩
  | http =>
    simp only [Option.map_eq_some_iff, Boundary.mk.injEq]
    constructor
    · rintro ⟨_, hlen, rfl, rfl⟩
      exact ⟨rfl, hlen⟩
    · rintro ⟨rfl, hlen⟩
      exact ⟨length, hlen, rfl, rfl⟩

theorem framing_of_of? (h : of? buf = some b) : b.framing = sniff buf := (of?_eq_some_iff.1 h).1

/-- A request that is found is at least four bytes long and has arrived. -/
theorem bounds_of_of? (h : of? buf = some b) : 4 ≤ b.length ∧ b.length ≤ buf.length := by
  have hfound := (of?_eq_some_iff.1 h).2
  cases hsniff : sniff buf with
  | binary =>
    rw [hsniff] at hfound
    obtain ⟨hlen, hle⟩ := hfound
    unfold Frame.length? at hlen
    split at hlen
    · have hfour := Option.some.inj hlen
      rw [← hfour]
      refine ⟨Nat.le_add_right 4 _, ?_⟩
      rw [hfour]
      exact hle
    · simp at hlen
  | http =>
    rw [hsniff] at hfound
    obtain ⟨hle, head, hhead, hhead_le⟩ := le_of_httpLength hfound
    exact ⟨Nat.le_trans (four_le_of_headEnd hsniff hhead) hhead_le, hle⟩

/-- A request that is found is found in all bytes that begin with it. -/
theorem of?_of_isPrefix (h : of? buf = some b) (hp : buf.take b.length <+: buf') :
    of? buf' = some b := by
  obtain ⟨h4, hn⟩ := bounds_of_of? h
  have hsniff := sniff_of_isPrefix h4 hn hp
  have hfound := (of?_eq_some_iff.1 h).2
  refine of?_eq_some_iff.2 ⟨by rw [hsniff]; exact framing_of_of? h, ?_⟩
  rw [hsniff]
  cases hs : sniff buf with
  | binary =>
    rw [hs] at hfound
    refine ⟨?_, Bytes.le_length_of_take_isPrefix hn hp⟩
    rw [length?_of_isPrefix h4 hn hp]
    exact hfound.1
  | http =>
    rw [hs] at hfound
    exact httpLength_of_isPrefix h4 hfound hp

/-- More bytes behind a request that is found change nothing. -/
theorem of?_append (h : of? buf = some b) (more : Bytes) : of? (buf ++ more) = some b :=
  of?_of_isPrefix h ((List.take_prefix _ _).trans (List.prefix_append buf more))

/-- A request that is found is found in its own bytes. -/
theorem of?_take (h : of? buf = some b) : of? (buf.take b.length) = some b :=
  of?_of_isPrefix h (List.prefix_refl _)

/-- No request is found in a proper beginning of its bytes. -/
theorem of?_eq_none_of_isPrefix (h : of? buf = some b) (hp : buf' <+: buf)
    (hlt : buf'.length < b.length) : of? buf' = none := by
  cases hfound : of? buf' with
  | none => rfl
  | some b' =>
    -- it would be found in the longer bytes as well, and be too long for the shorter ones
    have hsame : of? buf = some b' :=
      of?_of_isPrefix hfound ((List.take_prefix _ _).trans hp)
    obtain rfl := Option.some.inj (h.symm.trans hsame)
    have hle := (bounds_of_of? hfound).2
    omega

/-- While bytes arrive, and whatever bytes they are, a request is found from its last byte on and
not before. -/
theorem of?_take_append (buf : Bytes) (b : Boundary) (h : of? buf = some b) :
    4 ≤ b.length ∧ b.length ≤ buf.length ∧ b.framing = sniff buf ∧
      ∀ more cut, cut ≤ (buf ++ more).length →
        of? ((buf ++ more).take cut) = if cut < b.length then none else some b := by
  obtain ⟨h4, hn⟩ := bounds_of_of? h
  refine ⟨h4, hn, framing_of_of? h, ?_⟩
  intro more cut hcut
  have hall := of?_append h more
  split
  · rename_i hlt
    refine of?_eq_none_of_isPrefix hall (List.take_prefix _ _) ?_
    rw [List.length_take]
    omega
  · rename_i hle
    exact of?_of_isPrefix hall (List.take_prefix_take_left (by omega))

/-- A request with a body of two bytes, behind which the next verb has begun. -/
theorem of?_take_append_post :
    let buf := Utf8.ofString "POST /ADD\ncontent-length: 2\n\nq=GE"
    of? buf = some ⟨.http, 31⟩ ∧ 4 ≤ 31 ∧ 31 ≤ buf.length ∧ Framing.http = sniff buf ∧
      ∀ more cut, cut ≤ (buf ++ more).length →
        of? ((buf ++ more).take cut) = if cut < 31 then none else some ⟨.http, 31⟩ :=
  have h : of? (Utf8.ofString "POST /ADD\ncontent-length: 2\n\nq=GE") = some ⟨.http, 31⟩ := by
    decide +kernel
  ⟨h, of?_take_append _ _ h⟩

end Boundary

end Switchboard
