import Mathlib.Algebra.GroupWithZero.Nat
import Switchboard.Tracker

/-!
# Durations in sum

A tracker keeps four numbers for the calls of a method and puts one more call into them at a time.
What they say is settled by the durations of the calls alone: `Stat.ofDurations` reads it off a list
of them at once, and to put two such records together is to put the lists together
(`merge_ofDurations`). So neither the order of the calls counts nor how they were grouped
(`gathered_regardless`), although the record of no calls has zeros for extremes, which are nobody's.

Whatever is put together out of single calls is the record of a list (`reached_iff`), and there the
quotient of the total and the count lies between the extremes. The average is this quotient only as
long as the count has 32 bits (`average_within_iff`).
-/

namespace Switchboard

/-! ## Extremes of a list -/

namespace Durations

variable {xs ys : List Nat}

theorem min?_eq_of_perm (h : xs.Perm ys) : xs.min? = ys.min? := by
  ext d
  simp only [List.min?_eq_some_iff, h.mem_iff]

theorem max?_eq_of_perm (h : xs.Perm ys) : xs.max? = ys.max? := by
  ext d
  simp only [List.max?_eq_some_iff, h.mem_iff]

theorem min?_append_eq_some {low low' : Nat} (hxs : xs.min? = some low)
    (hys : ys.min? = some low') : (xs ++ ys).min? = some (min low low') := by
  rw [List.min?_eq_some_iff] at hxs hys ⊢
  refine ⟨?_, fun d hd => ?_⟩
  · rcases Nat.le_total low low' with hle | hle
    · rw [Nat.min_eq_left hle]
      exact List.mem_append_left ys hxs.1
    · rw [Nat.min_eq_right hle]
      exact List.mem_append_right xs hys.1
  · rcases List.mem_append.1 hd with hd | hd
    · exact Nat.le_trans (Nat.min_le_left ..) (hxs.2 d hd)
    · exact Nat.le_trans (Nat.min_le_right ..) (hys.2 d hd)

theorem max?_append_eq_some {high high' : Nat} (hxs : xs.max? = some high)
    (hys : ys.max? = some high') : (xs ++ ys).max? = some (max high high') := by
  rw [List.max?_eq_some_iff] at hxs hys ⊢
  refine ⟨?_, fun d hd => ?_⟩
  · rcases Nat.le_total high high' with hle | hle
    · rw [Nat.max_eq_right hle]
      exact List.mem_append_right xs hys.1
    · rw [Nat.max_eq_left hle]
      exact List.mem_append_left ys hxs.1
  · rcases List.mem_append.1 hd with hd | hd
    · exact Nat.le_trans (hxs.2 d hd) (Nat.le_max_left ..)
    · exact Nat.le_trans (hys.2 d hd) (Nat.le_max_right ..)

end Durations

namespace Stat

/-! ## The record of a list -/

/-- What is known about calls with these durations. -/
def ofDurations (ds : List Nat) : Stat := ⟨ds.length, ds.min?.getD 0, ds.max?.getD 0, ds.sum⟩

section

variable {xs ys : List Nat}

/-- The order of the calls does not matter. -/
theorem ofDurations_eq_of_perm (h : xs.Perm ys) : ofDurations xs = ofDurations ys := by
  unfold ofDurations
  rw [h.length_eq, Durations.min?_eq_of_perm h, Durations.max?_eq_of_perm h, h.sum_nat]

/-- The extremes of some calls are durations of theirs. -/
theorem exists_extremes (h : xs ≠ []) : ∃ low high, xs.min? = some low ∧ xs.max? = some high ∧
    ofDurations xs = ⟨xs.length, low, high, xs.sum⟩ := by
  obtain ⟨low, hlow⟩ := Option.isSome_iff_exists.1 (List.isSome_min?_of_ne_nil h)
  obtain ⟨high, hhigh⟩ := Option.isSome_iff_exists.1 (List.isSome_max?_of_ne_nil h)
  refine ⟨low, high, hlow, hhigh, ?_⟩
  unfold ofDurations
  rw [hlow, hhigh]
  rfl

end

/-! ## Putting records together -/

theorem none_merge (s : Stat) : none.merge s = s := rfl

/-- A record of nothing adds nothing. -/
theorem merge_of_count_eq_zero {s t : Stat} (hs : s.count ≠ 0) (ht : t.count = 0) :
    s.merge t = s := by
  rw [merge, if_neg hs, if_pos ht]

/-- Records of something add up, and the extremes are those of both. -/
theorem merge_of_count_ne_zero {s t : Stat} (hs : s.count ≠ 0) (ht : t.count ≠ 0) :
    s.merge t =
      ⟨s.count + t.count, Nat.min s.min t.min, Nat.max s.max t.max, s.total + t.total⟩ := by
  rw [merge, if_neg hs, if_neg ht]

/-- To put two records together is to put the calls together. The extremes of no calls, which are
zero, do not get into the result. -/
theorem merge_ofDurations (xs ys : List Nat) :
    (ofDurations xs).merge (ofDurations ys) = ofDurations (xs ++ ys) := by
  by_cases hxs : xs = []
  · subst hxs
    exact none_merge _
  · have hcount : (ofDurations xs).count ≠ 0 := mt List.length_eq_zero_iff.1 hxs
    by_cases hys : ys = []
    · subst hys
      rw [List.append_nil]
      exact merge_of_count_eq_zero hcount rfl
    · have hcount' : (ofDurations ys).count ≠ 0 := mt List.length_eq_zero_iff.1 hys
      obtain ⟨low, high, hlow, hhigh, heq⟩ := exists_extremes hxs
      obtain ⟨low', high', hlow', hhigh', heq'⟩ := exists_extremes hys
      rw [merge_of_count_ne_zero hcount hcount', heq, heq', ofDurations,
        Durations.min?_append_eq_some hlow hlow', Durations.max?_append_eq_some hhigh hhigh',
        List.length_append, List.sum_append_nat]
      rfl

theorem single_eq (d : Nat) : single d = ofDurations [d] := rfl

/-- One more call. -/
theorem merge_single (ds : List Nat) (d : Nat) :
    (ofDurations ds).merge (.single d) = ofDurations (d :: ds) := by
  rw [single_eq, merge_ofDurations]
  exact ofDurations_eq_of_perm List.perm_append_comm

theorem count_merge_single (s : Stat) (d : Nat) : (s.merge (.single d)).count = s.count + 1 := by
  by_cases hs : s.count = 0
  · rw [merge, if_pos hs, hs]
    rfl
  · rw [merge_of_count_ne_zero hs Nat.one_ne_zero]
    rfl

/-! ## One call after another -/

/-- What is known when calls with these durations have been put in one after another. -/
def gathered (ds : List Nat) : Stat := ds.foldl (fun s d => s.merge (.single d)) none

/-- Calls that are gathered one after another make the record of all. -/
theorem foldl_merge_single (xs ys : List Nat) :
    ys.foldl (fun s d => s.merge (.single d)) (ofDurations xs) = ofDurations (xs ++ ys) := by
  induction ys generalizing xs with
  | nil => rw [List.foldl_nil, List.append_nil]
  | cons d ys ih =>
    rw [List.foldl_cons, single_eq, merge_ofDurations, ih, List.append_assoc,
      List.singleton_append]

theorem gathered_eq_ofDurations (ds : List Nat) : gathered ds = ofDurations ds :=
  foldl_merge_single [] ds

/-- **Neither order nor grouping counts.** Calls that are put in one after another leave their
number, their shortest and longest duration and the sum of all, and nothing if there are none. In
whatever order they come, they leave the same, and so they do if some of them are gathered apart
from the others. -/
theorem gathered_regardless (xs ys : List Nat) :
    gathered [] = none ∧
      (xs ≠ [] → (gathered xs).count = xs.length ∧ xs.min? = some (gathered xs).min ∧
        xs.max? = some (gathered xs).max ∧ (gathered xs).total = xs.sum) ∧
      (∀ zs, xs.Perm zs → gathered zs = gathered xs) ∧
      (gathered xs).merge (gathered ys) = gathered (xs ++ ys) := by
  simp only [gathered_eq_ofDurations]
  refine ⟨rfl, fun hxs => ?_, fun zs hperm => (ofDurations_eq_of_perm hperm).symm,
    merge_ofDurations xs ys⟩
  obtain ⟨low, high, hlow, hhigh, heq⟩ := exists_extremes hxs
  rw [heq]
  exact ⟨rfl, hlow, hhigh, rfl⟩

/-- Three calls of which one takes no time, in two orders and in two groups. -/
theorem gathered_regardless_zero :
    [30, 0, 10] ≠ ([] : List Nat) ∧ [30, 0, 10].Perm [0, 10, 30] ∧
      gathered [30, 0, 10] = ⟨3, 0, 30, 40⟩ ∧ gathered [0, 10, 30] = gathered [30, 0, 10] ∧
      (gathered [30]).merge (gathered [0, 10]) = gathered [30, 0, 10] := by
  have hne : [30, 0, 10] ≠ ([] : List Nat) := List.cons_ne_nil _ _
  have hperm : [30, 0, 10].Perm [0, 10, 30] := by decide
  obtain ⟨-, hgathered, horder, -⟩ := gathered_regardless [30, 0, 10] []
  obtain ⟨hcount, hmin, hmax, htotal⟩ := hgathered hne
  refine ⟨hne, hperm, ?_, horder _ hperm, (gathered_regardless [30] [0, 10]).2.2.2⟩
  rw [Stat.mk.injEq]
  exact ⟨hcount, (Option.some.inj hmin).symm, (Option.some.inj hmax).symm, htotal⟩

/-! ## The average -/

/-- Whether a record comes about by putting single calls and records together. -/
inductive Reached : Stat → Prop
  | none : Reached none
  | single (d : Nat) : Reached (.single d)
  | merge {s t : Stat} (hs : Reached s) (ht : Reached t) : Reached (s.merge t)

/-- Such records are those of lists. -/
theorem reached_iff {s : Stat} : s.Reached ↔ ∃ ds, s = ofDurations ds := by
  constructor
  · intro h
    induction h with
    | none => exact ⟨[], rfl⟩
    | single d => exact ⟨[d], rfl⟩
    | merge hs ht ihs iht =>
      obtain ⟨xs, rfl⟩ := ihs
      obtain ⟨ys, rfl⟩ := iht
      exact ⟨xs ++ ys, merge_ofDurations xs ys⟩
  · rintro ⟨ds, rfl⟩
    induction ds with
    | nil => exact .none
    | cons d ds ih =>
      rw [← merge_single]
      exact .merge ih (.single d)

/-- A count that fits into 32 bits has an average. -/
theorem average_of_lt {s : Stat} (h : s.count < 2 ^ 32) : s.average = s.total / s.count := if_pos h

/-- A larger one has none. -/
theorem average_of_le {s : Stat} (h : 2 ^ 32 ≤ s.count) : s.average = 0 := if_neg (Nat.not_lt.2 h)

/-- **The average and the extremes.** However a record of some calls has come about, the quotient of
its total and its count lies between its extremes. The average does so exactly if the count has no
more than 32 bits, or some call took no time at all. -/
theorem average_within_iff {s : Stat} (h : s.Reached) (hcount : 0 < s.count) :
    s.min ≤ s.total / s.count ∧ s.total / s.count ≤ s.max ∧
      (s.min ≤ s.average ∧ s.average ≤ s.max ↔ s.count < 2 ^ 32 ∨ s.min = 0) := by
  obtain ⟨ds, rfl⟩ := reached_iff.1 h
  have hds : ds ≠ [] := List.length_pos_iff.1 hcount
  obtain ⟨low, high, hlow, hhigh, heq⟩ := exists_extremes hds
  have hleft : low ≤ ds.sum / ds.length := List.le_sum_div_length_of_min?_eq_some_nat hlow
  have hright : ds.sum / ds.length ≤ high := List.sum_div_length_le_max_of_max?_eq_some_nat hhigh
  rw [heq]
  refine ⟨hleft, hright, ?_⟩
  rcases Nat.lt_or_ge ds.length (2 ^ 32) with hlt | hge
  · rw [average_of_lt hlt]
    exact iff_of_true ⟨hleft, hright⟩ (.inl hlt)
  · rw [average_of_le hge]
    constructor
    · exact fun hwithin => .inr (Nat.le_zero.1 hwithin.1)
    · intro hor
      exact ⟨Nat.le_of_eq (hor.resolve_left (Nat.not_lt.2 hge)), Nat.zero_le _⟩

/-- So many calls that take equally long. -/
def alike (n d : Nat) : Stat := ⟨n, d, d, n * d⟩

theorem reached_alike {n : Nat} (hn : 0 < n) (d : Nat) : (alike n d).Reached := by
  refine reached_iff.2 ⟨List.replicate n d, ?_⟩
  unfold ofDurations
  rw [List.length_replicate, List.min?_replicate_of_pos hn, List.max?_replicate_of_pos hn,
    List.sum_replicate_nat]
  rfl

/-- As many calls as the average is made for, and one more before them. -/
theorem average_within_iff_last :
    let s := (single 3).merge (alike (2 ^ 32 - 2) 1)
    s.Reached ∧ 0 < s.count ∧ s.count + 1 = 2 ^ 32 ∧ s.min ≤ s.average ∧ s.average ≤ s.max := by
  intro s
  have hreached : s.Reached := .merge (.single 3) (reached_alike (by decide) 1)
  have hs : s = ⟨2 ^ 32 - 1, 1, 3, 2 ^ 32 + 1⟩ :=
    merge_of_count_ne_zero Nat.one_ne_zero (by decide)
  have hcount : 0 < s.count := by
    rw [hs]
    decide
  refine ⟨hreached, hcount, ?_, (average_within_iff hreached hcount).2.2.2 (.inl ?_)⟩
  · rw [hs]
  · rw [hs]
    decide

/-- One call more than the average is made for, and it is below each of them. -/
theorem not_average_within_alike :
    let s := alike (2 ^ 32) 1
    s.Reached ∧ 0 < s.count ∧ s.count < 2 ^ 64 ∧ s.average = 0 ∧ s.min = 1 ∧
      ¬(s.min ≤ s.average ∧ s.average ≤ s.max) := by
  intro s
  exact ⟨reached_alike (by decide) 1, by decide, by decide, by decide, rfl, by decide⟩

end Stat

end Switchboard
