import Switchboard.Text.Pieces

/-!
# Texts and their pieces

A text is cut at every separator, or at the first one. Either way it is a first piece without a
separator, and behind the separator the rest, if there is one at all. Whatever is to be said of all
texts by their pieces is shown for these two kinds (`Text.induction_on_pieces`). Cutting is
`List.splitOn` of the library, which also cuts at several separators; then a piece may come apart,
but not one that has none of the others in it (`Text.mem_splitOnP_of_mem_splitOn`). What stands
behind the last separator is what has a separator in front of it and none in it
(`Text.afterLast_eq_some_iff`).
-/

namespace Switchboard.Text

variable {sep c : Char} {p cs : List Char}

/-! ## All pieces -/

/-- The pieces are those of the library's `splitOn`. -/
theorem pieces_eq_splitOn (sep : Char) (cs : List Char) : pieces sep cs = cs.splitOn sep := by
  induction cs with
  | nil => exact (List.splitOn_nil sep).symm
  | cons c cs ih =>
    rw [pieces, List.splitOn_cons_eq_if_modifyHead, ih]
    by_cases hc : c = sep
    · rw [if_pos hc, if_pos (beq_iff_eq.2 hc)]
    · rw [if_neg hc, if_neg (mt beq_iff_eq.1 hc)]
      -- there is always a first piece for the character to go on with
      cases hsplit : cs.splitOn sep with
      | nil => exact absurd hsplit (List.splitOn_ne_nil sep cs)
      | cons q qs => rfl

/-- There is a piece even of nothing. -/
theorem pieces_ne_nil (sep : Char) (cs : List Char) : pieces sep cs ≠ [] := by
  rw [pieces_eq_splitOn]
  exact List.splitOn_ne_nil sep cs

theorem pieces_of_not_mem (h : sep ∉ p) : pieces sep p = [p] := by
  rw [pieces_eq_splitOn, List.splitOn_eq_singleton h]

/-- Two texts with a separator between them have the pieces of both. -/
theorem pieces_append_cons (sep : Char) (p cs : List Char) :
    pieces sep (p ++ sep :: cs) = pieces sep p ++ pieces sep cs := by
  rw [pieces_eq_splitOn, pieces_eq_splitOn, pieces_eq_splitOn, List.splitOn_append_cons_self]

/-- A text in front of the first separator is the first piece. -/
theorem pieces_append (h : sep ∉ p) (cs : List Char) :
    pieces sep (p ++ sep :: cs) = p :: pieces sep cs := by
  rw [pieces_append_cons, pieces_of_not_mem h]
  rfl

/-- Texts without a separator are the pieces of what is written with separators between them. -/
theorem pieces_intercalate {ps : List (List Char)} (h : ∀ p ∈ ps, sep ∉ p) (hne : ps ≠ []) :
    pieces sep ([sep].intercalate ps) = ps := by
  rw [pieces_eq_splitOn]
  exact List.splitOn_intercalate sep h hne

/-- A text is a piece without a separator, or such a piece and a text behind a separator. -/
@[elab_as_elim]
theorem induction_on_pieces {motive : List Char → Prop} (sep : Char)
    (last : ∀ p, sep ∉ p → motive p)
    (more : ∀ p cs, sep ∉ p → motive cs → motive (p ++ sep :: cs)) (cs : List Char) :
    motive cs := by
  induction hlen : cs.length using Nat.strongRecOn generalizing cs with
  | ind n ih =>
    by_cases hsep : sep ∈ cs
    · obtain ⟨p, rest, rfl, hp⟩ := List.eq_append_cons_of_mem hsep
      have hlt : rest.length < n := by
        rw [List.length_append, List.length_cons] at hlen
        omega
      exact more p rest hp (ih rest.length hlt rest rfl)
    · exact last cs hsep

/-- There is one piece more than there are separators. -/
theorem length_pieces (sep : Char) (cs : List Char) :
    (pieces sep cs).length = cs.count sep + 1 := by
  induction cs using induction_on_pieces sep with
  | last p hp => rw [pieces_of_not_mem hp, List.count_eq_zero.2 hp, List.length_singleton]
  | more p cs hp ih =>
    rw [pieces_append hp, List.length_cons, ih, List.count_append, List.count_eq_zero.2 hp,
      List.count_cons_self, Nat.zero_add]

/-- There is nothing in a piece but what is in the text, and no separator. -/
theorem mem_of_mem_pieces (h : p ∈ pieces sep cs) (hc : c ∈ p) : c ∈ cs ∧ c ≠ sep := by
  induction cs using induction_on_pieces sep with
  | last q hq =>
    rw [pieces_of_not_mem hq, List.mem_singleton] at h
    exact ⟨h ▸ hc, fun heq => hq (heq ▸ h ▸ hc)⟩
  | more q cs hq ih =>
    rw [pieces_append hq, List.mem_cons] at h
    rcases h with h | h
    · exact ⟨List.mem_append_left _ (h ▸ hc), fun heq => hq (heq ▸ h ▸ hc)⟩
    · exact ⟨List.mem_append_right _ (List.mem_cons_of_mem _ (ih h).1), (ih h).2⟩

/-- A piece stays one where the text is cut at more separators, if none of them is in it. -/
theorem mem_splitOnP_of_mem_splitOn {cut : Char → Bool} (hsep : cut sep = true)
    (hp : ∀ c ∈ p, cut c = false) (h : p ∈ cs.splitOn sep) : p ∈ cs.splitOnP cut := by
  induction cs using induction_on_pieces sep with
  | last q hq =>
    rw [List.splitOn_eq_singleton hq, List.mem_singleton] at h
    rw [← h, List.splitOnP_eq_singleton hp]
    exact List.mem_singleton_self p
  | more q cs hq ih =>
    rw [List.splitOn_append_cons_self_of_not_mem hq, List.mem_cons] at h
    rw [List.splitOnP_append_cons q cs hsep, List.mem_append]
    rcases h with rfl | h
    · rw [List.splitOnP_eq_singleton hp]
      exact .inl (List.mem_singleton_self p)
    · exact .inr (ih h)

/-! ## The first piece -/

/-- What stands in front of the first separator, and what stands behind it. -/
theorem splitFirst_append (h : sep ∉ p) (cs : List Char) :
    splitFirst sep (p ++ sep :: cs) = some (p, cs) := by
  have hp : ∀ c ∈ p, (c != sep) = true := fun c hc => bne_iff_ne.2 fun heq => h (heq ▸ hc)
  have hsep : ¬ (sep != sep) = true := by
    rw [bne_self_eq_false]
    exact Bool.false_ne_true
  have hdrop : (sep :: cs).dropWhile (· != sep) = sep :: cs := List.dropWhile_cons_of_neg hsep
  have htake : (sep :: cs).takeWhile (· != sep) = [] := List.takeWhile_cons_of_neg hsep
  unfold splitFirst
  rw [List.dropWhile_append_of_pos hp, List.takeWhile_append_of_pos hp, hdrop, htake,
    List.append_nil]

theorem splitFirst_of_not_mem (h : sep ∉ p) : splitFirst sep p = none := by
  have hp : ∀ c ∈ p, (c != sep) = true := fun c hc => bne_iff_ne.2 fun heq => h (heq ▸ hc)
  have hdrop : (p ++ []).dropWhile (· != sep) = [] := List.dropWhile_append_of_pos hp
  rw [List.append_nil] at hdrop
  unfold splitFirst
  rw [hdrop]

/-! ## The last piece -/

/-- What stands behind the last separator. -/
theorem afterLast_append (h : sep ∉ p) (front : List Char) :
    afterLast sep (front ++ sep :: p) = some p := by
  have hp : ∀ c ∈ p.reverse, (c != sep) = true := fun c hc =>
    bne_iff_ne.2 fun heq => h (heq ▸ List.mem_reverse.1 hc)
  have hreverse : (front ++ sep :: p).reverse = p.reverse ++ sep :: front.reverse := by simp
  have hsep : (sep :: front.reverse).takeWhile (· != sep) = [] := by simp
  unfold afterLast
  rw [if_pos (by simp), hreverse, List.takeWhile_append_of_pos hp, hsep, List.append_nil,
    List.reverse_reverse]

theorem afterLast_eq_none_iff : afterLast sep cs = none ↔ sep ∉ cs := by
  simp [afterLast]

/-- The last piece has no separator in it, and one in front of it. -/
theorem afterLast_eq_some_iff :
    afterLast sep cs = some p ↔ ∃ front, cs = front ++ sep :: p ∧ sep ∉ p := by
  constructor
  · intro h
    by_cases hmem : sep ∈ cs
    · obtain ⟨as, bs, hcs, has⟩ := List.eq_append_cons_of_mem (List.mem_reverse.2 hmem)
      have hcs : cs = bs.reverse ++ sep :: as.reverse := by
        rw [← List.reverse_reverse cs, hcs]
        simp
      have has : sep ∉ as.reverse := fun h => has (List.mem_reverse.1 h)
      rw [hcs, afterLast_append has] at h
      cases h
      exact ⟨bs.reverse, hcs, has⟩
    · rw [afterLast_eq_none_iff.2 hmem] at h
      cases h
  · rintro ⟨front, rfl, hp⟩
    exact afterLast_append hp front

/-! ## Line ends -/

/-- Where there are no control characters there are no line ends. -/
theorem map_unbroken (h : ∀ c ∈ cs, 0x20 ≤ c.toNat) : cs.map unbroken = cs := by
  refine (List.map_congr_left fun c hc => ?_).trans (List.map_id cs)
  refine if_neg fun hend => ?_
  have hlow := h c hc
  rcases hend with rfl | rfl <;> exact absurd hlow (by decide)

/-- On one line there is no line end. -/
theorem not_mem_map_unbroken (cs : List Char) : '\n' ∉ cs.map unbroken := by
  intro hmem
  obtain ⟨c, -, hc⟩ := List.mem_map.1 hmem
  unfold unbroken at hc
  split at hc
  · exact absurd hc (by decide)
  · rename_i hother
    exact hother (.inl hc)

/-! ## Blanks around a piece -/

/-- Blanks in front are cut off. -/
theorem trim_append {blanks : List Char} (h : ∀ c ∈ blanks, isBlank c = true) (cs : List Char) :
    trim (blanks ++ cs) = trim cs := by
  unfold trim trimLeft
  rw [List.dropWhile_append_of_pos h]

/-- Blanks behind are cut off. -/
theorem trim_append_blanks {blanks : List Char} (h : ∀ c ∈ blanks, isBlank c = true)
    (cs : List Char) : trim (cs ++ blanks) = trim cs := by
  unfold trim trimLeft trimRight
  rw [List.dropWhile_append]
  cases hleft : cs.dropWhile isBlank with
  | nil =>
    have hall : (blanks ++ []).dropWhile isBlank = [] := List.dropWhile_append_of_pos h
    rw [List.append_nil] at hall
    rw [List.isEmpty_nil, if_pos rfl, hall]
  | cons d ds =>
    have hback : ∀ c ∈ blanks.reverse, isBlank c = true := fun c hc => h c (List.mem_reverse.1 hc)
    rw [List.isEmpty_cons, if_neg Bool.false_ne_true, List.reverse_append,
      List.dropWhile_append_of_pos hback]

/-- A text that does not begin with a blank keeps its first character. -/
theorem head?_trim (hc : isBlank c = false) (cs : List Char) :
    (trim (c :: cs)).head? = some c := by
  have hfirst : ¬ isBlank c = true := by
    rw [hc]
    exact Bool.false_ne_true
  unfold trim trimLeft trimRight
  rw [List.dropWhile_cons_of_neg hfirst, List.reverse_cons, List.dropWhile_append,
    List.dropWhile_cons_of_neg hfirst]
  split
  · rfl
  · rw [List.reverse_append]
    rfl

theorem trim_of_not_blank (h : ∀ c ∈ cs, isBlank c = false) : trim cs = cs := by
  have hdrop : ∀ ds : List Char, (∀ c ∈ ds, isBlank c = false) → ds.dropWhile isBlank = ds := by
    intro ds hds
    cases ds with
    | nil => rfl
    | cons d ds => exact List.dropWhile_cons_of_neg (by rw [hds d List.mem_cons_self]; decide)
  unfold trim trimLeft trimRight
  rw [hdrop cs h, hdrop cs.reverse fun c hc => h c (List.mem_reverse.1 hc), List.reverse_reverse]

end Switchboard.Text
