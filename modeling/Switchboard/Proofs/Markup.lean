import Mathlib.Data.List.Perm.Basic
import Switchboard.Pages

/-!
# Texts cannot make markup

A text is escaped for markup by four replacements, one after another. Since the ampersands are
replaced first, this comes to one substitution of characters (`Http.escapeChars_eq`), and nothing
that could end a text or an attribute value is left (`Http.not_mark_of_mem_escapeChars`).

The way back is by replacements of whole entities, again one after another, with the ampersands
last. In between some characters are escaped and the others are not (`Http.writeSome`). As long as
the ampersands are among the escaped ones, an ampersand is always the beginning of an entity, and no
entity begins another one, so each replacement takes back exactly its own entities
(`Http.replaceAll_writeSome`).

So what a page looks like to whoever reads the markup does not depend on the texts in it: its marks
are those of the page in which the texts are empty.
-/

namespace Switchboard

/-! ## Replacing stretches of a text -/

namespace Text

variable {needle by' : List Char} {n : Char}

/-- A text in which the occurrences of `needle` are replaced, from left to right. The first `skip`
characters belong to an occurrence that has been replaced already. -/
def replaceBehind (needle by' : List Char) : (skip : Nat) → List Char → List Char
  | _, [] => []
  | skip + 1, _ :: cs => replaceBehind needle by' skip cs
  | 0, c :: cs =>
    if needle <+: c :: cs then by' ++ replaceBehind needle by' (needle.length - 1) cs
    else c :: replaceBehind needle by' 0 cs

/-- A text in which every occurrence of `needle` is replaced by the text `by'`. -/
def replaceAll (needle by' cs : List Char) : List Char := replaceBehind needle by' 0 cs

@[simp] theorem replaceAll_nil (needle by' : List Char) : replaceAll needle by' [] = [] := rfl

theorem replaceBehind_length (needle by' p cs : List Char) :
    replaceBehind needle by' p.length (p ++ cs) = replaceAll needle by' cs := by
  induction p with
  | nil => rfl
  | cons c p ih => exact ih

/-- An occurrence in front is replaced. -/
theorem replaceAll_append (h : needle ≠ []) (cs : List Char) :
    replaceAll needle by' (needle ++ cs) = by' ++ replaceAll needle by' cs := by
  obtain ⟨c, p, rfl⟩ := List.exists_cons_of_ne_nil h
  have hprefix : c :: p <+: c :: (p ++ cs) := List.prefix_append (c :: p) cs
  rw [replaceAll, List.cons_append, replaceBehind, if_pos hprefix]
  rw [List.length_cons, Nat.add_sub_cancel, replaceBehind_length]

theorem replaceAll_cons {c : Char} {cs : List Char} (h : ¬ needle <+: c :: cs) :
    replaceAll needle by' (c :: cs) = c :: replaceAll needle by' cs := by
  rw [replaceAll, replaceBehind, if_neg h, replaceAll]

/-- Nothing is replaced before the first character of an occurrence. -/
theorem replaceAll_append_of_not_mem {p : List Char} (h : n ∉ p) (cs : List Char) :
    replaceAll (n :: needle) by' (p ++ cs) = p ++ replaceAll (n :: needle) by' cs := by
  induction p with
  | nil => rfl
  | cons c p ih =>
    rw [List.mem_cons, not_or] at h
    have hother : ¬ (n :: needle) <+: c :: (p ++ cs) := fun hprefix =>
      h.1 (List.cons_prefix_cons.1 hprefix).1
    rw [List.cons_append, replaceAll_cons hother, ih h.2, List.cons_append]

end Text

/-! ## Escaping -/

namespace Http

/-- The characters that make markup, or are a part of an escape. -/
def specials : List Char := ['&', '<', '>', '"']

/-- How a character is written inside markup. -/
def entity (c : Char) : List Char :=
  if c = '&' then "&amp;".toList
  else if c = '<' then "&lt;".toList
  else if c = '>' then "&gt;".toList
  else if c = '"' then "&quot;".toList
  else [c]

theorem entity_of_not_mem {c : Char} (h : c ∉ specials) : entity c = [c] := by
  simp only [specials, List.mem_cons, List.not_mem_nil, or_false, not_or] at h
  simp [entity, h]

/-- An escape has an ampersand in front and none behind it. -/
theorem exists_entity_eq {c : Char} (h : c ∈ specials) :
    ∃ cs, entity c = '&' :: cs ∧ '&' ∉ cs := by
  simp only [specials, List.mem_cons, List.not_mem_nil, or_false] at h
  rcases h with rfl | rfl | rfl | rfl
  · exact ⟨"amp;".toList, rfl, by decide⟩
  · exact ⟨"lt;".toList, rfl, by decide⟩
  · exact ⟨"gt;".toList, rfl, by decide⟩
  · exact ⟨"quot;".toList, rfl, by decide⟩

/-- No escape begins another one. -/
theorem not_entity_prefix : ∀ c ∈ specials, ∀ d ∈ specials, c ≠ d → ¬ entity c <+: entity d := by
  intro c hc d hd hne
  simp only [specials, List.mem_cons, List.not_mem_nil, or_false] at hc hd
  rcases hc with rfl | rfl | rfl | rfl <;> rcases hd with rfl | rfl | rfl | rfl <;>
    first | exact absurd rfl hne | decide

/-- Replacing the four characters one after another is replacing them all at once, because the
escapes of the others have none of the characters in them that are replaced behind them. -/
theorem escapeChars_eq (cs : List Char) : escapeChars cs = cs.flatMap entity := by
  unfold escapeChars Text.replaceChar
  rw [List.flatMap_assoc, List.flatMap_assoc, List.flatMap_assoc]
  apply List.flatMap_congr
  intro c _
  by_cases hmem : c ∈ specials
  · simp only [specials, List.mem_cons, List.not_mem_nil, or_false] at hmem
    rcases hmem with rfl | rfl | rfl | rfl <;> decide
  · rw [entity_of_not_mem hmem]
    simp only [specials, List.mem_cons, List.not_mem_nil, or_false, not_or] at hmem
    simp [hmem]

/-- The characters that begin and end tags and attribute values. -/
def isMark (c : Char) : Bool := c = '<' || c = '>' || c = '"'

theorem not_mark_of_mem_entity {c d : Char} (h : d ∈ entity c) : isMark d = false := by
  by_cases hmem : c ∈ specials
  · have hall : (entity c).all (fun d => !isMark d) = true := by
      simp only [specials, List.mem_cons, List.not_mem_nil, or_false] at hmem
      rcases hmem with rfl | rfl | rfl | rfl <;> decide
    simpa using List.all_eq_true.1 hall d h
  · rw [entity_of_not_mem hmem, List.mem_singleton] at h
    simp only [specials, List.mem_cons, List.not_mem_nil, or_false, not_or] at hmem
    simp [isMark, h, hmem]

theorem not_mark_of_mem_escapeChars {d : Char} {cs : List Char} (h : d ∈ escapeChars cs) :
    isMark d = false := by
  rw [escapeChars_eq, List.mem_flatMap] at h
  obtain ⟨c, -, hd⟩ := h
  exact not_mark_of_mem_entity hd

/-! ## Unescaping -/

/-- A text in which some of the special characters are escaped. -/
def writeSome (escaped cs : List Char) : List Char :=
  cs.flatMap fun c => if c ∈ escaped then entity c else [c]

/-- The escapes of one character taken back. -/
def unescape (cs : List Char) (c : Char) : List Char := Text.replaceAll (entity c) [c] cs

/-- The escapes of one character are found among those of the others, if an ampersand is the
beginning of an escape wherever it stands. -/
theorem unescape_writeSome {d : Char} {escaped : List Char} (hd : d ∈ specials) (hmem : d ∉ escaped)
    (hsub : ∀ c ∈ escaped, c ∈ specials) (hamp : '&' ∈ d :: escaped) (cs : List Char) :
    unescape (writeSome (d :: escaped) cs) d = writeSome escaped cs := by
  obtain ⟨behind, hentity, hbehind⟩ := exists_entity_eq hd
  have hne : entity d ≠ [] := by simp [hentity]
  unfold unescape writeSome
  induction cs with
  | nil => rfl
  | cons c cs ih =>
    rw [List.flatMap_cons, List.flatMap_cons]
    by_cases hc : c = d
    · subst hc
      rw [if_pos List.mem_cons_self, if_neg hmem, Text.replaceAll_append hne, ih]
    by_cases hescaped : c ∈ escaped
    · -- the ampersand of another escape begins no occurrence, and there is no other one behind it
      obtain ⟨other, hother, hplain⟩ := exists_entity_eq (hsub c hescaped)
      have hnot : ∀ rest, ¬ entity d <+: entity c ++ rest := by
        intro rest hprefix
        rcases List.prefix_or_prefix_of_prefix hprefix (List.prefix_append (entity c) rest) with
          h | h
        · exact not_entity_prefix d hd c (hsub c hescaped) (Ne.symm hc) h
        · exact not_entity_prefix c (hsub c hescaped) d hd hc h
      rw [if_pos (List.mem_cons_of_mem d hescaped), if_pos hescaped]
      have hhead := hnot (cs.flatMap fun c => if c ∈ d :: escaped then entity c else [c])
      rw [hother, List.cons_append] at hhead ⊢
      rw [Text.replaceAll_cons hhead, hentity, Text.replaceAll_append_of_not_mem hplain, ← hentity,
        ih]
      rfl
    · -- what is not escaped is no ampersand
      have hplain : c ≠ '&' := by
        rintro rfl
        exact (List.mem_cons.1 hamp).elim hc hescaped
      have hone : '&' ∉ [c] := by simpa using Ne.symm hplain
      rw [if_neg (by simp [hc, hescaped]), if_neg hescaped, hentity,
        Text.replaceAll_append_of_not_mem hone, ← hentity, ih]

/-- The escapes of the other characters can be taken back in any order. -/
theorem foldl_unescape_writeSome {order : List Char} (hnodup : order.Nodup)
    (hspecial : ∀ c ∈ order, c ∈ specials ∧ c ≠ '&') (cs : List Char) :
    order.foldl unescape (writeSome (order ++ ['&']) cs) = writeSome ['&'] cs := by
  induction order with
  | nil => rfl
  | cons d order ih =>
    obtain ⟨hd, horder⟩ := List.forall_mem_cons.1 hspecial
    have hmem : d ∉ order ++ ['&'] := by
      simpa using ⟨(List.nodup_cons.1 hnodup).1, hd.2⟩
    have hsub : ∀ c ∈ order ++ ['&'], c ∈ specials := by
      intro c hc
      rcases List.mem_append.1 hc with hc | hc
      · exact (horder c hc).1
      · rw [List.mem_singleton.1 hc]
        decide
    have hamp : '&' ∈ d :: (order ++ ['&']) := by simp
    rw [List.foldl_cons, List.cons_append, unescape_writeSome hd.1 hmem hsub hamp]
    exact ih (List.nodup_cons.1 hnodup).2 horder

theorem writeSome_congr {as bs : List Char} (h : ∀ c, c ∈ as ↔ c ∈ bs) (cs : List Char) :
    writeSome as cs = writeSome bs cs := by
  unfold writeSome
  simp only [h]

theorem writeSome_specials (cs : List Char) : writeSome specials cs = escapeChars cs := by
  rw [escapeChars_eq]
  apply List.flatMap_congr
  intro c _
  by_cases hmem : c ∈ specials
  · rw [if_pos hmem]
  · rw [if_neg hmem, entity_of_not_mem hmem]

/-- A text is read back from its escaped form, if the ampersands come last. -/
theorem foldl_unescape_escapeChars {order : List Char} (h : order.Perm ['<', '>', '"'])
    (cs : List Char) : (order ++ ['&']).foldl unescape (escapeChars cs) = cs := by
  have hall : ∀ c, c ∈ specials ↔ c ∈ order ++ ['&'] := by
    intro c
    simp only [specials, List.mem_append, h.mem_iff, List.mem_cons, List.not_mem_nil, or_false]
    exact or_comm
  have hspecial : ∀ c ∈ order, c ∈ specials ∧ c ≠ '&' := by
    have hothers : ∀ c ∈ ['<', '>', '"'], c ∈ specials ∧ c ≠ '&' := by simp [specials]
    exact fun c hc => hothers c (h.mem_iff.1 hc)
  have hlast : writeSome [] cs = cs := by simp [writeSome]
  rw [← writeSome_specials, writeSome_congr hall, List.foldl_append,
    foldl_unescape_writeSome (h.nodup_iff.2 (by simp)) hspecial]
  exact (unescape_writeSome (by decide) (by simp) (by simp) (by simp) cs).trans hlast

end Http

/-! ## Pages -/

namespace Page

open Http (isMark)

/-- The characters of a page that make its markup, in order. -/
def marks (page : String) : List Char := page.toList.filter isMark

theorem marks_append (s t : String) : marks (s ++ t) = marks s ++ marks t := by
  rw [marks, String.toList_append, List.filter_append, marks, marks]

theorem marks_escape (s : String) : marks (Http.escape s) = [] := by
  rw [marks, Http.escape, String.toList_ofList, List.filter_eq_nil_iff]
  intro c hc
  simp [Http.not_mark_of_mem_escapeChars hc]

theorem marks_empty : marks "" = [] := rfl

theorem marks_join (ss : List String) : marks (String.join ss) = ss.flatMap marks := by
  induction ss with
  | nil => rfl
  | cons s ss ih => rw [String.join_cons, marks_append, ih, List.flatMap_cons]

/-- Neither the texts in a row nor the sample of the method make any markup. -/
theorem marks_formRow (mock : String) (number : Nat) (name : String) (h h' : Handler) :
    marks (formRow (Http.escape mock) number name h) = marks (formRow "" number name h') := by
  unfold formRow
  simp only [marks_append, marks_escape, marks_empty]

theorem marks_rootForm (r : Registry) (mock : String) :
    marks (rootForm r mock) = marks (rootForm r "") := by
  unfold rootForm
  simp only [marks_append, marks_join, List.flatMap_map]
  rw [List.append_cancel_right_eq, List.append_cancel_left_eq]
  apply List.flatMap_congr
  intro row _
  cases r.get? row.1 with
  | none => rfl
  | some h => exact (marks_formRow mock _ _ h h).trans (marks_formRow "" _ _ h h).symm

theorem marks_redirect (target : String) : marks (redirect target) = marks (redirect "") := by
  unfold redirect
  simp only [marks_append, marks_escape]

/-- **No markup from texts.** Escaping is a substitution of characters, after which nothing is left
that begins or ends a tag or an attribute value, and which is undone by replacing the escapes one
after another with the ampersands last. So neither the index with its mock texts and samples nor the
page that leads on has more or other markup than with empty texts. -/
theorem no_markup_from_texts :
    (∀ s, (Http.escape s).toList = s.toList.flatMap Http.entity) ∧
    (∀ s, '<' ∉ (Http.escape s).toList ∧ '>' ∉ (Http.escape s).toList ∧
      '"' ∉ (Http.escape s).toList) ∧
    (∀ s order, order.Perm ['<', '>', '"'] →
      (order ++ ['&']).foldl Http.unescape (Http.escape s).toList = s.toList) ∧
    (∀ mock number name h h',
      marks (formRow (Http.escape mock) number name h) = marks (formRow "" number name h')) ∧
    (∀ r mock, marks (rootForm r mock) = marks (rootForm r "")) ∧
    ∀ target, marks (redirect target) = marks (redirect "") := by
  have hescape : ∀ s, (Http.escape s).toList = Http.escapeChars s.toList :=
    fun s => String.toList_ofList
  refine ⟨fun s => ?_, fun s => ?_, fun s order horder => ?_, marks_formRow, marks_rootForm,
    marks_redirect⟩
  · rw [hescape, Http.escapeChars_eq]
  · have hnone : ∀ c, isMark c = true → c ∉ (Http.escape s).toList := by
      intro c hc hmem
      rw [hescape] at hmem
      rw [Http.not_mark_of_mem_escapeChars hmem] at hc
      cases hc
    exact ⟨hnone '<' rfl, hnone '>' rfl, hnone '"' rfl⟩
  · rw [hescape]
    exact Http.foldl_unescape_escapeChars horder s.toList

/-- A text that has an escape in it already. -/
theorem no_markup_from_texts_escaped :
    ['"', '<', '>'].Perm ['<', '>', '"'] ∧
      ['"', '<', '>', '&'].foldl Http.unescape (Http.escape "<a b=\"&lt;\">").toList =
        "<a b=\"&lt;\">".toList := by
  have horder : ['"', '<', '>'].Perm ['<', '>', '"'] := by decide
  exact ⟨horder, no_markup_from_texts.2.2.1 "<a b=\"&lt;\">" ['"', '<', '>'] horder⟩

/-- With the ampersands first, a text that looks like an escape becomes what it looks like. -/
example : ['&', '<', '>', '"'].foldl Http.unescape (Http.escapeChars "&lt;".toList) = ['<'] := by
  decide

end Page

end Switchboard
