import Switchboard.Http.Request
import Switchboard.Proofs.Boundary
import Switchboard.Proofs.Pieces
import Switchboard.Proofs.Utf8

/-!
# Heads, line by line

The head of a message is cut into lines twice. The search for the length of the body cuts the bytes
and reads each line as a text of its own; the reading of the headers decodes the whole head and cuts
the text. Both come to the same lines, because a line feed is never a byte of another character
(`Utf8.pieces_encode`), and see the same name and value in each of them, because a carriage return
at its end is a blank (`Http.field?_dropReturn`). So a head has one list of lengths that its lines
announce, and the first of them counts (`Boundary.contentLength_encode`).

Lines also settle where a head ends: if none of them is blank, behind the blank line that follows
them and nowhere before (`Boundary.headEnd_headOf`).
-/

namespace Switchboard

/-! ## Lines of bytes -/

namespace Bytes

theorem pieces_eq_splitOn (sep : UInt8) (bs : Bytes) : pieces sep bs = bs.splitOn sep := by
  induction bs with
  | nil => exact (List.splitOn_nil sep).symm
  | cons b bs ih =>
    rw [pieces, List.splitOn_cons_eq_if_modifyHead, ih]
    by_cases hb : b = sep
    · rw [if_pos hb, if_pos (beq_iff_eq.2 hb)]
    · rw [if_neg hb, if_neg (mt beq_iff_eq.1 hb)]
      cases hsplit : bs.splitOn sep with
      | nil => exact absurd hsplit (List.splitOn_ne_nil sep bs)
      | cons p ps => rfl

/-- Lines with a line feed behind each. -/
def ended (lines : List Bytes) : Bytes := lines.flatMap (· ++ [0x0A])

theorem ended_concat (lines : List Bytes) (last : Bytes) :
    ended (lines ++ [last]) = ended lines ++ last ++ [0x0A] := by
  unfold ended
  rw [List.flatMap_append, List.flatMap_singleton, List.append_assoc]

theorem pieces_ended {lines : List Bytes} (h : ∀ line ∈ lines, 0x0A ∉ line) (rest : Bytes) :
    pieces 0x0A (ended lines ++ rest) = lines ++ pieces 0x0A rest := by
  induction lines with
  | nil => rfl
  | cons line lines ih =>
    have hmore := ih fun l hl => h l (List.mem_cons_of_mem _ hl)
    have hbytes : ended (line :: lines) ++ rest = line ++ 0x0A :: (ended lines ++ rest) := by
      unfold ended
      rw [List.flatMap_cons, List.append_assoc, List.append_assoc]
      rfl
    rw [hbytes, pieces_eq_splitOn,
      List.splitOn_append_cons_self_of_not_mem (h line List.mem_cons_self), ← pieces_eq_splitOn,
      hmore]
    rfl

end Bytes

namespace Utf8

/-- A text and its bytes have the same pieces. -/
theorem pieces_encode (sep : Char) (hsep : sep.toNat < 0x80) (cs : List Char) :
    Bytes.pieces (UInt8.ofNat sep.toNat) (encode cs) = (Text.pieces sep cs).map encode := by
  induction cs using Text.induction_on_pieces sep with
  | last p hp =>
    rw [Text.pieces_of_not_mem hp, Bytes.pieces_eq_splitOn,
      List.splitOn_eq_singleton (not_mem_encode_of_lt hsep hp)]
    rfl
  | more p cs hp ih =>
    rw [Text.pieces_append hp, encode_append, encode_cons, encodeChar_of_lt hsep,
      List.singleton_append, Bytes.pieces_eq_splitOn,
      List.splitOn_append_cons_self_of_not_mem (not_mem_encode_of_lt hsep hp),
      ← Bytes.pieces_eq_splitOn, ih]
    rfl

end Utf8

/-! ## Headers in lines -/

namespace Http

variable {line cs : List Char} {f : String × String} {c : Char}

/-- The name and the value in a header line. -/
def field? (line : List Char) : Option (String × String) :=
  (Text.splitFirst ':' line).map fun (name, value) =>
    (String.ofList (Text.trim name), String.ofList (Text.trim value))

/-- The names and values in the header lines of a head, which are the lines behind the first. -/
def fields (head : List Char) : List (String × String) :=
  (Text.lines head).tail.filterMap field?

/-- The length that a header announces, if it is one for that and has a number. -/
def announced? (f : String × String) : Option Nat :=
  if Text.sameFold f.1 "content-length" then Text.readNat Text.maxWord f.2.toList else none

/-- The length that a line announces. -/
def lengthOf? (line : List Char) : Option Nat := (field? line).bind announced?

/-- The lengths that the headers of a head announce, in their order. -/
def lengths (head : List Char) : List Nat := (fields head).filterMap announced?

theorem field?_append_colon {name : List Char} (hname : ':' ∉ name) (value : List Char) :
    field? (name ++ ':' :: value) =
      some (String.ofList (Text.trim name), String.ofList (Text.trim value)) := by
  unfold field?
  rw [Text.splitFirst_append hname]
  rfl

/-- The line of a header. -/
def fieldLine (f : String × String) : List Char := f.1.toList ++ ':' :: (' ' :: f.2.toList)

theorem field?_fieldLine (hcolon : ':' ∉ f.1.toList) (htrim : Text.trim f.1.toList = f.1.toList) :
    field? (fieldLine f) = some (f.1, String.ofList (Text.trim f.2.toList)) := by
  have hblank : ∀ c ∈ [' '], Text.isBlank c = true := List.forall_mem_singleton.2 (by decide)
  unfold fieldLine
  rw [field?_append_colon hcolon, htrim, ← List.singleton_append, Text.trim_append hblank,
    String.ofList_toList]

theorem field?_of_not_mem (h : ':' ∉ line) : field? line = none := by
  unfold field?
  rw [Text.splitFirst_of_not_mem h]
  rfl

/-- Blanks behind a header make no difference. -/
theorem field?_append_blanks {blanks : List Char} (h : ∀ c ∈ blanks, Text.isBlank c = true)
    (line : List Char) : field? (line ++ blanks) = field? line := by
  by_cases hcolon : ':' ∈ line
  · obtain ⟨name, value, rfl, hname⟩ := List.eq_append_cons_of_mem hcolon
    rw [List.append_assoc, List.cons_append, field?_append_colon hname, field?_append_colon hname,
      Text.trim_append_blanks h]
  · have hnone : ':' ∉ line ++ blanks := by
      rw [List.mem_append]
      rintro (hmem | hmem)
      · exact hcolon hmem
      · exact absurd (h ':' hmem) (by decide)
    rw [field?_of_not_mem hcolon, field?_of_not_mem hnone]

theorem field?_dropReturn (line : List Char) : field? (Text.dropReturn line) = field? line := by
  unfold Text.dropReturn
  split
  · rename_i hreturn
    obtain ⟨front, rfl⟩ := List.getLast?_eq_some_iff.1 hreturn
    rw [List.dropLast_concat]
    exact (field?_append_blanks (List.forall_mem_singleton.2 (by decide)) front).symm
  · rfl

/-- The headers in the lines of a text are those in its pieces. -/
theorem filterMap_field?_lines (cs : List Char) :
    (Text.lines cs).filterMap field? = (Text.pieces '\n' cs).filterMap field? := by
  have hdrop : field? ∘ Text.dropReturn = field? := funext field?_dropReturn
  unfold Text.lines
  obtain ⟨front, last, hpieces⟩ :=
    (List.eq_nil_or_concat (Text.pieces '\n' cs)).resolve_left (Text.pieces_ne_nil '\n' cs)
  simp only [hpieces, List.concat_eq_append, List.dropLast_concat, List.getLast?_concat,
    Option.toList_some, List.filterMap_append, List.filterMap_map, hdrop]
  -- the last piece is passed over if it is empty, and then there is no header in it
  by_cases hlast : last = []
  · rw [hlast]
    rfl
  · have hkeep : [last].filter (fun x => decide (x ≠ [])) = [last] :=
      List.filter_cons_of_pos (decide_eq_true hlast)
    rw [hkeep]

/-- The name in a line begins as the line does. -/
theorem head?_name (hc : Text.isBlank c = false) (hcolon : c ≠ ':')
    (h : field? (c :: cs) = some f) : f.1.toList.head? = some c := by
  by_cases hmem : ':' ∈ cs
  · obtain ⟨name, value, rfl, hname⟩ := List.eq_append_cons_of_mem hmem
    have hname' : ':' ∉ c :: name := List.not_mem_cons_of_ne_of_not_mem (Ne.symm hcolon) hname
    rw [← List.cons_append, field?_append_colon hname'] at h
    cases h
    rw [String.toList_ofList]
    exact Text.head?_trim hc name
  · rw [field?_of_not_mem (List.not_mem_cons_of_ne_of_not_mem (Ne.symm hcolon) hmem)] at h
    cases h

theorem announced?_eq_some_iff {n : Nat} : announced? f = some n ↔
    Text.lower f.1 = Text.lower "content-length" ∧
      Text.readNat Text.maxWord f.2.toList = some n := by
  unfold announced? Text.sameFold
  rw [Option.ite_none_right_eq_some, beq_iff_eq]

/-- A line that announces a length begins with a `c`, if it does not begin with a blank. -/
theorem lengthOf?_eq_none (hblank : Text.isBlank c = false) (hcolon : c ≠ ':')
    (hc : Text.lowerChar c ≠ 'c') : lengthOf? (c :: cs) = none := by
  refine Option.eq_none_iff_forall_ne_some.2 fun n hn => hc ?_
  obtain ⟨f, hf, hlength⟩ := Option.bind_eq_some_iff.1 hn
  obtain ⟨hlower, -⟩ := announced?_eq_some_iff.1 hlength
  have hhead := congrArg (fun s => s.toList.head?) hlower
  unfold Text.lower at hhead
  simp only [String.toList_ofList, List.head?_map, head?_name hblank hcolon hf,
    Option.map_some] at hhead
  exact Option.some.inj hhead

theorem lengthOf?_append_blanks {blanks : List Char} (h : ∀ c ∈ blanks, Text.isBlank c = true)
    (line : List Char) : lengthOf? (line ++ blanks) = lengthOf? line := by
  unfold lengthOf?
  rw [field?_append_blanks h]

theorem filterMap_lengthOf? (lines : List (List Char)) :
    lines.filterMap lengthOf? = (lines.filterMap field?).filterMap announced? :=
  List.filterMap_filterMap.symm

end Http

/-! ## The length that a head announces -/

namespace Boundary

open Http (field? lengthOf? lengths)

theorem lengthOfLine_encode (line : List Char) :
    lengthOfLine (Utf8.encode line) = lengthOf? line := by
  unfold lengthOfLine lengthOf? field? Http.announced?
  rw [Utf8.decode?_encode, Option.bind_eq_bind, Option.bind_some, Option.bind_eq_bind]
  cases Text.splitFirst ':' line with
  | none => rfl
  | some p => rw [Option.bind_some, Option.map_some, Option.bind_some, String.toList_ofList]

/-- The length of a body is the first one that a line of the head announces. -/
theorem contentLength_encode (head : List Char) :
    contentLength (Utf8.encode head) =
      ((Text.pieces '\n' head).filterMap lengthOf?).head? := by
  have hline : lengthOfLine ∘ Utf8.encode = lengthOf? := funext lengthOfLine_encode
  have hpieces : Bytes.pieces 0x0A (Utf8.encode head) = (Text.pieces '\n' head).map Utf8.encode :=
    Utf8.pieces_encode '\n' (by decide) head
  unfold contentLength
  rw [hpieces, List.findSome?_map, hline, List.head?_filterMap]

/-- No length is announced by a first line that begins with a verb, so the first length of all is
the first one in the headers. -/
theorem contentLength_eq_head?_lengths {text first : List Char}
    (hfirst : (Text.lines text).head? = some first) (hverb : first.head? = some 'P') :
    contentLength (Utf8.encode text) = (lengths text).head? := by
  obtain ⟨others, hlines⟩ := List.head?_eq_some_iff.1 hfirst
  obtain ⟨cs, rfl⟩ := List.head?_eq_some_iff.1 hverb
  have hline : lengthOf? ('P' :: cs) = none :=
    Http.lengthOf?_eq_none (by decide) (by decide) (by decide)
  unfold lengths Http.fields
  rw [contentLength_encode, Http.filterMap_lengthOf?, ← Http.filterMap_field?_lines,
    ← Http.filterMap_lengthOf?, hlines, List.filterMap_cons_none hline, List.tail_cons,
    Http.filterMap_lengthOf?]

end Boundary

/-! ## Where a head ends -/

/-- How a line ends: with a line feed, or with a carriage return in front of it. -/
inductive LineEnd
  | feed
  | returnFeed
  deriving DecidableEq, Repr

/-- What stands between a line and its line feed. -/
def LineEnd.mark : LineEnd → List Char
  | .feed => []
  | .returnFeed => ['\r']

theorem LineEnd.isBlank_mark (e : LineEnd) : ∀ c ∈ e.mark, Text.isBlank c = true := by
  cases e with
  | feed => nofun
  | returnFeed => exact List.forall_mem_singleton.2 (by decide)

namespace Http

/-- A head of some lines: the lines with their ends, and a blank line. -/
def headOf (e : LineEnd) (lines : List (List Char)) : List Char :=
  lines.flatMap (· ++ (e.mark ++ ['\n'])) ++ (e.mark ++ ['\n'])

variable {e : LineEnd} {lines : List (List Char)}

theorem pieces_headOf (h : ∀ line ∈ lines, '\n' ∉ line) :
    Text.pieces '\n' (headOf e lines) = lines.map (· ++ e.mark) ++ [e.mark, []] := by
  have hmark : '\n' ∉ e.mark := by cases e <;> decide
  have hblank : Text.pieces '\n' (e.mark ++ ['\n']) = [e.mark, []] := Text.pieces_append hmark []
  unfold headOf
  induction lines with
  | nil => exact hblank
  | cons line lines ih =>
    have hline : '\n' ∉ line ++ e.mark := by
      rw [List.mem_append, not_or]
      exact ⟨h line List.mem_cons_self, hmark⟩
    have htext : (line :: lines).flatMap (· ++ (e.mark ++ ['\n'])) ++ (e.mark ++ ['\n']) =
        (line ++ e.mark) ++ '\n' ::
          (lines.flatMap (· ++ (e.mark ++ ['\n'])) ++ (e.mark ++ ['\n'])) := by
      simp only [List.flatMap_cons, List.append_assoc, List.cons_append, List.nil_append]
    rw [htext, Text.pieces_append hline, ih fun l hl => h l (List.mem_cons_of_mem _ hl)]
    rfl

/-- The lengths that are announced in such a head are those of its lines. -/
theorem filterMap_lengthOf?_pieces_headOf (h : ∀ line ∈ lines, '\n' ∉ line) :
    (Text.pieces '\n' (headOf e lines)).filterMap lengthOf? = lines.filterMap lengthOf? := by
  have hmark : lengthOf? ∘ (· ++ e.mark) = lengthOf? :=
    funext fun line => lengthOf?_append_blanks e.isBlank_mark line
  have hblank : [e.mark, []].filterMap lengthOf? = [] := by cases e <;> rfl
  rw [pieces_headOf h, List.filterMap_append, List.filterMap_map, hmark, hblank, List.append_nil]

/-- The lines of such a head, and a blank one, if none of them ends in a carriage return. -/
theorem lines_headOf (h : ∀ line ∈ lines, '\n' ∉ line ∧ '\r' ∉ line) :
    Text.lines (headOf e lines) = lines ++ [[]] := by
  have hdrop : ∀ line ∈ lines, Text.dropReturn (line ++ e.mark) = line := by
    intro line hline
    unfold Text.dropReturn
    cases e with
    | feed =>
      rw [LineEnd.mark, List.append_nil, if_neg]
      exact fun hlast => (h line hline).2 (List.mem_of_getLast? hlast)
    | returnFeed =>
      rw [LineEnd.mark, if_pos List.getLast?_concat, List.dropLast_concat]
  have hmap : (lines.map (· ++ e.mark)).map Text.dropReturn = lines := by
    rw [List.map_map]
    exact (List.map_congr_left hdrop).trans (List.map_id lines)
  have hblank : Text.dropReturn e.mark = [] := by cases e <;> rfl
  unfold Text.lines
  rw [pieces_headOf fun line hline => (h line hline).1]
  have hsplit : lines.map (· ++ e.mark) ++ [e.mark, []] =
      (lines.map (· ++ e.mark) ++ [e.mark]) ++ [[]] := by
    rw [List.append_assoc]
    rfl
  have hnone : (some ([] : List Char)).toList.filter (· ≠ []) = [] := by decide
  simp only [hsplit, List.dropLast_concat, List.getLast?_concat, List.map_append, hmap,
    List.map_cons, List.map_nil, hblank, hnone, List.append_nil]

end Http

namespace Boundary

open Http (headOf)

theorem endsBlank_append (e : LineEnd) (bs : Bytes) :
    EndsBlank (bs ++ Utf8.encode e.mark ++ [0x0A] ++ Utf8.encode e.mark ++ [0x0A]) := by
  simp only [List.append_assoc]
  cases e with
  | feed => exact .inr (List.suffix_append bs shortBlank)
  | returnFeed => exact .inl (List.suffix_append bs longBlank)

/-- In front of the line feed that makes a blank line stand another line feed and a line that is
empty, but for a carriage return. -/
theorem exists_of_endsBlank {bs : Bytes} (h : EndsBlank bs) :
    ∃ front line, (line = [] ∨ line = [0x0D]) ∧ bs = front ++ 0x0A :: (line ++ [0x0A]) := by
  rcases h with ⟨front, rfl⟩ | ⟨front, rfl⟩
  · refine ⟨front ++ [0x0D], [0x0D], .inr rfl, ?_⟩
    rw [List.append_assoc]
    rfl
  · exact ⟨front, [], .inl rfl, rfl⟩

/-- A blank line within ended lines is one of them. -/
theorem exists_mem_of_endsBlank {lines : List Bytes} {tail bs : Bytes}
    (hlines : ∀ line ∈ lines, 0x0A ∉ line) (htail : 0x0A ∉ tail)
    (hbs : bs <+: Bytes.ended lines ++ tail) (h : EndsBlank bs) :
    ∃ line ∈ lines, line = [] ∨ line = [0x0D] := by
  obtain ⟨front, line, hline, rfl⟩ := exists_of_endsBlank h
  obtain ⟨rest, hrest⟩ := hbs
  have hfeed : 0x0A ∉ line := by
    rcases hline with rfl | rfl <;> decide
  -- cut at the line feeds on both sides: behind the blank line there is at least one more piece
  have hpieces := Bytes.pieces_ended hlines tail
  rw [← hrest, Bytes.pieces_eq_splitOn, Bytes.pieces_eq_splitOn, List.append_assoc,
    List.cons_append, List.splitOn_append_cons_self, List.append_assoc, List.singleton_append,
    List.splitOn_append_cons_self_of_not_mem hfeed, List.splitOn_eq_singleton htail] at hpieces
  have hmem : line ∈ (Bytes.pieces 0x0A front ++ line :: rest.splitOn 0x0A).dropLast := by
    rw [List.dropLast_append_of_ne_nil (List.cons_ne_nil _ _),
      List.dropLast_cons_of_ne_nil (List.splitOn_ne_nil _ _)]
    exact List.mem_append_right _ List.mem_cons_self
  rw [Bytes.pieces_eq_splitOn, hpieces, List.dropLast_concat] at hmem
  exact ⟨line, hmem, hline⟩

theorem encode_headOf (e : LineEnd) (lines : List (List Char)) :
    Utf8.encode (headOf e lines) =
      Bytes.ended (lines.map fun line => Utf8.encode (line ++ e.mark)) ++
        Utf8.encode e.mark ++ [0x0A] := by
  have hline : ∀ line : List Char, Utf8.encode (line ++ (e.mark ++ ['\n'])) =
      Utf8.encode (line ++ e.mark) ++ [0x0A] := by
    intro line
    rw [← List.append_assoc, Utf8.encode_append]
    rfl
  have hlines : Utf8.encode (lines.flatMap (· ++ (e.mark ++ ['\n']))) =
      Bytes.ended (lines.map fun line => Utf8.encode (line ++ e.mark)) := by
    unfold Bytes.ended
    rw [List.flatMap_map]
    exact (List.flatMap_assoc ..).trans (congrArg (lines.flatMap ·) (funext hline))
  unfold headOf
  rw [Utf8.encode_append, hlines, Utf8.encode_append, ← List.append_assoc]
  rfl

/-- A head ends behind its blank line, whatever follows, if none of its lines is blank. -/
theorem headEnd_headOf {e : LineEnd} {lines : List (List Char)} (hne : lines ≠ [])
    (hlines : ∀ line ∈ lines, '\n' ∉ line ∧ line ≠ [] ∧ line ++ e.mark ≠ ['\r']) (rest : Bytes) :
    headEnd (Utf8.encode (headOf e lines) ++ rest) =
      some (Utf8.encode (headOf e lines)).length := by
  have hfeed : ∀ line ∈ lines.map fun line => Utf8.encode (line ++ e.mark), 0x0A ∉ line := by
    intro bs hbs
    obtain ⟨line, hline, rfl⟩ := List.mem_map.1 hbs
    refine Utf8.not_mem_encode_of_lt (c := '\n') (by decide) ?_
    rw [List.mem_append, not_or]
    exact ⟨(hlines line hline).1, by cases e <;> decide⟩
  have hmark : 0x0A ∉ Utf8.encode e.mark := by cases e <;> decide
  rw [headEnd_eq_some_iff]
  refine ⟨List.length_append ▸ Nat.le_add_right _ _, ?_, ?_⟩
  · rw [List.take_left, encode_headOf]
    obtain ⟨front, last, rfl⟩ := (List.eq_nil_or_concat lines).resolve_left hne
    rw [List.concat_eq_append, List.map_append, List.map_singleton, Bytes.ended_concat,
      Utf8.encode_append, ← List.append_assoc]
    exact endsBlank_append e _
  · intro m hm hends
    -- a shorter beginning lacks the last line feed
    have hshort : (Utf8.encode (headOf e lines) ++ rest).take m <+:
        Bytes.ended (lines.map fun line => Utf8.encode (line ++ e.mark)) ++
          Utf8.encode e.mark := by
      rw [List.take_append_of_le_length (Nat.le_of_lt hm)]
      have hm' := hm
      rw [encode_headOf, List.length_append, List.length_singleton] at hm'
      rw [encode_headOf, List.take_append_of_le_length (by omega)]
      exact List.take_prefix _ _
    obtain ⟨bs, hbs, hblank⟩ := exists_mem_of_endsBlank hfeed hmark hshort hends
    obtain ⟨line, hline, rfl⟩ := List.mem_map.1 hbs
    obtain ⟨-, hnonempty, hreturn⟩ := hlines line hline
    rcases hblank with hnil | hone
    · have hchars := Utf8.decode?_encode (line ++ e.mark)
      rw [hnil] at hchars
      exact hnonempty (List.append_eq_nil_iff.1 (Option.some.inj hchars).symm).1
    · have hchars := Utf8.decode?_encode (line ++ e.mark)
      rw [hone] at hchars
      exact hreturn (Option.some.inj hchars).symm

end Boundary

end Switchboard
