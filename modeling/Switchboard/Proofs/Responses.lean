import Switchboard.Http.Response
import Switchboard.Proofs.Heads

/-!
# Responses tell where they end

A reader that has several responses on one connection cuts off the first by its head: it looks for
the blank line, for the length that the head announces, and goes on behind the body
(`Boundary.cutMany`). The head has texts in it that others have put there, a type and cookies. As
long as there is no line feed in them they cannot make a line of their own, so neither a blank line
nor an announcement of a length, and what stands in a body is not looked at. So the responses that
were written are cut apart where they were put together (`Response.cutMany_flatMap_toBytes`).
-/

namespace Switchboard

/-! ## Numerals -/

namespace Text

variable {c : Char} {cs : List Char} {n : Nat}

theorem digit?_of_isDigit (h : c.isDigit = true) : digit? c = some (c.toNat - '0'.toNat) :=
  if_pos (Char.isDigit_iff_toNat.1 h)

/-- Digits are read as the number that they write. -/
theorem digitsFrom_eq_ofDigitChars (h : ∀ c ∈ cs, c.isDigit = true) (n : Nat) :
    digitsFrom n cs = some (Nat.ofDigitChars 10 cs n) := by
  induction cs generalizing n with
  | nil => rfl
  | cons c cs ih =>
    rw [digitsFrom, digit?_of_isDigit (h c List.mem_cons_self), Option.bind_some,
      ih fun d hd => h d (List.mem_cons_of_mem _ hd), Nat.ofDigitChars_cons, Nat.mul_comm]

theorem toList_decimal (n : Nat) : (decimal n).toList = Nat.toDigits 10 n := Nat.toList_repr

/-- A numeral has digits only. -/
theorem isDigit_of_mem_decimal (h : c ∈ (decimal n).toList) : c.isDigit = true := by
  rw [toList_decimal] at h
  exact Nat.isDigit_of_mem_toDigits (by decide) (by decide) h

theorem isBlank_of_isDigit (h : c.isDigit = true) : isBlank c = false := by
  obtain ⟨hlow, hhigh⟩ := Char.isDigit_iff_toNat.1 h
  have hlow : 0x30 ≤ c.toNat := hlow
  have hhigh : c.toNat ≤ 0x39 := hhigh
  simp only [isBlank, blankRanges, List.any_cons, List.any_nil, Bool.or_false, Bool.or_eq_false_iff,
    Bool.and_eq_false_iff, decide_eq_false_iff_not]
  omega

theorem isBlank_of_mem_decimal (h : c ∈ (decimal n).toList) : isBlank c = false :=
  isBlank_of_isDigit (isDigit_of_mem_decimal h)

theorem not_mem_decimal_of_isBlank (hc : isBlank c = true) : c ∉ (decimal n).toList := by
  intro hmem
  rw [isBlank_of_mem_decimal hmem] at hc
  cases hc

/-- A number is read back from its digits. -/
theorem readDigits_decimal (n : Nat) : readDigits (decimal n).toList = some n := by
  have hdigits : ∀ c ∈ (decimal n).toList, c.isDigit = true := fun c hc => isDigit_of_mem_decimal hc
  have hne : (decimal n).toList ≠ [] := by
    rw [toList_decimal]
    exact Nat.toDigits_ne_nil
  rw [readDigits.eq_2 _ hne, digitsFrom_eq_ofDigitChars hdigits, toList_decimal,
    Nat.ofDigitChars_toDigits (by decide) (by decide)]

/-- A number is read back from its numeral, if it is within the bound. -/
theorem readNat_decimal {max : Nat} (h : n ≤ max) : readNat max (decimal n).toList = some n := by
  have hsign : ∀ rest, (decimal n).toList ≠ '+' :: rest := by
    intro rest hplus
    have hdigit := isDigit_of_mem_decimal (hplus ▸ List.mem_cons_self : '+' ∈ (decimal n).toList)
    exact absurd hdigit (by decide)
  unfold readNat
  split
  · rename_i rest hplus
    exact absurd hplus (hsign rest)
  · dsimp only
    rw [readDigits_decimal]
    exact Option.filter_some_pos (decide_eq_true h)

end Text

/-! ## Cutting messages apart -/

namespace Boundary

/-- The head and the body at the front of the bytes, cut off where the head says, and the rest. -/
def cut? (buf : Bytes) : Option ((Bytes × Bytes) × Bytes) := do
  let head ← headEnd buf
  let length ← contentLength (buf.take head)
  if head + length ≤ buf.length then
    some ((buf.take head, (buf.drop head).take length), buf.drop (head + length))
  else none

/-- So many heads and bodies at the front of the bytes, cut off one after the other, and the
rest. -/
def cutMany : Nat → Bytes → Option (List (Bytes × Bytes) × Bytes)
  | 0, buf => some ([], buf)
  | k + 1, buf => do
    let (message, rest) ← cut? buf
    let (messages, last) ← cutMany k rest
    return (message :: messages, last)

/-- A head that is found, and announces the length of what follows it. -/
theorem cut?_append {head body rest : Bytes}
    (hhead : headEnd (head ++ body ++ rest) = some head.length)
    (hlength : contentLength head = some body.length) :
    cut? (head ++ body ++ rest) = some ((head, body), rest) := by
  have htake : (head ++ body ++ rest).take head.length = head := by
    rw [List.append_assoc, List.take_left]
  have hbody : ((head ++ body ++ rest).drop head.length).take body.length = body := by
    rw [List.append_assoc, List.drop_left, List.take_left]
  have hrest : (head ++ body ++ rest).drop (head.length + body.length) = rest := by
    rw [← List.length_append, List.drop_left]
  have hle : head.length + body.length ≤ (head ++ body ++ rest).length := by
    rw [List.length_append, List.length_append]
    exact Nat.le_add_right _ _
  unfold cut?
  simp only [hhead, Option.bind_eq_bind, Option.bind_some, htake, hlength, if_pos hle, hbody, hrest]

/-- Messages of which each is cut off, whatever stands behind it, are cut apart. -/
theorem cutMany_flatMap {α : Type} {write : α → Bytes} {message : α → Bytes × Bytes} {as : List α}
    (h : ∀ a ∈ as, ∀ rest, cut? (write a ++ rest) = some (message a, rest)) (rest : Bytes) :
    cutMany as.length (as.flatMap write ++ rest) = some (as.map message, rest) := by
  induction as with
  | nil => rfl
  | cons a as ih =>
    have hmore := ih fun b hb => h b (List.mem_cons_of_mem _ hb)
    rw [List.length_cons, cutMany, List.flatMap_cons, List.append_assoc,
      h a List.mem_cons_self, Option.bind_eq_bind, Option.bind_some]
    dsimp only
    rw [hmore]
    rfl

end Boundary

/-! ## The head of a response -/

namespace Http

/-- No reason has a line end in it. -/
theorem lineFeed_not_mem_reason (status : Nat) : '\n' ∉ (reason status).toList := by
  have hall : ∀ p ∈ reasons, '\n' ∉ p.2.toList := by decide +kernel
  unfold reason
  cases hlookup : reasons.lookup status with
  | none => decide
  | some text =>
    obtain ⟨before, after, hreasons, -⟩ := List.lookup_eq_some_iff.1 hlookup
    exact hall (status, text) (hreasons ▸ List.mem_append_right _ List.mem_cons_self)

namespace Response

variable {r : Response}

/-- What is put into the head is within its lines, and the body is one that can be counted. -/
structure Plain (r : Response) : Prop where
  contentType : '\n' ∉ r.contentType.toList
  cookies : ∀ c ∈ r.cookies, '\n' ∉ c.toList
  countable : r.body.length ≤ Text.maxWord

/-- The first line. -/
def statusLine (r : Response) : List Char :=
  ("HTTP/1.1 " ++ Text.decimal r.status ++ " " ++ reason r.status).toList

/-- The headers that only a successful response has. -/
def successFields (r : Response) : List (String × String) :=
  if r.status = 200 then
    ("Cache-Control", "private, max-age=" ++ Text.decimal r.maxAge) ::
      r.cookies.map ("Set-Cookie", ·)
  else []

/-- The headers in front of the last one. -/
def leading (r : Response) : List (String × String) :=
  ("Content-Type", r.contentType) ::
    (r.successFields ++ [("Connection", if r.keepAlive then "keep-alive" else "close")])

/-- The last header. -/
def lengthField (r : Response) : String × String :=
  ("Content-Length", Text.decimal r.body.length)

/-- All lines in front of the blank one. -/
def lines (r : Response) : List (List Char) :=
  r.statusLine :: (r.leading.map fieldLine ++ [fieldLine r.lengthField])

theorem toList_line (text : String) :
    (line text).toList = text.toList ++ (LineEnd.returnFeed.mark ++ ['\n']) := by
  unfold line
  rw [String.toList_append]
  rfl

theorem toList_append_field (name : String) {label : String} (h : label = name ++ ": ")
    (value : String) :
    (label ++ value).toList = fieldLine (name, value) := by
  rw [h]
  unfold fieldLine
  simp only [String.toList_append, List.append_assoc]
  rfl

/-- The fields of a success stand on a line each. -/
theorem toList_successLines (r : Response) : r.successLines.toList =
    (r.successFields.map fieldLine).flatMap (· ++ (LineEnd.returnFeed.mark ++ ['\n'])) := by
  unfold successLines successFields
  split
  · have hcookie : ∀ c, (line ("Set-Cookie: " ++ c)).toList =
        fieldLine ("Set-Cookie", c) ++ (LineEnd.returnFeed.mark ++ ['\n']) := by
      intro c
      rw [toList_line, toList_append_field "Set-Cookie" (by decide)]
    have hage : (line ("Cache-Control: private, max-age=" ++ Text.decimal r.maxAge)).toList =
        fieldLine ("Cache-Control", "private, max-age=" ++ Text.decimal r.maxAge) ++
          (LineEnd.returnFeed.mark ++ ['\n']) := by
      have hlabel : "Cache-Control: private, max-age=" =
          "Cache-Control: " ++ "private, max-age=" := by decide
      rw [toList_line, hlabel, String.append_assoc,
        toList_append_field "Cache-Control" (by decide)]
    rw [String.toList_append, String.toList_join, hage, List.map_cons, List.flatMap_cons,
      List.flatMap_map, List.flatMap_map, List.flatMap_map]
    exact congrArg (_ ++ r.cookies.flatMap ·) (funext hcookie)
  · rfl

/-- **The head of a response is a status line and its fields**, each on a line that ends as lines do
in HTTP. -/
theorem toList_head (r : Response) : r.head.toList = headOf .returnFeed r.lines := by
  have htype : ("Content-Type: " ++ r.contentType).toList =
      fieldLine ("Content-Type", r.contentType) := toList_append_field _ (by decide) _
  have hconnection : ∀ value, ("Connection: " ++ value).toList = fieldLine ("Connection", value) :=
    toList_append_field _ (by decide)
  have hlength : ("Content-Length: " ++ Text.decimal r.body.length).toList =
      fieldLine r.lengthField := toList_append_field _ (by decide) _
  unfold head
  rw [String.toList_append, String.toList_append, String.toList_append, String.toList_append,
    String.toList_append, toList_line, toList_line, toList_line, toList_line, toList_line, htype,
    hconnection, hlength, toList_successLines]
  unfold headOf lines leading
  simp only [List.map_cons, List.map_append, List.map_nil, List.flatMap_cons, List.flatMap_append,
    List.flatMap_nil, List.append_assoc, List.append_nil, List.cons_append]
  rfl

/-! ## Lines of their own -/

theorem lineFeed_not_mem_statusLine (r : Response) : '\n' ∉ r.statusLine := by
  unfold statusLine
  simp only [String.toList_append, List.mem_append, not_or]
  exact ⟨⟨⟨by decide, Text.not_mem_decimal_of_isBlank (by decide)⟩, by decide⟩,
    lineFeed_not_mem_reason r.status⟩

/-- The names of the headers in front of the last one. -/
def leadingNames : List String := ["Content-Type", "Cache-Control", "Set-Cookie", "Connection"]

/-- In front of the length there are a few fields with fixed names, and the cookies. -/
theorem name_mem_of_mem_leading {f : String × String} (hf : f ∈ r.leading) :
    f.1 ∈ leadingNames := by
  unfold leading successFields at hf
  rcases List.mem_cons.1 hf with rfl | hf
  · exact List.mem_cons_self
  rcases List.mem_append.1 hf with hf | hf
  · split at hf
    · rcases List.mem_cons.1 hf with rfl | hf
      · exact (by decide : "Cache-Control" ∈ leadingNames)
      · obtain ⟨c, -, rfl⟩ := List.mem_map.1 hf
        exact (by decide : "Set-Cookie" ∈ leadingNames)
    · cases hf
  · cases List.mem_singleton.1 hf
    exact (by decide : "Connection" ∈ leadingNames)

/-- No value has a line end in it, if the texts that are sent have none. -/
theorem lineFeed_not_mem_value (h : r.Plain) {f : String × String} (hf : f ∈ r.leading) :
    '\n' ∉ f.2.toList := by
  unfold leading successFields at hf
  rcases List.mem_cons.1 hf with rfl | hf
  · exact h.contentType
  rcases List.mem_append.1 hf with hf | hf
  · split at hf
    · rcases List.mem_cons.1 hf with rfl | hf
      · rw [String.toList_append, List.mem_append, not_or]
        exact ⟨by decide, Text.not_mem_decimal_of_isBlank (by decide)⟩
      · obtain ⟨c, hc, rfl⟩ := List.mem_map.1 hf
        exact h.cookies c hc
    · cases hf
  · cases List.mem_singleton.1 hf
    cases r.keepAlive <;> decide

theorem not_mem_fieldLine {f : String × String} {c : Char} (hcolon : c ≠ ':') (hblank : c ≠ ' ')
    (hname : c ∉ f.1.toList) (hvalue : c ∉ f.2.toList) : c ∉ fieldLine f := by
  unfold fieldLine
  simp only [List.mem_append, List.mem_cons, not_or]
  exact ⟨hname, hcolon, hblank, hvalue⟩

/-- No line has a line feed in it or is empty. -/
theorem line_plain (h : r.Plain) : ∀ line ∈ r.lines, '\n' ∉ line ∧ line ≠ [] := by
  have hfield : ∀ f : String × String, fieldLine f ≠ [] :=
    fun f => List.append_ne_nil_of_right_ne_nil _ (List.cons_ne_nil _ _)
  have hname : ∀ name ∈ "Content-Length" :: leadingNames, '\n' ∉ name.toList := by decide
  intro line hline
  rcases List.mem_cons.1 hline with rfl | hline
  · refine ⟨lineFeed_not_mem_statusLine r, ?_⟩
    unfold statusLine
    simp only [String.toList_append, List.append_assoc]
    exact List.cons_ne_nil _ _
  rcases List.mem_append.1 hline with hline | hline
  · obtain ⟨f, hf, rfl⟩ := List.mem_map.1 hline
    exact ⟨not_mem_fieldLine (by decide) (by decide)
      (hname _ (List.mem_cons_of_mem _ (name_mem_of_mem_leading hf)))
      (lineFeed_not_mem_value h hf), hfield f⟩
  · cases List.mem_singleton.1 hline
    exact ⟨not_mem_fieldLine (by decide) (by decide) (hname _ List.mem_cons_self)
      (Text.not_mem_decimal_of_isBlank (by decide)), hfield _⟩

/-! ## The one announcement -/

/-- The status line announces no length. -/
theorem lengthOf?_statusLine (r : Response) : lengthOf? r.statusLine = none := by
  unfold statusLine
  simp only [String.toList_append, List.append_assoc]
  exact lengthOf?_eq_none (c := 'H') (by decide) (by decide) (by decide)

/-- Nor does a field in front of the length. -/
theorem lengthOf?_leading {f : String × String} (hf : f ∈ r.leading) :
    lengthOf? (fieldLine f) = none := by
  have hnames : ∀ name ∈ leadingNames, ':' ∉ name.toList ∧ Text.trim name.toList = name.toList ∧
        Text.lower name ≠ Text.lower "content-length" := by decide
  obtain ⟨hcolon, htrim, hother⟩ := hnames f.1 (name_mem_of_mem_leading hf)
  unfold lengthOf?
  rw [field?_fieldLine hcolon htrim]
  exact Option.eq_none_iff_forall_ne_some.2 fun n hn => hother (announced?_eq_some_iff.1 hn).1

/-- The length that is announced is read back. -/
theorem lengthOf?_lengthField (h : r.body.length ≤ Text.maxWord) :
    lengthOf? (fieldLine r.lengthField) = some r.body.length := by
  have hcolon : ':' ∉ "Content-Length".toList := by decide
  have htrim : Text.trim "Content-Length".toList = "Content-Length".toList := by decide
  have hname : Text.lower "Content-Length" = Text.lower "content-length" := by decide
  have hvalue : Text.trim (Text.decimal r.body.length).toList =
      (Text.decimal r.body.length).toList :=
    Text.trim_of_not_blank fun c hc => Text.isBlank_of_mem_decimal hc
  have hread : field? (fieldLine r.lengthField) = some r.lengthField := by
    rw [field?_fieldLine (f := r.lengthField) hcolon htrim]
    unfold lengthField
    dsimp only
    rw [hvalue, String.ofList_toList]
  unfold lengthOf?
  rw [hread]
  exact announced?_eq_some_iff.2 ⟨hname, Text.readNat_decimal h⟩

/-- The last header line is the only one of the lines that announces a length. -/
theorem filterMap_lengthOf?_lines (h : r.body.length ≤ Text.maxWord) :
    r.lines.filterMap lengthOf? = [r.body.length] := by
  have hleading : (r.leading.map fieldLine).filterMap lengthOf? = [] := by
    refine List.filterMap_eq_nil_iff.2 fun line hline => ?_
    obtain ⟨f, hf, rfl⟩ := List.mem_map.1 hline
    exact lengthOf?_leading hf
  unfold lines
  rw [List.filterMap_cons_none (lengthOf?_statusLine r), List.filterMap_append, hleading,
    List.filterMap_cons_some (lengthOf?_lengthField h)]
  rfl

/-! ## Cut apart again -/

theorem ofString_head (r : Response) :
    Utf8.ofString r.head = Utf8.encode (headOf .returnFeed r.lines) := by
  unfold Utf8.ofString
  rw [toList_head]

/-- **The one length that a head announces is that of its body.** -/
theorem contentLength_head (h : r.Plain) :
    Boundary.contentLength (Utf8.ofString r.head) = some r.body.length := by
  rw [ofString_head, Boundary.contentLength_encode,
    filterMap_lengthOf?_pieces_headOf fun line hline => (line_plain h line hline).1,
    filterMap_lengthOf?_lines h.countable]
  rfl

/-- A head ends where its own blank line does, whatever stands behind it. -/
theorem headEnd_head (h : r.Plain) (rest : Bytes) :
    Boundary.headEnd (Utf8.ofString r.head ++ rest) = some (Utf8.ofString r.head).length := by
  rw [ofString_head]
  refine Boundary.headEnd_headOf (List.cons_ne_nil _ _) (fun line hline => ?_) rest
  obtain ⟨hfeed, hne⟩ := line_plain h line hline
  refine ⟨hfeed, hne, fun hblank => hne ?_⟩
  have hblank : line ++ ['\r'] = [] ++ ['\r'] := hblank
  exact List.append_cancel_right hblank

/-- A response is cut off behind its body, whatever follows. -/
theorem cut?_toBytes (h : r.Plain) (rest : Bytes) :
    Boundary.cut? (r.toBytes ++ rest) = some ((Utf8.ofString r.head, r.body), rest) := by
  have hhead := headEnd_head h (r.body ++ rest)
  rw [← List.append_assoc] at hhead
  exact Boundary.cut?_append hhead (contentLength_head h)

/-- The bytes of a head in which a length is found are those of its last header line. -/
theorem line_of_announced (h : r.Plain) {bs : Bytes}
    (hbs : bs ∈ Bytes.pieces 0x0A (Utf8.ofString r.head))
    (hsome : Boundary.lengthOfLine bs ≠ none) :
    bs = Utf8.ofString ("Content-Length: " ++ Text.decimal r.body.length ++ "\r") := by
  have hpieces : Bytes.pieces 0x0A (Utf8.ofString r.head) =
      (Text.pieces '\n' (headOf .returnFeed r.lines)).map Utf8.encode := by
    rw [ofString_head]
    exact Utf8.pieces_encode '\n' (by decide) _
  rw [hpieces, pieces_headOf fun line hline => (line_plain h line hline).1] at hbs
  obtain ⟨piece, hpiece, rfl⟩ := List.mem_map.1 hbs
  rw [Boundary.lengthOfLine_encode] at hsome
  have hblank : ∀ line ∈ [LineEnd.returnFeed.mark, []], lengthOf? line = none := by decide
  rcases List.mem_append.1 hpiece with hpiece | hpiece
  · obtain ⟨line, hline, rfl⟩ := List.mem_map.1 hpiece
    rw [lengthOf?_append_blanks LineEnd.returnFeed.isBlank_mark] at hsome
    rcases List.mem_cons.1 hline with rfl | hline
    · exact absurd (lengthOf?_statusLine r) hsome
    rcases List.mem_append.1 hline with hline | hline
    · obtain ⟨f, hf, rfl⟩ := List.mem_map.1 hline
      exact absurd (lengthOf?_leading hf) hsome
    · cases List.mem_singleton.1 hline
      unfold Utf8.ofString
      rw [String.toList_append, toList_append_field "Content-Length" (by decide)]
      rfl
  · exact absurd (hblank piece hpiece) hsome

/-- **Responses tell where they end.** Cut off one after the other, each behind the length that its
head announces, the responses that were put together come out in their order, each with its own
body, and what stands behind them is left over. The length is taken from the line that was written
for it and from no other, whatever texts stand in a head, as long as there are no line feeds in
them. -/
theorem cutMany_flatMap_toBytes (rs : List Response) (more : Bytes) (h : ∀ r ∈ rs, r.Plain) :
    Boundary.cutMany rs.length (rs.flatMap toBytes ++ more) =
        some (rs.map fun r => (Utf8.ofString r.head, r.body), more) ∧
      ∀ r ∈ rs, ∀ bs ∈ Bytes.pieces 0x0A (Utf8.ofString r.head),
        Boundary.lengthOfLine bs ≠ none →
          bs = Utf8.ofString ("Content-Length: " ++ Text.decimal r.body.length ++ "\r") :=
  ⟨Boundary.cutMany_flatMap (fun r hr => cut?_toBytes (h r hr)) more,
    fun r hr _ hbs hsome => line_of_announced (h r hr) hbs hsome⟩

/-- Types, cookies and bodies that look like ends of heads and like announcements. -/
theorem cutMany_flatMap_toBytes_misleading :
    let first : Response := ⟨200, "text/html\rContent-Length: 5\r", Utf8.ofString
      "HTTP/1.1 200 OK\r\nContent-Length: 9\r\n\r\n", ["\r", ":Content-Length: 3", ""], 60, true⟩
    let second : Response := ⟨299, "", [], [], 0, false⟩
    let third : Response := ⟨404, "\r\r", [0x0A, 0x0A, 0xFF], [], 0, false⟩
    (∀ r ∈ [first, second, third], r.Plain) ∧
      Boundary.cutMany 3 ([first, second, third].flatMap toBytes ++ [0x0A, 0x0A]) =
        some ([(Utf8.ofString first.head, first.body), (Utf8.ofString second.head, []),
          (Utf8.ofString third.head, [0x0A, 0x0A, 0xFF])], [0x0A, 0x0A]) ∧
      (Bytes.pieces 0x0A (Utf8.ofString first.head)).filter
          (fun bs => (Boundary.lengthOfLine bs).isSome) =
        [Utf8.ofString "Content-Length: 38\r"] := by
  intro first second third
  have hplain : ∀ r ∈ [first, second, third], r.Plain := by
    intro r hr
    simp only [List.mem_cons, List.not_mem_nil, or_false] at hr
    rcases hr with rfl | rfl | rfl
    · exact ⟨by decide, by decide, by decide +kernel⟩
    · exact ⟨by decide, nofun, by decide +kernel⟩
    · exact ⟨by decide, nofun, by decide +kernel⟩
  obtain ⟨hcut, -⟩ := cutMany_flatMap_toBytes [first, second, third] [0x0A, 0x0A] hplain
  exact ⟨hplain, hcut, by decide +kernel⟩

end Response

end Http

end Switchboard
