import Switchboard.Proofs.Dict
import Switchboard.Proofs.Heads
import Switchboard.Proofs.Routing

/-!
# Requests are read as they were framed and written

The splitter cuts a request out of the stream by its bytes, and reading takes the same bytes apart
as a text. This file shows that the two fit together. What is read is settled by the bytes that were
cut out (`ofBytes?_take_append`), the verb of the request line is the one that the splitter went by
(`verb_eq_post_iff`), and the body is what the splitter left room for behind the head. In the other
direction stands a way to write requests (`Draft.toBytes`): whatever can be written in it is read
back from its bytes, with either kind of line end and with anything behind it
(`Draft.ofBytes?_toBytes`).

Both directions go through what is known of the bytes from which a request was read
(`Request.IsReadFrom`).
-/

namespace Switchboard

/-! ## Headers of lists -/

namespace Dict

variable {κ : Type u} {α : Type v} [Ord κ] [Std.TransOrd κ] [Std.LawfulEqOrd κ]

/-- Of a list with no key twice, a dictionary has all entries. -/
theorem toList_ofList_perm {es : List (κ × α)} (h : (es.map Prod.fst).Nodup) :
    (ofList es).toList.Perm es := by
  refine (List.perm_ext_iff_of_nodup (.of_map Prod.fst (ofList es).nodup_keys)
    (.of_map Prod.fst h)).2 fun e => ⟨mem_of_mem_ofList, fun he => ?_⟩
  obtain ⟨before, after, rfl⟩ := List.append_of_mem he
  refine get?_eq_some_iff.1 ((get?_ofList_eq_some_iff _ _ _).2 ⟨before, after, rfl, ?_⟩)
  rw [List.map_append, List.map_cons] at h
  have hafter := (List.nodup_cons.1 (List.nodup_append.1 h).2.1).1
  exact fun e' he' heq => hafter (heq ▸ List.mem_map_of_mem he')

end Dict

namespace Headers

theorem entries_ofList (fs : List (String × String)) :
    (ofList fs).entries = Dict.ofList (fs.map fun f => (Text.lower f.1, f.2)) := by
  have hfold : ∀ h : Headers, (fs.foldl (fun h f => h.insert f.1 f.2) h).entries =
      (fs.map fun f => (Text.lower f.1, f.2)).foldl (fun d e => d.insert e.1 e.2) h.entries := by
    induction fs with
    | nil => exact fun h => rfl
    | cons f fs ih => exact fun h => ih (h.insert f.1 f.2)
  exact hfold empty

/-- Of a list with no name twice, in any case, the headers are all there, in small letters. -/
theorem toList_ofList_perm {fs : List (String × String)}
    (h : (fs.map fun f => Text.lower f.1).Nodup) :
    (ofList fs).toList.Perm (fs.map fun f => (Text.lower f.1, f.2)) := by
  unfold toList
  rw [entries_ofList]
  refine Dict.toList_ofList_perm ?_
  rw [List.map_map]
  exact h

end Headers

/-! ## First characters -/

namespace Text

variable {c : Char} {cs first word rest : List Char}

theorem head?_dropReturn (hc : c ≠ '\r') (line : List Char) :
    (dropReturn (c :: line)).head? = some c := by
  unfold dropReturn
  split
  · cases line with
    | nil =>
      rename_i hreturn
      exact absurd (Option.some.inj hreturn) hc
    | cons d line => rfl
  · rfl

/-- The first line of a text begins as the text does. -/
theorem head?_first (hfeed : c ≠ '\n') (hreturn : c ≠ '\r')
    (h : (lines (c :: cs)).head? = some first) : first.head? = some c := by
  by_cases hmem : '\n' ∈ cs
  · obtain ⟨line, more, rfl, hline⟩ := List.eq_append_cons_of_mem hmem
    have hpiece : '\n' ∉ c :: line := List.not_mem_cons_of_ne_of_not_mem (Ne.symm hfeed) hline
    obtain ⟨others, hlines⟩ := head?_lines hpiece more
    rw [← List.cons_append, hlines] at h
    cases h
    exact head?_dropReturn hreturn line
  · have hpiece : '\n' ∉ c :: cs := List.not_mem_cons_of_ne_of_not_mem (Ne.symm hfeed) hmem
    unfold lines at h
    rw [pieces_of_not_mem hpiece] at h
    cases h
    rfl

/-- The first word of a line begins as the line does, if that is not with a blank. -/
theorem head?_word (hc : isBlank c = false) (hfirst : first.head? = some c)
    (h : nextWord first = some (word, rest)) : word.head? = some c := by
  obtain ⟨cs, rfl⟩ := List.head?_eq_some_iff.1 hfirst
  have hneg : ¬ isBlank c = true := by
    rw [hc]
    exact Bool.false_ne_true
  have hpos : (!isBlank c) = true := by
    rw [hc]
    rfl
  have htake : (c :: cs).takeWhile (!isBlank ·) = c :: cs.takeWhile (!isBlank ·) :=
    List.takeWhile_cons_of_pos hpos
  unfold nextWord at h
  rw [List.dropWhile_cons_of_neg hneg] at h
  dsimp only at h
  rw [htake] at h
  cases h
  rfl

end Text

namespace Http

/-! ## What was read -/

theorem Verb.eq_of_of? {word : List Char} {verb : Verb}
    (h : Verb.of? (String.ofList word) = some verb) : word = verb.label.toList := by
  rw [← String.toList_ofList (l := word)]
  unfold Verb.of? at h
  split at h
  · rename_i hget
    cases h
    rw [hget]
    rfl
  · split at h
    · rename_i hpost
      cases h
      rw [hpost]
      rfl
    · cases h

namespace Request

variable {buf : Bytes} {r : Request} {found : Boundary} {head : Nat} {text first : List Char}

theorem foldl_addHeader (h : Headers) (lines : List (List Char)) :
    lines.foldl addHeader h = (lines.filterMap field?).foldl (fun h f => h.insert f.1 f.2) h := by
  rw [List.foldl_filterMap]
  congr 1
  funext h line
  unfold addHeader field?
  cases Text.splitFirst ':' line <;> rfl

/-- What is known of the bytes from which a request was read: where they end, and where their head
does; the text of the head, and its first line; and what the request has of them. -/
structure IsReadFrom (buf : Bytes) (r : Request) (found : Boundary) (head : Nat)
    (text first : List Char) : Prop where
  boundary : Boundary.of? buf = some found
  headEnd : Boundary.headEnd buf = some head
  decodes : Utf8.decode? (buf.take head) = some text
  firstLine : (Text.lines text).head? = some first
  verb : ∃ rest, Text.nextWord first = some (r.verb.label.toList, rest)
  headers : r.headers = Headers.ofList (fields text)
  body : r.body = match r.verb with
    | .post => (buf.take found.length).drop head
    | .get => []

theorem exists_of_ofBytes? (h : ofBytes? buf = some r) :
    ∃ found head text first, IsReadFrom buf r found head text first := by
  unfold ofBytes? at h
  simp only [Option.bind_eq_bind, Option.bind_eq_some_iff] at h
  obtain ⟨found, hfound, head, hhead, text, htext, h⟩ := h
  split at h
  · rename_i first lines hlines
    simp only [Option.bind_eq_some_iff, Prod.exists] at h
    obtain ⟨word, rest, hword, verb, hverb, target, _, -, h⟩ := h
    cases h
    have hfirst : (Text.lines text).head? = some first := by
      rw [hlines]
      rfl
    have hheaders : lines.foldl addHeader ∅ = Headers.ofList (fields text) := by
      unfold fields
      rw [hlines]
      exact foldl_addHeader ∅ lines
    exact ⟨found, head, text, first, hfound, hhead, htext, hfirst,
      ⟨rest, hword.trans (by rw [Verb.eq_of_of? hverb])⟩, hheaders, rfl⟩
  · cases h

/-! ## The verb -/

/-- The first byte of a request is the first letter of its first line, and of its verb. -/
theorem IsReadFrom.head?_line (h : IsReadFrom buf r found head text first) {b : UInt8}
    {bs : Bytes} (hbuf : buf = b :: bs) (hascii : b.toNat < 0x80)
    (hblank : Text.isBlank (Char.ofNat b.toNat) = false) :
    first.head? = some (Char.ofNat b.toNat) ∧
      r.verb.label.toList.head? = some (Char.ofNat b.toNat) := by
  have hne : head ≠ 0 := by
    intro hzero
    have hends := (Boundary.shortest_of_headEnd h.headEnd).holds
    rw [hzero, List.take_zero] at hends
    exact absurd (Boundary.two_le_count_of_endsBlank hends) (by decide)
  obtain ⟨n, rfl⟩ := Nat.exists_eq_succ_of_ne_zero hne
  have hbytes := Utf8.encode_of_decode? h.decodes
  rw [hbuf, List.take_succ_cons] at hbytes
  obtain ⟨cs, rfl, -⟩ := Utf8.exists_of_encode_eq_cons hbytes hascii
  have hchar : ∀ c, Text.isBlank c = true → Char.ofNat b.toNat ≠ c := by
    rintro c hc rfl
    rw [hblank] at hc
    exact Bool.false_ne_true hc
  have hfirst := Text.head?_first (hchar '\n' (by decide)) (hchar '\r' (by decide)) h.firstLine
  obtain ⟨rest, hword⟩ := h.verb
  exact ⟨hfirst, Text.head?_word hblank hfirst hword⟩

/-- The verb in the line is the one at the front of the bytes. -/
theorem IsReadFrom.verb_eq_post_iff (h : IsReadFrom buf r found head text first)
    (hsniff : Boundary.sniff buf = .http) :
    (r.verb = .post ↔ Boundary.postVerb <+: buf) ∧
      (r.verb = .post → first.head? = some 'P') := by
  unfold Boundary.sniff at hsniff
  split at hsniff
  · rename_i hverb
    rw [Bool.or_eq_true, List.isPrefixOf_iff_prefix, List.isPrefixOf_iff_prefix] at hverb
    rcases hverb with ⟨bs, hbuf⟩ | ⟨bs, hbuf⟩
    · -- the first letter is that of the other verb
      obtain ⟨-, hlabel⟩ := h.head?_line hbuf.symm (by decide) (by decide)
      have hget : r.verb ≠ .post := by
        intro hpost
        rw [hpost] at hlabel
        exact absurd hlabel (by decide)
      have hnot : ¬ Boundary.postVerb <+: buf := by
        rintro ⟨bs', hbuf'⟩
        rw [← hbuf] at hbuf'
        cases hbuf'
      exact ⟨⟨fun hpost => absurd hpost hget, fun hp => absurd hp hnot⟩,
        fun hpost => absurd hpost hget⟩
    · obtain ⟨hfirst, hlabel⟩ := h.head?_line hbuf.symm (by decide) (by decide)
      have hpost : r.verb = .post := by
        cases hverb : r.verb with
        | post => rfl
        | get =>
          rw [hverb] at hlabel
          exact absurd hlabel (by decide)
      exact ⟨⟨fun _ => ⟨bs, hbuf⟩, fun _ => hpost⟩, fun _ => hfirst⟩
  · cases hsniff

/-! ## Framing and reading -/

/-- A head and a body lie within the bytes that are cut out. -/
theorem bounds_of_headEnd (hsniff : Boundary.sniff buf = .http)
    (hfound : Boundary.of? buf = some found) (hhead : Boundary.headEnd buf = some head) :
    head ≤ found.length ∧ found.length ≤ buf.length ∧
      (¬ Boundary.postVerb <+: buf → found.length = head) := by
  have hlength := (Boundary.of?_eq_some_iff.1 hfound).2
  rw [hsniff] at hlength
  obtain ⟨hle, head', hhead', hhead_le⟩ := Boundary.le_of_httpLength hlength
  cases hhead.symm.trans hhead'
  refine ⟨hhead_le, hle, fun hget => ?_⟩
  rw [Boundary.httpLength_eq_headEnd hget, hhead] at hlength
  exact (Option.some.inj hlength).symm

/-- What is read is settled by the bytes that are cut out. -/
theorem ofBytes?_take_append (hsniff : Boundary.sniff buf = .http)
    (hfound : Boundary.of? buf = some found) (more : Bytes) :
    ofBytes? (buf.take found.length ++ more) = ofBytes? buf := by
  have hprefix : buf.take found.length <+: buf.take found.length ++ more :=
    List.prefix_append _ more
  have hlength := (Boundary.of?_eq_some_iff.1 hfound).2
  rw [hsniff] at hlength
  obtain ⟨hle, head, hhead, hhead_le⟩ := Boundary.le_of_httpLength hlength
  have hfound' := Boundary.of?_of_isPrefix hfound hprefix
  have hhead' := Boundary.headEnd_of_isPrefix hhead
    ((List.take_prefix_take_left hhead_le).trans hprefix)
  have htext := Bytes.take_of_take_isPrefix hle hprefix hhead_le
  have hwhole := Bytes.take_of_take_isPrefix hle hprefix (Nat.le_refl _)
  unfold ofBytes?
  simp only [hfound, hfound', hhead, hhead', Option.bind_eq_bind, Option.bind_some, htext, hwhole]

end Request

/-! ## Writing requests -/

/-- A text that stands in a line as it is: without line ends, and without blanks around it. -/
structure Tidy (s : String) : Prop where
  trimmed : Text.trim s.toList = s.toList
  noReturn : '\r' ∉ s.toList
  noFeed : '\n' ∉ s.toList

instance (s : String) : Decidable (Tidy s) :=
  decidable_of_iff (Text.trim s.toList = s.toList ∧ '\r' ∉ s.toList ∧ '\n' ∉ s.toList)
    ⟨fun ⟨htrim, hreturn, hfeed⟩ => ⟨htrim, hreturn, hfeed⟩,
      fun h => ⟨h.trimmed, h.noReturn, h.noFeed⟩⟩

/-- A request that can be written. The words of its first line and its headers can be told apart,
no header stands twice, and the length of a body is announced. -/
structure Draft where
  verb : Verb
  path : String
  query : String
  fields : List (String × String)
  body : Bytes
  path_ne_empty : path ≠ ""
  path_plain : ∀ c ∈ path.toList, Text.isBlank c = false ∧ c ≠ '?'
  query_plain : ∀ c ∈ query.toList, Text.isBlank c = false
  name_plain : ∀ f ∈ fields, ':' ∉ f.1.toList
  tidy : ∀ f ∈ fields, Tidy f.1 ∧ Tidy f.2
  distinct : (fields.map fun f => Text.lower f.1).Nodup
  bodiless : verb = .get → body = []
  announced : verb = .post → ∃ f ∈ fields, announced? f = some body.length

namespace Draft

variable {d : Draft} {e : LineEnd} {more : Bytes}

/-- The first line, with a target of a path and a query. -/
def requestLine (d : Draft) : List Char :=
  d.verb.label.toList ++ [' '] ++ ((d.path ++ "?" ++ d.query).toList ++ " HTTP/1.1".toList)

/-- The head: the first line, the header lines and a blank line. -/
def head (d : Draft) (e : LineEnd) : List Char :=
  headOf e (d.requestLine :: d.fields.map fieldLine)

/-- The request as it is sent. -/
def toBytes (d : Draft) (e : LineEnd) : Bytes := Utf8.encode (d.head e) ++ d.body

/-- The request as it is meant. -/
def request (d : Draft) : Request :=
  ⟨d.verb, d.path, d.query, Headers.ofList d.fields, d.body⟩

/-! ## The lines that are written -/

theorem mem_requestLine {c : Char} (h : c ∈ d.requestLine) : c = ' ' ∨ Text.isBlank c = false := by
  have hlabel : ∀ c ∈ d.verb.label.toList, Text.isBlank c = false := by
    cases d.verb <;> exact Text.isBlank_eq_false_of_any (by decide)
  have hmark : ∀ c ∈ "?".toList, Text.isBlank c = false :=
    Text.isBlank_eq_false_of_any (by decide)
  have hversion : ∀ c ∈ "HTTP/1.1".toList, Text.isBlank c = false :=
    Text.isBlank_eq_false_of_any (by decide)
  unfold requestLine at h
  simp only [String.toList_append, List.mem_append] at h
  rcases h with (h | h) | ((h | h) | h) | h
  · exact .inr (hlabel c h)
  · exact .inl (List.mem_singleton.1 h)
  · exact .inr (d.path_plain c h).1
  · exact .inr (hmark c h)
  · exact .inr (d.query_plain c h)
  · have h : c ∈ ' ' :: "HTTP/1.1".toList := h
    exact (List.mem_cons.1 h).imp id (hversion c)

theorem not_mem_fieldLine {f : String × String} (hf : f ∈ d.fields) :
    '\n' ∉ fieldLine f ∧ '\r' ∉ fieldLine f := by
  obtain ⟨hname, hvalue⟩ := d.tidy f hf
  unfold fieldLine
  simp only [List.mem_append, List.mem_cons, not_or]
  exact ⟨⟨hname.noFeed, by decide, by decide, hvalue.noFeed⟩,
    ⟨hname.noReturn, by decide, by decide, hvalue.noReturn⟩⟩

/-- No line that is written has a line end in it or is empty. -/
theorem line_plain {line : List Char} (h : line ∈ d.requestLine :: d.fields.map fieldLine) :
    ('\n' ∉ line ∧ '\r' ∉ line) ∧ line ≠ [] := by
  rcases List.mem_cons.1 h with rfl | h
  · have hends : ∀ c, Text.isBlank c = true → c ≠ ' ' → c ∉ d.requestLine := by
      intro c hblank hne hmem
      rcases mem_requestLine hmem with heq | hnot
      · exact hne heq
      · rw [hblank] at hnot
        cases hnot
    refine ⟨⟨hends '\n' (by decide) (by decide), hends '\r' (by decide) (by decide)⟩, ?_⟩
    unfold requestLine
    cases d.verb <;> exact List.cons_ne_nil _ _
  · obtain ⟨f, hf, rfl⟩ := List.mem_map.1 h
    exact ⟨not_mem_fieldLine hf, List.append_ne_nil_of_right_ne_nil _ (List.cons_ne_nil _ _)⟩

/-- The headers that are read in the lines are those that were written. -/
theorem filterMap_field?_fieldLine (d : Draft) :
    (d.fields.map fieldLine).filterMap field? = d.fields := by
  have hread : ∀ f ∈ d.fields, (field? ∘ fieldLine) f = some f := by
    intro f hf
    obtain ⟨hname, hvalue⟩ := d.tidy f hf
    rw [Function.comp_apply, field?_fieldLine (d.name_plain f hf) hname.trimmed, hvalue.trimmed,
      String.ofList_toList]
  rw [List.filterMap_map]
  exact (List.filterMap_congr hread).trans List.filterMap_some

/-! ## Written, then framed -/

theorem headEnd_toBytes (d : Draft) (e : LineEnd) (more : Bytes) :
    Boundary.headEnd (d.toBytes e ++ more) = some (Utf8.encode (d.head e)).length := by
  unfold toBytes
  rw [List.append_assoc]
  refine Boundary.headEnd_headOf (List.cons_ne_nil _ _) (fun line hline => ?_) _
  obtain ⟨⟨hfeed, hreturn⟩, hne⟩ := line_plain hline
  refine ⟨hfeed, hne, fun hblank => ?_⟩
  obtain ⟨c, cs, rfl⟩ := List.exists_cons_of_ne_nil hne
  rw [List.cons_append, List.cons.injEq] at hblank
  exact hreturn (hblank.1 ▸ List.mem_cons_self)

/-- Only one header can announce a length. -/
theorem head?_announced (hpost : d.verb = .post) :
    (d.fields.filterMap announced?).head? = some d.body.length := by
  obtain ⟨f, hf, hlength⟩ := d.announced hpost
  have hall : ∀ n ∈ d.fields.filterMap announced?, n = d.body.length := by
    intro n hn
    obtain ⟨g, hg, hgn⟩ := List.mem_filterMap.1 hn
    have hnames : Text.lower g.1 = Text.lower f.1 :=
      (announced?_eq_some_iff.1 hgn).1.trans (announced?_eq_some_iff.1 hlength).1.symm
    have hsame : g = f := List.inj_on_of_nodup_map d.distinct hg hf hnames
    rw [hsame, hlength] at hgn
    exact (Option.some.inj hgn).symm
  have hmem : d.body.length ∈ d.fields.filterMap announced? :=
    List.mem_filterMap.2 ⟨f, hf, hlength⟩
  cases hlengths : d.fields.filterMap announced? with
  | nil =>
    rw [hlengths] at hmem
    cases hmem
  | cons n ns =>
    rw [hlengths] at hall
    exact congrArg some (hall n List.mem_cons_self)

theorem lines_head (d : Draft) (e : LineEnd) :
    Text.lines (d.head e) = d.requestLine :: (d.fields.map fieldLine ++ [[]]) := by
  unfold head
  exact lines_headOf fun line hline => (line_plain hline).1

theorem fields_head (d : Draft) (e : LineEnd) : Http.fields (d.head e) = d.fields := by
  unfold Http.fields
  rw [lines_head, List.tail_cons, List.filterMap_append, filterMap_field?_fieldLine]
  exact List.append_nil _

theorem contentLength_head (hpost : d.verb = .post) :
    Boundary.contentLength (Utf8.encode (d.head e)) = some d.body.length := by
  have hfirst : (Text.lines (d.head e)).head? = some d.requestLine := by
    rw [lines_head]
    rfl
  have hverb : d.requestLine.head? = some 'P' := by
    unfold requestLine
    rw [hpost]
    rfl
  rw [Boundary.contentLength_eq_head?_lengths hfirst hverb, lengths, fields_head,
    head?_announced hpost]

theorem length_toBytes (d : Draft) (e : LineEnd) :
    (d.toBytes e).length = (Utf8.encode (d.head e)).length + d.body.length := by
  unfold toBytes
  exact List.length_append

theorem take_toBytes (d : Draft) (e : LineEnd) (more : Bytes) :
    (d.toBytes e ++ more).take (Utf8.encode (d.head e)).length = Utf8.encode (d.head e) := by
  unfold toBytes
  rw [List.append_assoc, List.take_left]

/-- The bytes begin with the verb. -/
theorem exists_toBytes_append (d : Draft) (e : LineEnd) (more : Bytes) :
    ∃ rest, d.toBytes e ++ more = (match d.verb with
      | .get => Boundary.getVerb
      | .post => Boundary.postVerb) ++ rest := by
  have hverb : Utf8.encode d.verb.label.toList = match d.verb with
      | .get => Boundary.getVerb
      | .post => Boundary.postVerb := by
    cases d.verb <;> decide
  unfold toBytes head headOf requestLine
  simp only [List.flatMap_cons, Utf8.encode_append, List.append_assoc, hverb]
  exact ⟨_, rfl⟩

/-- The bytes are cut where the request ends. -/
theorem boundary_toBytes (hsize : (d.toBytes e).length ≤ Text.maxWord) :
    Boundary.of? (d.toBytes e ++ more) = some ⟨.http, (d.toBytes e).length⟩ := by
  have hhead := headEnd_toBytes d e more
  have hle : (d.toBytes e).length ≤ (d.toBytes e ++ more).length := by
    rw [List.length_append]
    exact Nat.le_add_right _ _
  obtain ⟨rest, hfront⟩ := exists_toBytes_append d e more
  cases hverb : d.verb with
  | get =>
    have hsniff : Boundary.sniff (d.toBytes e ++ more) = .http := by
      rw [hfront, hverb]
      rfl
    have hget : ¬ Boundary.postVerb <+: d.toBytes e ++ more := by
      rw [hfront, hverb, ← List.isPrefixOf_iff_prefix]
      exact Bool.false_ne_true
    have hlength : Boundary.httpLength (d.toBytes e ++ more) = some (d.toBytes e).length := by
      rw [Boundary.httpLength_eq_headEnd hget, hhead, length_toBytes, d.bodiless hverb,
        List.length_nil, Nat.add_zero]
    refine Boundary.of?_eq_some_iff.2 ⟨hsniff.symm, ?_⟩
    rw [hsniff]
    dsimp only
    rw [hlength]
  | post =>
    have hsniff : Boundary.sniff (d.toBytes e ++ more) = .http := by
      rw [hfront, hverb]
      rfl
    have hpost : Boundary.postVerb <+: d.toBytes e ++ more := by
      rw [hfront, hverb]
      exact List.prefix_append _ rest
    have hlength : Boundary.httpLength (d.toBytes e ++ more) = some (d.toBytes e).length := by
      refine (Boundary.httpLength_eq_some_iff hpost).2 ⟨_, hhead, ?_, hsize, hle⟩
      rw [take_toBytes, contentLength_head hverb, length_toBytes, Option.getD_some]
    refine Boundary.of?_eq_some_iff.2 ⟨hsniff.symm, ?_⟩
    rw [hsniff]
    dsimp only
    rw [hlength]

/-! ## Written, then read -/

theorem isFor_toBytes (hsize : (d.toBytes e).length ≤ Text.maxWord) :
    Request.IsFor (d.toBytes e ++ more) d.verb (d.path ++ "?" ++ d.query) where
  complete := by
    rw [boundary_toBytes hsize]
    rfl
  line := by
    refine ⟨_, d.requestLine ++ e.mark,
      (d.fields.map fieldLine).flatMap (· ++ (e.mark ++ ['\n'])) ++ (e.mark ++ ['\n']),
      headEnd_toBytes d e more, ?_, ?_, ?_⟩
    · rw [take_toBytes, Utf8.decode?_encode]
      unfold head headOf
      simp only [List.flatMap_cons, List.append_assoc, List.cons_append, List.nil_append]
    · refine ⟨[' '], " HTTP/1.1".toList ++ e.mark, ?_, by decide,
        List.forall_mem_singleton.2 (by decide), fun c hc => ?_⟩
      · unfold requestLine
        simp only [List.append_assoc]
      · cases hc
        decide
    · rw [List.mem_append, not_or]
      exact ⟨(line_plain List.mem_cons_self).1.1, by cases e <;> decide⟩

/-- **Written, then read.** A request is read back from its bytes, with anything behind it. -/
theorem ofBytes?_toBytes (hsize : (d.toBytes e).length ≤ Text.maxWord) :
    Request.ofBytes? (d.toBytes e ++ more) = some d.request := by
  have hmark : '?' ∉ d.path.toList := fun hmem => (d.path_plain '?' hmem).2 rfl
  have htarget : d.path ++ "?" ++ d.query = d.path ++ (some d.query).elim "" ("?" ++ ·) :=
    String.append_assoc ..
  have hfor : Request.IsFor (d.toBytes e ++ more) d.verb
      (d.path ++ (some d.query).elim "" ("?" ++ ·)) := htarget ▸ isFor_toBytes hsize
  obtain ⟨q, hq, hverb, hpath, hquery⟩ :=
    hfor.ofBytes?_path d.path_ne_empty hmark (fun c hc => (d.path_plain c hc).1) d.query_plain
  -- what else is in the request is settled by where its bytes were cut
  obtain ⟨found, n, text, first, hread⟩ := Request.exists_of_ofBytes? hq
  have hfound := hread.boundary.symm.trans (boundary_toBytes hsize)
  have hn := hread.headEnd.symm.trans (headEnd_toBytes d e more)
  cases hfound
  cases hn
  have htext := hread.decodes
  rw [take_toBytes, Utf8.decode?_encode] at htext
  cases htext
  have hheaders : q.headers = Headers.ofList d.fields := by
    rw [hread.headers, fields_head]
  have hbody : q.body = d.body := by
    rw [hread.body, hverb]
    cases hverb' : d.verb with
    | get => exact (d.bodiless hverb').symm
    | post =>
      dsimp only
      rw [List.take_left]
      unfold toBytes
      exact List.drop_left
  have hquery : q.query = d.query := hquery
  rw [hq]
  unfold request
  rw [← hverb, ← hpath, ← hquery, ← hheaders, ← hbody]

/-- A request whose body begins as another request does. -/
def nested : Draft where
  verb := .post
  path := "/go"
  query := "a=b"
  fields := [("Host", "x: y"), ("CONTENT-length", "9")]
  body := Utf8.ofString "GET /\n\nab"
  path_ne_empty := by decide
  path_plain := fun c hc =>
    ⟨Text.isBlank_eq_false_of_any (by decide) c hc, fun heq => absurd (heq ▸ hc) (by decide)⟩
  query_plain := Text.isBlank_eq_false_of_any (by decide)
  name_plain := by decide
  tidy := by decide
  distinct := by decide
  bodiless := by decide
  announced := fun _ => ⟨("CONTENT-length", "9"), by decide, by decide⟩

end Draft

/-! ## Both directions -/

namespace Request

/-- **Requests are read as they were framed and written.** Of bytes that pass for HTTP a request is
read only if the splitter would cut one out there, and it is settled by the bytes cut out: a body
takes what they have behind the head, a request without one is all head, the verb is the one at
their front, and no end that is used lies behind the bytes. And a request that was written is read
back, with all its headers, whatever stands behind it. Its bytes are no more than can be
counted. -/
theorem ofBytes?_framed_and_written :
    (∀ buf, Boundary.sniff buf = .http →
      (∀ found head, Boundary.of? buf = some found → Boundary.headEnd buf = some head →
        head ≤ found.length ∧ found.length ≤ buf.length) ∧
      ∀ r, ofBytes? buf = some r →
        ∃ length head, Boundary.of? buf = some ⟨.http, length⟩ ∧
          Boundary.headEnd buf = some head ∧
          (∀ more, ofBytes? (buf.take length ++ more) = some r) ∧
          (r.verb = .post ↔ Boundary.postVerb <+: buf) ∧
          (r.verb = .post → r.body = (buf.take length).drop head) ∧
          (r.verb = .get → r.body = [] ∧ length = head)) ∧
    ∀ (d : Draft) (e : LineEnd) (more : Bytes), (d.toBytes e).length ≤ Text.maxWord →
      ofBytes? (d.toBytes e ++ more) = some d.request ∧
        d.request.headers.toList.Perm (d.fields.map fun f => (Text.lower f.1, f.2)) := by
  refine ⟨fun buf hsniff => ⟨fun found head hfound hhead => ?_, fun r hr => ?_⟩,
    fun d e more hsize => ⟨Draft.ofBytes?_toBytes hsize, Headers.toList_ofList_perm d.distinct⟩⟩
  · obtain ⟨hhead_le, hle, -⟩ := bounds_of_headEnd hsniff hfound hhead
    exact ⟨hhead_le, hle⟩
  · obtain ⟨⟨protocol, length⟩, head, text, first, hread⟩ := exists_of_ofBytes? hr
    obtain ⟨-, -, hget⟩ := bounds_of_headEnd hsniff hread.boundary hread.headEnd
    obtain ⟨hverb, -⟩ := hread.verb_eq_post_iff hsniff
    have hprotocol : protocol = .http := (Boundary.of?_eq_some_iff.1 hread.boundary).1.trans hsniff
    subst hprotocol
    refine ⟨length, head, hread.boundary, hread.headEnd, fun more => ?_, hverb, ?_, ?_⟩
    · rw [← hr]
      exact ofBytes?_take_append hsniff hread.boundary more
    · intro hpost
      rw [hread.body, hpost]
    · intro hget'
      have hnot : ¬ Boundary.postVerb <+: buf := by
        intro hp
        rw [hverb.2 hp] at hget'
        cases hget'
      rw [hread.body, hget']
      exact ⟨rfl, hget hnot⟩

/-- The request within the body is left alone, and so is what follows. -/
theorem ofBytes?_nested :
    let bytes := Draft.nested.toBytes .returnFeed
    let buf := bytes ++ Utf8.ofString "POST"
    bytes = Utf8.ofString
        "POST /go?a=b HTTP/1.1\r\nHost: x: y\r\nCONTENT-length: 9\r\n\r\nGET /\n\nab" ∧
      bytes.length ≤ Text.maxWord ∧ Boundary.sniff buf = .http ∧
      Boundary.of? buf = some ⟨.http, 65⟩ ∧ Boundary.headEnd buf = some 56 ∧
      ofBytes? buf = some Draft.nested.request ∧
      ofBytes? (buf.take 65) = some Draft.nested.request ∧
      (buf.take 65).drop 56 = Draft.nested.body := by
  intro bytes buf
  have hsize : bytes.length ≤ Text.maxWord := by decide +kernel
  have hsniff : Boundary.sniff buf = .http := by decide +kernel
  have hfound : Boundary.of? buf = some ⟨.http, 65⟩ := by decide +kernel
  have hhead : Boundary.headEnd buf = some 56 := by decide +kernel
  obtain ⟨hframed, hwritten⟩ := ofBytes?_framed_and_written
  obtain ⟨hread, -⟩ := hwritten Draft.nested .returnFeed (Utf8.ofString "POST") hsize
  obtain ⟨length, head, hlength, hhead', hsame, -, hbody, -⟩ := (hframed buf hsniff).2 _ hread
  cases hfound.symm.trans hlength
  cases hhead.symm.trans hhead'
  have htake := hsame []
  rw [List.append_nil] at htake
  exact ⟨by decide +kernel, hsize, hsniff, hfound, hhead, hread, htake, (hbody rfl).symm⟩

end Request

end Http

end Switchboard
