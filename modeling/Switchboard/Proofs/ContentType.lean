import Switchboard.Proofs.Conversation
import Switchboard.Proofs.Escapes
import Switchboard.Proofs.WebRoot

/-!
# One file under several paths

The file is found by the decoded path, with its empty segments and dots left out; the type is told
by the path as it was sent. The two come together at the end of the path: an ending with a type of
its own consists of letters and digits, which stand for themselves, so nothing is decoded from the
last dot on, and what is behind the last dot is still there when the names have been put behind
the root (`ending_eq_of_typeOf?`). In the other direction this fails. A dot or a letter of the
ending may be escaped, and a slash may be behind it, and then the path has another ending than the
file and is answered as a plain text. So of all paths to a file some tell its type and the others
none, but no path tells a wrong one (`contentType_of_path?`).
-/

namespace Switchboard.Http.StaticFile

variable {root path file type : String} {front ext cs ds segment : List Char}

/-! ## Endings -/

/-- What stands behind the last dot. -/
def ending (path : String) : Option (List Char) := Text.afterLast '.' path.toList

/-- The type of files with an ending. -/
def typeOf? (ext : List Char) : Option String :=
  contentTypes.lookup (Text.lower (String.ofList ext))

theorem contentType_eq (path : String) :
    contentType path = ((ending path).bind typeOf?).getD "text/plain" := rfl

theorem isAlphanumeric_of_lowerChar {c : Char} (h : Text.isAlphanumeric (Text.lowerChar c)) :
    Text.isAlphanumeric c := by
  unfold Text.lowerChar at h
  split at h
  · rename_i hcapital
    simp [Text.isAlphanumeric, hcapital]
  · exact h

/-- The endings with a type consist of letters and digits. -/
theorem alphanumeric_of_typeOf? (h : typeOf? ext = some type) :
    ext ≠ [] ∧ ∀ c ∈ ext, Text.isAlphanumeric c := by
  have hkeys : ∀ entry ∈ contentTypes,
      entry.1.toList ≠ [] ∧ entry.1.toList.all Text.isAlphanumeric = true := by decide
  obtain ⟨before, after, hentry, -⟩ := List.lookup_eq_some_iff.1 h
  have hmem : (Text.lower (String.ofList ext), type) ∈ contentTypes := by
    rw [hentry]
    exact List.mem_append_right _ List.mem_cons_self
  obtain ⟨hne, hall⟩ := hkeys _ hmem
  have hlower : (Text.lower (String.ofList ext)).toList = ext.map Text.lowerChar := by
    simp [Text.lower]
  rw [hlower] at hne hall
  rw [List.all_eq_true] at hall
  exact ⟨mt (congrArg (List.map Text.lowerChar)) hne,
    fun c hc => isAlphanumeric_of_lowerChar (hall _ (List.mem_map_of_mem hc))⟩

/-! ## Endings of decoded paths -/

/-- Letters and digits behind a dot stand for themselves. -/
theorem decode_append_ending {text : String} (hext : ∀ c ∈ ext, Text.isAlphanumeric c)
    (hpath : path.toList = front ++ '.' :: ext) (htext : Url.decode path = some text) :
    ∃ front, text.toList = front ++ '.' :: ext := by
  have hnot : ∀ c : Char, Text.isAlphanumeric c = false → c ∉ ext :=
    fun c hc hmem => Bool.false_ne_true (hc ▸ hext c hmem)
  have hplain : ∀ b ∈ Utf8.encode ext, b ≠ 0x25 ∧ b ≠ 0x2B := by
    intro b hb
    constructor
    · rintro rfl
      exact Utf8.not_mem_encode_of_lt (c := '%') (by decide) (hnot '%' (by decide)) hb
    · rintro rfl
      exact Utf8.not_mem_encode_of_lt (c := '+') (by decide) (hnot '+' (by decide)) hb
  have hbytes : Utf8.ofString path = Utf8.encode front ++ 0x2E :: Utf8.encode ext := by
    rw [Utf8.ofString, hpath, Utf8.encode_append, Utf8.encode_cons]
    rfl
  -- the dot ends whatever escape is in front of it, since it is no digit
  have hdot : ¬ Text.IsHexDigit (Char.ofNat (0x2E : UInt8).toNat) := by decide
  unfold Url.decode at htext
  rw [hbytes, Url.decodeBytes_append_cons hdot (by decide) (by decide),
    Url.decodeBytes_of_plain hplain] at htext
  obtain ⟨bytes, hdecode, rfl⟩ := Option.map_eq_some_iff.1 htext
  obtain ⟨before, -, hbefore⟩ := Option.bind_eq_some_iff.1 hdecode
  cases hbefore
  refine ⟨Utf8.decodeLossy before, ?_⟩
  rw [Utf8.toStringLossy, String.toList_ofList, Utf8.decodeLossy_append_cons (by decide),
    Utf8.decodeLossy_encode]
  rfl

/-! ## Endings of files -/

theorem names_append_cons (cs ds : List Char) : names (cs ++ '/' :: ds) = names cs ++ names ds := by
  unfold names
  rw [← Text.pieces_eq_splitOn, ← Text.pieces_eq_splitOn, ← Text.pieces_eq_splitOn,
    Text.pieces_append_cons, List.filter_append]

theorem names_of_isName (h : IsName segment) : names segment = [segment] := by
  have hname : decide (segment ≠ [] ∧ segment ≠ ['.']) = true :=
    decide_eq_true ⟨h.ne_nil, h.ne_here⟩
  rw [names, List.splitOn_eq_singleton h.slash_not_mem, List.filter_cons, if_pos hname]
  rfl

theorem isName_append_ending (hsegment : '/' ∉ segment) (hext : ∀ c ∈ ext, Text.isAlphanumeric c)
    (hne : ext ≠ []) : IsName (segment ++ '.' :: ext) := by
  obtain ⟨c, cs, rfl⟩ := List.exists_cons_of_ne_nil hne
  refine ⟨by simp, ?_, ?_, ?_⟩
  · intro h
    have hlength := congrArg List.length h
    simp at hlength
    omega
  · intro h
    obtain ⟨rfl, hlast⟩ : segment = [] ∧ c :: cs = ['.'] := by
      cases segment with
      | nil => exact ⟨rfl, List.tail_eq_of_cons_eq h⟩
      | cons d ds =>
        have hlength := congrArg List.length h
        simp at hlength
        omega
    cases hlast
    exact absurd (hext '.' List.mem_cons_self) (by decide)
  · intro h
    rcases List.mem_append.1 h with h | h
    · exact hsegment h
    · rcases List.mem_cons.1 h with h | h
      · exact absurd h (by decide)
      · exact absurd (hext '/' h) (by decide)

/-- An ending stands at the end of the last name of a path. -/
theorem exists_names_eq (hext : ∀ c ∈ ext, Text.isAlphanumeric c) (hne : ext ≠ [])
    (front : List Char) :
    ∃ before last, names (front ++ '.' :: ext) = before ++ [last ++ '.' :: ext] := by
  cases hcut : Text.afterLast '/' front with
  | none =>
    have hslash := Text.afterLast_eq_none_iff.1 hcut
    exact ⟨[], front, names_of_isName (isName_append_ending hslash hext hne)⟩
  | some last =>
    obtain ⟨dirs, rfl, hslash⟩ := Text.afterLast_eq_some_iff.1 hcut
    refine ⟨names dirs, last, ?_⟩
    rw [List.append_assoc, List.cons_append, names_append_cons,
      names_of_isName (isName_append_ending hslash hext hne)]

theorem exists_push_eq (path name : List Char) : ∃ front, push path name = front ++ name := by
  unfold push
  split
  · exact ⟨path, rfl⟩
  · exact ⟨path ++ ['/'], by simp⟩

/-- The file of a path whose ending has a type has the ending of the path. -/
theorem ending_eq_of_typeOf? (hfile : path? root path = some file) (hpath : ending path = some ext)
    (htype : typeOf? ext = some type) : ending file = some ext := by
  obtain ⟨text, htext, hresolve⟩ := path?_eq_some_iff.1 hfile
  obtain ⟨hne, hext⟩ := alphanumeric_of_typeOf? htype
  obtain ⟨front, hfront, hdot⟩ := Text.afterLast_eq_some_iff.1 hpath
  obtain ⟨front, hfront⟩ := decode_append_ending hext hfront htext
  obtain ⟨before, last, hnames⟩ := exists_names_eq hext hne front
  obtain ⟨-, -, hpush⟩ := resolve?_eq_some_iff.1 hresolve
  rw [hfront, hnames, List.foldl_append] at hpush
  obtain ⟨dir, hdir⟩ := exists_push_eq (before.foldl push root.toList) (last ++ '.' :: ext)
  refine Text.afterLast_eq_some_iff.2 ⟨dir ++ last, ?_, hdot⟩
  rw [hpush, List.append_assoc]
  exact hdir

/-- A path tells the type of its file if the two have one ending, and else no type. -/
theorem contentType_of_path? (hfile : path? root path = some file) :
    contentType path = if ending path = ending file then contentType file else "text/plain" := by
  split
  · rename_i hsame
    rw [contentType_eq, contentType_eq, hsame]
  · rename_i hother
    rw [contentType_eq]
    cases hpath : ending path with
    | none => rfl
    | some ext =>
      rw [Option.bind_some]
      cases htype : typeOf? ext with
      | none => rfl
      | some type => exact absurd (hpath.trans (ending_eq_of_typeOf? hfile hpath htype).symm) hother

end Switchboard.Http.StaticFile

namespace Switchboard.Server

open Http.StaticFile

variable {s : Server} {st : State} {p file : String}

/-! ## Answers -/

/-- The answer to a request for a file, which is there or not. -/
theorem staticFile_of_path? (hfile : path? s.settings.webroot p = some file) :
    staticFile s p st = .ok (.response (match st.files.read? file with
      | none => .notFound
      | some contents =>
        { Http.Response.ok contents (contentType p) with maxAge := fileMaxAge }), st) := by
  have hrun : staticFile s p st =
      match (path? s.settings.webroot p).bind st.files.read? with
      | none => .ok (.response .notFound, st)
      | some contents => .ok (.response
          { Http.Response.ok contents (contentType p) with maxAge := fileMaxAge }, st) := by
    unfold staticFile
    show (match (path? s.settings.webroot p).bind st.files.read? with
      | none => (return .response .notFound : Step Routed)
      | some contents => _) st = _
    cases (path? s.settings.webroot p).bind st.files.read? <;> rfl
  rw [hrun, hfile, Option.bind_some]
  cases st.files.read? file <;> rfl

/-- **One file, one type.** Two requests for one file are answered with one content type exactly
if the file is not there, or is a plain text by its name, or if both paths end in what the name
ends in or neither does. -/
theorem contentType_alike_iff (s : Server) (st : State) {p q file : String}
    (hp : path? s.settings.webroot p = some file) (hq : path? s.settings.webroot q = some file) :
    ∃ a b : Http.Response, staticFile s p st = .ok (.response a, st) ∧
      staticFile s q st = .ok (.response b, st) ∧
      (a.contentType = b.contentType ↔ st.files.read? file = none ∨
        contentType file = "text/plain" ∨
        (ending p = ending file ↔ ending q = ending file)) := by
  refine ⟨_, _, staticFile_of_path? hp, staticFile_of_path? hq, ?_⟩
  cases st.files.read? file with
  | none => simp
  | some contents =>
    show contentType p ++ _ = contentType q ++ _ ↔ _
    rw [String.append_left_inj, contentType_of_path? hp, contentType_of_path? hq]
    by_cases hfirst : ending p = ending file <;> by_cases hsecond : ending q = ending file <;>
      simp [hfirst, hsecond, eq_comm]

/-- A letter that is escaped in the name, and not in its ending, makes no difference. -/
theorem contentType_alike_iff_letter :
    let st := Conversation.hermit.start 0 (Files.empty.add "a.html" [0x78])
    ∃ a b : Http.Response,
      staticFile Conversation.hermit "a.html" st = .ok (.response a, st) ∧
      staticFile Conversation.hermit ".//%61.html" st = .ok (.response b, st) ∧
      a.contentType = b.contentType := by
  have hplain : path? Conversation.hermit.settings.webroot "a.html" = some "./a.html" := by
    decide +kernel
  have hletter : path? Conversation.hermit.settings.webroot ".//%61.html" = some "./a.html" := by
    decide +kernel
  obtain ⟨a, b, ha, hb, hiff⟩ := contentType_alike_iff Conversation.hermit
    (Conversation.hermit.start 0 (Files.empty.add "a.html" [0x78])) hplain hletter
  exact ⟨a, b, ha, hb, hiff.2 (.inr (.inr (by decide +kernel)))⟩

/-- An escaped dot leads to the file and hides its type. -/
theorem not_contentType_alike_dot :
    let st := Conversation.hermit.start 0 (Files.empty.add "a.html" [0x78])
    let answer := fun path => (staticFile Conversation.hermit path st).toOption.map (·.1)
    let page := { Http.Response.ok [0x78] "text/html" with maxAge := 3600 }
    let text := { Http.Response.ok [0x78] "text/plain" with maxAge := 3600 }
    path? Conversation.hermit.settings.webroot "a.html" = some "./a.html" ∧
      path? Conversation.hermit.settings.webroot "a%2Ehtml" = some "./a.html" ∧
      answer "a.html" = some (.response page) ∧ answer "a%2Ehtml" = some (.response text) ∧
      page.contentType ≠ text.contentType := by
  decide +kernel

end Switchboard.Server
