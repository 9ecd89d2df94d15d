import Switchboard.Proofs.Conversation
import Switchboard.Proofs.Cookie
import Switchboard.Proofs.Hosting
import Switchboard.Proofs.Tracking

/-!
# From a path to a method

Between the name of a method and a request for it stand the rules for names, the words of a request
line, the words that the server keeps for its own paths, and a lookup that does not regard case.
A name has no blank in it, so a path with the name is one word of the line
(`IsFor.ofBytes?_path`). It is not empty and does not begin with an underscore, so it is none of the
server's own words, all but one of which do (`Route.of?_eq_none`). Neither depends on case, since
blanks and underscores have none (`Text.Caseless`). The word that is left is `URL`, and there the
rules do not fit together: it is refused as a name in capitals only, and claimed by the server in
capitals only, but capitals are a way to write any name (`route_of_mem_names`).
-/

namespace Switchboard

/-! ## Words of a line -/

namespace Text

section

variable {sep c d : Char} {p blanks word rest line : List Char} {s t : String}

theorem isBlank_eq_false_of_any (h : p.any isBlank = false) : ∀ c ∈ p, isBlank c = false :=
  fun c hc => Bool.eq_false_iff.2 (List.any_eq_false.1 h c hc)

/-- A word is found behind blanks and ends before the next one. -/
theorem nextWord_append (hblanks : ∀ c ∈ blanks, isBlank c = true) (hne : word ≠ [])
    (hword : ∀ c ∈ word, isBlank c = false) (hrest : ∀ c ∈ rest.head?, isBlank c = true) :
    nextWord (blanks ++ (word ++ rest)) = some (word, rest) := by
  have hpos : ∀ c ∈ word, (!isBlank c) = true := fun c hc => by rw [hword c hc]; rfl
  have hstop : rest.takeWhile (!isBlank ·) = [] ∧ rest.dropWhile (!isBlank ·) = rest := by
    cases rest with
    | nil => exact ⟨rfl, rfl⟩
    | cons c rest =>
      have hc : ¬ (!isBlank c) = true := by
        rw [hrest c rfl]
        exact Bool.false_ne_true
      exact ⟨List.takeWhile_cons_of_neg hc, List.dropWhile_cons_of_neg hc⟩
  have hfront : (word ++ rest).dropWhile isBlank = word ++ rest := by
    cases word with
    | nil => exact absurd rfl hne
    | cons c word =>
      refine List.dropWhile_cons_of_neg ?_
      rw [hword c List.mem_cons_self]
      exact Bool.false_ne_true
  unfold nextWord
  rw [List.dropWhile_append_of_pos hblanks, hfront]
  cases hall : word ++ rest with
  | nil => exact absurd (List.append_eq_nil_iff.1 hall).1 hne
  | cons c cs =>
    dsimp only
    rw [← hall, List.takeWhile_append_of_pos hpos, List.dropWhile_append_of_pos hpos, hstop.1,
      hstop.2, List.append_nil]

/-- A carriage return at the end of a line is no part of a word in it. -/
theorem exists_dropReturn_append (front : List Char) (hne : word ≠ [])
    (hword : ∀ c ∈ word, isBlank c = false) (hrest : ∀ c ∈ rest.head?, isBlank c = true) :
    ∃ rest', dropReturn (front ++ (word ++ rest)) = front ++ (word ++ rest') ∧
      ∀ c ∈ rest'.head?, isBlank c = true := by
  unfold dropReturn
  split
  · rename_i hreturn
    cases rest using List.reverseRecOn with
    | nil =>
      rw [List.append_nil, List.getLast?_append_of_ne_nil _ hne] at hreturn
      have hblank := hword '\r' (List.mem_of_getLast? hreturn)
      exact absurd hblank (by decide)
    | append_singleton init c =>
      refine ⟨init, ?_, fun d hd => hrest d ?_⟩
      · rw [← List.append_assoc, ← List.append_assoc, List.dropLast_concat, List.append_assoc]
      · cases init with
        | nil => cases hd
        | cons e init => exact hd
  · exact ⟨rest, rfl, hrest⟩

theorem head?_lines (hline : '\n' ∉ line) (more : List Char) :
    ∃ others, lines (line ++ '\n' :: more) = dropReturn line :: others := by
  unfold lines
  rw [pieces_append hline]
  cases hmore : pieces '\n' more with
  | nil => exact absurd hmore (pieces_ne_nil '\n' more)
  | cons p ps => exact ⟨_, rfl⟩

/-! ## The case of a letter -/

/-- Whether a character is no letter, so that it is not another one in the other case. -/
def Caseless (c : Char) : Prop := ∀ d, lowerChar d = lowerChar c → d = c

theorem caseless_of_toNat
    (h : c.toNat < 0x41 ∨ 0x5A < c.toNat ∧ c.toNat < 0x61 ∨ 0x7A < c.toNat) : Caseless c := by
  intro d hd
  have hc : lowerChar c = c := by
    refine if_neg ?_
    rintro ⟨hA, hZ⟩
    have hA : 0x41 ≤ c.toNat := hA
    have hZ : c.toNat ≤ 0x5A := hZ
    omega
  rw [hc] at hd
  unfold lowerChar at hd
  split at hd
  · -- the other character is a capital letter, and what it becomes is a small one
    rename_i hcapital
    have hlow : 0x41 ≤ d.toNat := hcapital.1
    have hhigh : d.toNat ≤ 0x5A := hcapital.2
    have hsmall : c.toNat = d.toNat + 32 := by
      rw [← hd]
      exact Utf8.toNat_ofNat_char (.inl (by omega))
    omega
  · exact hd

theorem caseless_of_isBlank (h : isBlank c = true) : Caseless c := by
  apply caseless_of_toNat
  simp only [isBlank, blankRanges, List.any_cons, List.any_nil, Bool.or_false, Bool.or_eq_true,
    Bool.and_eq_true, decide_eq_true_eq] at h
  omega

theorem caseless_underscore : Caseless '_' := caseless_of_toNat (by decide)

theorem map_lowerChar_eq (h : lower s = lower t) :
    s.toList.map lowerChar = t.toList.map lowerChar :=
  String.ofList_injective h

/-- A character that is no letter is in a text in any case. -/
theorem Caseless.mem_of_lower_eq (hc : Caseless c) (h : lower s = lower t) (hs : c ∈ s.toList) :
    c ∈ t.toList := by
  have hmem : lowerChar c ∈ t.toList.map lowerChar := by
    rw [← map_lowerChar_eq h]
    exact List.mem_map_of_mem hs
  obtain ⟨d, hd, hdc⟩ := List.mem_map.1 hmem
  exact hc d hdc ▸ hd

theorem Caseless.head?_of_lower_eq (hc : Caseless c) (h : lower s = lower t)
    (hs : s.toList.head? = some c) : t.toList.head? = some c := by
  have hhead : t.toList.head?.map lowerChar = some (lowerChar c) := by
    rw [← List.head?_map, ← map_lowerChar_eq h, List.head?_map, hs]
    rfl
  obtain ⟨d, hd, hdc⟩ := Option.map_eq_some_iff.1 hhead
  exact hc d hdc ▸ hd

end

end Text

/-! ## Names -/

namespace Registry

/-- What can be the name of a method has a first character, which is no underscore, and no blanks,
and so has what differs from it in case only. -/
theorem variant_of_checkName {name v : String} (hname : checkName name = .ok ())
    (hv : Text.lower v = Text.lower name) :
    v ≠ "" ∧ (∀ c ∈ v.toList, Text.isBlank c = false) ∧ v.toList.head? ≠ some '_' := by
  unfold checkName at hname
  split at hname
  · cases hname
  rename_i hempty
  split at hname
  · cases hname
  rename_i hblank
  split at hname
  · cases hname
  rename_i hunderscore
  refine ⟨?_, ?_, ?_⟩
  · rintro rfl
    have hnil : name.toList.map Text.lowerChar = [] := (Text.map_lowerChar_eq hv).symm
    exact hempty (String.toList_eq_nil_iff.1 (List.map_eq_nil_iff.1 hnil))
  · apply Text.isBlank_eq_false_of_any
    rw [List.any_eq_false]
    intro c hc hcblank
    have hmem : c ∈ name.toList := (Text.caseless_of_isBlank hcblank).mem_of_lower_eq hv hc
    exact hblank (List.any_eq_true.2 ⟨c, hmem, hcblank⟩)
  · intro hhead
    exact hunderscore (Text.caseless_underscore.head?_of_lower_eq hv hhead)

end Registry

/-! ## Paths -/

namespace Http.Request

/-- Whether a line asks for a target: a verb, blanks, the target, and whatever follows a blank. -/
structure Asks (line : List Char) (verb : Verb) (target : String) : Prop where
  words : ∃ blanks rest, line = verb.label.toList ++ blanks ++ (target.toList ++ rest) ∧
    blanks ≠ [] ∧ (∀ c ∈ blanks, Text.isBlank c = true) ∧ ∀ c ∈ rest.head?, Text.isBlank c = true
  oneLine : '\n' ∉ line

/-- Whether bytes begin with a complete request whose first line asks for a target. -/
structure IsFor (buf : Bytes) (verb : Verb) (target : String) : Prop where
  complete : (Boundary.of? buf).isSome
  line : ∃ n line more, Boundary.headEnd buf = some n ∧
    Utf8.decode? (buf.take n) = some (line ++ '\n' :: more) ∧ Asks line verb target

variable {buf : Bytes} {line : List Char} {verb : Verb} {target path : String}

/-- A request for a target and nothing else. -/
def plain (target : String) : Bytes := Utf8.ofString ("GET " ++ target ++ "\n\n")

theorem plain_eq (target : String) :
    plain target = Utf8.encode ("GET ".toList ++ target.toList) ++ [0x0A, 0x0A] := by
  unfold plain Utf8.ofString
  rw [String.toList_append, String.toList_append, Utf8.encode_append]
  rfl

section

variable (htarget : ∀ c ∈ target.toList, Text.isBlank c = false)

include htarget

theorem lineFeed_not_mem_line : '\n' ∉ "GET ".toList ++ target.toList := by
  rw [List.mem_append]
  rintro (hmem | hmem)
  · exact absurd hmem (by decide)
  · exact absurd (htarget '\n' hmem) (by decide)

theorem headEnd_plain : Boundary.headEnd (plain target) = some (plain target).length := by
  have hfeed : 0x0A ∉ Utf8.encode ("GET ".toList ++ target.toList) :=
    Utf8.not_mem_encode_of_lt (by decide) (lineFeed_not_mem_line htarget)
  rw [plain_eq, Boundary.headEnd_append_blank hfeed, List.length_append]
  rfl

theorem isSome_boundary_plain : (Boundary.of? (plain target)).isSome := by
  have hverb : plain target = Boundary.getVerb ++ (0x20 :: Utf8.ofString (target ++ "\n\n")) := by
    unfold plain Utf8.ofString
    rw [String.append_assoc, String.toList_append, Utf8.encode_append]
    rfl
  have hsniff : Boundary.sniff (plain target) = .http := by
    rw [hverb]
    rfl
  have hget : ¬ Boundary.postVerb <+: plain target := by
    rw [hverb, ← List.isPrefixOf_iff_prefix]
    exact Bool.false_ne_true
  unfold Boundary.of?
  rw [hsniff]
  dsimp only
  rw [Boundary.httpLength_eq_headEnd hget, headEnd_plain htarget]
  rfl

/-- Any target without a blank can be asked for. -/
theorem isFor_plain : IsFor (plain target) .get target where
  complete := isSome_boundary_plain htarget
  line := by
    let line := "GET ".toList ++ target.toList
    have htext : plain target = Utf8.encode (line ++ ['\n', '\n']) :=
      (plain_eq target).trans (Utf8.encode_append line ['\n', '\n']).symm
    have hwords : line = "GET".toList ++ [' '] ++ (target.toList ++ []) := by
      rw [List.append_nil]
      rfl
    refine ⟨(plain target).length, line, ['\n'], headEnd_plain htarget, ?_, ?_⟩
    · rw [List.take_length, htext, Utf8.decode?_encode]
    · have hblank : ∀ c ∈ [' '], Text.isBlank c = true := List.forall_mem_singleton.2 (by decide)
      exact ⟨⟨[' '], [], hwords, by decide, hblank, nofun⟩, lineFeed_not_mem_line htarget⟩

end

/-- The words that a line has in front are those that it asks with, even if it ends in a carriage
return. -/
theorem Asks.nextWord (h : Asks line verb target) (hne : target ≠ "")
    (htarget : ∀ c ∈ target.toList, Text.isBlank c = false) :
    ∃ rest rest', Text.nextWord (Text.dropReturn line) = some (verb.label.toList, rest) ∧
      Text.nextWord rest = some (target.toList, rest') := by
  obtain ⟨blanks, rest, rfl, hblanks, hblank, hrest⟩ := h.words
  have hne : target.toList ≠ [] := mt String.toList_eq_nil_iff.1 hne
  obtain ⟨rest', hdrop, hrest'⟩ :=
    Text.exists_dropReturn_append (verb.label.toList ++ blanks) hne htarget hrest
  have hverb : verb.label.toList ≠ [] ∧ ∀ c ∈ verb.label.toList, Text.isBlank c = false := by
    cases verb with
    | get => exact ⟨by decide, Text.isBlank_eq_false_of_any (by decide)⟩
    | post => exact ⟨by decide, Text.isBlank_eq_false_of_any (by decide)⟩
  have hbehind : ∀ c ∈ (blanks ++ (target.toList ++ rest')).head?, Text.isBlank c = true := by
    cases blanks with
    | nil => exact absurd rfl hblanks
    | cons b blanks =>
      intro c hc
      cases hc
      exact hblank b List.mem_cons_self
  refine ⟨blanks ++ (target.toList ++ rest'), rest', ?_, ?_⟩
  · have hnone : ∀ c ∈ ([] : List Char), Text.isBlank c = true := nofun
    rw [hdrop, List.append_assoc]
    exact Text.nextWord_append hnone hverb.1 hverb.2 hbehind
  · exact Text.nextWord_append hblank hne htarget hrest'

theorem Verb.of?_label (verb : Verb) : Verb.of? (String.ofList verb.label.toList) = some verb := by
  cases verb <;> rfl

/-- Such bytes are read as a request with the verb, and with the target cut at the first question
mark. -/
theorem IsFor.ofBytes? (h : IsFor buf verb target) (hne : target ≠ "")
    (htarget : ∀ c ∈ target.toList, Text.isBlank c = false) :
    ∃ q, ofBytes? buf = some q ∧ q.verb = verb ∧
      (q.path, q.query) = (((Text.splitFirst '?' target.toList).getD (target.toList, [])).map
        String.ofList String.ofList) := by
  obtain ⟨n, line, more, hhead, htext, hasks⟩ := h.line
  obtain ⟨found, hfound⟩ := Option.isSome_iff_exists.1 h.complete
  obtain ⟨others, hlines⟩ := Text.head?_lines hasks.oneLine more
  obtain ⟨rest, rest', hverb, htarget⟩ := hasks.nextWord hne htarget
  unfold Request.ofBytes?
  simp only [hfound, hhead, htext, hlines, hverb, Verb.of?_label, htarget, Option.bind_eq_bind,
    Option.bind_some]
  exact ⟨_, rfl, rfl, rfl⟩

/-- A path with a query or without one is read as these two. -/
theorem IsFor.ofBytes?_path {query : Option String}
    (h : IsFor buf verb (path ++ query.elim "" ("?" ++ ·))) (hne : path ≠ "")
    (hmark : '?' ∉ path.toList) (hpath : ∀ c ∈ path.toList, Text.isBlank c = false)
    (hquery : ∀ c ∈ (query.getD "").toList, Text.isBlank c = false) :
    ∃ q, Request.ofBytes? buf = some q ∧ q.verb = verb ∧ q.path = path ∧
      q.query = query.getD "" := by
  have htarget : (path ++ query.elim "" ("?" ++ ·)).toList =
      path.toList ++ query.elim [] ('?' :: ·.toList) := by
    rw [String.toList_append]
    cases query with
    | none => rfl
    | some query => exact congrArg (path.toList ++ ·) (String.toList_append ..)
  have hne : path ++ query.elim "" ("?" ++ ·) ≠ "" := by
    intro hempty
    rw [hempty] at htarget
    exact hne (String.toList_eq_nil_iff.1 (List.append_eq_nil_iff.1 htarget.symm).1)
  have hblank : ∀ c ∈ (path ++ query.elim "" ("?" ++ ·)).toList, Text.isBlank c = false := by
    intro c hc
    rw [htarget, List.mem_append] at hc
    rcases hc with hc | hc
    · exact hpath c hc
    · cases query with
      | none => cases hc
      | some query =>
        rcases List.mem_cons.1 hc with rfl | hc
        · decide
        · exact hquery c hc
  obtain ⟨q, hq, hverb, hcut⟩ := h.ofBytes? hne hblank
  refine ⟨q, hq, hverb, ?_⟩
  rw [htarget] at hcut
  cases query with
  | none =>
    rw [Option.elim_none, List.append_nil, Text.splitFirst_of_not_mem hmark] at hcut
    exact ⟨(congrArg Prod.fst hcut).trans String.ofList_toList, congrArg Prod.snd hcut⟩
  | some query =>
    rw [Option.elim_some, Text.splitFirst_append hmark] at hcut
    exact ⟨(congrArg Prod.fst hcut).trans String.ofList_toList,
      (congrArg Prod.snd hcut).trans String.ofList_toList⟩

theorem methodName_of_path {q : Request} {v : String} (hq : q.path = "/" ++ v) :
    q.methodName = v := by
  have hpath : q.path.toList = '/' :: v.toList := by
    rw [hq]
    exact String.toList_append ..
  unfold methodName
  rw [hpath]
  exact String.ofList_toList

end Http.Request

namespace Server

/-- The server's own words begin with an underscore, but for two. -/
theorem Route.of?_eq_none {word : String} (hempty : word ≠ "") (hurl : word ≠ "URL")
    (hunderscore : word.toList.head? ≠ some '_') : Route.of? word = none := by
  have hwords : ∀ p ∈ Route.words, p.1 = "" ∨ p.1 = "URL" ∨ p.1.toList.head? = some '_' := by
    decide
  unfold Route.of?
  rw [List.lookup_eq_none_iff]
  intro p hp
  rw [bne_iff_ne]
  rintro rfl
  rcases hwords p hp with h | h | h
  · exact hempty h
  · exact hurl h
  · exact hunderscore h

theorem Route.of?_variant {name v : String} (hname : Registry.checkName name = .ok ())
    (hv : Text.lower v = Text.lower name) :
    Route.of? v = if v = "URL" then some .redirect else none := by
  obtain ⟨hempty, -, hunderscore⟩ := Registry.variant_of_checkName hname hv
  split
  · rename_i hurl
    rw [hurl]
    rfl
  · rename_i hurl
    exact Route.of?_eq_none hempty hurl hunderscore

/-- **From a path to a method.** A name that a server shows was registered, and so was not refused.
A path with the name in any case, with a query or without one, in a request with either verb and
with anything behind the path, leads to a call of the method that was registered under it. There is
a single exception: the path `/URL` is answered by the server itself, before any name is looked up,
whichever method is found under that word. -/
theorem route_of_mem_names (s : Server) (cs : List Registry.Registration) (list : String)
    (hregistry : s.registry = (Registry.Builder.empty.after cs).build list) {name v : String}
    (hname : name ∈ s.registry.names) (hv : Text.lower v = Text.lower name)
    (hmark : '?' ∉ v.toList) :
    ∃ c, Registry.FillsFirst cs s.registry.identities name c ∧ c.name = name ∧
      Registry.checkName name = .ok () ∧ s.registry.get? v = some c.entry.handler ∧
      Route.of? v = (if v = "URL" then some .redirect else none) ∧
      (∀ connection now (q : Http.Request), q.path = "/" ++ v →
        s.route connection now q =
          if v = "URL" then s.serveRoute connection now q .redirect
          else s.jsonCall connection now c.entry.handler q) ∧
      ∀ verb (query : Option String) buf,
        (∀ d ∈ (query.getD "").toList, Text.isBlank d = false) →
        Http.Request.IsFor buf verb ("/" ++ v ++ query.elim "" ("?" ++ ·)) →
        ∃ q, Http.Request.ofBytes? buf = some q ∧ q.verb = verb ∧ q.path = "/" ++ v ∧
          q.query = query.getD "" ∧
          ∀ connection now st (r : RawRequest), r.framing = .http → r.bytes = buf →
            s.process connection now r st =
              (processedHttp q <$> s.route connection now q)
                { st with requests := st.requests + 1 } := by
  have hidentities : s.registry.identities = Registry.selectIdentities list := by
    rw [hregistry]
    rfl
  have hshown := hname
  rw [hregistry] at hshown
  obtain ⟨c, hc, rfl⟩ := Registry.mem_names_iff.1 hshown
  have hcheck : Registry.checkName c.name = .ok () := by
    obtain ⟨_, _, _, -, hfills, -⟩ := hc
    obtain ⟨early, haccepted⟩ := hfills.accepted
    exact haccepted.checkName_eq
  have hget : s.registry.get? v = some c.entry.handler := by
    unfold Registry.get? Registry.entry?
    rw [hv, hregistry]
    exact Registry.get?_eq_some_iff.2 ⟨c, hc, rfl⟩
  have hof := Route.of?_variant hcheck hv
  refine ⟨c, hidentities ▸ hc, rfl, hcheck, hget, hof, ?_, ?_⟩
  · intro connection now q hq
    unfold route
    rw [Http.Request.methodName_of_path hq, hof, hget]
    by_cases hurl : v = "URL"
    · rw [if_pos hurl, if_pos hurl]
    · rw [if_neg hurl, if_neg hurl]
  · intro verb query buf hquery hbuf
    obtain ⟨-, hblank, -⟩ := Registry.variant_of_checkName hcheck hv
    have hpath : ("/" ++ v).toList = '/' :: v.toList := String.toList_append ..
    have hne : "/" ++ v ≠ "" := by
      intro hempty
      rw [hempty] at hpath
      cases hpath
    have hmark : '?' ∉ ("/" ++ v).toList := by
      rw [hpath, List.mem_cons]
      exact not_or.2 ⟨by decide, hmark⟩
    have hblank : ∀ d ∈ ("/" ++ v).toList, Text.isBlank d = false := by
      rw [hpath]
      exact List.forall_mem_cons.2 ⟨by decide, hblank⟩
    obtain ⟨q, hq, hverb, hqpath, hqquery⟩ := hbuf.ofBytes?_path hne hmark hblank hquery
    refine ⟨q, hq, hverb, hqpath, hqquery, ?_⟩
    intro connection now st r hhttp hbytes
    exact process_of_ofBytes? s connection now st hhttp (hbytes ▸ hq)

/-- A server with a method whose name is the reserved word in another case. -/
def porter : Server :=
  { Conversation.hermit with registry :=
      (Registry.Builder.empty.after [.method "all" (Sample.Gallery.ping "url")]).build "" }

theorem mem_names_porter : "url" ∈ porter.registry.names := by
  have haccepted : Registry.Builder.Accepted [.method "all" (Sample.Gallery.ping "url")] []
      (.method "all" (Sample.Gallery.ping "url")) := ⟨List.prefix_refl _, rfl⟩
  exact Registry.mem_names_iff.2
    ⟨_, ⟨[], "all", [], rfl, ⟨⟨_, haccepted⟩, by decide, rfl⟩, nofun⟩, rfl⟩

/-- A third case leads to the method. -/
theorem route_of_mem_names_url :
    "url" ∈ porter.registry.names ∧ Text.lower "Url" = Text.lower "url" ∧ '?' ∉ "Url".toList ∧
      (∀ d ∈ "x".toList, Text.isBlank d = false) ∧
      Http.Request.IsFor (Http.Request.plain "/Url?x") .get "/Url?x" ∧
      ∃ q, Http.Request.ofBytes? (Http.Request.plain "/Url?x") = some q ∧ q.query = "x" ∧
        ∀ connection now st,
          porter.process connection now ⟨.http, Http.Request.plain "/Url?x", true⟩ st =
            (processedHttp q <$> porter.jsonCall connection now (Sample.Gallery.ping "url") q)
              { st with requests := st.requests + 1 } := by
  have hlower : Text.lower "Url" = Text.lower "url" := by decide
  have hmark : '?' ∉ "Url".toList := by decide
  have hquery : ∀ d ∈ "x".toList, Text.isBlank d = false :=
    Text.isBlank_eq_false_of_any (by decide)
  have hasks : Http.Request.IsFor (Http.Request.plain "/Url?x") .get "/Url?x" :=
    Http.Request.isFor_plain (Text.isBlank_eq_false_of_any (by decide))
  obtain ⟨c, -, -, -, hget, -, hroute, hread⟩ :=
    route_of_mem_names porter [.method "all" (Sample.Gallery.ping "url")] "" rfl mem_names_porter
      hlower hmark
  have hping : porter.registry.get? "Url" = some (Sample.Gallery.ping "url") := rfl
  have hhandler : c.entry.handler = Sample.Gallery.ping "url" :=
    Option.some.inj (hget.symm.trans hping)
  obtain ⟨q, hq, -, hpath, hqquery, hprocess⟩ := hread .get (some "x") _ hquery hasks
  refine ⟨mem_names_porter, hlower, hmark, hquery, hasks, q, hq, hqquery, ?_⟩
  intro connection now st
  rw [hprocess connection now st _ rfl rfl, hroute connection now q hpath, hhandler,
    if_neg (by decide)]

/-- Capitals lead to a page that leads on to the query, though the method is found under them, and
nobody calls it. -/
theorem not_route_of_mem_names_capitals :
    let h := Sample.Gallery.ping "url"
    let connection : Connection := ⟨1, ⟨.v4 127 0 0 1, 80⟩⟩
    let st := porter.start 0 .empty
    Registry.checkName "url" = .ok () ∧ "url" ∈ porter.registry.names ∧
      porter.registry.get? "URL" = some h ∧ Text.lower "URL" = Text.lower "url" ∧
      '?' ∉ "URL".toList ∧ Http.Request.IsFor (Http.Request.plain "/URL?x") .get "/URL?x" ∧
      ∃ q, Http.Request.ofBytes? (Http.Request.plain "/URL?x") = some q ∧
        porter.route connection 0 q st = .ok (.html (Page.redirect "x"), st) ∧
        porter.route connection 0 q st ≠ porter.jsonCall connection 0 h q st := by
  intro h connection st
  let q : Http.Request := ⟨.get, "/URL", "x", .empty, []⟩
  have hq : Http.Request.ofBytes? (Http.Request.plain "/URL?x") = some q := by decide +kernel
  have hword : Route.of? q.methodName = some .redirect := by decide +kernel
  have hroute : porter.route connection 0 q st = .ok (.html (Page.redirect "x"), st) := by
    have htarget : Text.trim q.argumentText.toList = ['x'] := by decide +kernel
    unfold route serveRoute
    rw [hword]
    dsimp only
    rw [htarget]
    rfl
  refine ⟨by decide, mem_names_porter, rfl, by decide, by decide,
    Http.Request.isFor_plain (Text.isBlank_eq_false_of_any (by decide)), q, hq, hroute, ?_⟩
  -- a call would be counted
  intro hsame
  have hcounted : (porter.jsonCall connection 0 h q st).toOption.map (·.2.tracker.total) =
      some 1 := by decide +kernel
  rw [← hsame, hroute] at hcounted
  exact absurd hcounted (by decide)

end Server

end Switchboard
