import Switchboard.Cookie
import Switchboard.Proofs.Dict
import Switchboard.Proofs.Escapes
import Switchboard.Proofs.Pieces

/-!
# Cookies survive their line

The cookies of a caller are written as one line and read from it again by the next server. Nothing
that is written between the separators of a line can be taken for one (`Url.plain_of_mem_encode`),
because all but a few characters are escaped, and what is escaped is read back
(`Url.decode_encode`). So the line is cut where it was put together, and the cookies are read as
they were (`Cookie.read_header`), if all of them have names. Those that were read from a line do
(`Cookie.ne_empty_of_mem_read`).

A cookie that is set comes with attributes behind semicolons, and a client sends back what is in
front of the first one. However they are chosen, neither a name, a value nor an attribute can get
into that part (`Cookie.bare_write`), so it is read as the one cookie that was set.
-/

namespace Switchboard

/-! ## Cookies -/

namespace Cookie

variable {name value : String} {cookies : Dict String String} {blanks : List Char}
  {es : List (String × String)}

theorem toList_pair (name value : String) :
    (pair name value).toList = (Url.encode name).toList ++ '=' :: (Url.encode value).toList := by
  unfold pair
  rw [String.toList_append, String.toList_append, List.append_assoc]
  rfl

theorem unescape_encode (s : String) : unescape (Url.encode s).toList = s := by
  unfold unescape
  rw [String.ofList_toList, Url.decode_encode]
  rfl

/-- A cookie is read back from its pair, whatever blanks are in front of it. -/
theorem readPair_pair (hname : name ≠ "") (hblanks : ∀ c ∈ blanks, Text.isBlank c = true) :
    readPair (blanks ++ (pair name value).toList) = some (name, value) := by
  have htrim : ∀ s, Text.trim (Url.encode s).toList = (Url.encode s).toList := fun s =>
    Text.trim_of_not_blank fun c hc => (Url.plain_of_mem_encode hc).2.2
  have hpair : Text.trim (pair name value).toList = (pair name value).toList := by
    refine Text.trim_of_not_blank fun c hc => ?_
    rw [toList_pair, List.mem_append, List.mem_cons] at hc
    rcases hc with hc | rfl | hc
    · exact (Url.plain_of_mem_encode hc).2.2
    · decide
    · exact (Url.plain_of_mem_encode hc).2.2
  have hequals : '=' ∉ (Url.encode name).toList := fun h => (Url.plain_of_mem_encode h).2.1 rfl
  have hsome : (Url.encode name).toList.isEmpty = false :=
    List.isEmpty_eq_false_iff.2 (Url.encode_ne_nil hname)
  unfold readPair
  rw [Text.trim_append hblanks, hpair, toList_pair, Text.splitFirst_append hequals]
  simp only [bind, Option.bind, htrim, hsome, Bool.false_eq_true, if_false, unescape_encode]

/-- Blanks are no cookie. -/
theorem readPair_blanks (hblanks : ∀ c ∈ blanks, Text.isBlank c = true) :
    readPair blanks = none := by
  have htrim := Text.trim_append hblanks []
  rw [List.append_nil] at htrim
  unfold readPair
  rw [htrim]
  rfl

/-- Nothing in a pair, or in the blanks in front of it, separates it from others. -/
theorem semicolon_not_mem (hblanks : ∀ c ∈ blanks, Text.isBlank c = true) (name value : String) :
    ';' ∉ blanks ++ (pair name value).toList := by
  intro h
  rw [toList_pair, List.mem_append, List.mem_append, List.mem_cons] at h
  rcases h with h | h | h | h
  · exact absurd (hblanks _ h) (by decide)
  · exact (Url.plain_of_mem_encode h).1 rfl
  · cases h
  · exact (Url.plain_of_mem_encode h).1 rfl

/-- The cookies of a line are read one by one, as they were written. -/
theorem filterMap_readPair (hnames : ∀ e ∈ es, e.1 ≠ "")
    (hblanks : ∀ c ∈ blanks, Text.isBlank c = true) :
    (Text.pieces ';' (blanks ++
      ("; ".intercalate (es.map fun (name, value) => pair name value)).toList)).filterMap
        readPair = es := by
  rw [String.toList_intercalate]
  induction es generalizing blanks with
  | nil =>
    have hfree : ';' ∉ blanks := fun h => absurd (hblanks _ h) (by decide)
    show (Text.pieces ';' (blanks ++ [])).filterMap readPair = []
    rw [List.append_nil, Text.pieces_of_not_mem hfree,
      List.filterMap_cons_none (readPair_blanks hblanks)]
    rfl
  | cons e es ih =>
    obtain ⟨name, value⟩ := e
    have hfree := semicolon_not_mem hblanks name value
    have hread : readPair (blanks ++ (pair name value).toList) = some (name, value) :=
      readPair_pair (hnames _ List.mem_cons_self) hblanks
    have hmore : ∀ e ∈ es, e.1 ≠ "" := fun e he => hnames e (List.mem_cons_of_mem _ he)
    cases es with
    | nil =>
      rw [List.map_singleton, List.map_singleton, List.intercalate_singleton,
        Text.pieces_of_not_mem hfree, List.filterMap_cons_some hread]
      rfl
    | cons e' es =>
      -- the blank behind the semicolon stands in front of the next pair
      have hblank : ∀ c ∈ [' '], Text.isBlank c = true := List.forall_mem_singleton.2 (by decide)
      rw [List.map_cons, List.map_cons, List.map_cons, List.map_cons, List.intercalate_cons_cons,
        List.append_assoc, ← List.append_assoc]
      show ((Text.pieces ';' (_ ++ ';' :: ([' '] ++ _))).filterMap readPair) = _
      rw [Text.pieces_append hfree, List.filterMap_cons_some hread]
      exact congrArg _ (ih hmore hblank)

/-- **Cookies.** The cookies of a caller are read back from their line, if they have names. -/
theorem read_header (hnames : ∀ name ∈ cookies.keys, name ≠ "") :
    read (header cookies) = cookies := by
  have hentries : ∀ e ∈ cookies.toList, e.1 ≠ "" := fun e he =>
    hnames e.1 (List.mem_map_of_mem he)
  have hnone : ∀ c ∈ ([] : List Char), Text.isBlank c = true := nofun
  have hread := filterMap_readPair hentries hnone
  unfold read header
  rw [List.nil_append] at hread
  rw [hread, Dict.ofList_toList]

theorem unescape_ne_empty {cs : List Char} (h : cs ≠ []) : unescape cs ≠ "" := by
  have hne : String.ofList cs ≠ "" := fun hempty => h <| by
    rw [← String.toList_ofList (l := cs), hempty]
    rfl
  unfold unescape
  cases hdecode : Url.decode (String.ofList cs) with
  | none => exact hne
  | some s => exact Url.decode_ne_empty hne hdecode

/-- A cookie that is read has a name. -/
theorem ne_empty_of_mem_read {line : String} (h : name ∈ (read line).keys) : name ≠ "" := by
  obtain ⟨e, he, rfl⟩ := List.mem_map.1 h
  obtain ⟨piece, -, hpiece⟩ := List.mem_filterMap.1 (Dict.mem_of_mem_ofList he)
  unfold readPair at hpiece
  obtain ⟨⟨name, value⟩, -, hpiece⟩ := Option.bind_eq_some_iff.1 hpiece
  dsimp only at hpiece
  split at hpiece
  · cases hpiece
  · rename_i hsome
    obtain rfl := Option.some.inj hpiece
    have hne : Text.trim name ≠ [] := fun hnil => hsome (by rw [hnil]; rfl)
    dsimp only
    exact unescape_ne_empty hne

/-! ## One line behind another -/

/-- A blank in front of a line makes no difference to its cookies. -/
theorem filterMap_readPair_blank {c : Char} (hc : Text.isBlank c = true) (cs : List Char) :
    (Text.pieces ';' (c :: cs)).filterMap readPair = (Text.pieces ';' cs).filterMap readPair := by
  have hne : c ≠ ';' := by
    rintro rfl
    exact absurd hc (by decide)
  have hread : ∀ p, readPair (c :: p) = readPair p := by
    intro p
    have hblank : ∀ d ∈ [c], Text.isBlank d = true := List.forall_mem_singleton.2 hc
    have htrim : Text.trim (c :: p) = Text.trim p := Text.trim_append hblank p
    unfold readPair
    rw [htrim]
  rw [Text.pieces, if_neg hne]
  cases hpieces : Text.pieces ';' cs with
  | nil => exact absurd hpieces (Text.pieces_ne_nil ';' cs)
  | cons p ps =>
    dsimp only
    rw [List.filterMap_cons, List.filterMap_cons, hread]

/-- A line that was put together from two has the cookies of the second one over those of the
first. -/
theorem get?_read_append (outer inner : String) :
    (read (outer ++ "; " ++ inner)).get? name =
      ((read inner).get? name).or ((read outer).get? name) := by
  have hline : (outer ++ "; " ++ inner).toList = outer.toList ++ ';' :: ' ' :: inner.toList := by
    rw [String.toList_append, String.toList_append, List.append_assoc]
    rfl
  unfold read
  rw [hline, Text.pieces_append_cons, List.filterMap_append, filterMap_readPair_blank (by decide),
    Dict.get?_ofList_append]

theorem read_empty : read "" = ∅ := rfl

/-! ## Cookies that are set -/

/-- A line that sets a cookie without the attributes: what stands in front of the first
semicolon. -/
def bare (line : String) : String := String.ofList (line.toList.takeWhile (· != ';'))

/-- What is behind a semicolon makes no difference to what is in front of the first one. -/
theorem bare_append {t : String} (ht : ∀ c ∈ t.toList.head?, c = ';') (s : String) :
    bare (s ++ t) = bare s := by
  have hbehind : t.toList.takeWhile (· != ';') = [] := by
    cases ht' : t.toList with
    | nil => rfl
    | cons c cs =>
      rw [ht'] at ht
      rw [ht c rfl]
      rfl
  have htake : ∀ cs : List Char,
      (cs ++ t.toList).takeWhile (· != ';') = cs.takeWhile (· != ';') := by
    intro cs
    induction cs with
    | nil => exact hbehind
    | cons c cs ih => rw [List.cons_append, List.takeWhile_cons, List.takeWhile_cons, ih]
  unfold bare
  rw [String.toList_append, htake]

theorem semicolon_not_mem_pair (name value : String) : ';' ∉ (pair name value).toList := by
  have hnone : ∀ c ∈ ([] : List Char), Text.isBlank c = true := nofun
  have hfree := semicolon_not_mem hnone name value
  rwa [List.nil_append] at hfree

theorem bare_pair (name value : String) : bare (pair name value) = pair name value := by
  have hfree := semicolon_not_mem_pair name value
  have hpos : ∀ c ∈ (pair name value).toList, (c != ';') = true :=
    fun c hc => bne_iff_ne.2 fun heq => hfree (heq ▸ hc)
  have htake : ((pair name value).toList ++ []).takeWhile (· != ';') =
      (pair name value).toList ++ [] := List.takeWhile_append_of_pos hpos
  rw [List.append_nil] at htake
  unfold bare
  rw [htake, String.ofList_toList]

theorem head?_clause (label : String) (value : Option String) :
    ∀ c ∈ (clause label value).toList.head?, c = ';' := by
  unfold clause
  split
  · intro c hc
    rw [String.append_assoc, String.append_assoc, String.toList_append] at hc
    cases hc
    rfl
  · nofun

theorem head?_flag {text : String} (htext : text.toList.head? = some ';') (flag : Bool) :
    ∀ c ∈ (if flag then text else "").toList.head?, c = ';' := by
  cases flag with
  | true => exact fun c hc => Option.some.inj (hc.symm.trans htext)
  | false => nofun

/-- In front of the first semicolon is the cookie itself, whatever the attributes are. -/
theorem bare_write (name value : String) (attributes : Attributes) :
    bare (write name value attributes) = pair name value := by
  unfold write
  rw [bare_append (head?_flag rfl _), bare_append (head?_flag rfl _),
    bare_append (head?_clause _ _), bare_append (head?_clause _ _),
    bare_append (head?_clause _ _), bare_pair]

theorem toList_read_pair (hname : name ≠ "") (value : String) :
    (read (pair name value)).toList = [(name, value)] := by
  have hnone : ∀ c ∈ ([] : List Char), Text.isBlank c = true := nofun
  have hread : readPair ([] ++ (pair name value).toList) = some (name, value) :=
    readPair_pair hname hnone
  rw [List.nil_append] at hread
  unfold read
  rw [Text.pieces_of_not_mem (semicolon_not_mem_pair name value), List.filterMap_cons_some hread]
  rfl

/-- There is one equals sign in a pair, and all else is unreserved or escaped. -/
theorem escaped_pair (name value : String) :
    (∀ c ∈ (pair name value).toList, Url.isUnreserved c = true ∨ c = '%' ∨ c = '=') ∧
      Url.WellEscaped (pair name value).toList ∧ (pair name value).toList.count '=' = 1 := by
  have hequals : ∀ s, (Url.encode s).toList.count '=' = 0 := fun s =>
    List.count_eq_zero.2 (Url.not_mem_encode (by decide) (by decide))
  rw [toList_pair]
  refine ⟨fun c hc => ?_, ?_, ?_⟩
  · rw [List.mem_append, List.mem_cons] at hc
    rcases hc with hc | rfl | hc
    · exact (Url.mem_encode hc).imp_right .inl
    · exact .inr (.inr rfl)
    · exact (Url.mem_encode hc).imp_right .inl
  · rw [Url.wellEscaped_append_cons (by decide) (by decide)]
    exact ⟨Url.wellEscaped_encode name, Url.wellEscaped_encode value⟩
  · rw [List.count_append, List.count_cons_self, hequals, hequals]

/-- **Cookies.** Cookies with names are read back from their line. And a cookie with a name that is
set with any attributes has in front of the first semicolon nothing but unreserved characters,
percent escapes and one equals sign, which are read as that cookie alone. -/
theorem read_header_and_bare :
    (∀ cookies : Dict String String, (∀ name ∈ cookies.keys, name ≠ "") →
      read (header cookies) = cookies) ∧
    ∀ (name value : String) (attributes : Attributes), name ≠ "" →
      let cookie := bare (write name value attributes)
      (∀ c ∈ cookie.toList, Url.isUnreserved c = true ∨ c = '%' ∨ c = '=') ∧
        Url.WellEscaped cookie.toList ∧ cookie.toList.count '=' = 1 ∧
        (read cookie).toList = [(name, value)] := by
  refine ⟨fun cookies hnames => read_header hnames, fun name value attributes hname => ?_⟩
  intro cookie
  have hcookie : cookie = pair name value := bare_write name value attributes
  obtain ⟨hchars, hescaped, hequals⟩ := escaped_pair name value
  rw [hcookie]
  exact ⟨hchars, hescaped, hequals, toList_read_pair hname value⟩

/-- A name and a value with separators of all kinds in them, and attributes of their own. -/
theorem read_header_and_bare_separators :
    let name := "a=1; b"
    let value := "%3B;\n+é; path=/"
    let cookies : Dict String String := Dict.empty.insert name value
    let cookie := bare (write name value { path := some "/;=", secure := true })
    (∀ name ∈ cookies.keys, name ≠ "") ∧ name ≠ "" ∧ read (header cookies) = cookies ∧
      cookie = "a%3D1%3B%20b=%253B%3B%0A%2B%C3%A9%3B%20path%3D%2F" ∧
      (read cookie).toList = [(name, value)] := by
  intro name value cookies cookie
  have hnames : ∀ name ∈ cookies.keys, name ≠ "" := by decide +kernel
  have hname : name ≠ "" := by decide
  obtain ⟨-, -, -, hread⟩ :=
    read_header_and_bare.2 name value { path := some "/;=", secure := true } hname
  exact ⟨hnames, hname, read_header_and_bare.1 cookies hnames, by decide +kernel, hread⟩

end Cookie

end Switchboard
