import Switchboard.Proofs.Dict
import Switchboard.Proofs.Envelope
import Switchboard.Proofs.Json.Values

/-!
# Headers know no case

Headers come to be by conversion of a dictionary, in which a name may stand in several spellings,
and then change by insertions. What a conversion leaves under a name is settled by the spellings of
that name alone: the last of them in the order of bytes counts (`get?_ofDict_eq_some_iff`). What an
insertion leaves there is settled by what was there before (`get?_change`), and so, by induction, is
what any number of them leave (`get?_after`). The headers can then be written in either form and
are read back as they were.
-/

namespace Switchboard

/-! ## Capital letters -/

namespace Text

theorem not_capital_of_lowerChar {c : Char} (h : lowerChar c = c) : ¬('A' ≤ c ∧ c ≤ 'Z') := by
  intro hc
  have hhigh : c.toNat ≤ 0x5A := hc.2
  unfold lowerChar at h
  rw [if_pos hc] at h
  have hcode := congrArg Char.toNat h
  rw [Utf8.toNat_ofNat_char (by omega)] at hcode
  omega

/-- A text that is its own small form has no capital letter. -/
theorem not_capital_of_lower {s : String} (h : lower s = s) :
    ∀ c ∈ s.toList, ¬('A' ≤ c ∧ c ≤ 'Z') := by
  have hchars : s.toList.map lowerChar = s.toList := by
    have hlist := congrArg String.toList h
    rwa [lower, String.toList_ofList] at hlist
  have hmap : s.toList.map lowerChar = s.toList.map id := by rw [hchars, List.map_id]
  exact fun c hc => not_capital_of_lowerChar (List.map_inj_left.1 hmap c hc)

end Text

/-! ## Dictionaries of texts in JSON -/

namespace Json

/-- The members of an object that lists texts. -/
def membersOf (es : List (String × String)) : List (String × Json) :=
  es.map fun e => (e.1, .text e.2)

theorem ofEntries_texts (es : List (String × String)) :
    ofEntries Shape.text.toJson es = .ok (membersOf es) := by
  induction es with
  | nil => rfl
  | cons e es ih =>
    show (ofEntries Shape.text.toJson es >>= fun ms => pure ((e.1, .text e.2) :: ms)) = _
    rw [ih]
    rfl

namespace Reader

/-- The members are read back one after another, each put into the dictionary. -/
theorem reads_membersOf (sp : Spacing) (depth : Nat) (d : Dict String String) {blanks : Bytes}
    (hblanks : ∀ b ∈ blanks, isBlankByte b = true) (rest : Bytes) :
    Reads (members Dict.empty fun key (d : Dict String String) => do
        colon
        let value ← string "a string"
        return d.insert key value)
      (Utf8.encode (commas (spacedMembers sp depth (membersOf d.toList))) ++
        (blanks ++ 0x7D :: rest)) d (0x7D :: rest) := by
  have hgap : ∀ b ∈ Utf8.encode sp.gap, isBlankByte b = true :=
    isBlankByte_of_mem_encode sp.isBlank_gap
  conv => enter [3]; rw [← Dict.ofList_toList d]
  refine reads_members sp depth Dict.empty d.toList (fun e he d' rest hrest => ?_) hblanks rest
  rw [Utf8.encode_append, List.append_assoc, spaced, encode_quote_append]
  exact (reads_colon _).bind ((reads_string "a string" hgap e.2 rest).bind (reads_pure _ _))

/-- A dictionary of texts is read back from the object that lists it, whatever blanks stand
between the tokens. -/
theorem reads_texts (sp : Spacing) (d : Dict String String) (rest : Bytes) :
    Reads (Shape.dict .text).readJson
      (Utf8.encode (spaced sp 0 (.object (membersOf d.toList))) ++ rest) d rest := by
  rw [encode_object_append]
  refine Reads.settle ((reads_first_cons (by decide) _).bind (.ite rfl ?_))
  have hfoot := isBlankByte_of_mem_foot sp 0 (membersOf d.toList)
  exact (reads_membersOf sp 1 d hfoot rest).bracketed (reads_objectEnd rest)

end Reader

end Json

theorem Shape.ofJsonText_texts (layout : Json.Layout) (d : Dict String String) :
    ∃ text, (Shape.dict .text).toJsonText layout d = .ok text ∧
      (Shape.dict .text).ofJsonText text = .ok d := by
  let json : Json := .object (Json.membersOf d.toList)
  have hwrite : (Shape.dict .text).toJson d = .ok json :=
    congrArg (Except.map Json.object) (Json.ofEntries_texts d.toList)
  refine ⟨json.render layout, congrArg (Except.map (Json.render layout)) hwrite, ?_⟩
  have hreads := Json.Reader.reads_texts layout.spacing d []
  rw [List.append_nil] at hreads
  refine Shape.ofJsonText_of_reads ?_
  rw [Json.render_eq_spaced, Utf8.ofString, String.toList_ofList]
  exact hreads

namespace Headers

variable {source : Dict String String} {name value : String}

/-! ## Conversion -/

/-- Converted headers are the entries with their names lowered, put in one after another. -/
theorem entries_ofDict (source : Dict String String) : (ofDict source).entries =
    Dict.ofList (source.toList.map fun e => (Text.lower e.1, e.2)) := by
  unfold ofDict ofList Dict.ofList
  rw [List.foldl_map]
  exact (List.foldl_hom entries fun _ _ => rfl).symm

/-- **What a conversion leaves.** Of the spellings of a name the last in the order of bytes
counts. -/
theorem get?_ofDict_eq_some_iff : (ofDict source).get? name = some value ↔
    ∃ key, source.get? key = some value ∧ Text.lower key = Text.lower name ∧
      ∀ k ∈ source.keys, Text.lower k = Text.lower name →
        k = key ∨ Utf8.ofString k < Utf8.ofString key := by
  unfold get?
  rw [entries_ofDict, Dict.get?_ofList_eq_some_iff]
  constructor
  · rintro ⟨before, after, heq, hafter⟩
    obtain ⟨front, behind, hsource, rfl, hbehind⟩ := List.map_eq_append_iff.1 heq
    obtain ⟨⟨key, v⟩, back, rfl, hentry, rfl⟩ := List.map_eq_cons_iff.1 hbehind
    obtain ⟨hkey, rfl⟩ := Prod.mk.inj hentry
    have hsorted := source.sorted
    rw [hsource, List.pairwise_append] at hsorted
    refine ⟨key, Dict.get?_eq_some_iff.2 ?_, hkey, fun k hk hname => ?_⟩
    · rw [hsource]
      exact List.mem_append_right front List.mem_cons_self
    · obtain ⟨e, he, rfl⟩ := List.mem_map.1 hk
      rw [hsource] at he
      rcases List.mem_append.1 he with he | he
      · exact .inr (Utf8.compare_eq_lt_iff.1 (hsorted.2.2 e he _ List.mem_cons_self))
      · rcases List.mem_cons.1 he with rfl | he
        · exact .inl rfl
        · exact absurd hname (hafter _ (List.mem_map_of_mem he))
  · rintro ⟨key, hget, hkey, hlast⟩
    obtain ⟨front, back, hsource⟩ := List.append_of_mem (Dict.get?_eq_some_iff.1 hget)
    have hsorted := source.sorted
    rw [hsource, List.pairwise_append, List.pairwise_cons] at hsorted
    refine ⟨front.map fun e => (Text.lower e.1, e.2), back.map fun e => (Text.lower e.1, e.2), ?_,
      fun e hback hname => ?_⟩
    · rw [hsource, List.map_append, List.map_cons, hkey]
    · -- a spelling behind the last one would be above it
      obtain ⟨e, he, rfl⟩ := List.mem_map.1 hback
      have hmem : e.1 ∈ source.keys := by
        unfold Dict.keys
        rw [hsource]
        exact List.mem_map_of_mem (List.mem_append_right _ (List.mem_cons_of_mem _ he))
      have habove := Utf8.compare_eq_lt_iff.1 (hsorted.2.1.1 e he)
      rcases hlast e.1 hmem hname with heq | hbelow
      · rw [heq] at habove
        exact List.lt_irrefl _ habove
      · exact List.lt_asymm habove hbelow

/-- A name has a value after a conversion if some spelling of it had one. -/
theorem contains_ofDict_iff : (ofDict source).contains name = true ↔
    ∃ key ∈ source.keys, Text.lower key = Text.lower name := by
  unfold contains get?
  rw [entries_ofDict, Option.isSome_iff_ne_none, ne_eq, Dict.get?_ofList_eq_none_iff, not_iff_comm]
  simp only [Dict.keys, not_exists, not_and, List.forall_mem_map, ne_eq]

/-! ## Insertion -/

/-- A call that changes headers. -/
inductive Change
  /-- A value is put under a name. -/
  | insert (name value : String)
  /-- A value is put under a name that had none. -/
  | insertIfNew (name value : String)

/-- The headers after a change. -/
def change (h : Headers) : Change → Headers
  | .insert name value => h.insert name value
  | .insertIfNew name value => h.insertIfNew name value

/-- What a change leaves under a name that has such a value, or none. -/
def Change.settle (name : String) (held : Option String) : Change → Option String
  | .insert other value => if Text.lower name = Text.lower other then some value else held
  | .insertIfNew other value =>
    if Text.lower name = Text.lower other then some (held.getD value) else held

/-- Headers that are converted and then changed so. -/
def after (source : Dict String String) (changes : List Change) : Headers :=
  changes.foldl change (ofDict source)

/-- All spellings of a name lead to one value. -/
theorem get?_of_lower_eq (h : Headers) {other : String}
    (hname : Text.lower name = Text.lower other) : h.get? name = h.get? other := by
  rw [← get?_lower h name, hname, get?_lower]

theorem get?_insertIfNew (h : Headers) (name other value : String) :
    (h.insertIfNew name value).get? other =
      if Text.lower other = Text.lower name then some ((h.get? other).getD value)
      else h.get? other := by
  unfold insertIfNew contains
  cases hget : h.get? name with
  | none =>
    rw [Option.isSome_none, if_neg Bool.false_ne_true, get?_insert]
    by_cases hname : Text.lower other = Text.lower name
    · rw [if_pos hname, if_pos hname, get?_of_lower_eq h hname, hget]
      rfl
    · rw [if_neg hname, if_neg hname]
  | some held =>
    rw [Option.isSome_some, if_pos rfl]
    by_cases hname : Text.lower other = Text.lower name
    · rw [if_pos hname, get?_of_lower_eq h hname, hget]
      rfl
    · rw [if_neg hname]

theorem get?_change (h : Headers) (c : Change) (name : String) :
    (h.change c).get? name = c.settle name (h.get? name) := by
  cases c with
  | insert other value => exact get?_insert h other name value
  | insertIfNew other value => exact get?_insertIfNew h other name value

theorem get?_foldl_change (h : Headers) (changes : List Change) (name : String) :
    (changes.foldl change h).get? name = changes.foldl (Change.settle name) (h.get? name) := by
  induction changes generalizing h with
  | nil => rfl
  | cons c changes ih => rw [List.foldl_cons, List.foldl_cons, ih, get?_change]

theorem get?_after (source : Dict String String) (changes : List Change) (name : String) :
    (after source changes).get? name =
      changes.foldl (Change.settle name) ((ofDict source).get? name) :=
  get?_foldl_change (ofDict source) changes name

/-! ## The wire -/

theorem ofJsonText_toJsonText (layout : Json.Layout) (h : Headers) :
    ∃ text, toJsonText layout h = .ok text ∧ ofJsonText text = .ok h := by
  obtain ⟨text, hwrite, hread⟩ := Shape.ofJsonText_texts layout h.entries
  refine ⟨text, hwrite, ?_⟩
  show ((Shape.dict .text).ofJsonText text).map ofDict = .ok h
  rw [hread]
  exact congrArg Except.ok (ofDict_entries h)

theorem ofBinary_toBinary (h : Headers) (hfits : (Shape.dict .text).Fits h.entries)
    (rest : Bytes) : ofBinary (toBinary h ++ rest) = .ok h := by
  have hreg : (Payload.shape Headers).Regular := True.intro
  exact ofBinary_toBinary_append hreg (by decide) h hfits rest

/-- Headers that are read from any bytes are read again from their own. -/
theorem ofBinary_toBinary_of_ofBinary {bytes : Bytes} {h : Headers}
    (hread : ofBinary bytes = .ok h) : ofBinary (toBinary h) = .ok h := by
  obtain ⟨data, hdata, rfl⟩ := fits_of_ofBinary hread
  have hown := ofBinary_toBinary _ (fits_ofDict hdata) []
  rwa [List.append_nil] at hown

/-! ## All together -/

/-- What it takes for headers to know no case, when they are converted from `source` and then
changed. -/
structure CaseInsensitive (source : Dict String String) (changes : List Change) : Prop where
  /-- What is read from bytes is converted from the dictionary that stands there. -/
  decoded : ∀ bytes, (ofBinary bytes : Except MessagePack.Fault Headers) =
    ((Shape.dict .text).ofBinary bytes).map ofDict
  /-- What is read from a JSON text is converted from the dictionary that stands there. -/
  decodedJson : ∀ text, (ofJsonText text : Except Json.Fault Headers) =
    ((Shape.dict .text).ofJsonText text).map ofDict
  /-- No name has a capital letter. -/
  small : ∀ key ∈ (after source changes).entries.keys, ∀ c ∈ key.toList, ¬('A' ≤ c ∧ c ≤ 'Z')
  /-- No name occurs twice. -/
  once : (after source changes).entries.keys.Nodup
  /-- Two spellings of a name are not told apart. -/
  alike : ∀ name other, Text.lower name = Text.lower other →
    (after source changes).get? name = (after source changes).get? other ∧
      (after source changes).contains name = (after source changes).contains other
  /-- After the conversion the last spelling in the order of bytes counts. -/
  converted : ∀ name value, (ofDict source).get? name = some value ↔
    ∃ key, source.get? key = some value ∧ Text.lower key = Text.lower name ∧
      ∀ k ∈ source.keys, Text.lower k = Text.lower name →
        k = key ∨ Utf8.ofString k < Utf8.ofString key
  /-- After the conversion a name has a value if some spelling of it had one. -/
  convertedContains : ∀ name, (ofDict source).contains name = true ↔
    ∃ key ∈ source.keys, Text.lower key = Text.lower name
  /-- An insertion puts its value under its own name, and changes nothing under any other. -/
  inserted : ∀ name value other, ((after source changes).insert name value).get? other =
    if Text.lower other = Text.lower name then some value
    else (after source changes).get? other
  /-- An insertion of what may be there keeps what is there. -/
  insertedIfNew : ∀ name value other, ((after source changes).insertIfNew name value).get? other =
    if Text.lower other = Text.lower name then
      some (((after source changes).get? other).getD value)
    else (after source changes).get? other
  /-- All changes together leave under a name what they make of it one by one. -/
  settled : ∀ name, (after source changes).get? name =
    changes.foldl (Change.settle name) ((ofDict source).get? name)
  /-- The headers are read back from their JSON in either layout. -/
  json : ∀ layout, ∃ text, toJsonText layout (after source changes) = .ok text ∧
    ofJsonText text = .ok (after source changes)
  /-- The headers are read back from their MessagePack, whatever follows it, if it can announce
  how long they and their texts are. -/
  binary : (Shape.dict .text).Fits (after source changes).entries → ∀ rest,
    ofBinary (toBinary (after source changes) ++ rest) = .ok (after source changes)
  /-- It can announce so much of all that has been read. -/
  reread : ∀ bytes (h : Headers), ofBinary bytes = .ok h → ofBinary (toBinary h) = .ok h

/-- **Headers know no case.** However they come to be and whatever is inserted. -/
theorem caseInsensitive (source : Dict String String) (changes : List Change) :
    CaseInsensitive source changes where
  decoded _ := rfl
  decodedJson _ := rfl
  small key hkey := Text.not_capital_of_lower ((after source changes).lowered key hkey)
  once := Dict.nodup_keys _
  alike name other hname := by
    have hget := get?_of_lower_eq (after source changes) hname
    exact ⟨hget, congrArg Option.isSome hget⟩
  converted _ _ := get?_ofDict_eq_some_iff
  convertedContains _ := contains_ofDict_iff
  inserted name value other := get?_insert _ name other value
  insertedIfNew name value other := get?_insertIfNew _ name other value
  settled := get?_after source changes
  json layout := ofJsonText_toJsonText layout _
  binary hfits rest := ofBinary_toBinary _ hfits rest
  reread _ _ hread := ofBinary_toBinary_of_ofBinary hread

/-- Two spellings of one name, of which the one in small letters counts. -/
def twoSpellings : Dict String String :=
  Dict.ofList [("X-Tag", "capital"), ("x-tag", "small"), ("É", "accent")]

/-- A value that comes too late, and one under a name that had none. -/
def lateAndNew : List Change := [.insertIfNew "X-TAG" "late", .insert "Age" "1"]

theorem caseInsensitive_twoSpellings :
    (after twoSpellings lateAndNew).entries.toList =
        [("age", "1"), ("x-tag", "small"), ("É", "accent")] ∧
      (Shape.dict .text).Fits (after twoSpellings lateAndNew).entries ∧
      ofBinary (toBinary (after twoSpellings lateAndNew)) =
        .ok (after twoSpellings lateAndNew) := by
  have hlist : (after twoSpellings lateAndNew).entries.toList =
      [("age", "1"), ("x-tag", "small"), ("É", "accent")] := by decide
  have hfits : (Shape.dict .text).Fits (after twoSpellings lateAndNew).entries := by
    refine ⟨by decide, ?_⟩
    show ∀ e ∈ (after twoSpellings lateAndNew).entries.toList,
      (Utf8.ofString e.1).length < 2 ^ 32 ∧ (Utf8.ofString e.2).length < 2 ^ 32
    rw [hlist]
    decide
  exact ⟨hlist, hfits, (caseInsensitive twoSpellings lateAndNew).binary hfits []⟩

end Headers

end Switchboard
