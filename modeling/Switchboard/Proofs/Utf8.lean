import Switchboard.Text.Utf8

/-!
# UTF-8 is read back as it was written

The reader of UTF-8 is a machine with one step per byte. For a first byte of each of the four kinds
there is one lemma that says where the machine goes (`start_one` to `start_four`), and one says
what each further byte does (`scanFrom_last`, `scanFrom_next`). From these follow both halves of
the main result: every text is read back from its bytes (`decode?_encode`), and bytes that are
read as a text are the bytes of that text (`encode_of_decode?`), so every text has one form. The
form keeps the order as well (`compare_eq_lt_iff`). Bytes that are no text are read with marks in
place of what is wrong, and a byte of ASCII among them is read as it is, whatever stands in front of
it (`decodeLossy_append_cons`).
-/

namespace Switchboard.Utf8

variable {b : UInt8} {bs rest : Bytes} {cs : List Char}

/-! ## Bytes and characters as numbers -/

theorem toNat_ofNat_byte {n : Nat} (h : n < 256) : (UInt8.ofNat n).toNat = n :=
  UInt8.toNat_ofNat_of_lt' h

/-- A byte is known by its value. -/
theorem ofNat_eq_of_toNat {n : Nat} (h : n = b.toNat) : UInt8.ofNat n = b := by
  rw [h]
  exact UInt8.ofNat_toNat

/-- A character is a code point that is no surrogate. -/
theorem toNat_char_valid (c : Char) :
    c.toNat < 0xD800 ∨ (0xDFFF < c.toNat ∧ c.toNat < 0x110000) := c.valid

theorem toNat_ofNat_char {n : Nat} (h : n < 0xD800 ∨ (0xDFFF < n ∧ n < 0x110000)) :
    (Char.ofNat n).toNat = n := by
  unfold Char.ofNat
  rw [dif_pos h]
  rfl

/-! ## The machine -/

/-- A byte below 0x80 is a character. -/
theorem start_one (h : b.toNat < 0x80) : start b = ([some (Char.ofNat b.toNat)], .idle) := by
  unfold start
  rw [if_pos h]

/-- A byte from 0xC2 to 0xDF begins a sequence of two. -/
theorem start_two (h : 0xC2 ≤ b.toNat) (h' : b.toNat < 0xE0) :
    start b = ([], .within 1 0x80 0xBF (b.toNat - 0xC0)) := by
  unfold start
  rw [if_neg (by omega), if_neg (by omega), if_pos h']

/-- A byte from 0xE0 to 0xEF begins a sequence of three. -/
theorem start_three (h : 0xE0 ≤ b.toNat) (h' : b.toNat < 0xF0) :
    start b = ([], .within 2 (if b.toNat = 0xE0 then 0xA0 else 0x80)
      (if b.toNat = 0xED then 0x9F else 0xBF) (b.toNat - 0xE0)) := by
  unfold start
  rw [if_neg (by omega), if_neg (by omega), if_neg (by omega), if_pos h']

/-- A byte from 0xF0 to 0xF4 begins a sequence of four. -/
theorem start_four (h : 0xF0 ≤ b.toNat) (h' : b.toNat < 0xF5) :
    start b = ([], .within 3 (if b.toNat = 0xF0 then 0x90 else 0x80)
      (if b.toNat = 0xF4 then 0x8F else 0xBF) (b.toNat - 0xF0)) := by
  unfold start
  rw [if_neg (by omega), if_neg (by omega), if_neg (by omega), if_neg (by omega), if_pos h']

/-- No other byte begins anything. -/
theorem start_none (h : 0x80 ≤ b.toNat) (h' : b.toNat < 0xC2 ∨ 0xF5 ≤ b.toNat) :
    start b = ([none], .idle) := by
  unfold start
  rcases h' with h' | h'
  · rw [if_neg (by omega), if_pos h']
  · rw [if_neg (by omega), if_neg (by omega), if_neg (by omega), if_neg (by omega),
      if_neg (by omega)]

theorem scanFrom_idle_cons (b : UInt8) (bs : Bytes) :
    scanFrom .idle (b :: bs) = (start b).1 ++ scanFrom (start b).2 bs := rfl

/-- The last byte of a sequence ends a character. -/
theorem scanFrom_last {low high value : Nat} (h : low ≤ b.toNat) (h' : b.toNat ≤ high) :
    scanFrom (.within 1 low high value) (b :: bs) =
      some (Char.ofNat (value * 64 + (b.toNat - 0x80))) :: scanFrom .idle bs := by
  simp only [scanFrom, advance, if_pos (And.intro h h')]
  rfl

/-- A byte of a sequence that is not the last one adds six bits. -/
theorem scanFrom_next {left low high value : Nat} (h : low ≤ b.toNat) (h' : b.toNat ≤ high) :
    scanFrom (.within (left + 2) low high value) (b :: bs) =
      scanFrom (.within (left + 1) 0x80 0xBF (value * 64 + (b.toNat - 0x80))) bs := by
  simp only [scanFrom, advance, if_pos (And.intro h h')]
  rfl

/-! ## Writing, then reading -/

/-- The bytes of a character are read as that character, whatever follows. -/
theorem scanFrom_encodeChar (c : Char) (rest : Bytes) :
    scanFrom .idle (encodeChar c ++ rest) = some c :: scanFrom .idle rest := by
  have hvalid := toNat_char_valid c
  have hc : Char.ofNat c.toNat = c := Char.ofNat_toNat c
  unfold encodeChar
  simp only
  -- from here on a number that is a code point
  generalize c.toNat = n at hvalid hc ⊢
  subst hc
  split
  · rename_i h1
    have hb : (UInt8.ofNat n).toNat = n := toNat_ofNat_byte (by omega)
    rw [List.singleton_append, scanFrom_idle_cons, start_one (by omega), hb]
    rfl
  · split
    · rename_i h1 h2
      have hb0 : (UInt8.ofNat (0xC0 + n / 64)).toNat = 0xC0 + n / 64 :=
        toNat_ofNat_byte (by omega)
      have hb1 : (UInt8.ofNat (0x80 + n % 64)).toNat = 0x80 + n % 64 :=
        toNat_ofNat_byte (by omega)
      rw [List.cons_append, List.singleton_append, scanFrom_idle_cons,
        start_two (by omega) (by omega), List.nil_append,
        scanFrom_last (by omega) (by omega), hb0, hb1]
      rw [show (0xC0 + n / 64 - 0xC0) * 64 + (0x80 + n % 64 - 0x80) = n by omega]
    · split
      · rename_i h1 h2 h3
        have hb0 : (UInt8.ofNat (0xE0 + n / 4096)).toNat = 0xE0 + n / 4096 :=
          toNat_ofNat_byte (by omega)
        have hb1 : (UInt8.ofNat (0x80 + n / 64 % 64)).toNat = 0x80 + n / 64 % 64 :=
          toNat_ofNat_byte (by omega)
        have hb2 : (UInt8.ofNat (0x80 + n % 64)).toNat = 0x80 + n % 64 :=
          toNat_ofNat_byte (by omega)
        rw [List.cons_append, List.cons_append, List.singleton_append, scanFrom_idle_cons,
          start_three (by omega) (by omega), List.nil_append,
          scanFrom_next (by split <;> omega) (by split <;> omega),
          scanFrom_last (by omega) (by omega), hb0, hb1, hb2]
        rw [show ((0xE0 + n / 4096 - 0xE0) * 64 + (0x80 + n / 64 % 64 - 0x80)) * 64
          + (0x80 + n % 64 - 0x80) = n by omega]
      · rename_i h1 h2 h3
        have hb0 : (UInt8.ofNat (0xF0 + n / 262144)).toNat = 0xF0 + n / 262144 :=
          toNat_ofNat_byte (by omega)
        have hb1 : (UInt8.ofNat (0x80 + n / 4096 % 64)).toNat = 0x80 + n / 4096 % 64 :=
          toNat_ofNat_byte (by omega)
        have hb2 : (UInt8.ofNat (0x80 + n / 64 % 64)).toNat = 0x80 + n / 64 % 64 :=
          toNat_ofNat_byte (by omega)
        have hb3 : (UInt8.ofNat (0x80 + n % 64)).toNat = 0x80 + n % 64 :=
          toNat_ofNat_byte (by omega)
        rw [List.cons_append, List.cons_append, List.cons_append, List.singleton_append,
          scanFrom_idle_cons, start_four (by omega) (by omega), List.nil_append,
          scanFrom_next (by split <;> omega) (by split <;> omega),
          scanFrom_next (by omega) (by omega), scanFrom_last (by omega) (by omega),
          hb0, hb1, hb2, hb3]
        rw [show (((0xF0 + n / 262144 - 0xF0) * 64 + (0x80 + n / 4096 % 64 - 0x80)) * 64
          + (0x80 + n / 64 % 64 - 0x80)) * 64 + (0x80 + n % 64 - 0x80) = n by omega]

theorem scan_encode (cs : List Char) : scan (encode cs) = cs.map some := by
  induction cs with
  | nil => rfl
  | cons c cs ih =>
    rw [encode, List.flatMap_cons, scan, scanFrom_encodeChar, List.map_cons]
    exact congrArg _ ih

/-- Every text is read back from its bytes. -/
theorem decode?_encode (cs : List Char) : decode? (encode cs) = some cs := by
  rw [decode?, scan_encode]
  exact whole_eq_some_iff.2 rfl

/-! ## Reading, then writing -/

/-- Where the last byte of a sequence is due and no gap follows, it is there. -/
theorem last_of_scanFrom {low high value : Nat}
    (h : scanFrom (.within 1 low high value) bs = cs.map some) :
    ∃ b bs' cs', bs = b :: bs' ∧ low ≤ b.toNat ∧ b.toNat ≤ high ∧
      cs = Char.ofNat (value * 64 + (b.toNat - 0x80)) :: cs' ∧
      scanFrom .idle bs' = cs'.map some := by
  cases bs with
  | nil => cases cs <;> simp [scanFrom] at h
  | cons b bs' =>
    by_cases hb : low ≤ b.toNat ∧ b.toNat ≤ high
    · rw [scanFrom_last hb.1 hb.2] at h
      cases cs with
      | nil => simp at h
      | cons c cs' =>
        rw [List.map_cons, List.cons.injEq, Option.some.injEq] at h
        exact ⟨b, bs', cs', rfl, hb.1, hb.2, by rw [h.1], h.2⟩
    · simp only [scanFrom, advance, if_neg hb] at h
      cases cs <;> simp at h

/-- Where a further byte of a sequence is due and no gap follows, it is there. -/
theorem next_of_scanFrom {left low high value : Nat}
    (h : scanFrom (.within (left + 2) low high value) bs = cs.map some) :
    ∃ b bs', bs = b :: bs' ∧ low ≤ b.toNat ∧ b.toNat ≤ high ∧
      scanFrom (.within (left + 1) 0x80 0xBF (value * 64 + (b.toNat - 0x80))) bs' =
        cs.map some := by
  cases bs with
  | nil => cases cs <;> simp [scanFrom] at h
  | cons b bs' =>
    by_cases hb : low ≤ b.toNat ∧ b.toNat ≤ high
    · rw [scanFrom_next hb.1 hb.2] at h
      exact ⟨b, bs', rfl, hb.1, hb.2, h⟩
    · simp only [scanFrom, advance, if_neg hb] at h
      cases cs <;> simp at h

/-- Bytes that begin with a character and are read without a gap begin with its bytes. -/
theorem encodeChar_of_scanFrom (h : scanFrom .idle (b :: bs) = cs.map some) :
    ∃ c cs' rest, cs = c :: cs' ∧ b :: bs = encodeChar c ++ rest ∧
      scanFrom .idle rest = cs'.map some := by
  have hb := b.toNat_lt
  rw [scanFrom_idle_cons] at h
  by_cases h1 : b.toNat < 0x80
  · rw [start_one h1] at h
    cases cs with
    | nil => simp at h
    | cons c cs' =>
      rw [List.singleton_append, List.map_cons, List.cons.injEq, Option.some.injEq] at h
      refine ⟨c, cs', bs, rfl, ?_, h.2⟩
      rw [← h.1, encodeChar, toNat_ofNat_char (by omega), if_pos h1, List.singleton_append,
        UInt8.ofNat_toNat]
  by_cases h2 : 0xC2 ≤ b.toNat ∧ b.toNat < 0xE0
  · rw [start_two h2.1 h2.2, List.nil_append] at h
    obtain ⟨b1, rest, cs', rfl, hl1, hh1, rfl, hrest⟩ := last_of_scanFrom h
    refine ⟨_, cs', rest, rfl, ?_, hrest⟩
    rw [encodeChar, toNat_ofNat_char (by omega), if_neg (by omega), if_pos (by omega),
      ofNat_eq_of_toNat (b := b) (by omega), ofNat_eq_of_toNat (b := b1) (by omega)]
    rfl
  by_cases h3 : 0xE0 ≤ b.toNat ∧ b.toNat < 0xF0
  · rw [start_three h3.1 h3.2, List.nil_append] at h
    obtain ⟨b1, bs1, rfl, hl1, hh1, h⟩ := next_of_scanFrom h
    obtain ⟨b2, rest, cs', rfl, hl2, hh2, rfl, hrest⟩ := last_of_scanFrom h
    -- the second byte keeps the value out of the shorter forms and of the surrogates
    have hlow : 0x80 ≤ b1.toNat ∧ (b.toNat = 0xE0 → 0xA0 ≤ b1.toNat) := by
      split at hl1 <;> omega
    have hhigh : b1.toNat ≤ 0xBF ∧ (b.toNat = 0xED → b1.toNat ≤ 0x9F) := by
      split at hh1 <;> omega
    refine ⟨_, cs', rest, rfl, ?_, hrest⟩
    rw [encodeChar, toNat_ofNat_char (by omega), if_neg (by omega), if_neg (by omega),
      if_pos (by omega), ofNat_eq_of_toNat (b := b) (by omega),
      ofNat_eq_of_toNat (b := b1) (by omega), ofNat_eq_of_toNat (b := b2) (by omega)]
    rfl
  by_cases h4 : 0xF0 ≤ b.toNat ∧ b.toNat < 0xF5
  · rw [start_four h4.1 h4.2, List.nil_append] at h
    obtain ⟨b1, bs1, rfl, hl1, hh1, h⟩ := next_of_scanFrom h
    obtain ⟨b2, bs2, rfl, hl2, hh2, h⟩ := next_of_scanFrom h
    obtain ⟨b3, rest, cs', rfl, hl3, hh3, rfl, hrest⟩ := last_of_scanFrom h
    -- the second byte keeps the value out of the shorter forms and below the last code point
    have hlow : 0x80 ≤ b1.toNat ∧ (b.toNat = 0xF0 → 0x90 ≤ b1.toNat) := by
      split at hl1 <;> omega
    have hhigh : b1.toNat ≤ 0xBF ∧ (b.toNat = 0xF4 → b1.toNat ≤ 0x8F) := by
      split at hh1 <;> omega
    refine ⟨_, cs', rest, rfl, ?_, hrest⟩
    rw [encodeChar, toNat_ofNat_char (by omega), if_neg (by omega), if_neg (by omega),
      if_neg (by omega), ofNat_eq_of_toNat (b := b) (by omega),
      ofNat_eq_of_toNat (b := b1) (by omega), ofNat_eq_of_toNat (b := b2) (by omega),
      ofNat_eq_of_toNat (b := b3) (by omega)]
    rfl
  · rw [start_none (by omega) (by omega)] at h
    cases cs <;> simp at h

theorem encodeChar_ne_nil (c : Char) : encodeChar c ≠ [] := by
  unfold encodeChar
  simp only
  split
  · simp
  · split
    · simp
    · split <;> simp

theorem encode_of_scanFrom (h : scanFrom .idle bs = cs.map some) : encode cs = bs := by
  -- on the length of the bytes, of which every character takes some
  induction hlen : bs.length using Nat.strongRecOn generalizing bs cs with
  | ind n ih =>
    cases bs with
    | nil =>
      cases cs with
      | nil => rfl
      | cons c cs => simp [scanFrom] at h
    | cons b bs =>
      obtain ⟨c, cs', rest, rfl, hbytes, hrest⟩ := encodeChar_of_scanFrom h
      have hpos := List.length_pos_iff.2 (encodeChar_ne_nil c)
      have hlt : rest.length < n := by
        have hsum := congrArg List.length hbytes
        rw [List.length_append] at hsum
        omega
      rw [encode, List.flatMap_cons, hbytes, ← ih _ hlt hrest rfl]
      rfl

/-- Bytes that are read as a text are the bytes of that text. -/
theorem encode_of_decode? (h : decode? bs = some cs) : encode cs = bs :=
  encode_of_scanFrom (whole_eq_some_iff.1 h)

/-! ## Strings -/

theorem toString?_ofString (s : String) : toString? (ofString s) = some s := by
  rw [toString?, ofString, decode?_encode, Option.map_some, String.ofList_toList]

theorem ofString_of_toString? {s : String} (h : toString? bs = some s) : ofString s = bs := by
  obtain ⟨cs, hcs, rfl⟩ := Option.map_eq_some_iff.1 h
  rw [ofString, String.toList_ofList]
  exact encode_of_decode? hcs

/-- The lossy reading loses nothing of a string. -/
theorem toStringLossy_ofString (s : String) : toStringLossy (ofString s) = s := by
  rw [toStringLossy, ofString, decodeLossy_of_decode? (decode?_encode s.toList),
    String.ofList_toList]

/-- A sequence that has begun is read as a character or leaves a gap. -/
theorem scanFrom_within_ne_nil (left low high value : Nat) (bs : Bytes) :
    scanFrom (.within left low high value) bs ≠ [] := by
  induction bs generalizing left low high value with
  | nil => exact List.cons_ne_nil _ _
  | cons b bs ih =>
    rw [scanFrom, advance]
    split
    · match left with
      | 0 | 1 => exact List.cons_ne_nil _ _
      | left + 2 => exact ih _ _ _ _
    · exact List.cons_ne_nil _ _

theorem scan_ne_nil (h : bs ≠ []) : scan bs ≠ [] := by
  obtain ⟨b, bs, rfl⟩ := List.exists_cons_of_ne_nil h
  unfold scan
  rw [scanFrom_idle_cons, start]
  repeat' split
  all_goals first
    | exact List.cons_ne_nil _ _
    | exact scanFrom_within_ne_nil _ _ _ _ _

theorem toStringLossy_ne_empty (h : bs ≠ []) : toStringLossy bs ≠ "" := by
  intro hempty
  have hchars := congrArg String.toList hempty
  rw [toStringLossy, String.toList_ofList] at hchars
  exact scan_ne_nil h (List.map_eq_nil_iff.1 hchars)

theorem ofString_ne_nil {s : String} (h : s ≠ "") : ofString s ≠ [] := by
  intro hnil
  refine h (String.toList_eq_nil_iff.1 ?_)
  cases hs : s.toList with
  | nil => rfl
  | cons c cs =>
    rw [ofString, hs] at hnil
    exact absurd (List.append_eq_nil_iff.1 hnil).1 (encodeChar_ne_nil c)

theorem encode_append (cs ds : List Char) : encode (cs ++ ds) = encode cs ++ encode ds :=
  List.flatMap_append

theorem encode_cons (c : Char) (cs : List Char) : encode (c :: cs) = encodeChar c ++ encode cs :=
  List.flatMap_cons

/-- A character of ASCII is one byte. -/
theorem encodeChar_of_lt {c : Char} (h : c.toNat < 0x80) :
    encodeChar c = [UInt8.ofNat c.toNat] := by
  unfold encodeChar
  rw [if_pos h]

/-- A byte of a character beyond ASCII is none of ASCII. -/
theorem le_toNat_of_mem_encodeChar {c : Char} (h : 0x80 ≤ c.toNat) (hb : b ∈ encodeChar c) :
    0x80 ≤ b.toNat := by
  have hvalid := toNat_char_valid c
  have hbyte : ∀ {n : Nat}, 0x80 ≤ n → n < 256 → 0x80 ≤ (UInt8.ofNat n).toNat := by
    intro n hn hn'
    rw [toNat_ofNat_byte hn']
    exact hn
  unfold encodeChar at hb
  simp only at hb
  rw [if_neg (by omega)] at hb
  split at hb
  · simp only [List.mem_cons, List.not_mem_nil, or_false] at hb
    rcases hb with rfl | rfl <;> exact hbyte (by omega) (by omega)
  · split at hb
    · simp only [List.mem_cons, List.not_mem_nil, or_false] at hb
      rcases hb with rfl | rfl | rfl <;> exact hbyte (by omega) (by omega)
    · simp only [List.mem_cons, List.not_mem_nil, or_false] at hb
      rcases hb with rfl | rfl | rfl | rfl <;> exact hbyte (by omega) (by omega)

/-- Only a character of ASCII itself is written with its byte. -/
theorem not_mem_encode_of_lt {c : Char} (hc : c.toNat < 0x80) (h : c ∉ cs) :
    UInt8.ofNat c.toNat ∉ encode cs := by
  intro hmem
  obtain ⟨d, hd, hbyte⟩ := List.mem_flatMap.1 hmem
  have hcode : (UInt8.ofNat c.toNat).toNat = c.toNat := toNat_ofNat_byte (by omega)
  by_cases hlow : d.toNat < 0x80
  · rw [encodeChar_of_lt hlow, List.mem_singleton] at hbyte
    have hnat := congrArg UInt8.toNat hbyte
    rw [hcode, toNat_ofNat_byte (by omega)] at hnat
    have heq : c = d := Char.toNat_inj.1 hnat
    exact h (heq ▸ hd)
  · have hhigh := le_toNat_of_mem_encodeChar (by omega) hbyte
    omega

/-- A byte of ASCII in front of the bytes of a text is the character in front of the text. -/
theorem exists_of_encode_eq_cons (h : encode cs = b :: bs) (hb : b.toNat < 0x80) :
    ∃ cs', cs = Char.ofNat b.toNat :: cs' ∧ encode cs' = bs := by
  cases cs with
  | nil => cases h
  | cons c cs' =>
    rw [encode_cons] at h
    by_cases hlow : c.toNat < 0x80
    · rw [encodeChar_of_lt hlow, List.singleton_append, List.cons.injEq] at h
      obtain ⟨rfl, rfl⟩ := h
      refine ⟨cs', ?_, rfl⟩
      rw [toNat_ofNat_byte (by omega), Char.ofNat_toNat]
    · obtain ⟨d, ds, hds⟩ := List.exists_cons_of_ne_nil (encodeChar_ne_nil c)
      rw [hds, List.cons_append, List.cons.injEq] at h
      have hhigh : 0x80 ≤ d.toNat :=
        le_toNat_of_mem_encodeChar (by omega) (hds ▸ List.mem_cons_self)
      rw [h.1] at hhigh
      omega

/-- Two strings with the same bytes are the same. -/
theorem ofString_injective {s t : String} (h : ofString s = ofString t) : s = t := by
  have hs := toString?_ofString s
  rw [h, toString?_ofString] at hs
  exact (Option.some.inj hs).symm

/-! ## Bytes of ASCII in between -/

/-- Whether a byte of ASCII cannot be the next one of a sequence. -/
def Progress.BeyondAscii : Progress → Prop
  | .idle => True
  | .within _ low _ _ => 0x80 ≤ low

theorem beyondAscii_start (b : UInt8) : (start b).2.BeyondAscii := by
  unfold start
  simp only
  repeat' split
  all_goals simp only [Progress.BeyondAscii]
  all_goals omega

theorem Progress.BeyondAscii.advance {p : Progress} (h : p.BeyondAscii) (b : UInt8) :
    (advance p b).2.BeyondAscii := by
  cases p with
  | idle => exact beyondAscii_start b
  | within left low high value =>
    unfold Utf8.advance
    simp only
    split
    · split
      · trivial
      · trivial
      · exact Nat.le_refl 0x80
    · exact beyondAscii_start b

theorem scanFrom_cons (p : Progress) (b : UInt8) (bs : Bytes) :
    scanFrom p (b :: bs) = (advance p b).1 ++ scanFrom (advance p b).2 bs := by
  cases p <;> rfl

/-- A byte of ASCII ends whatever has begun before it, and is read as it is. -/
theorem scanFrom_append_cons {p : Progress} (hp : p.BeyondAscii) (hb : b.toNat < 0x80)
    (as bs : Bytes) : scanFrom p (as ++ b :: bs) =
      scanFrom p as ++ some (Char.ofNat b.toNat) :: scanFrom .idle bs := by
  induction as generalizing p with
  | nil =>
    rw [List.nil_append, scanFrom_cons]
    cases p with
    | idle =>
      rw [advance, start_one hb]
      rfl
    | within left low high value =>
      have hlow : 0x80 ≤ low := hp
      have hout : ¬ (low ≤ b.toNat ∧ b.toNat ≤ high) := by omega
      rw [advance, if_neg hout, start_one hb]
      rfl
  | cons a as ih =>
    rw [List.cons_append, scanFrom_cons, scanFrom_cons, ih (hp.advance a), List.append_assoc]

theorem decodeLossy_append_cons (hb : b.toNat < 0x80) (as bs : Bytes) :
    decodeLossy (as ++ b :: bs) = decodeLossy as ++ Char.ofNat b.toNat :: decodeLossy bs := by
  have hidle : Progress.idle.BeyondAscii := trivial
  unfold decodeLossy scan
  rw [scanFrom_append_cons hidle hb, List.map_append, List.map_cons]
  rfl

theorem decodeLossy_encode (cs : List Char) : decodeLossy (encode cs) = cs :=
  decodeLossy_of_decode? (decode?_encode cs)

/-! ## Order -/

/-- Of two sequences the first bytes decide, and where these are the same the others. -/
theorem ofNat_cons_lt_ofNat_cons {m n : Nat} {as bs : Bytes} (hn : n < 256) (hle : m ≤ n)
    (h : m = n → as < bs) : UInt8.ofNat m :: as < UInt8.ofNat n :: bs := by
  rcases Nat.lt_or_eq_of_le hle with hlt | rfl
  · refine List.Lex.rel (UInt8.lt_iff_toNat_lt.2 ?_)
    rwa [toNat_ofNat_byte (by omega), toNat_ofNat_byte hn]
  · exact List.Lex.cons (h rfl)

/-- The bytes of a character are below those of a greater one, whatever follows. -/
theorem encodeChar_append_lt {c d : Char} (h : c < d) (as bs : Bytes) :
    encodeChar c ++ as < encodeChar d ++ bs := by
  have hd := toNat_char_valid d
  have hlt : c.toNat < d.toNat := h
  unfold encodeChar
  simp only
  generalize c.toNat = m at hlt ⊢
  generalize d.toNat = n at hlt hd ⊢
  -- a longer form has a greater first byte; in forms of one length six bits follow upon six
  repeat' split
  all_goals
    repeat refine ofNat_cons_lt_ofNat_cons (by omega) (by omega) fun _ => ?_
    omega

theorem encode_lt_encode {ds : List Char} (h : cs < ds) : encode cs < encode ds := by
  induction h with
  | nil =>
    obtain ⟨b, bs, hbs⟩ := List.exists_cons_of_ne_nil (encodeChar_ne_nil _)
    rw [encode_cons, hbs]
    exact List.Lex.nil
  | rel hlt =>
    rw [encode_cons, encode_cons]
    exact encodeChar_append_lt hlt _ _
  | cons _ ih =>
    rw [encode_cons, encode_cons]
    exact List.append_left_lt ih

/-- Strings come in the order of their bytes. -/
theorem compare_eq_lt_iff {s t : String} : compare s t = .lt ↔ ofString s < ofString t := by
  have hbytes : ∀ {s t : String}, compare s t = .lt → ofString s < ofString t := fun h =>
    encode_lt_encode (String.lt_iff.1 (compareOfLessAndEq_eq_lt.1 h))
  constructor
  · exact hbytes
  · intro hlt
    cases hcmp : compare s t with
    | lt => rfl
    | eq =>
      rw [Std.LawfulEqCmp.eq_of_compare hcmp] at hlt
      exact absurd hlt (List.lt_irrefl _)
    | gt => exact absurd hlt (List.lt_asymm (hbytes (Std.OrientedCmp.lt_of_gt hcmp)))

end Switchboard.Utf8
