import Switchboard.Http.Url
import Switchboard.Proofs.Pieces
import Switchboard.Proofs.Utf8

/-!
# Percent escapes

Writing escapes byte by byte, and reading takes a byte or an escape at a time, so that every text is
read back from what is written for it (`Url.decode_encode`). What is written are unreserved
characters and escapes, and so nothing that separates cookies or arguments
(`Url.plain_of_mem_encode`). What can be read are the texts in which two digits stand behind every
percent sign (`Url.isSome_decode_iff`). This is said of characters, while the reader goes by bytes:
a byte of a sign or a digit is never a part of another character. Since neither is a separator, a
text can be read exactly if its pieces can (`Url.wellEscaped_iff_pieces`), and what is read from
bytes is read from the parts around such a byte (`Url.decodeBytes_append_cons`).
-/

namespace Switchboard

namespace Text

/-- The digits of base sixteen in either form. -/
def IsHexDigit (c : Char) : Prop :=
  ('0' ≤ c ∧ c ≤ '9') ∨ ('a' ≤ c ∧ c ≤ 'f') ∨ ('A' ≤ c ∧ c ≤ 'F')

instance : DecidablePred IsHexDigit := fun _ => inferInstanceAs (Decidable (_ ∨ _))

variable {c : Char}

/-- A character has a value exactly if it is a digit. -/
theorem isSome_hexValue?_iff : (hexValue? c).isSome ↔ IsHexDigit c := by
  unfold hexValue? IsHexDigit
  split
  · rename_i h
    simp [h]
  · split
    · rename_i h
      simp [h]
    · split <;> simp_all

theorem IsHexDigit.lt (h : IsHexDigit c) : c.toNat < 0x80 := by
  have hbound : ∀ high : Char, c ≤ high → high.toNat < 0x80 → c.toNat < 0x80 := by
    intro high hc hhigh
    have hle : c.toNat ≤ high.toNat := hc
    omega
  rcases h with h | h | h
  · exact hbound '9' h.2 (by decide)
  · exact hbound 'f' h.2 (by decide)
  · exact hbound 'F' h.2 (by decide)

end Text

namespace Url

variable {c sep : Char} {b high low : UInt8} {bs : Bytes} {s : String} {p cs : List Char}

/-! ## Writing, then reading -/

/-- The digits that are written are read as what they stand for. -/
theorem hexValue?_hexDigitUpper :
    ∀ n < 16, Text.hexValue? (Text.hexDigitUpper n) = some n := by decide

theorem hexDigitUpper_lt : ∀ n < 16, (Text.hexDigitUpper n).toNat < 0x80 := by decide

theorem isUnreserved_hexDigitUpper : ∀ n < 16, isUnreserved (Text.hexDigitUpper n) = true := by
  decide

theorem toNat_ofNat_byte_char (b : UInt8) : (Char.ofNat b.toNat).toNat = b.toNat := by
  have hb : b.toNat < 256 := UInt8.toNat_lt b
  exact Utf8.toNat_ofNat_char (.inl (by omega))

/-- What stands for itself is ASCII, and no blank. -/
theorem bounds_of_isUnreserved (h : isUnreserved c = true) : 0x21 ≤ c.toNat ∧ c.toNat < 0x80 := by
  simp only [isUnreserved, Text.isAlphanumeric, Bool.or_eq_true, Bool.and_eq_true, beq_iff_eq,
    decide_eq_true_eq] at h
  have hrange : ∀ low high : Char, low ≤ c ∧ c ≤ high → 0x21 ≤ low.toNat → high.toNat < 0x80 →
      0x21 ≤ c.toNat ∧ c.toNat < 0x80 := by
    intro low high hc hlow hhigh
    have hle : low.toNat ≤ c.toNat ∧ c.toNat ≤ high.toNat := hc
    omega
  rcases h with (((((h | h) | h) | rfl) | rfl) | rfl) | rfl
  · exact hrange 'a' 'z' h (by decide) (by decide)
  · exact hrange 'A' 'Z' h (by decide) (by decide)
  · exact hrange '0' '9' h (by decide) (by decide)
  all_goals decide

/-- The digits of an escape are read as its byte. -/
theorem escaped?_digits (b : UInt8) :
    escaped? (UInt8.ofNat (Text.hexDigitUpper (b.toNat / 16)).toNat)
      (UInt8.ofNat (Text.hexDigitUpper (b.toNat % 16)).toNat) = some b := by
  have hb : b.toNat < 256 := UInt8.toNat_lt b
  have hdigit : ∀ n < 16, Char.ofNat (UInt8.ofNat (Text.hexDigitUpper n).toNat).toNat =
      Text.hexDigitUpper n := by decide
  unfold escaped?
  rw [hdigit _ (by omega), hdigit _ (by omega), hexValue?_hexDigitUpper _ (by omega),
    hexValue?_hexDigitUpper _ (by omega)]
  show some (UInt8.ofNat (b.toNat / 16 * 16 + b.toNat % 16)) = some b
  rw [Utf8.ofNat_eq_of_toNat (b := b) (by omega)]

/-- A byte that is no percent and no plus stands for itself. -/
theorem decodeBytes_plain (hpercent : b ≠ 0x25) (hplus : b ≠ 0x2B) (bs : Bytes) :
    decodeBytes (b :: bs) = (decodeBytes bs).map (b :: ·) := by
  rw [decodeBytes.eq_def]
  dsimp only
  rw [if_neg hpercent, if_neg hplus]

/-- What is written for a byte is read as that byte. -/
theorem decodeBytes_escape (b : UInt8) (bs : Bytes) :
    decodeBytes (0x25 :: UInt8.ofNat (Text.hexDigitUpper (b.toNat / 16)).toNat ::
      UInt8.ofNat (Text.hexDigitUpper (b.toNat % 16)).toNat :: bs) =
        (decodeBytes bs).map (b :: ·) := by
  rw [decodeBytes.eq_def]
  dsimp only
  rw [if_pos rfl, escaped?_digits]
  cases decodeBytes bs <;> rfl

/-- A byte is read back from the form in which it is written. -/
theorem decodeBytes_encodeByte (b : UInt8) (bs : Bytes) :
    decodeBytes (Utf8.encode (encodeByte b) ++ bs) = (decodeBytes bs).map (b :: ·) := by
  unfold encodeByte
  dsimp only
  cases hplain : isUnreserved (Char.ofNat b.toNat) with
  | true =>
    have hlt : (Char.ofNat b.toNat).toNat < 0x80 := (bounds_of_isUnreserved hplain).2
    have hpercent : b ≠ 0x25 := by
      rintro rfl
      exact absurd hplain (by decide)
    have hplus : b ≠ 0x2B := by
      rintro rfl
      exact absurd hplain (by decide)
    rw [if_pos rfl, Utf8.encode_cons, Utf8.encodeChar_of_lt hlt,
      Utf8.ofNat_eq_of_toNat (toNat_ofNat_byte_char b)]
    exact decodeBytes_plain hpercent hplus bs
  | false =>
    have hb : b.toNat < 256 := UInt8.toNat_lt b
    rw [if_neg Bool.false_ne_true]
    simp only [Utf8.encode_cons]
    rw [Utf8.encodeChar_of_lt (hexDigitUpper_lt _ (by omega)),
      Utf8.encodeChar_of_lt (hexDigitUpper_lt _ (by omega))]
    exact decodeBytes_escape b bs

/-- **What is written is read back**, byte by byte. -/
theorem decodeBytes_encode (bs : Bytes) :
    decodeBytes (Utf8.encode (bs.flatMap encodeByte)) = some bs := by
  induction bs with
  | nil => rfl
  | cons b bs ih =>
    rw [List.flatMap_cons, Utf8.encode_append, decodeBytes_encodeByte, ih]
    rfl

/-- **Escapes.** A text is read back from the form in which it is written. -/
theorem decode_encode (s : String) : decode (encode s) = some s := by
  have hbytes : Utf8.ofString (encode s) = Utf8.encode ((Utf8.ofString s).flatMap encodeByte) := by
    unfold encode
    rw [Utf8.ofString, String.toList_ofList]
  unfold decode
  rw [hbytes, decodeBytes_encode, Option.map_some, Utf8.toStringLossy_ofString]

/-- Only unreserved characters and percent signs are written. -/
theorem mem_encode (h : c ∈ (encode s).toList) : isUnreserved c = true ∨ c = '%' := by
  unfold encode at h
  rw [String.toList_ofList] at h
  obtain ⟨b, -, hc⟩ := List.mem_flatMap.1 h
  have hb : b.toNat < 256 := UInt8.toNat_lt b
  unfold encodeByte at hc
  dsimp only at hc
  split at hc
  · rename_i hplain
    cases List.mem_singleton.1 hc
    exact .inl hplain
  · simp only [List.mem_cons, List.not_mem_nil, or_false] at hc
    rcases hc with rfl | rfl | rfl
    · exact .inr rfl
    · exact .inl (isUnreserved_hexDigitUpper _ (by omega))
    · exact .inl (isUnreserved_hexDigitUpper _ (by omega))

/-- Nothing else than unreserved characters and percents is written. -/
theorem not_mem_encode (hc : isUnreserved c = false) (hne : c ≠ '%') : c ∉ (encode s).toList := by
  intro h
  rcases mem_encode h with hplain | heq
  · rw [hc] at hplain
    cases hplain
  · exact hne heq

/-- None of the characters that are written separates the cookies of a line, or the names and
values in it. -/
theorem plain_of_mem_encode (h : c ∈ (encode s).toList) :
    c ≠ ';' ∧ c ≠ '=' ∧ Text.isBlank c = false := by
  have hbounds : 0x21 ≤ c.toNat ∧ c.toNat < 0x80 := by
    rcases mem_encode h with hplain | rfl
    · exact bounds_of_isUnreserved hplain
    · decide
  refine ⟨?_, ?_, ?_⟩
  · rintro rfl
    exact not_mem_encode (by decide) (by decide) h
  · rintro rfl
    exact not_mem_encode (by decide) (by decide) h
  · simp only [Text.isBlank, Text.blankRanges, List.any_cons, List.any_nil, Bool.or_false,
      Bool.or_eq_false_iff, Bool.and_eq_false_iff, decide_eq_false_iff_not]
    omega

/-- Only nothing is written as nothing. -/
theorem encode_ne_nil (h : s ≠ "") : (encode s).toList ≠ [] := by
  have hbyte : ∀ b, encodeByte b ≠ [] := by
    intro b
    unfold encodeByte
    dsimp only
    split <;> exact List.cons_ne_nil _ _
  unfold encode
  rw [String.toList_ofList]
  obtain ⟨b, bs, hbytes⟩ := List.exists_cons_of_ne_nil (Utf8.ofString_ne_nil h)
  rw [hbytes, List.flatMap_cons]
  exact fun hnil => hbyte b (List.append_eq_nil_iff.1 hnil).1

/-- Of a text that is read from another something is left, if there was something. -/
theorem decode_ne_empty {t : String} (hs : s ≠ "") (h : decode s = some t) : t ≠ "" := by
  obtain ⟨bs, hbs, rfl⟩ := Option.map_eq_some_iff.1 h
  refine Utf8.toStringLossy_ne_empty ?_
  rintro rfl
  obtain ⟨b, rest, hbytes⟩ := List.exists_cons_of_ne_nil (Utf8.ofString_ne_nil hs)
  rw [hbytes, decodeBytes.eq_def] at hbs
  dsimp only at hbs
  split at hbs
  · split at hbs
    · obtain ⟨_, -, hbs⟩ := Option.bind_eq_some_iff.1 hbs
      obtain ⟨_, -, hbs⟩ := Option.bind_eq_some_iff.1 hbs
      cases hbs
    · cases hbs
  · split at hbs
    all_goals
      obtain ⟨_, -, hbs⟩ := Option.map_eq_some_iff.1 hbs
      cases hbs

/-! ## What can be read -/

/-- Whether two digits of base sixteen stand in front. -/
def BeginsWithDigits : List Char → Prop
  | high :: low :: _ => Text.IsHexDigit high ∧ Text.IsHexDigit low
  | _ => False

/-- Whether two digits stand behind every percent sign. -/
def WellEscaped (cs : List Char) : Prop := ∀ after, '%' :: after <:+ cs → BeginsWithDigits after

theorem wellEscaped_nil : WellEscaped [] := by
  intro after h
  cases List.suffix_nil.1 h

/-- A percent wants two digits behind it, and then the rest is looked at. -/
theorem wellEscaped_cons :
    WellEscaped (c :: cs) ↔ (c = '%' → BeginsWithDigits cs) ∧ WellEscaped cs := by
  constructor
  · intro h
    refine ⟨?_, fun after hafter => h after (List.suffix_cons_iff.2 (.inr hafter))⟩
    rintro rfl
    exact h cs List.suffix_rfl
  · rintro ⟨hc, hcs⟩ after hafter
    rcases List.suffix_cons_iff.1 hafter with heq | hafter
    · obtain ⟨rfl, rfl⟩ := List.cons.inj heq
      exact hc rfl
    · exact hcs after hafter

theorem wellEscaped_cons_of_ne (hc : c ≠ '%') : WellEscaped (c :: cs) ↔ WellEscaped cs := by
  rw [wellEscaped_cons]
  exact and_iff_right fun heq => absurd heq hc

theorem ne_percent_of_isHexDigit (h : Text.IsHexDigit c) : c ≠ '%' := by
  rintro rfl
  exact absurd (Text.isSome_hexValue?_iff.2 h) (by decide)

/-- Two characters stand for a byte exactly if both are digits. -/
theorem isSome_escaped?_iff : (escaped? high low).isSome ↔
    Text.IsHexDigit (Char.ofNat high.toNat) ∧ Text.IsHexDigit (Char.ofNat low.toNat) := by
  rw [← Text.isSome_hexValue?_iff, ← Text.isSome_hexValue?_iff]
  unfold escaped?
  cases Text.hexValue? (Char.ofNat high.toNat) with
  | none => exact ⟨nofun, nofun⟩
  | some h =>
    cases Text.hexValue? (Char.ofNat low.toNat) with
    | none => exact ⟨nofun, nofun⟩
    | some l => exact ⟨fun _ => ⟨rfl, rfl⟩, fun _ => rfl⟩

/-- Behind a percent two digits and what follows them have to be read. -/
theorem isSome_decodeBytes_percent : (decodeBytes (0x25 :: bs)).isSome ↔
    ∃ high low rest, bs = high :: low :: rest ∧ (escaped? high low).isSome ∧
      (decodeBytes rest).isSome := by
  rw [decodeBytes.eq_def]
  dsimp only
  rw [if_pos rfl]
  split
  · rename_i high low rest
    constructor
    · intro h
      obtain ⟨c, hc⟩ := Option.isSome_iff_exists.1 h
      obtain ⟨e, he, hc⟩ := Option.bind_eq_some_iff.1 hc
      obtain ⟨ds, hds, hc⟩ := Option.bind_eq_some_iff.1 hc
      exact ⟨high, low, rest, rfl, by rw [he]; rfl, by rw [hds]; rfl⟩
    · rintro ⟨_, _, _, heq, he, hds⟩
      cases heq
      obtain ⟨e, he⟩ := Option.isSome_iff_exists.1 he
      obtain ⟨ds, hds⟩ := Option.isSome_iff_exists.1 hds
      rw [he, hds]
      rfl
  · rename_i hshort
    constructor
    · intro h
      cases h
    · rintro ⟨high, low, rest, heq, -, -⟩
      exact absurd heq (hshort high low rest)

/-- Bytes that are no percent signs stand for themselves, or for a space. -/
theorem isSome_decodeBytes_append (h : 0x25 ∉ bs) (rest : Bytes) :
    (decodeBytes (bs ++ rest)).isSome = (decodeBytes rest).isSome := by
  induction bs with
  | nil => rfl
  | cons b bs ih =>
    rw [List.mem_cons, not_or] at h
    rw [List.cons_append, decodeBytes.eq_def]
    dsimp only
    rw [if_neg (Ne.symm h.1)]
    split
    · rw [Option.isSome_map, ih h.2]
    · rw [Option.isSome_map, ih h.2]

/-- Two bytes of digits in front are two digits in front. -/
theorem exists_digits_of_encode {rest : Bytes} (h : Utf8.encode cs = high :: low :: rest)
    (he : (escaped? high low).isSome) :
    ∃ h l after, cs = h :: l :: after ∧ Text.IsHexDigit h ∧ Text.IsHexDigit l ∧
      Utf8.encode after = rest := by
  obtain ⟨hhigh, hlow⟩ := isSome_escaped?_iff.1 he
  have hlt : ∀ {b : UInt8}, Text.IsHexDigit (Char.ofNat b.toNat) → b.toNat < 0x80 := by
    intro b hb
    rw [← toNat_ofNat_byte_char b]
    exact hb.lt
  obtain ⟨cs', rfl, hcs'⟩ := Utf8.exists_of_encode_eq_cons h (hlt hhigh)
  obtain ⟨after, rfl, hafter⟩ := Utf8.exists_of_encode_eq_cons hcs' (hlt hlow)
  exact ⟨_, _, after, rfl, hhigh, hlow, hafter⟩

/-- The same for the characters of a text, as a digit is a byte of its own. -/
theorem isSome_decodeBytes_encode_percent : (decodeBytes (Utf8.encode ('%' :: cs))).isSome ↔
    ∃ h l after, cs = h :: l :: after ∧ Text.IsHexDigit h ∧ Text.IsHexDigit l ∧
      (decodeBytes (Utf8.encode after)).isSome := by
  have hbytes : Utf8.encode ('%' :: cs) = 0x25 :: Utf8.encode cs := rfl
  rw [hbytes, isSome_decodeBytes_percent]
  constructor
  · rintro ⟨high, low, rest, heq, he, hrest⟩
    obtain ⟨h, l, after, rfl, hh, hl, rfl⟩ := exists_digits_of_encode heq he
    exact ⟨h, l, after, rfl, hh, hl, hrest⟩
  · rintro ⟨h, l, after, rfl, hh, hl, hafter⟩
    have hcode : ∀ {c : Char}, Text.IsHexDigit c → Char.ofNat (UInt8.ofNat c.toNat).toNat = c := by
      intro c hc
      rw [Utf8.toNat_ofNat_byte (by have hlt := hc.lt; omega), Char.ofNat_toNat]
    refine ⟨UInt8.ofNat h.toNat, UInt8.ofNat l.toNat, Utf8.encode after, ?_, ?_, hafter⟩
    · rw [Utf8.encode_cons, Utf8.encode_cons, Utf8.encodeChar_of_lt hh.lt,
        Utf8.encodeChar_of_lt hl.lt]
      rfl
    · rw [isSome_escaped?_iff, hcode hh, hcode hl]
      exact ⟨hh, hl⟩

/-- The digits behind a percent are no percents, so only what follows them is left to look at. -/
theorem wellEscaped_percent : WellEscaped ('%' :: cs) ↔
    ∃ h l after, cs = h :: l :: after ∧ Text.IsHexDigit h ∧ Text.IsHexDigit l ∧
      WellEscaped after := by
  rw [wellEscaped_cons]
  constructor
  · rintro ⟨hdigits, hcs⟩
    match cs, hdigits rfl with
    | h :: l :: after, ⟨hh, hl⟩ =>
      rw [wellEscaped_cons_of_ne (ne_percent_of_isHexDigit hh),
        wellEscaped_cons_of_ne (ne_percent_of_isHexDigit hl)] at hcs
      exact ⟨h, l, after, rfl, hh, hl, hcs⟩
  · rintro ⟨h, l, after, rfl, hh, hl, hafter⟩
    rw [wellEscaped_cons_of_ne (ne_percent_of_isHexDigit hh),
      wellEscaped_cons_of_ne (ne_percent_of_isHexDigit hl)]
    exact ⟨fun _ => ⟨hh, hl⟩, hafter⟩

/-- **A text can be read exactly if every percent in it has two digits behind it.** -/
theorem isSome_decodeBytes_encode_iff (cs : List Char) :
    (decodeBytes (Utf8.encode cs)).isSome ↔ WellEscaped cs := by
  -- on the length of the text, of which the reader takes one character or three at a time
  induction hlen : cs.length using Nat.strongRecOn generalizing cs with
  | ind n ih =>
    cases cs with
    | nil => exact ⟨fun _ => wellEscaped_nil, fun _ => rfl⟩
    | cons c cs =>
      by_cases hc : c = '%'
      · subst hc
        rw [isSome_decodeBytes_encode_percent, wellEscaped_percent]
        refine exists_congr fun h => exists_congr fun l => exists_congr fun after =>
          and_congr_right fun heq => and_congr_right fun _ => and_congr_right fun _ => ?_
        have hlt : after.length < n := by
          rw [heq, List.length_cons, List.length_cons, List.length_cons] at hlen
          omega
        exact ih _ hlt after rfl
      · have hlt : cs.length < n := by
          rw [List.length_cons] at hlen
          omega
        have hplain : 0x25 ∉ Utf8.encodeChar c := by
          have hone : '%' ∉ [c] := mt List.mem_singleton.1 (Ne.symm hc)
          have hnone := Utf8.not_mem_encode_of_lt (c := '%') (by decide) hone
          rw [Utf8.encode_cons] at hnone
          exact fun hmem => hnone (List.mem_append_left _ hmem)
        rw [Utf8.encode_cons, isSome_decodeBytes_append hplain, wellEscaped_cons_of_ne hc]
        exact ih _ hlt cs rfl

/-- **Malformed texts.** A text can be read exactly if two digits stand behind every percent
sign. -/
theorem isSome_decode_iff : (decode s).isSome ↔ WellEscaped s.toList := by
  unfold decode
  rw [Option.isSome_map]
  exact isSome_decodeBytes_encode_iff s.toList

/-- What is written can be read. -/
theorem wellEscaped_encode (s : String) : WellEscaped (encode s).toList := by
  rw [← isSome_decode_iff, decode_encode]
  rfl

/-! ## Reading in parts -/

/-- Bytes without a percent and a plus stand for themselves. -/
theorem decodeBytes_of_plain (h : ∀ b ∈ bs, b ≠ 0x25 ∧ b ≠ 0x2B) : decodeBytes bs = some bs := by
  induction bs with
  | nil => rfl
  | cons b bs ih =>
    obtain ⟨hb, hbs⟩ := List.forall_mem_cons.1 h
    rw [decodeBytes_plain hb.1 hb.2, ih hbs, Option.map_some]

theorem escaped?_eq_none {high low : UInt8} (h : ¬ Text.IsHexDigit (Char.ofNat high.toNat) ∨
    ¬ Text.IsHexDigit (Char.ofNat low.toNat)) : escaped? high low = none := by
  rw [← Option.not_isSome_iff_eq_none, isSome_escaped?_iff]
  exact fun hboth => h.elim (fun hn => hn hboth.1) fun hn => hn hboth.2

theorem decodeBytes_percent (high low : UInt8) (rest : Bytes) :
    decodeBytes (0x25 :: high :: low :: rest) =
      (escaped? high low).bind fun c => (decodeBytes rest).map (c :: ·) := by
  rw [decodeBytes.eq_def]
  dsimp only
  rw [if_pos rfl]
  cases escaped? high low <;> cases decodeBytes rest <;> rfl

/-- A percent near the end of a text cannot be read. -/
theorem decodeBytes_percent_short (h : ∀ high low rest, bs ≠ high :: low :: rest) :
    decodeBytes (0x25 :: bs) = none := by
  rw [decodeBytes.eq_def]
  dsimp only
  rw [if_pos rfl]
  split
  · exact absurd rfl (h _ _ _)
  · rfl

theorem decodeBytes_plus (bs : Bytes) :
    decodeBytes (0x2B :: bs) = (decodeBytes bs).map (0x20 :: ·) := by
  rw [decodeBytes.eq_def]
  rfl

/-- No escape goes across a byte that is neither a percent sign nor the code of a digit. -/
theorem decodeBytes_append_cons (hdigit : ¬ Text.IsHexDigit (Char.ofNat b.toNat))
    (hpercent : b ≠ 0x25) (hplus : b ≠ 0x2B) (as bs : Bytes) :
    decodeBytes (as ++ b :: bs) =
      (decodeBytes as).bind fun cs => (decodeBytes bs).map (cs ++ b :: ·) := by
  induction as using decodeBytes.induct with
  | case1 =>
    rw [List.nil_append, decodeBytes_plain hpercent hplus]
    rfl
  | case2 high low rest ih =>
    simp only [List.cons_append, decodeBytes_percent, ih]
    cases escaped? high low <;> cases decodeBytes rest <;> cases decodeBytes bs <;> rfl
  | case3 as hshort =>
    -- the escape that has begun would have to go across
    have hacross : decodeBytes (0x25 :: (as ++ b :: bs)) = none := by
      match as, hshort with
      | [], _ =>
        cases bs with
        | nil => rfl
        | cons low bs =>
          rw [List.nil_append, decodeBytes_percent, escaped?_eq_none (.inl hdigit)]
          rfl
      | [high], _ =>
        rw [List.singleton_append, decodeBytes_percent, escaped?_eq_none (.inr hdigit)]
        rfl
      | high :: low :: rest, hshort => exact (hshort high low rest rfl).elim
    rw [List.cons_append, hacross, decodeBytes_percent_short hshort]
    rfl
  | case4 as _ ih =>
    rw [List.cons_append, decodeBytes_plus, decodeBytes_plus, ih]
    cases decodeBytes as <;> cases decodeBytes bs <;> rfl
  | case5 a as hother hblank ih =>
    rw [List.cons_append, decodeBytes_plain hother hblank, decodeBytes_plain hother hblank, ih]
    cases decodeBytes as <;> cases decodeBytes bs <;> rfl

/-! ## Pieces of what can be read -/

/-- A separator that is no digit ends the search for digits. -/
theorem beginsWithDigits_append_cons (hsep : ¬ Text.IsHexDigit sep) :
    BeginsWithDigits (p ++ sep :: cs) ↔ BeginsWithDigits p := by
  match p with
  | [] =>
    refine ⟨fun h => ?_, False.elim⟩
    cases cs with
    | nil => exact h
    | cons d cs => exact hsep h.1
  | [h] => exact ⟨fun hdigits => hsep hdigits.2, False.elim⟩
  | h :: l :: p => exact Iff.rfl

/-- No escape goes across a character that is neither a percent sign nor a digit. -/
theorem wellEscaped_append_cons (hsep : ¬ Text.IsHexDigit sep) (hne : sep ≠ '%') :
    WellEscaped (p ++ sep :: cs) ↔ WellEscaped p ∧ WellEscaped cs := by
  induction p with
  | nil =>
    rw [List.nil_append, wellEscaped_cons_of_ne hne]
    exact (and_iff_right wellEscaped_nil).symm
  | cons c p ih =>
    rw [List.cons_append, wellEscaped_cons, wellEscaped_cons, ih,
      beginsWithDigits_append_cons hsep, and_assoc]

/-- A text can be read exactly if all its pieces can. -/
theorem wellEscaped_iff_pieces (hsep : ¬ Text.IsHexDigit sep) (hne : sep ≠ '%') :
    WellEscaped cs ↔ ∀ p ∈ Text.pieces sep cs, WellEscaped p := by
  induction cs using Text.induction_on_pieces sep with
  | last p hp =>
    rw [Text.pieces_of_not_mem hp]
    exact List.forall_mem_singleton.symm
  | more p cs hp ih =>
    rw [Text.pieces_append hp, wellEscaped_append_cons hsep hne, ih]
    exact List.forall_mem_cons.symm

end Url

end Switchboard
