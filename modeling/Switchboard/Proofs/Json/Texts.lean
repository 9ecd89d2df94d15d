import Switchboard.Envelope
import Switchboard.Json.Read
import Switchboard.Json.Write
import Switchboard.Proofs.Utf8

/-!
# Strings are read back from JSON

A string is written with an escape for every character that cannot stand for itself, and is read
in runs of plain bytes with one escape between two runs. `Reader.Reads` says of a reader what it
makes of the bytes to come and what it leaves of them, without the count of the bytes taken, which
matters to faults alone. The main fact is `reads_string`: whatever the characters are, the reader
gets them back from between the quotes. The induction is on the characters; the run of plain ones
that has been passed and not yet been taken is a parameter of it.
-/

namespace Switchboard.Json

open Utf8 (encode encodeChar)

namespace Reader

variable {α β σ : Type} {r : Reader α} {f : α → Reader β} {a : α} {b : β} {x : UInt8}
  {bs bs' mid rest : Bytes}

/-! ## What a reader makes of bytes -/

/-- Wherever it stands, a reader makes a value of the bytes to come and leaves the rest of them. -/
def Reads (r : Reader α) (bs : Bytes) (a : α) (rest : Bytes) : Prop :=
  ∀ n, ∃ n', r ⟨n, bs⟩ = (.ok a, ⟨n', rest⟩)

theorem reads_pure (a : α) (bs : Bytes) : Reads (pure a) bs a bs := fun n => ⟨n, rfl⟩

/-- A reader that fails keeps its place, and nothing is read behind it. -/
theorem bind_eq (r : Reader α) (f : α → Reader β) (c : Cursor) :
    (r >>= f) c = match r c with
      | (.ok a, c) => f a c
      | (.error e, c) => (.error e, c) := rfl

/-- Two readers read one after the other. -/
theorem Reads.bind (h : Reads r bs a mid) (h' : Reads (f a) mid b rest) :
    Reads (r >>= f) bs b rest := by
  intro n
  obtain ⟨m, hm⟩ := h n
  obtain ⟨n', hn'⟩ := h' m
  refine ⟨n', ?_⟩
  rw [bind_eq, hm]
  exact hn'

theorem Reads.ite {c : Prop} [Decidable c] {r' : Reader α} (hc : c) (h : Reads r bs a rest) :
    Reads (if c then r else r') bs a rest := by
  rw [if_pos hc]
  exact h

theorem reads_peek (bs : Bytes) : Reads peek bs bs.head? bs := fun n => ⟨n, rfl⟩

theorem reads_next (x : UInt8) (bs : Bytes) : Reads next (x :: bs) (some x) bs :=
  fun n => ⟨n + 1, rfl⟩

theorem reads_skip (x : UInt8) (bs : Bytes) : Reads skip (x :: bs) () bs :=
  (reads_next x bs).bind (reads_pure () bs)

theorem reads_takeWhile (p : UInt8 → Bool) (bs : Bytes) :
    Reads (takeWhile p) bs (bs.takeWhile p) (bs.dropWhile p) := fun _ => ⟨_, rfl⟩

/-- A run of bytes that satisfy `p` is taken up to the first one that does not. -/
theorem reads_run {p : UInt8 → Bool} {run : Bytes} (h : ∀ b ∈ run, p b = true)
    (hx : p x = false) (bs : Bytes) : Reads (takeWhile p) (run ++ x :: bs) run (x :: bs) := by
  have hreads := reads_takeWhile p (run ++ x :: bs)
  rw [List.takeWhile_append_of_pos h, List.dropWhile_append_of_pos h,
    List.takeWhile_cons_of_neg (by rw [hx]; exact Bool.false_ne_true),
    List.dropWhile_cons_of_neg (by rw [hx]; exact Bool.false_ne_true), List.append_nil] at hreads
  exact hreads

/-- Where nothing fails there is no place to be set. -/
theorem Reads.settle (h : Reads r bs a rest) : Reads (settle r) bs a rest := by
  intro n
  obtain ⟨n', hn'⟩ := h n
  refine ⟨n', ?_⟩
  unfold Reader.settle
  rw [hn']

/-- Between brackets the opening one is skipped, and the closing one has a reader of its own. -/
theorem Reads.bracketed {close : Reader Unit} (h : Reads r bs a mid)
    (hclose : Reads close mid () rest) : Reads (bracketed r close) (x :: bs) a rest := by
  intro n
  obtain ⟨m, hm⟩ := ((reads_skip x bs).bind (f := fun _ => r) h) n
  obtain ⟨n', hn'⟩ := hclose m
  refine ⟨n', ?_⟩
  unfold Reader.bracketed
  rw [hm]
  simp only [hn']

/-! ## Repetitions -/

section

variable {step : σ → Reader (σ ⊕ α)} {s s' : σ} {bound : Bytes}

/-- A loop ends with the step that says so. -/
theorem reads_repeatAlong_done (h : Reads (step s) bs (.inr a) rest) :
    Reads (repeatAlong step bound s) bs a rest := by
  unfold repeatAlong
  exact h.bind (reads_pure a rest)

/-- A loop goes on with what its step has left, and along the bound. -/
theorem reads_repeatAlong_more (hbound : bound ≠ []) (h : Reads (step s) bs (.inl s') mid)
    (h' : Reads (repeatAlong step bound.tail s') mid a rest) :
    Reads (repeatAlong step bound s) bs a rest := by
  cases bound with
  | nil => exact absurd rfl hbound
  | cons x bound =>
    rw [repeatAlong]
    exact h.bind h'

/-- Bytes to come bound how often a step is taken. -/
theorem reads_iterate (h : Reads (repeatAlong step bs s) bs a rest) :
    Reads (iterate step s) bs a rest := fun n => h n

end

/-! ## Blanks -/

/-- Blanks are passed over, and the byte behind them is left there. -/
theorem reads_peekPastBlanks {blanks : Bytes} (h : ∀ b ∈ blanks, isBlankByte b = true)
    (hx : isBlankByte x = false) (bs : Bytes) :
    Reads peekPastBlanks (blanks ++ x :: bs) (some x) (x :: bs) :=
  (reads_run h hx bs).bind (reads_peek (x :: bs))

theorem reads_peekPastBlanks_cons (hx : isBlankByte x = false) (bs : Bytes) :
    Reads peekPastBlanks (x :: bs) (some x) (x :: bs) :=
  (reads_peekPastBlanks (fun _ hb => absurd hb List.not_mem_nil) hx bs :
    Reads _ ([] ++ x :: bs) _ _)

/-- Behind the last byte there is nothing to look at. -/
theorem reads_peekPastBlanks_nil : Reads peekPastBlanks [] none [] :=
  (reads_takeWhile isBlankByte []).bind (reads_peek [])

/-! ## Characters between quotes -/

/-- Whether a character stands for itself. -/
def Plain (c : Char) : Prop := c ≠ '"' ∧ c ≠ '\\' ∧ 0x20 ≤ c.toNat

instance (c : Char) : Decidable (Plain c) := inferInstanceAs (Decidable (_ ∧ _ ∧ _))

/-- The bytes that a run is made of. -/
def isPlainByte (b : UInt8) : Bool :=
  b != 0x22 && b != 0x5C && (0x20 ≤ b || StringMode.characters == .octets)

/-- A plain character has plain bytes only: those of a longer one are all above ASCII. -/
theorem isPlainByte_of_mem {c : Char} (h : Plain c) : ∀ b ∈ encodeChar c, isPlainByte b = true := by
  obtain ⟨hquote, hslash, hlow⟩ := h
  have hplain : ∀ {b : UInt8}, b.toNat ≠ 0x22 → b.toNat ≠ 0x5C → 0x20 ≤ b.toNat →
      isPlainByte b = true := by
    intro b hq hs hl
    have hq' : b ≠ 0x22 := fun heq => hq (congrArg UInt8.toNat heq)
    have hs' : b ≠ 0x5C := fun heq => hs (congrArg UInt8.toNat heq)
    have hl' : (0x20 : UInt8) ≤ b := UInt8.le_iff_toNat_le.2 hl
    simp only [isPlainByte, bne_iff_ne.2 hq', bne_iff_ne.2 hs', decide_eq_true hl', Bool.and_self,
      Bool.true_or]
  intro b hb
  by_cases hascii : c.toNat < 0x80
  · have hne : ∀ {n : Nat}, c ≠ Char.ofNat n → c.toNat ≠ n :=
      fun hn heq => hn (by rw [← heq, Char.ofNat_toNat])
    have hq := hne (n := 0x22) hquote
    have hs := hne (n := 0x5C) hslash
    rw [Utf8.encodeChar_of_lt hascii, List.mem_singleton] at hb
    have hval : b.toNat = c.toNat := by
      rw [hb]
      exact Utf8.toNat_ofNat_byte (by omega)
    exact hplain (by omega) (by omega) (by omega)
  · have hb' := Utf8.le_toNat_of_mem_encodeChar (by omega) hb
    exact hplain (by omega) (by omega) (by omega)

theorem isPlainByte_of_mem_encode {cs : List Char} (h : ∀ c ∈ cs, Plain c) :
    ∀ b ∈ encode cs, isPlainByte b = true := by
  intro b hb
  obtain ⟨c, hc, hb⟩ := List.mem_flatMap.1 hb
  exact isPlainByte_of_mem (h c hc) b hb

/-- A plain character is written as itself. -/
theorem escapeChar_of_plain {c : Char} (h : Plain c) : escapeChar c = [c] := by
  obtain ⟨hquote, hslash, hlow⟩ := h
  have hne : ∀ {d : Char}, d.toNat < 0x20 → c ≠ d := by
    rintro d hd rfl
    omega
  unfold escapeChar
  rw [if_neg hquote, if_neg hslash, if_neg (hne (by decide)), if_neg (hne (by decide)),
    if_neg (hne (by decide)), if_neg (hne (by decide)), if_neg (hne (by decide)),
    if_neg (by omega)]

/-- The digits of a number that are written are read as what they stand for. -/
theorem hexValue?_hexDigit :
    ∀ n < 16, (Text.hexDigit n).toNat < 0x80 ∧ Text.hexValue? (Text.hexDigit n) = some n := by
  decide

/-- Four digits of base sixteen, of which the first two are zeros. -/
theorem reads_hexEscape {n : Nat} (h : n < 256) (rest : Bytes) :
    Reads hexEscape (encode ['0', '0', Text.hexDigit (n / 16), Text.hexDigit (n % 16)] ++ rest) n
      rest := by
  obtain ⟨hlow1, hval1⟩ := hexValue?_hexDigit (n / 16) (by omega)
  obtain ⟨hlow2, hval2⟩ := hexValue?_hexDigit (n % 16) (by omega)
  have hback : ∀ {c : Char}, c.toNat < 0x80 → Char.ofNat (UInt8.ofNat c.toNat).toNat = c := by
    intro c hc
    rw [Utf8.toNat_ofNat_byte (by omega), Char.ofNat_toNat]
  have hzero : Text.hexValue? (Char.ofNat (0x30 : UInt8).toNat) = some 0 := by decide
  have hbytes : encode ['0', '0', Text.hexDigit (n / 16), Text.hexDigit (n % 16)] ++ rest
      = 0x30 :: 0x30 :: UInt8.ofNat (Text.hexDigit (n / 16)).toNat
        :: UInt8.ofNat (Text.hexDigit (n % 16)).toNat :: rest := by
    rw [Utf8.encode_cons, Utf8.encode_cons, Utf8.encode_cons, Utf8.encode_cons,
      Utf8.encodeChar_of_lt hlow1, Utf8.encodeChar_of_lt hlow2]
    rfl
  rw [hbytes]
  refine fun m => ⟨m + 4, ?_⟩
  unfold hexEscape
  simp only [List.mapM_cons, List.mapM_nil, hzero, hback hlow1, hback hlow2, hval1, hval2,
    Option.pure_def, Option.bind_eq_bind, Option.bind_some, List.foldl_cons, List.foldl_nil]
  rw [show (((0 * 16 + 0) * 16 + 0) * 16 + n / 16) * 16 + n % 16 = n by omega]

/-- A code unit below the surrogates is a character. -/
theorem reads_characterPair {n : Nat} (h : n < 0xD800) (rest : Bytes) :
    Reads (characterPair n) rest (encodeChar (Char.ofNat n)) rest := by
  unfold characterPair
  rw [if_neg (by omega), if_pos (Or.inl h)]
  exact reads_pure _ rest

/-- What stands behind the backslash of an escape of one letter. -/
def letters : List (Char × Char) :=
  [('"', '"'), ('\\', '\\'), ('\x08', 'b'), ('\t', 't'), ('\n', 'n'), ('\x0c', 'f'), ('\r', 'r')]

/-- Some characters have a letter of their own. -/
theorem escapeChar_of_mem_letters : ∀ e ∈ letters, escapeChar e.1 = ['\\', e.2] := by decide

/-- Behind a backslash such a letter is read as its character. -/
theorem reads_escape_letter (rest : Bytes) :
    ∀ e ∈ letters, Reads (escape .characters) (encode [e.2] ++ rest) (encodeChar e.1) rest := by
  intro e he
  simp only [letters, List.mem_cons, List.not_mem_nil, or_false] at he
  rcases he with rfl | rfl | rfl | rfl | rfl | rfl | rfl <;>
    exact (reads_next _ rest).bind (reads_pure _ rest)

/-- A character that does not stand for itself is one with a letter, or else one with a number. -/
theorem escapeChar_of_not_plain {c : Char} (h : ¬Plain c) :
    (∃ e ∈ letters, e.1 = c) ∨ c.toNat < 0x20 ∧ escapeChar c =
      ['\\', 'u', '0', '0', Text.hexDigit (c.toNat / 16), Text.hexDigit (c.toNat % 16)] := by
  by_cases hmem : ∃ e ∈ letters, e.1 = c
  · exact .inl hmem
  · have hne : ∀ e ∈ letters, c ≠ e.1 := fun e he heq => hmem ⟨e, he, heq.symm⟩
    have hquote := hne ('"', '"') (by decide)
    have hslash := hne ('\\', '\\') (by decide)
    have hlow : c.toNat < 0x20 := Nat.lt_of_not_le fun hlow => h ⟨hquote, hslash, hlow⟩
    refine .inr ⟨hlow, ?_⟩
    unfold escapeChar
    rw [if_neg hquote, if_neg hslash, if_neg (hne ('\x08', 'b') (by decide)),
      if_neg (hne ('\t', 't') (by decide)), if_neg (hne ('\n', 'n') (by decide)),
      if_neg (hne ('\x0c', 'f') (by decide)), if_neg (hne ('\r', 'r') (by decide)), if_pos hlow]

/-- An escape is a backslash, and the character is read back from what follows it. -/
theorem reads_escape {c : Char} (h : ¬Plain c) (rest : Bytes) :
    ∃ cs, escapeChar c = '\\' :: cs ∧
      Reads (escape .characters) (encode cs ++ rest) (encodeChar c) rest := by
  rcases escapeChar_of_not_plain h with ⟨e, he, rfl⟩ | ⟨hlow, hescape⟩
  · exact ⟨[e.2], escapeChar_of_mem_letters e he, reads_escape_letter rest e he⟩
  · refine ⟨_, hescape, ?_⟩
    have hhex := reads_hexEscape (n := c.toNat) (by omega) rest
    have hpair := reads_characterPair (n := c.toNat) (by omega) rest
    rw [Char.ofNat_toNat] at hpair
    rw [Utf8.encode_cons, List.append_assoc]
    exact (reads_next _ _).bind (hhex.bind hpair)

/-! ## Strings -/

section

variable {plain : Bytes} {pieces : List Bytes}

/-- A quote behind plain bytes ends a string. -/
theorem reads_stringStep_quote (hplain : ∀ b ∈ plain, isPlainByte b = true) (rest : Bytes) :
    Reads (stringStep .characters pieces) (plain ++ 0x22 :: rest)
      (.inr (plain :: pieces).reverse.flatten) rest := by
  refine (reads_run hplain (by decide) rest).bind ((reads_peek _).bind ?_)
  exact (reads_skip _ rest).bind (reads_pure _ rest)

/-- A backslash behind plain bytes begins a character that is read on its own. -/
theorem reads_stringStep_escape {piece : Bytes} (hplain : ∀ b ∈ plain, isPlainByte b = true)
    (h : Reads (escape .characters) bs piece rest) :
    Reads (stringStep .characters pieces) (plain ++ 0x5C :: bs) (.inl (piece :: plain :: pieces))
      rest := by
  refine (reads_run hplain (by decide) bs).bind ((reads_peek _).bind ?_)
  exact (reads_skip _ bs).bind (h.bind (reads_pure _ rest))

/-- The inside of a string is read to its end, with the plain characters `cs` in front of it that
have been passed already. -/
theorem reads_repeatAlong_stringStep {bound : Bytes} (cs ds : List Char) (hcs : ∀ c ∈ cs, Plain c)
    (hbound : ds.length ≤ bound.length) (rest : Bytes) :
    Reads (repeatAlong (stringStep .characters) bound pieces)
      (encode cs ++ (encode (ds.flatMap escapeChar) ++ 0x22 :: rest))
      (pieces.reverse.flatten ++ encode (cs ++ ds)) rest := by
  induction ds generalizing cs pieces bound with
  | nil =>
    have hquote : Reads (stringStep .characters pieces) (encode cs ++ 0x22 :: rest) _ rest :=
      reads_stringStep_quote (isPlainByte_of_mem_encode hcs) rest
    rw [List.reverse_cons, List.flatten_append, List.flatten_singleton] at hquote
    rw [List.append_nil]
    exact reads_repeatAlong_done hquote
  | cons d ds ih =>
    rw [List.flatMap_cons, Utf8.encode_append, List.append_assoc]
    by_cases hd : Plain d
    · -- one more character is passed
      have hcs' : ∀ c ∈ cs ++ [d], Plain c := fun c hc => by
        rcases List.mem_append.1 hc with hc | hc
        · exact hcs c hc
        · rw [List.mem_singleton.1 hc]
          exact hd
      have hmore : Reads (repeatAlong (stringStep .characters) bound pieces) _ _ rest :=
        ih (cs ++ [d]) hcs' (Nat.le_of_succ_le hbound)
      rw [Utf8.encode_append cs [d], List.append_assoc, List.append_assoc,
        List.singleton_append] at hmore
      rw [escapeChar_of_plain hd]
      exact hmore
    · -- the run is taken and the escape behind it
      obtain ⟨letters, hletters, hescape⟩ :=
        reads_escape hd (encode (ds.flatMap escapeChar) ++ 0x22 :: rest)
      rw [List.length_cons] at hbound
      have hne : bound ≠ [] := List.ne_nil_of_length_pos (by omega)
      have htail : ds.length ≤ bound.tail.length := by
        rw [List.length_tail]
        omega
      have hstep : Reads (stringStep .characters pieces) _
          (.inl (encodeChar d :: encode cs :: pieces)) _ :=
        reads_stringStep_escape (isPlainByte_of_mem_encode hcs) hescape
      have hmore : Reads (repeatAlong (stringStep .characters) bound.tail
          (encodeChar d :: encode cs :: pieces)) _ _ rest :=
        ih [] (fun c hc => nomatch hc) htail
      have hpieces : (encodeChar d :: encode cs :: pieces).reverse.flatten ++ encode ([] ++ ds)
          = pieces.reverse.flatten ++ encode (cs ++ d :: ds) := by
        rw [List.reverse_cons, List.reverse_cons, List.flatten_append, List.flatten_append,
          List.flatten_singleton, List.flatten_singleton, List.nil_append, Utf8.encode_append cs,
          Utf8.encode_cons, List.append_assoc, List.append_assoc]
      rw [hpieces] at hmore
      rw [hletters]
      exact reads_repeatAlong_more hne hstep hmore

/-- Every character is written with at least one byte. -/
theorem length_le_length_encode_escape (cs : List Char) :
    cs.length ≤ (encode (cs.flatMap escapeChar)).length := by
  induction cs with
  | nil => exact Nat.le_refl 0
  | cons c cs ih =>
    have hpos : 0 < (encode (escapeChar c)).length := by
      by_cases hc : Plain c
      · rw [escapeChar_of_plain hc, Utf8.encode_cons, List.length_append]
        have := List.length_pos_iff.2 (Utf8.encodeChar_ne_nil c)
        omega
      · obtain ⟨tail, htail, -⟩ := reads_escape hc []
        rw [htail, Utf8.encode_cons, List.length_append]
        exact Nat.lt_of_lt_of_le Nat.one_pos (Nat.le_add_right 1 _)
    rw [List.flatMap_cons, Utf8.encode_append, List.length_append, List.length_cons]
    omega

end

/-- **Strings.** The bytes of a string are read back from between its quotes. -/
theorem reads_stringBody (s : String) (rest : Bytes) :
    Reads (stringBody .characters) (encode (s.toList.flatMap escapeChar) ++ 0x22 :: rest)
      (Utf8.ofString s) rest := by
  have hlen := length_le_length_encode_escape s.toList
  have hbody : Reads (repeatAlong (stringStep .characters)
      (encode (s.toList.flatMap escapeChar) ++ 0x22 :: rest) []) _ _ rest :=
    reads_repeatAlong_stringStep [] s.toList (fun c hc => nomatch hc)
      (by rw [List.length_append]; omega) rest
  exact reads_iterate hbody

/-- **A string is read back**, whatever characters are in it. -/
theorem reads_text (s : String) (rest : Bytes) :
    Reads text (encode (s.toList.flatMap escapeChar) ++ 0x22 :: rest) s rest := by
  have hpure : Reads (pure (Utf8.toStringLossy (Utf8.ofString s))) rest s rest := by
    rw [Utf8.toStringLossy_ofString]
    exact reads_pure s rest
  exact (reads_stringBody s rest).bind hpure

/-! ## Error messages -/

section

variable {blanks : Bytes} {y : UInt8}

/-- The first byte of a value stands behind blanks. -/
theorem reads_first (hblanks : ∀ b ∈ blanks, isBlankByte b = true) (hx : isBlankByte x = false)
    (bs : Bytes) : Reads first (blanks ++ x :: bs) x (x :: bs) :=
  (reads_peekPastBlanks hblanks hx bs).bind (reads_pure x _)

theorem reads_first_cons (hx : isBlankByte x = false) (bs : Bytes) :
    Reads first (x :: bs) x (x :: bs) :=
  (reads_peekPastBlanks_cons hx bs).bind (reads_pure x _)

/-- The bytes of a string with its quotes, and bytes behind them. -/
def quoted (s : String) (rest : Bytes) : Bytes :=
  0x22 :: (encode (s.toList.flatMap escapeChar) ++ 0x22 :: rest)

/-- A quoted string in bytes. -/
theorem encode_quote (s : String) (cs : List Char) :
    encode (quote s ++ cs) = quoted s (encode cs) := by
  unfold quote quoted
  rw [List.cons_append, Utf8.encode_cons, List.append_assoc, Utf8.encode_append,
    List.singleton_append, Utf8.encode_cons]
  rfl

theorem reads_name (s : String) (rest : Bytes) : Reads name (quoted s rest) s rest :=
  (reads_skip 0x22 _).bind (reads_text s rest)

/-- Where a string is wanted a quoted one is read. -/
theorem reads_string (expected : String) (hblanks : ∀ b ∈ blanks, isBlankByte b = true)
    (s : String) (rest : Bytes) :
    Reads (string expected) (blanks ++ quoted s rest) s rest :=
  ((reads_first hblanks (by decide) _).bind ((reads_skip 0x22 _).bind (reads_text s rest))).settle

theorem reads_colon (bs : Bytes) : Reads colon (0x3A :: bs) () bs :=
  (reads_peekPastBlanks_cons (by decide) bs).bind
    (reads_skip 0x3A bs)

/-- A quote begins the first member. -/
theorem reads_anotherMember (hblanks : ∀ b ∈ blanks, isBlankByte b = true) (bs : Bytes) :
    Reads (anotherMember false) (blanks ++ 0x22 :: bs) true (0x22 :: bs) :=
  (reads_peekPastBlanks hblanks (by decide) bs).bind (reads_pure true _)

/-- A brace ends the members, be there any or none. -/
theorem reads_noOtherMember (started : Bool) (hblanks : ∀ b ∈ blanks, isBlankByte b = true)
    (bs : Bytes) : Reads (anotherMember started) (blanks ++ 0x7D :: bs) false (0x7D :: bs) :=
  (reads_peekPastBlanks hblanks (by decide) bs).bind (reads_pure false _)

theorem reads_objectEnd (bs : Bytes) : Reads objectEnd (0x7D :: bs) () bs :=
  (reads_peekPastBlanks_cons (by decide) bs).bind
    (reads_skip 0x7D bs)

/-- A record of one text is read from an object with that one member, whatever blanks stand
between its tokens. -/
theorem reads_record (typeName field : String) (presence : Presence) (s : String)
    (before between behind : Bytes) (hbefore : ∀ b ∈ before, isBlankByte b = true)
    (hbetween : ∀ b ∈ between, isBlankByte b = true) (hbehind : ∀ b ∈ behind, isBlankByte b = true)
    (rest : Bytes) :
    Reads (Shape.record typeName (.field field .text presence .done)).readJson
      (0x7B :: (before ++ quoted field (0x3A :: (between ++ quoted s (behind ++ 0x7D :: rest)))))
      (s, ()) rest := by
  let fields : Fields := .field field .text presence .done
  let body := between ++ quoted s (behind ++ 0x7D :: rest)
  have hmember : Reads (fields.readMember field fields.unread) (0x3A :: body) (some s, ())
      (behind ++ 0x7D :: rest) :=
    .ite rfl ((reads_colon _).bind ((reads_string "a string" hbetween s _).bind
      (reads_pure (some s, ()) _)))
  -- the one member, then the brace in place of another one
  have hmembers : Reads (members fields.unread fun key slots => fields.readMember key slots)
      (before ++ quoted field (0x3A :: body)) (some s, ()) (0x7D :: rest) := by
    have hne : before ++ quoted field (0x3A :: body) ≠ [] :=
      List.append_ne_nil_of_right_ne_nil _ (List.cons_ne_nil _ _)
    let behindMember : Bool × fields.Slots := (true, some s, ())
    refine reads_iterate ?_
    apply reads_repeatAlong_more hne
    · exact (reads_anotherMember hbefore _).bind ((reads_name field _).bind
        (hmember.bind (reads_pure (Sum.inl behindMember) _)))
    · refine reads_repeatAlong_done (s := behindMember) ?_
      exact (reads_noOtherMember true hbehind rest).bind (reads_pure _ _)
  refine Reads.settle ((reads_first_cons (by decide) _).bind ?_)
  refine Reads.bracketed ?_ (reads_objectEnd rest)
  exact hmembers.bind (reads_pure (s, ()) _)

end

end Reader

end Switchboard.Json

namespace Switchboard

open Json.Reader (Reads encode_quote reads_record)

/-- Behind a value that is the whole text nothing is left to be read. -/
theorem Shape.reads_whole {shape : Shape} {bytes : Bytes} {data : shape.Data}
    (h : Reads shape.readJson bytes data []) :
    Reads (do
      let data ← shape.readJson
      match ← Json.Reader.peekPastBlanks with
      | none => return data
      | some _ => Json.Reader.stopAhead (.syntactic .trailingCharacters)) bytes data [] :=
  h.bind (Json.Reader.reads_peekPastBlanks_nil.bind (Json.Reader.reads_pure data []))

/-- What a reader makes of all bytes of a text is what the text says. -/
theorem Shape.ofJsonText_of_reads {shape : Shape} {source : String} {data : shape.Data}
    (h : Reads shape.readJson (Utf8.ofString source) data []) :
    shape.ofJsonText source = .ok data := by
  obtain ⟨n, hn⟩ := reads_whole h 0
  have hfst := congrArg Prod.fst hn
  unfold Shape.ofJsonText
  dsimp only
  split
  · rename_i data' hok
    exact congrArg Except.ok (Except.ok.inj (hok.symm.trans hfst))
  · rename_i halt herror
    cases herror.symm.trans hfst

/-- **Error messages.** Whatever it says, an error message is read back from its JSON. -/
theorem ofJsonText_errorMessage (layout : Json.Layout) (message : String) :
    ∃ text, toJsonText layout (⟨message⟩ : ErrorMessage) = .ok text ∧
      ofJsonText text = .ok (⟨message⟩ : ErrorMessage) := by
  let json : Json := .object [("error_msg", .text message)]
  have hread : (Payload.shape ErrorMessage).ofJsonText (json.render layout) =
      .ok (message, ()) := by
    refine Shape.ofJsonText_of_reads ?_
    unfold Json.render Utf8.ofString
    rw [String.toList_ofList]
    cases layout with
    | compact =>
      have hchars : json.compact =
          '\x7b' :: (Json.quote "error_msg" ++ ':' :: (Json.quote message ++ ['\x7d'])) := by
        simp [json, Json.compact, Json.compactMembers, Json.commas]
      rw [hchars, Utf8.encode_cons, encode_quote, Utf8.encode_cons, encode_quote]
      exact reads_record "ErrorMessage" "error_msg" .required message [] [] [] nofun nofun nofun []
    | pretty =>
      have hchars : json.pretty 0 = '\x7b' :: '\n' :: ' ' :: ' ' ::
          (Json.quote "error_msg" ++ ':' :: ' ' :: (Json.quote message ++ ['\n', '\x7d'])) := by
        simp [json, Json.pretty, Json.prettyMembers, Json.stacked, Json.commas, Json.newline]
      rw [hchars]
      simp only [Utf8.encode_cons, encode_quote]
      exact reads_record "ErrorMessage" "error_msg" .required message [0x0A, 0x20, 0x20] [0x20]
        [0x0A] (List.all_eq_true.1 (by decide)) (List.all_eq_true.1 (by decide))
        (List.all_eq_true.1 (by decide)) []
  exact ⟨json.render layout, rfl, congrArg (Except.map Payload.ofData) hread⟩

end Switchboard
