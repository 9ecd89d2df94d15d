import Mathlib.Data.List.TakeWhile
import Switchboard.Proofs.Json.Layouts

/-!
# What a JSON text says

`Json.ofText?` reads a value of any shape. It takes the tokens that the readers of payloads take,
save that a whole number may have any size. Whatever the blanks between the tokens are, it finds
the value that was written (`Json.ofText?_spaced`), and so it does in both layouts, and when blanks
stand in place of the line ends. The induction is on the value; items and members are read one
after another behind commas (`Reader.reads_commas`), and since every level of nesting has a bracket
of its own, the bytes are a bound for the nesting.
-/

namespace Switchboard

open Text (unbroken)
open Utf8 (encode encodeChar)

namespace Json

variable {sp : Spacing} {depth : Nat}

/-! ## Reading any value -/

namespace Reader

/-- Reads a number without a sign. No zeros stand in front of its other digits. -/
def natural : Reader Nat := do
  let run ← takeWhile isDigit
  let digits := run.map fun b => Char.ofNat b.toNat
  if digits.head? = some '0' ∧ digits.length ≠ 1 then stopAhead (.syntactic .invalidNumber)
  else
    match Text.readDigits digits with
    | some n => return n
    | none => stopAhead (.syntactic .invalidNumber)

/-- Reads a whole number of any size. -/
def wholeNumber : Reader Int := do
  match ← peek with
  | some 0x2D => do
    skip
    let n ← natural
    return -(n : Int)
  | _ => do
    let n ← natural
    return (n : Int)

/-- Reads the members of an object, and keeps them in order. -/
def memberList (value : Reader Json) : Reader (List (String × Json)) := do
  let found ← members [] fun name found => do
    colon
    let v ← value
    return (name, v) :: found
  return found.reverse

/-- Reads the characters of a string, after its opening quote. -/
def characters : Reader String := do
  let bytes ← stringBody .characters
  match Utf8.toString? bytes with
  | some s => return s
  | none => stopHere (.syntactic .expectedValue)

/-- Reads a value that nests at most so deep. -/
def value : Nat → Reader Json
  | 0 => stopAhead (.syntactic .expectedValue)
  | nesting + 1 => do
    let b ← first
    if b = 0x6E then do nullWord; return .null
    else if b = 0x74 then do trueWord; return .flag true
    else if b = 0x66 then do falseWord; return .flag false
    else if b = 0x22 then do skip; return .text (← characters)
    else if b = 0x5B then return .array (← bracketed (items (value nesting)) listEnd)
    else if b = 0x7B then return .object (← bracketed (memberList (value nesting)) objectEnd)
    else return .number (← wholeNumber)

/-- Reads a value that nests at most so deep, and sees to it that only blanks follow. -/
def document (nesting : Nat) : Reader Json := do
  let j ← value nesting
  match ← peekPastBlanks with
  | none => return j
  | some _ => stopAhead (.syntactic .trailingCharacters)

end Reader

/-- The value that a text says, with blanks around it, if it says one. There is no more nesting than
there are bytes. -/
def ofText? (source : String) : Option Json :=
  let bytes := Utf8.ofString source
  (Reader.document bytes.length ⟨0, bytes⟩).1.toOption

/-! ## Reading what was written -/

/-- How deep a value nests. -/
def nesting : Json → Nat
  | .array items => deepest items + 1
  | .object members => deepestOf members + 1
  | _ => 1
where
  /-- How deep items nest. -/
  deepest : List Json → Nat
    | [] => 0
    | item :: items => max item.nesting (deepest items)
  /-- How deep the values of members nest. -/
  deepestOf : List (String × Json) → Nat
    | [] => 0
    | m :: members => max m.2.nesting (deepestOf members)

/-- No item nests deeper than the deepest one. -/
theorem nesting_le_deepest {items : List Json} {item : Json} (h : item ∈ items) :
    item.nesting ≤ nesting.deepest items := by
  induction items with
  | nil => cases h
  | cons first items ih =>
    rw [nesting.deepest]
    rcases List.mem_cons.1 h with rfl | h
    · exact Nat.le_max_left _ _
    · exact Nat.le_trans (ih h) (Nat.le_max_right _ _)

theorem nesting_le_deepestOf {members : List (String × Json)} {m : String × Json}
    (h : m ∈ members) : m.2.nesting ≤ nesting.deepestOf members := by
  induction members with
  | nil => cases h
  | cons first members ih =>
    rw [nesting.deepestOf]
    rcases List.mem_cons.1 h with rfl | h
    · exact Nat.le_max_left _ _
    · exact Nat.le_trans (ih h) (Nat.le_max_right _ _)

end Json

/-! ### Numbers -/

namespace Text

/-- No zeros stand in front of the other digits of a number. -/
theorem head?_toDigits_ne {n : Nat} (h : 0 < n) : (Nat.toDigits 10 n).head? ≠ some '0' := by
  induction n using Nat.strongRecOn with
  | ind n ih =>
    by_cases hlt : n < 10
    · have hsmall : ∀ n < 10, 0 < n → [n.digitChar].head? ≠ some '0' := by decide
      rw [Nat.toDigits_of_lt_base hlt]
      exact hsmall n hlt h
    · have hfront := ih (n / 10) (by omega) (by omega)
      obtain ⟨c, cs, hcs⟩ :=
        List.exists_cons_of_ne_nil (Nat.toDigits_ne_nil (n := n / 10) (b := 10))
      rw [Nat.toDigits_of_base_le (by decide) (by omega), hcs]
      rw [hcs] at hfront
      exact hfront

/-- Only zero begins with a zero. -/
theorem length_decimal_of_head? {n : Nat} (h : (decimal n).toList.head? = some '0') :
    (decimal n).toList.length = 1 := by
  rw [toList_decimal] at h ⊢
  rcases Nat.eq_zero_or_pos n with rfl | hpos
  · rfl
  · exact absurd h (head?_toDigits_ne hpos)

end Text

namespace Utf8

/-- ASCII is written with one byte a character. -/
theorem encode_eq_map {cs : List Char} (h : ∀ c ∈ cs, c.toNat < 0x80) :
    encode cs = cs.map fun c => UInt8.ofNat c.toNat := by
  induction cs with
  | nil => rfl
  | cons c cs ih =>
    rw [encode_cons, encodeChar_of_lt (h c List.mem_cons_self),
      ih fun d hd => h d (List.mem_cons_of_mem _ hd)]
    rfl

end Utf8

namespace Json

namespace Reader

variable {rest : Bytes}

/-- Whether no digit comes next. -/
def NoDigit (bs : Bytes) : Prop := ∀ b ∈ bs.head?, isDigit b = false

/-- A run ends in front of a byte that is none of it. -/
theorem reads_run_of_head? {p : UInt8 → Bool} {run : Bytes} (h : ∀ b ∈ run, p b = true)
    (hrest : ∀ b ∈ rest.head?, p b = false) : Reads (takeWhile p) (run ++ rest) run rest := by
  cases rest with
  | nil =>
    have hreads := reads_takeWhile p run
    rw [List.takeWhile_eq_self_iff.2 h, List.dropWhile_eq_nil_iff.2 h] at hreads
    rw [List.append_nil]
    exact hreads
  | cons x rest => exact reads_run h (hrest x rfl) rest

theorem encode_decimal (n : Nat) : encode (Text.decimal n).toList =
    (Text.decimal n).toList.map fun c => UInt8.ofNat c.toNat := by
  refine Utf8.encode_eq_map fun c hc => ?_
  have hdigit := Char.isDigit_iff_toNat.1 (Text.isDigit_of_mem_decimal hc)
  have hnine : ('9' : Char).toNat = 0x39 := rfl
  omega

theorem isDigit_of_mem_encode_decimal {n : Nat} :
    ∀ b ∈ encode (Text.decimal n).toList, isDigit b = true := by
  intro b hb
  rw [encode_decimal] at hb
  obtain ⟨c, hc, rfl⟩ := List.mem_map.1 hb
  obtain ⟨hlow, hhigh⟩ := Char.isDigit_iff_toNat.1 (Text.isDigit_of_mem_decimal hc)
  have hlow : 0x30 ≤ c.toNat := hlow
  have hhigh : c.toNat ≤ 0x39 := hhigh
  have hbyte : (UInt8.ofNat c.toNat).toNat = c.toNat := Utf8.toNat_ofNat_byte (by omega)
  unfold isDigit
  rw [Bool.and_eq_true, decide_eq_true_eq, decide_eq_true_eq, UInt8.le_iff_toNat_le,
    UInt8.le_iff_toNat_le, hbyte]
  exact ⟨hlow, hhigh⟩

/-- The digits come back from their bytes. -/
theorem map_encode_decimal (n : Nat) :
    (encode (Text.decimal n).toList).map (fun b => Char.ofNat b.toNat) =
      (Text.decimal n).toList := by
  rw [encode_decimal, List.map_map]
  refine (List.map_congr_left fun c hc => ?_).trans (List.map_id _)
  have hdigit := Char.isDigit_iff_toNat.1 (Text.isDigit_of_mem_decimal hc)
  have hnine : ('9' : Char).toNat = 0x39 := rfl
  show Char.ofNat (UInt8.ofNat c.toNat).toNat = c
  rw [Utf8.toNat_ofNat_byte (by omega), Char.ofNat_toNat]

/-- **A natural number is read back**, in front of anything that is no digit. -/
theorem reads_natural (n : Nat) (hrest : NoDigit rest) :
    Reads natural (encode (Text.decimal n).toList ++ rest) n rest := by
  refine (reads_run_of_head? (fun b hb => isDigit_of_mem_encode_decimal b hb) hrest).bind ?_
  rw [map_encode_decimal]
  dsimp only
  rw [if_neg fun h => h.2 (Text.length_decimal_of_head? h.1), Text.readDigits_decimal]
  exact reads_pure n rest

/-- A numeral begins with a digit. -/
theorem exists_encode_decimal (n : Nat) :
    ∃ b bs, encode (Text.decimal n).toList = b :: bs ∧ isDigit b = true := by
  have hne : encode (Text.decimal n).toList ≠ [] := by
    rw [encode_decimal, Text.toList_decimal]
    exact mt List.map_eq_nil_iff.1 Nat.toDigits_ne_nil
  obtain ⟨b, bs, hbs⟩ := List.exists_cons_of_ne_nil hne
  exact ⟨b, bs, hbs, isDigit_of_mem_encode_decimal b (hbs ▸ List.mem_cons_self)⟩

theorem encode_digits_of_neg {i : Int} (h : i < 0) :
    encode (digits i) = 0x2D :: encode (Text.decimal i.natAbs).toList := by
  rw [digits_eq, if_pos h, List.singleton_append, Utf8.encode_cons]
  rfl

theorem encode_digits_of_nonneg {i : Int} (h : 0 ≤ i) :
    encode (digits i) = encode (Text.decimal i.natAbs).toList := by
  rw [digits_eq, if_neg (by omega), List.nil_append]

/-- **An integer is read back.** -/
theorem reads_wholeNumber (i : Int) (hrest : NoDigit rest) :
    Reads wholeNumber (encode (digits i) ++ rest) i rest := by
  have hnatural : Reads natural _ i.natAbs rest := reads_natural i.natAbs hrest
  unfold wholeNumber
  by_cases hneg : i < 0
  · have hvalue : -(i.natAbs : Int) = i := by omega
    rw [encode_digits_of_neg hneg]
    refine (reads_peek _).bind ((reads_skip _ _).bind (hnatural.bind ?_))
    rw [hvalue]
    exact reads_pure i rest
  · have hvalue : (i.natAbs : Int) = i := by omega
    rw [encode_digits_of_nonneg (by omega)]
    obtain ⟨b, bs, hbs, hdigit⟩ := exists_encode_decimal i.natAbs
    rw [hbs] at hnatural ⊢
    refine (reads_peek _).bind ?_
    show Reads (match some b with
      | some 0x2D => _
      | _ => _) _ i rest
    split
    · rename_i hminus
      cases hminus
      cases hdigit
    · refine hnatural.bind ?_
      rw [hvalue]
      exact reads_pure i rest

/-! ### Items with commas between them -/

section

variable {α β σ : Type} {step : σ → Reader (σ ⊕ β)} {next : σ → α → σ} {finish : σ → β}
  {started : σ → Prop} {texts : α → List Char} {tail out : Bytes}

/-- Behind an item there is a comma, or what follows them all. -/
theorem noDigit_flatMap (htail : NoDigit tail) (as : List α) :
    NoDigit (encode (as.flatMap fun a => ',' :: texts a) ++ tail) := by
  cases as with
  | nil => exact htail
  | cons a as =>
    intro b hb
    rw [List.flatMap_cons, List.cons_append, Utf8.encode_cons] at hb
    cases hb
    decide

/-- Once an item has been read, the others are read one after another. -/
theorem reads_repeatAlong_commas (as : List α)
    (hmore : ∀ a ∈ as, ∀ s, started s → ∀ rest, NoDigit rest →
      Reads (step s) (0x2C :: (encode (texts a) ++ rest)) (.inl (next s a)) rest)
    (hnext : ∀ s a, started (next s a))
    (hend : ∀ s, started s → Reads (step s) tail (.inr (finish s)) out) (htail : NoDigit tail)
    {bound : Bytes} (hbound : as.length ≤ bound.length) {s : σ} (hs : started s) :
    Reads (repeatAlong step bound s) (encode (as.flatMap fun a => ',' :: texts a) ++ tail)
      (finish (as.foldl next s)) out := by
  induction as generalizing bound s with
  | nil => exact reads_repeatAlong_done (hend s hs)
  | cons a as ih =>
    rw [List.length_cons] at hbound
    have hne : bound ≠ [] := List.ne_nil_of_length_pos (by omega)
    have htailBound : as.length ≤ bound.tail.length := by
      rw [List.length_tail]
      omega
    have hbytes : encode ((a :: as).flatMap fun a => ',' :: texts a) ++ tail =
        0x2C :: (encode (texts a) ++ (encode (as.flatMap fun a => ',' :: texts a) ++ tail)) := by
      rw [List.flatMap_cons, List.cons_append, Utf8.encode_cons, Utf8.encode_append,
        List.append_assoc, List.append_assoc]
      rfl
    rw [hbytes]
    exact reads_repeatAlong_more hne
      (hmore a List.mem_cons_self s hs _ (noDigit_flatMap htail as))
      (ih (fun a' ha' => hmore a' (List.mem_cons_of_mem a ha')) htailBound (hnext s a))

/-- There is at least a comma for each of the other items. -/
theorem length_le_length_flatMap (as : List α) :
    as.length ≤ (encode (as.flatMap fun a => ',' :: texts a)).length := by
  induction as with
  | nil => exact Nat.le_refl 0
  | cons a as ih =>
    rw [List.flatMap_cons, List.cons_append, Utf8.encode_cons, Utf8.encode_append,
      List.length_append, List.length_append, List.length_cons]
    have hcomma : (encodeChar ',').length = 1 := rfl
    omega

/-- Items are read one after another up to what follows them all. -/
theorem reads_commas (started : σ → Prop) (as : List α) {s : σ}
    (hfirst : ∀ a ∈ as, ∀ rest, NoDigit rest →
      Reads (step s) (encode (texts a) ++ rest) (.inl (next s a)) rest)
    (hmore : ∀ a ∈ as, ∀ s, started s → ∀ rest, NoDigit rest →
      Reads (step s) (0x2C :: (encode (texts a) ++ rest)) (.inl (next s a)) rest)
    (hnext : ∀ s a, started (next s a))
    (hend : ∀ s, Reads (step s) tail (.inr (finish s)) out) (htail : NoDigit tail)
    (hne : ∀ a ∈ as, encode (texts a) ≠ []) :
    Reads (iterate step s) (encode (commas (as.map texts)) ++ tail) (finish (as.foldl next s))
      out := by
  refine reads_iterate ?_
  cases as with
  | nil => exact reads_repeatAlong_done (hend s)
  | cons a as =>
    have hbytes : encode (commas ((a :: as).map texts)) ++ tail =
        encode (texts a) ++ (encode (as.flatMap fun a => ',' :: texts a) ++ tail) := by
      rw [List.map_cons, commas_cons, List.flatMap_map, Utf8.encode_append, List.append_assoc]
    have hfront : 0 < (encode (texts a)).length :=
      List.length_pos_iff.2 (hne a List.mem_cons_self)
    have hcommas : as.length ≤ (encode (as.flatMap fun a => ',' :: texts a)).length :=
      length_le_length_flatMap as
    rw [hbytes]
    refine reads_repeatAlong_more (List.append_ne_nil_of_left_ne_nil (hne a List.mem_cons_self) _)
      (hfirst a List.mem_cons_self _ (noDigit_flatMap htail as)) ?_
    refine reads_repeatAlong_commas as (fun a' ha' => hmore a' (List.mem_cons_of_mem a ha')) hnext
      (fun s _ => hend s) htail ?_ (hnext s a)
    rw [List.length_tail, List.length_append, List.length_append]
    omega

end

/-! ### Brackets and commas -/

section

variable {blanks : Bytes} {x : UInt8}

theorem isBlankByte_of_mem_encode {cs : List Char} (h : ∀ c ∈ cs, isBlankChar c = true) :
    ∀ b ∈ encode cs, isBlankByte b = true := by
  intro b hb
  obtain ⟨c, hc, hb⟩ := List.mem_flatMap.1 hb
  have hblank := h c hc
  simp only [isBlankChar, Bool.or_eq_true, beq_iff_eq] at hblank
  rcases hblank with ((rfl | rfl) | rfl) | rfl <;>
    rw [List.mem_singleton.1 hb] <;> decide

/-- The first item stands behind blanks. -/
theorem reads_anotherItem_first (hblanks : ∀ b ∈ blanks, isBlankByte b = true)
    (hx : isBlankByte x = false) (hend : x ≠ 0x5D) (bs : Bytes) :
    Reads (anotherItem false) (blanks ++ x :: bs) true (x :: bs) := by
  refine (reads_peekPastBlanks hblanks hx bs).bind ?_
  dsimp only
  rw [if_neg hend, if_neg fun h => Bool.false_ne_true h.2, if_neg Bool.false_ne_true]
  exact reads_pure true _

/-- Every other item stands behind a comma. -/
theorem reads_anotherItem_more (hblanks : ∀ b ∈ blanks, isBlankByte b = true)
    (hx : isBlankByte x = false) (hend : x ≠ 0x5D) (bs : Bytes) :
    Reads (anotherItem true) (0x2C :: (blanks ++ x :: bs)) true (x :: bs) := by
  refine (reads_peekPastBlanks_cons (by decide) _).bind ?_
  dsimp only
  rw [if_neg (by decide), if_pos ⟨rfl, rfl⟩]
  refine (reads_skip _ _).bind ((reads_peekPastBlanks hblanks hx bs).bind ?_)
  dsimp only
  rw [if_neg hend]
  exact reads_pure true _

/-- A bracket ends the items, be there any or none. -/
theorem reads_noOtherItem (started : Bool) (hblanks : ∀ b ∈ blanks, isBlankByte b = true)
    (bs : Bytes) : Reads (anotherItem started) (blanks ++ 0x5D :: bs) false (0x5D :: bs) :=
  (reads_peekPastBlanks hblanks (by decide) bs).bind (reads_pure false _)

theorem reads_listEnd (bs : Bytes) : Reads listEnd (0x5D :: bs) () bs :=
  (reads_peekPastBlanks_cons (by decide) bs).bind (reads_skip 0x5D bs)

/-- Every other member stands behind a comma. -/
theorem reads_anotherMember_more (hblanks : ∀ b ∈ blanks, isBlankByte b = true) (bs : Bytes) :
    Reads (anotherMember true) (0x2C :: (blanks ++ 0x22 :: bs)) true (0x22 :: bs) := by
  refine (reads_peekPastBlanks_cons (by decide) _).bind ?_
  dsimp only
  rw [if_neg (by decide), if_pos ⟨rfl, rfl⟩]
  refine (reads_skip _ _).bind ((reads_peekPastBlanks hblanks (by decide) bs).bind ?_)
  exact reads_pure true _

end

/-! ### Values -/

section

variable {sp : Spacing} {depth fuel : Nat} {blanks : Bytes}

/-- In front of a closing bracket there are blanks at most. -/
theorem isBlankByte_of_mem_foot {α : Type} (sp : Spacing) (depth : Nat) (parts : List α) :
    ∀ b ∈ encode (sp.foot depth parts), isBlankByte b = true := by
  unfold Spacing.foot
  split
  · exact fun _ => nofun
  · exact isBlankByte_of_mem_encode (sp.isBlank_line depth)

theorem ne_of_isDigit {b x : UInt8} (hb : isDigit b = true) (hx : isDigit x = false) : b ≠ x := by
  rintro rfl
  exact Bool.false_ne_true (hx.symm.trans hb)

theorem isBlankByte_of_isDigit {b : UInt8} (hb : isDigit b = true) : isBlankByte b = false := by
  simp only [isBlankByte, Bool.or_eq_false_iff, beq_eq_false_iff_ne]
  exact ⟨⟨⟨ne_of_isDigit hb (by decide), ne_of_isDigit hb (by decide)⟩,
    ne_of_isDigit hb (by decide)⟩, ne_of_isDigit hb (by decide)⟩

/-- A number begins with a sign or a digit. -/
theorem exists_encode_digits (i : Int) :
    ∃ x bs, encode (digits i) = x :: bs ∧ (x = 0x2D ∨ isDigit x = true) := by
  by_cases hneg : i < 0
  · rw [encode_digits_of_neg hneg]
    exact ⟨_, _, rfl, .inl rfl⟩
  · obtain ⟨b, bs, hbs, hdigit⟩ := exists_encode_decimal i.natAbs
    rw [encode_digits_of_nonneg (by omega)]
    exact ⟨b, bs, hbs, .inr hdigit⟩

/-- A value begins neither with a blank nor with a closing bracket. -/
theorem exists_encode_spaced (sp : Spacing) (depth : Nat) (j : Json) :
    ∃ x bs, encode (spaced sp depth j) = x :: bs ∧ isBlankByte x = false ∧ x ≠ 0x5D := by
  cases j with
  | null => exact ⟨_, _, rfl, by decide, by decide⟩
  | flag b => cases b <;> exact ⟨_, _, rfl, by decide, by decide⟩
  | number i =>
    obtain ⟨x, bs, hbs, rfl | hdigit⟩ := exists_encode_digits i
    · exact ⟨_, bs, hbs, by decide, by decide⟩
    · exact ⟨x, bs, hbs, isBlankByte_of_isDigit hdigit, ne_of_isDigit hdigit (by decide)⟩
  | text s => exact ⟨_, _, rfl, by decide, by decide⟩
  | array items =>
    rw [spaced, Utf8.encode_cons]
    exact ⟨_, _, rfl, by decide, by decide⟩
  | object members =>
    rw [spaced, Utf8.encode_cons]
    exact ⟨_, _, rfl, by decide, by decide⟩

/-- Behind a number there are blanks or the end of what it stands in. -/
theorem noDigit_blanks {x : UInt8} (hblanks : ∀ b ∈ blanks, isBlankByte b = true)
    (hx : isDigit x = false) (bs : Bytes) : NoDigit (blanks ++ x :: bs) := by
  intro b hb
  cases blanks with
  | nil =>
    cases hb
    exact hx
  | cons y blanks =>
    obtain rfl : y = b := Option.some.inj hb
    refine eq_false_of_ne_true fun hdigit => ?_
    exact Bool.false_ne_true ((isBlankByte_of_isDigit hdigit).symm.trans
      (hblanks y List.mem_cons_self))

/-- The items of an array are read back if each of them is. -/
theorem reads_items (sp : Spacing) (depth : Nat) {item : Reader Json} (js : List Json)
    (hitem : ∀ j ∈ js, ∀ rest, NoDigit rest →
      Reads item (encode (spaced sp depth j) ++ rest) j rest)
    (hblanks : ∀ b ∈ blanks, isBlankByte b = true) (rest : Bytes) :
    Reads (items item) (encode (commas (spacedItems sp depth js)) ++ (blanks ++ 0x5D :: rest)) js
      (0x5D :: rest) := by
  have hall : (js.foldl (fun read j => j :: read) []).reverse = js := by
    rw [List.foldl_flip_cons_eq_append', List.append_nil, List.reverse_reverse]
  have hline : ∀ b ∈ encode (sp.line depth), isBlankByte b = true :=
    isBlankByte_of_mem_encode (sp.isBlank_line depth)
  rw [spacedItems_eq_map]
  conv => enter [3]; rw [← hall]
  refine reads_commas (· ≠ []) js ?_ ?_ (fun s a => List.cons_ne_nil a s) ?_
    (noDigit_blanks hblanks (by decide) rest) ?_
  · intro j hj rest hrest
    obtain ⟨x, bs, hbs, hx, hbracket⟩ := exists_encode_spaced sp depth j
    have hread := hitem j hj rest hrest
    rw [hbs] at hread
    rw [Utf8.encode_append, hbs, List.append_assoc]
    exact (reads_anotherItem_first hline hx hbracket _).bind
      (.ite rfl (hread.bind (reads_pure _ _)))
  · intro j hj read hread rest hrest
    obtain ⟨x, bs, hbs, hx, hbracket⟩ := exists_encode_spaced sp depth j
    have hmore := hitem j hj rest hrest
    have hstarted : (!read.isEmpty) = true := by
      rw [List.isEmpty_eq_false_iff.2 hread]
      rfl
    rw [hbs] at hmore
    rw [Utf8.encode_append, hbs, List.append_assoc, hstarted]
    exact (reads_anotherItem_more hline hx hbracket _).bind (.ite rfl (hmore.bind (reads_pure _ _)))
  · exact fun read => (reads_noOtherItem _ hblanks rest).bind (reads_pure _ _)
  · intro j hj
    obtain ⟨x, bs, hbs, -⟩ := exists_encode_spaced sp depth j
    rw [Utf8.encode_append, hbs]
    exact List.append_ne_nil_of_right_ne_nil _ (List.cons_ne_nil x bs)

theorem quoted_append (s : String) (bs rest : Bytes) :
    quoted s bs ++ rest = quoted s (bs ++ rest) := by
  unfold quoted
  rw [List.cons_append, List.append_assoc]
  rfl

theorem encode_quote_append (s : String) (rest : Bytes) :
    encode (quote s) ++ rest = quoted s rest := by
  have hquote := encode_quote s []
  rw [List.append_nil] at hquote
  rw [hquote, quoted_append]
  rfl

/-- A member is its name in quotes, a colon and its value. -/
theorem encode_member (name : String) (cs : List Char) (rest : Bytes) :
    encode (quote name ++ ':' :: cs) ++ rest = quoted name (0x3A :: (encode cs ++ rest)) := by
  rw [encode_quote, Utf8.encode_cons, quoted_append]
  rfl

section

variable {α σ : Type} {member : String → σ → Reader σ} {next : σ → α → σ}
  {part : α → String × Json}

/-- A member is read back if what stands behind its name is. -/
theorem reads_member {key : String} {s s' : σ} {bs : Bytes} (h : Reads (member key s) bs s' rest) :
    Reads (do
      let key ← name
      let s ← member key s
      return .inl (true, s)) (quoted key bs) (.inl (true, s') : (Bool × σ) ⊕ σ) rest :=
  (reads_name _ _).bind (h.bind (reads_pure _ _))

/-- The members of an object are read back one after another if each of them is. -/
theorem reads_members (sp : Spacing) (depth : Nat) (start : σ) (as : List α)
    (hmember : ∀ a ∈ as, ∀ s rest, NoDigit rest →
      Reads (member (part a).1 s)
        (0x3A :: (encode (sp.gap ++ spaced sp depth (part a).2) ++ rest)) (next s a) rest)
    (hblanks : ∀ b ∈ blanks, isBlankByte b = true) (rest : Bytes) :
    Reads (members start member)
      (encode (commas (spacedMembers sp depth (as.map part))) ++ (blanks ++ 0x7D :: rest))
      (as.foldl next start) (0x7D :: rest) := by
  have hline : ∀ b ∈ encode (sp.line depth), isBlankByte b = true :=
    isBlankByte_of_mem_encode (sp.isBlank_line depth)
  have hfold : ∀ s : Bool × σ,
      as.foldl next s.2 = (as.foldl (fun s a => (true, next s.2 a)) s).2 := fun s =>
    List.foldl_hom Prod.snd fun _ _ => rfl
  rw [spacedMembers_eq_map, List.map_map, show as.foldl next start = _ from hfold (false, start)]
  refine reads_commas (·.1 = true) as ?_ ?_ (fun _ _ => rfl) ?_
    (noDigit_blanks hblanks (by decide) rest) ?_
  · intro a ha rest hrest
    rw [Function.comp_apply, Utf8.encode_append, List.append_assoc, encode_member]
    exact (reads_anotherMember hline _).bind
      (.ite rfl (reads_member (hmember a ha start rest hrest)))
  · rintro a ha ⟨started, s⟩ hstarted rest hrest
    obtain rfl : started = true := hstarted
    rw [Function.comp_apply, Utf8.encode_append, List.append_assoc, encode_member]
    exact (reads_anotherMember_more hline _).bind
      (.ite rfl (reads_member (hmember a ha s rest hrest)))
  · rintro ⟨started, s⟩
    exact (reads_noOtherMember started hblanks rest).bind (reads_pure _ _)
  · intro a ha
    rw [Function.comp_apply, Utf8.encode_append, encode_quote]
    exact List.append_ne_nil_of_right_ne_nil _ (List.cons_ne_nil _ _)

end

/-- An object in bytes, with whatever follows it. -/
theorem encode_object_append (sp : Spacing) (depth : Nat) (ms : List (String × Json))
    (rest : Bytes) :
    encode (spaced sp depth (.object ms)) ++ rest = 0x7B ::
      (encode (commas (spacedMembers sp (depth + 1) ms)) ++
        (encode (sp.foot depth ms) ++ 0x7D :: rest)) := by
  rw [spaced, Utf8.encode_cons, Utf8.encode_append, Utf8.encode_append, List.append_assoc,
    List.append_assoc, List.append_assoc]
  rfl

/-- The members of an object are read back if the value of each of them is. -/
theorem reads_memberList (sp : Spacing) (depth : Nat) {value : Reader Json}
    (ms : List (String × Json))
    (hvalue : ∀ m ∈ ms, ∀ blanks rest, (∀ b ∈ blanks, isBlankByte b = true) → NoDigit rest →
      Reads value (blanks ++ (encode (spaced sp depth m.2) ++ rest)) m.2 rest)
    (hblanks : ∀ b ∈ blanks, isBlankByte b = true) (rest : Bytes) :
    Reads (memberList value)
      (encode (commas (spacedMembers sp depth ms)) ++ (blanks ++ 0x7D :: rest)) ms
      (0x7D :: rest) := by
  have hgap : ∀ b ∈ encode sp.gap, isBlankByte b = true := isBlankByte_of_mem_encode sp.isBlank_gap
  have hmembers : Reads (members [] fun key found => do
      colon
      let v ← value
      return (key, v) :: found)
      (encode (commas (spacedMembers sp depth (ms.map id))) ++ (blanks ++ 0x7D :: rest))
      (ms.foldl (fun found m => m :: found) []) (0x7D :: rest) := by
    refine reads_members sp depth [] ms (fun m hm found rest hrest => ?_) hblanks rest
    rw [Utf8.encode_append, List.append_assoc]
    exact (reads_colon _).bind ((hvalue m hm _ rest hgap hrest).bind (reads_pure _ _))
  have hreverse : Reads (pure ms.reverse.reverse) (0x7D :: rest) ms (0x7D :: rest) := by
    rw [List.reverse_reverse]
    exact reads_pure ms _
  rw [List.map_id, List.foldl_flip_cons_eq_append', List.append_nil] at hmembers
  exact hmembers.bind hreverse

/-- A word is read letter by letter. -/
theorem reads_restOfWord (word : List UInt8) (rest : Bytes) :
    Reads (restOfWord word) (word ++ rest) () rest := by
  induction word with
  | nil => exact reads_pure () rest
  | cons b word ih =>
    refine (reads_next b _).bind ?_
    dsimp only
    rw [if_pos rfl]
    exact ih

theorem reads_nullWord (rest : Bytes) :
    Reads nullWord (0x6E :: ([0x75, 0x6C, 0x6C] ++ rest)) () rest :=
  (reads_skip _ _).bind (reads_restOfWord _ rest)

theorem reads_trueWord (rest : Bytes) :
    Reads trueWord (0x74 :: ([0x72, 0x75, 0x65] ++ rest)) () rest :=
  (reads_skip _ _).bind (reads_restOfWord _ rest)

theorem reads_falseWord (rest : Bytes) :
    Reads falseWord (0x66 :: ([0x61, 0x6C, 0x73, 0x65] ++ rest)) () rest :=
  (reads_skip _ _).bind (reads_restOfWord _ rest)

/-- The characters between quotes are read back. -/
theorem reads_characters (s : String) (rest : Bytes) :
    Reads characters (encode (s.toList.flatMap escapeChar) ++ 0x22 :: rest) s rest := by
  refine (reads_stringBody s rest).bind ?_
  rw [Utf8.toString?_ofString]
  exact reads_pure s rest

/-- A number is known by its sign or its first digit. -/
theorem reads_valueOfNumber (hblanks : ∀ b ∈ blanks, isBlankByte b = true) (i : Int)
    (hrest : NoDigit rest) :
    Reads (value (fuel + 1)) (blanks ++ (encode (digits i) ++ rest)) (.number i) rest := by
  have hnumber : Reads wholeNumber (encode (digits i) ++ rest) i rest := reads_wholeNumber i hrest
  obtain ⟨x, bs, hbs, hx⟩ := exists_encode_digits i
  have hblank : isBlankByte x = false := by
    rcases hx with rfl | hdigit
    · decide
    · exact isBlankByte_of_isDigit hdigit
  have hne : ∀ y : UInt8, y ≠ 0x2D → isDigit y = false → x ≠ y := by
    intro y hminus hy
    rcases hx with rfl | hdigit
    · exact hminus.symm
    · exact ne_of_isDigit hdigit hy
  rw [hbs] at hnumber ⊢
  refine (reads_first hblanks hblank _).bind ?_
  rw [if_neg (hne _ (by decide) (by decide)), if_neg (hne _ (by decide) (by decide)),
    if_neg (hne _ (by decide) (by decide)), if_neg (hne _ (by decide) (by decide)),
    if_neg (hne _ (by decide) (by decide)), if_neg (hne _ (by decide) (by decide))]
  exact hnumber.bind (reads_pure _ _)

/-- A text is known by its quotation mark. -/
theorem reads_valueOfText (hblanks : ∀ b ∈ blanks, isBlankByte b = true) (s : String)
    (rest : Bytes) :
    Reads (value (fuel + 1)) (blanks ++ (encode (quote s) ++ rest)) (.text s) rest := by
  rw [encode_quote_append]
  refine (reads_first hblanks (by decide) _).bind ?_
  rw [if_neg (by decide), if_neg (by decide), if_neg (by decide)]
  exact .ite rfl ((reads_skip _ _).bind ((reads_characters s rest).bind (reads_pure _ _)))

/-- An array is known by its bracket, and read back if its items are. -/
theorem reads_valueOfArray (hblanks : ∀ b ∈ blanks, isBlankByte b = true) (items : List Json)
    (hitem : ∀ item ∈ items, ∀ rest, NoDigit rest →
      Reads (value fuel) (encode (spaced sp (depth + 1) item) ++ rest) item rest) (rest : Bytes) :
    Reads (value (fuel + 1)) (blanks ++ (encode (spaced sp depth (.array items)) ++ rest))
      (.array items) rest := by
  have hitems := reads_items sp (depth + 1) items hitem
    (isBlankByte_of_mem_foot sp depth items) rest
  have hbytes : encode (spaced sp depth (.array items)) ++ rest = 0x5B ::
      (encode (commas (spacedItems sp (depth + 1) items)) ++
        (encode (sp.foot depth items) ++ 0x5D :: rest)) := by
    rw [spaced, Utf8.encode_cons, Utf8.encode_append, Utf8.encode_append, List.append_assoc,
      List.append_assoc, List.append_assoc]
    rfl
  rw [hbytes]
  refine (reads_first hblanks (by decide) _).bind ?_
  rw [if_neg (by decide), if_neg (by decide), if_neg (by decide), if_neg (by decide)]
  exact .ite rfl ((hitems.bracketed (reads_listEnd rest)).bind (reads_pure _ _))

/-- An object is known by its brace, and read back if the values of its members are. -/
theorem reads_valueOfObject (hblanks : ∀ b ∈ blanks, isBlankByte b = true)
    (members : List (String × Json))
    (hmember : ∀ m ∈ members, ∀ blanks rest, (∀ b ∈ blanks, isBlankByte b = true) → NoDigit rest →
      Reads (value fuel) (blanks ++ (encode (spaced sp (depth + 1) m.2) ++ rest)) m.2 rest)
    (rest : Bytes) :
    Reads (value (fuel + 1)) (blanks ++ (encode (spaced sp depth (.object members)) ++ rest))
      (.object members) rest := by
  have hmembers := reads_memberList sp (depth + 1) members hmember
    (isBlankByte_of_mem_foot sp depth members) rest
  rw [encode_object_append]
  refine (reads_first hblanks (by decide) _).bind ?_
  rw [if_neg (by decide), if_neg (by decide), if_neg (by decide), if_neg (by decide),
    if_neg (by decide)]
  exact .ite rfl ((hmembers.bracketed (reads_objectEnd rest)).bind (reads_pure _ _))

/-- A value of so little nesting is read back, whatever blanks stand between its tokens. -/
theorem reads_value (sp : Spacing) (j : Json) (hfuel : j.nesting ≤ fuel) (depth : Nat)
    (hblanks : ∀ b ∈ blanks, isBlankByte b = true) (hrest : NoDigit rest) :
    Reads (value fuel) (blanks ++ (encode (spaced sp depth j) ++ rest)) j rest := by
  induction j using induction_on_parts generalizing fuel depth blanks rest with
  | null =>
    obtain ⟨fuel, rfl⟩ := Nat.exists_eq_add_of_le' hfuel
    exact (reads_first hblanks (by decide) _).bind
      (.ite rfl ((reads_nullWord rest).bind (reads_pure _ _)))
  | flag b =>
    obtain ⟨fuel, rfl⟩ := Nat.exists_eq_add_of_le' hfuel
    cases b with
    | true =>
      refine (reads_first hblanks (by decide) _).bind ?_
      rw [if_neg (by decide)]
      exact .ite rfl ((reads_trueWord rest).bind (reads_pure _ _))
    | false =>
      refine (reads_first hblanks (by decide) _).bind ?_
      rw [if_neg (by decide), if_neg (by decide)]
      exact .ite rfl ((reads_falseWord rest).bind (reads_pure _ _))
  | number i =>
    obtain ⟨fuel, rfl⟩ := Nat.exists_eq_add_of_le' hfuel
    exact reads_valueOfNumber hblanks i hrest
  | text s =>
    obtain ⟨fuel, rfl⟩ := Nat.exists_eq_add_of_le' hfuel
    exact reads_valueOfText hblanks s rest
  | array items ih =>
    obtain ⟨fuel, rfl⟩ := Nat.exists_eq_add_of_le' (Nat.le_trans (Nat.le_add_left 1 _) hfuel)
    refine reads_valueOfArray hblanks items (fun item hitem rest hrest => ?_) rest
    have hless : item.nesting ≤ fuel :=
      Nat.le_trans (nesting_le_deepest hitem) (Nat.le_of_succ_le_succ hfuel)
    exact ih item hitem hless (depth + 1) (List.forall_mem_nil _) hrest
  | object members ih =>
    obtain ⟨fuel, rfl⟩ := Nat.exists_eq_add_of_le' (Nat.le_trans (Nat.le_add_left 1 _) hfuel)
    refine reads_valueOfObject hblanks members (fun m hm blanks rest hblanks hrest => ?_) rest
    have hless : m.2.nesting ≤ fuel :=
      Nat.le_trans (nesting_le_deepestOf hm) (Nat.le_of_succ_le_succ hfuel)
    exact ih m hm hless (depth + 1) hblanks hrest

end

/-! ### Whole texts -/

theorem length_le_length_flatMap_of_mem {p : List Char} {pieces : List (List Char)}
    (h : p ∈ pieces) :
    (encode p).length ≤ (encode (pieces.flatMap (',' :: ·))).length := by
  induction pieces with
  | nil => cases h
  | cons q pieces ih =>
    rw [List.flatMap_cons, List.cons_append, Utf8.encode_cons, Utf8.encode_append,
      List.length_append, List.length_append]
    rcases List.mem_cons.1 h with rfl | h
    · omega
    · have hrest := ih h
      omega

/-- No piece is longer than all of them with commas between. -/
theorem length_le_length_commas {p : List Char} {pieces : List (List Char)} (h : p ∈ pieces) :
    (encode p).length ≤ (encode (commas pieces)).length := by
  cases pieces with
  | nil => cases h
  | cons q pieces =>
    rw [commas_cons, Utf8.encode_append, List.length_append]
    rcases List.mem_cons.1 h with rfl | h
    · omega
    · have hrest := length_le_length_flatMap_of_mem h
      omega

/-- Items nest no deeper than a bound on each of them. -/
theorem deepest_le {items : List Json} {n : Nat} (h : ∀ item ∈ items, item.nesting ≤ n) :
    nesting.deepest items ≤ n := by
  induction items with
  | nil => exact Nat.zero_le n
  | cons item items ih =>
    exact Nat.max_le.2 ⟨h item List.mem_cons_self, ih fun i hi => h i (List.mem_cons_of_mem _ hi)⟩

theorem deepestOf_le {members : List (String × Json)} {n : Nat}
    (h : ∀ m ∈ members, m.2.nesting ≤ n) : nesting.deepestOf members ≤ n := by
  induction members with
  | nil => exact Nat.zero_le n
  | cons m members ih =>
    exact Nat.max_le.2 ⟨h m List.mem_cons_self, ih fun m' hm => h m' (List.mem_cons_of_mem _ hm)⟩

/-- There is a bracket for each level of nesting. -/
theorem nesting_le_length (sp : Spacing) (j : Json) (depth : Nat) :
    j.nesting ≤ (encode (spaced sp depth j)).length := by
  have hpos : ∀ (j : Json) (depth : Nat), 1 ≤ (encode (spaced sp depth j)).length := by
    intro j depth
    obtain ⟨x, bs, hbs, -⟩ := exists_encode_spaced sp depth j
    rw [hbs]
    exact Nat.le_add_left 1 bs.length
  induction j using induction_on_parts generalizing depth with
  | null => exact hpos .null depth
  | flag b => exact hpos (.flag b) depth
  | number i => exact hpos (.number i) depth
  | text s => exact hpos (.text s) depth
  | array items ih =>
    have hdeepest : nesting.deepest items ≤
        (encode (commas (spacedItems sp (depth + 1) items))).length := by
      refine deepest_le fun item hitem => ?_
      have hpiece := length_le_length_commas
        (spacedItems_eq_map sp (depth + 1) items ▸ List.mem_map_of_mem hitem)
      rw [Utf8.encode_append, List.length_append] at hpiece
      exact Nat.le_trans (ih item hitem (depth + 1)) (by omega)
    have hbracket : (encodeChar '[').length = 1 := rfl
    show nesting.deepest items + 1 ≤ _
    rw [spaced, Utf8.encode_cons, Utf8.encode_append, List.length_append, List.length_append]
    omega
  | object members ih =>
    have hdeepest : nesting.deepestOf members ≤
        (encode (commas (spacedMembers sp (depth + 1) members))).length := by
      refine deepestOf_le fun m hm => ?_
      have hpiece := length_le_length_commas
        (spacedMembers_eq_map sp (depth + 1) members ▸ List.mem_map_of_mem hm)
      rw [Utf8.encode_append, Utf8.encode_append, Utf8.encode_cons, Utf8.encode_append,
        List.length_append, List.length_append, List.length_append, List.length_append] at hpiece
      exact Nat.le_trans (ih m hm (depth + 1)) (by omega)
    have hbracket : (encodeChar '{').length = 1 := rfl
    show nesting.deepestOf members + 1 ≤ _
    rw [spaced, Utf8.encode_cons, Utf8.encode_append, List.length_append, List.length_append]
    omega

end Reader

/-- **Values are read back.** Whatever blanks stand between the tokens of a text, it says the value
of which it was made. -/
theorem ofText?_spaced (sp : Spacing) (depth : Nat) (j : Json) :
    ofText? (String.ofList (spaced sp depth j)) = some j := by
  have hvalue : Reader.Reads (Reader.value (encode (spaced sp depth j)).length)
      ([] ++ (encode (spaced sp depth j) ++ [])) j [] :=
    Reader.reads_value sp j (Reader.nesting_le_length sp j depth) depth nofun nofun
  rw [List.nil_append, List.append_nil] at hvalue
  have hwhole : Reader.Reads (Reader.document (encode (spaced sp depth j)).length)
      (encode (spaced sp depth j)) j [] :=
    hvalue.bind (Reader.reads_peekPastBlanks_nil.bind (Reader.reads_pure j []))
  obtain ⟨n, hn⟩ := hwhole 0
  unfold ofText? Utf8.ofString
  rw [String.toList_ofList]
  exact congrArg (fun read => read.1.toOption) hn

/-- A value is read back from its text in either layout. -/
theorem ofText?_render (layout : Layout) (j : Json) : ofText? (render layout j) = some j := by
  rw [render_eq_spaced]
  exact ofText?_spaced layout.spacing 0 j

/-- A value is read back from its text when there are blanks in place of the line ends. -/
theorem ofText?_unbroken_render (layout : Layout) (j : Json) :
    ofText? (String.ofList ((render layout j).toList.map unbroken)) = some j := by
  rw [render_eq_spaced, String.toList_ofList, map_unbroken_spaced]
  exact ofText?_spaced _ 0 j

end Json

end Switchboard
