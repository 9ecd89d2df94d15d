import Switchboard.MessagePack.Read
import Switchboard.MessagePack.Write
import Switchboard.Proofs.Utf8

/-!
# The heads of MessagePack values

Two statements about readers are used throughout. `Reads r bs a` says that a reader takes exactly
the bytes `bs`, whatever follows them, and gives `a`; it is how a round trip is stated, and it is
closed under sequencing (`Reads.bind`). `Yields r P` says that whatever a reader gives has a
property, from whatever bytes; it is how one says what a lenient reader lets through.

A head is written in the shortest form, and the reader takes every form, so for each head that is
written there is one lemma that says that it is read back (`reads_head_nat` and the like). The
other way round, a length takes at most four bytes, so no head that is read announces `2 ^ 32` or
more of anything (`yields_head`).
-/

namespace Switchboard

/-! ## Big-endian numbers -/

/-- Digits stand for a number below the weight of the next digit. -/
theorem Bytes.toNat_lt (bs : Bytes) : Bytes.toNat bs < 256 ^ bs.length := by
  induction bs with
  | nil => exact Nat.one_pos
  | cons b bs ih =>
    have hb := b.toNat_lt
    have hcons : Bytes.toNat (b :: bs) = b.toNat * 256 ^ bs.length + Bytes.toNat bs := by
      have happ := Bytes.toNat_append [b] bs
      rw [List.singleton_append] at happ
      rw [happ]
      simp [Bytes.toNat]
    have hdigit : b.toNat * 256 ^ bs.length ≤ 255 * 256 ^ bs.length :=
      Nat.mul_le_mul_right _ (by omega)
    rw [hcons, List.length_cons, Nat.pow_succ]
    omega

namespace MessagePack.Reader

variable {α β σ : Type} {r : Reader α} {f : α → Reader β} {bs bs' : Bytes} {a : α} {b : β}
  {P Q : α → Prop} {n width : Nat}

/-! ## What a reader takes -/

/-- Whether a reader takes exactly some bytes, whatever follows them, and gives a value. -/
def Reads (r : Reader α) (bs : Bytes) (a : α) : Prop := ∀ rest, r (bs ++ rest) = .ok (a, rest)

theorem Reads.pure (a : α) : Reads (pure a) [] a := fun _ => rfl

/-- A reader that takes nothing may be known to give its result only by an equation. -/
theorem Reads.pure_eq {a' : α} (h : a = a') : Reads (Pure.pure a) [] a' := h ▸ Reads.pure a

/-- What two readers take one after the other stands together. -/
theorem Reads.bind (hr : Reads r bs a) (hf : Reads (f a) bs' b) :
    Reads (r >>= f) (bs ++ bs') b := by
  intro rest
  rw [List.append_assoc]
  show (r (bs ++ (bs' ++ rest)) >>= fun p => f p.1 p.2) = _
  rw [hr]
  exact hf rest

/-- A reader that goes on without taking more. -/
theorem Reads.bind_nil (hr : Reads r bs a) (hf : Reads (f a) [] b) : Reads (r >>= f) bs b := by
  have h := hr.bind hf
  rwa [List.append_nil] at h

/-- A reader that begins without taking anything. -/
theorem Reads.nil_bind (hr : Reads r [] a) (hf : Reads (f a) bs b) : Reads (r >>= f) bs b :=
  hr.bind hf

theorem take_apply (n : Nat) (s : Bytes) :
    take n s = if (s.take n).length < n then .error .ended else .ok (s.take n, s.drop n) := by
  show (if (s.take n).length < n then _ else _ : Reader Bytes) s = _
  split <;> rfl

theorem reads_byte (b : UInt8) : Reads byte [b] b := fun _ => rfl

/-- Bytes are taken if there are as many as are asked for. -/
theorem reads_take (h : bs.length = n) : Reads (take n) bs bs := by
  intro rest
  have hfront : (bs ++ rest).take n = bs := by rw [← h, List.take_left]
  have hback : (bs ++ rest).drop n = rest := by rw [← h, List.drop_left]
  rw [take_apply, hfront, hback, if_neg (by omega)]

/-- A big-endian number of so many bytes is read as itself. -/
theorem reads_word (h : n < 256 ^ width) : Reads (word width) (Bytes.bigEndian width n) n := by
  have htake := reads_take (Bytes.length_bigEndian width n)
  exact htake.bind_nil (Reads.pure_eq (Bytes.toNat_bigEndian h))

/-- Items that are read one by one are read one after another. -/
theorem reads_repeatN {item : Reader α} {enc : α → Bytes} (as : List α)
    (h : ∀ a ∈ as, Reads item (enc a) a) :
    Reads (repeatN item as.length) (as.flatMap enc) as := by
  induction as with
  | nil => exact Reads.pure []
  | cons a as ih =>
    have hhead := h a (List.mem_cons_self ..)
    have htail := ih fun a' ha' => h a' (List.mem_cons_of_mem a ha')
    rw [List.flatMap_cons]
    exact hhead.bind (htail.bind_nil (Reads.pure _))

/-- Items that each change a value are read one after another. -/
theorem reads_foldN {item : σ → Reader σ} {enc : α → Bytes} {step : σ → α → σ} (as : List α)
    (h : ∀ a ∈ as, ∀ s, Reads (item s) (enc a) (step s a)) (s : σ) :
    Reads (foldN item as.length s) (as.flatMap enc) (as.foldl step s) := by
  induction as generalizing s with
  | nil => exact Reads.pure s
  | cons a as ih =>
    have hhead := h a (List.mem_cons_self ..) s
    have htail := ih (fun a' ha' => h a' (List.mem_cons_of_mem a ha')) (step s a)
    rw [List.flatMap_cons, List.foldl_cons]
    exact hhead.bind htail

/-- Another level of nesting takes room and no bytes. -/
theorem reads_inside {room : Nat} (h : 1 < room) : Reads (inside room) [] (room - 1) := by
  intro rest
  show (if room ≤ 1 then _ else _ : Reader Nat) rest = _
  rw [if_neg (by omega)]
  rfl

/-! ## What a reader lets through -/

/-- Whether all that a reader can give has a property. -/
def Yields (r : Reader α) (P : α → Prop) : Prop := ∀ bs a rest, r bs = .ok (a, rest) → P a

theorem Yields.mono (h : Yields r P) (hPQ : ∀ a, P a → Q a) : Yields r Q :=
  fun bs a rest hr => hPQ a (h bs a rest hr)

/-- Of whatever is read something holds. -/
theorem Yields.trivial (r : Reader α) : Yields r fun _ => True := fun _ _ _ _ => True.intro

theorem Yields.pure (h : P a) : Yields (pure a) P := by
  intro bs a' rest hr
  cases hr
  exact h

theorem Yields.throw (e : Fault) : Yields (throw e : Reader α) P := by
  intro bs a rest hr
  cases hr

/-- What the first reader lets through is what the second one may rely on. -/
theorem Yields.bind {Q : β → Prop} (hr : Yields r P) (hf : ∀ a, P a → Yields (f a) Q) :
    Yields (r >>= f) Q := by
  intro bs b rest h
  have h : (r bs >>= fun p => f p.1 p.2) = .ok (b, rest) := h
  cases hrun : r bs with
  | error e =>
    rw [hrun] at h
    cases h
  | ok p =>
    rw [hrun] at h
    exact hf p.1 (hr bs p.1 p.2 hrun) p.2 b rest h

/-- A reader of which nothing is known in front of one of which something is. -/
theorem Yields.bind_right {Q : β → Prop} (hf : ∀ a, Yields (f a) Q) : Yields (r >>= f) Q :=
  (Yields.trivial r).bind fun a _ => hf a

theorem Yields.ite {c : Prop} [Decidable c] {r' : Reader α} (h : Yields r P)
    (h' : Yields r' P) : Yields (if c then r else r') P := by
  split
  · exact h
  · exact h'

theorem yields_take (n : Nat) : Yields (take n) fun bs => bs.length = n := by
  intro s bs rest h
  rw [take_apply] at h
  split at h
  · cases h
  · rename_i hlen
    injection h with h
    injection h with hfront _
    rw [← hfront]
    have hle := List.length_take_le n s
    omega

/-- A number of so many bytes is below the bound for them. -/
theorem yields_word (width : Nat) : Yields (word width) (· < 256 ^ width) := by
  refine (yields_take width).bind fun bs hbs => Yields.pure ?_
  rw [← hbs]
  exact Bytes.toNat_lt bs

/-- A repeated reader gives as many results as it is asked for, each as it gives one. -/
theorem yields_repeatN {item : Reader α} (h : Yields item P) (n : Nat) :
    Yields (repeatN item n) fun as => as.length = n ∧ ∀ a ∈ as, P a := by
  induction n with
  | zero => exact Yields.pure ⟨rfl, fun a ha => absurd ha (List.not_mem_nil)⟩
  | succ n ih =>
    refine h.bind fun a ha => ih.bind fun as has => Yields.pure ⟨?_, ?_⟩
    · rw [List.length_cons, has.1]
    · intro a' ha'
      rcases List.mem_cons.1 ha' with rfl | ha'
      · exact ha
      · exact has.2 a' ha'

/-- What every item keeps, with a count that every item raises by one, holds behind all items. -/
theorem yields_foldN {item : σ → Reader σ} {I : Nat → σ → Prop}
    (h : ∀ k s, I k s → Yields (item s) (I (k + 1))) (n k : Nat) (s : σ) (hs : I k s) :
    Yields (foldN item n s) (I (k + n)) := by
  induction n generalizing k s with
  | zero => exact Yields.pure hs
  | succ n ih =>
    refine (h k s hs).bind fun s' hs' => ?_
    rw [Nat.add_succ, ← Nat.succ_add]
    exact ih (k + 1) s' hs'

/-! ## Heads that are written -/

/-- A small number is its own marker. -/
theorem ofByte_fixPos (h : n < 2 ^ 7) : Marker.ofByte (UInt8.ofNat n) = .fixPos n := by
  unfold Marker.ofByte
  rw [Utf8.toNat_ofNat_byte (by omega)]
  simp only
  rw [if_pos (by omega)]

theorem ofByte_fixMap (h : n < 2 ^ 4) : Marker.ofByte (UInt8.ofNat (0x80 + n)) = .fixMap n := by
  unfold Marker.ofByte
  rw [Utf8.toNat_ofNat_byte (by omega)]
  simp only
  rw [if_neg (by omega), if_pos (by omega), Nat.add_sub_cancel_left]

theorem ofByte_fixArray (h : n < 2 ^ 4) :
    Marker.ofByte (UInt8.ofNat (0x90 + n)) = .fixArray n := by
  unfold Marker.ofByte
  rw [Utf8.toNat_ofNat_byte (by omega)]
  simp only
  rw [if_neg (by omega), if_neg (by omega), if_pos (by omega), Nat.add_sub_cancel_left]

theorem ofByte_fixStr (h : n < 2 ^ 5) : Marker.ofByte (UInt8.ofNat (0xA0 + n)) = .fixStr n := by
  unfold Marker.ofByte
  rw [Utf8.toNat_ofNat_byte (by omega)]
  simp only
  rw [if_neg (by omega), if_neg (by omega), if_neg (by omega), if_pos (by omega),
    Nat.add_sub_cancel_left]

/-- Small negative numbers are written in two's complement. -/
theorem ofByte_fixNeg (h : n < 2 ^ 5) :
    Marker.ofByte (UInt8.ofNat (2 ^ 8 - 1 - n)) = .fixNeg (.negSucc n) := by
  unfold Marker.ofByte
  rw [Utf8.toNat_ofNat_byte (by omega)]
  simp only
  -- small negative numbers are the last kind of marker
  iterate 16 rw [if_neg (by omega)]
  congr 1
  omega

/-- A head is its marker and what belongs to the marker. -/
theorem reads_head {byte : UInt8} {m : Marker} {h : Head} (hm : Marker.ofByte byte = m)
    (hr : Reads (headOf m) bs h) : Reads head (byte :: bs) (m, h) := by
  subst hm
  exact (reads_byte byte).bind (hr.bind_nil (Reads.pure _))

/-- A length in front of as many bytes. -/
theorem reads_sized {g : Bytes → Head} (h : bs.length < 256 ^ width) :
    Reads (do let n ← word width; return g (← take n))
      (Bytes.bigEndian width bs.length ++ bs) (g bs) :=
  (reads_word h).bind ((reads_take rfl).bind_nil (Reads.pure _))

/-- A natural number is read from whichever of its forms is the shortest. -/
theorem reads_head_nat (h : n < 2 ^ 64) : ∃ m, Reads head (nat n) (m, .nat n) := by
  have hword : ∀ {width : Nat}, n < 256 ^ width →
      Reads (headOf (.unsigned width)) (Bytes.bigEndian width n) (.nat n) :=
    fun hlt => (reads_word hlt).bind_nil (Reads.pure _)
  unfold nat
  split
  · rename_i hlt
    exact ⟨_, reads_head (ofByte_fixPos hlt) (Reads.pure _)⟩
  · split
    · exact ⟨_, reads_head (m := .unsigned 1) rfl (hword (by omega))⟩
    · split
      · exact ⟨_, reads_head (m := .unsigned 2) rfl (hword (by omega))⟩
      · split
        · exact ⟨_, reads_head (m := .unsigned 4) rfl (hword (by omega))⟩
        · exact ⟨_, reads_head (m := .unsigned 8) rfl (hword (by omega))⟩

/-- Two's complement undone, for a number of so many bits. -/
theorem signedWord_of_negSucc {bits : Nat} (hbits : bits = 8 * width) (h : n < 2 ^ (bits - 1))
    (hpos : 0 < bits) : signedWord width (2 ^ bits - 1 - n) = .negSucc n := by
  have hdouble : 2 ^ bits = 2 ^ (bits - 1) + 2 ^ (bits - 1) := by
    rw [← Nat.two_mul, ← Nat.pow_succ']
    congr 1
    omega
  unfold signedWord
  rw [← hbits, if_neg (by omega)]
  have hcast : ((2 ^ bits - 1 - n : Nat) : Int) = (2 ^ bits : Nat) - 1 - n := by omega
  rw [hcast, Int.negSucc_eq]
  push_cast
  omega

/-- A negative number is read from whichever of its forms is the shortest. -/
theorem reads_head_negative (h : n < 2 ^ 63) :
    ∃ m, Reads head (negative n) (m, .int (.negSucc n)) := by
  have hword : ∀ {width : Nat} (bits : Nat), bits = 8 * width → 0 < bits → n < 2 ^ (bits - 1) →
      Reads (headOf (.signed width)) (Bytes.bigEndian width (2 ^ bits - 1 - n))
        (.int (.negSucc n)) := by
    intro width bits hbits hpos hlt
    -- the complement of a number takes as many bits as it
    have hfits : 2 ^ bits - 1 - n < 256 ^ width := by
      rw [show 256 = 2 ^ 8 from rfl, ← Nat.pow_mul, ← hbits]
      have := Nat.two_pow_pos bits
      omega
    rw [← signedWord_of_negSucc hbits hlt hpos]
    exact (reads_word hfits).bind_nil (Reads.pure _)
  unfold negative
  split
  · rename_i hlt
    exact ⟨_, reads_head (ofByte_fixNeg hlt) (Reads.pure _)⟩
  · split
    · exact ⟨_, reads_head (m := .signed 1) rfl (hword 8 rfl (by omega) (by omega))⟩
    · split
      · exact ⟨_, reads_head (m := .signed 2) rfl (hword 16 rfl (by omega) (by omega))⟩
      · split
        · exact ⟨_, reads_head (m := .signed 4) rfl (hword 32 rfl (by omega) (by omega))⟩
        · exact ⟨_, reads_head (m := .signed 8) rfl (hword 64 rfl (by omega) (by omega))⟩

/-- The head of a text says its length, in as many bytes as that needs. -/
theorem reads_head_text (h : bs.length < 2 ^ 32) :
    ∃ m, Reads head (text bs) (m, .text bs) := by
  unfold text
  simp only
  split
  · rename_i hlt
    rw [List.singleton_append]
    exact ⟨_, reads_head (ofByte_fixStr hlt) ((reads_take rfl).bind_nil (Reads.pure _))⟩
  · split
    · exact ⟨_, reads_head (m := .str 1) rfl (reads_sized (by omega))⟩
    · split
      · exact ⟨_, reads_head (m := .str 2) rfl (reads_sized (by omega))⟩
      · exact ⟨_, reads_head (m := .str 4) rfl (reads_sized (by omega))⟩

/-- The head of a byte string says its length. -/
theorem reads_head_octets (h : bs.length < 2 ^ 32) :
    ∃ m, Reads head (MessagePack.octets bs) (m, .octets bs) := by
  unfold MessagePack.octets
  simp only
  split
  · exact ⟨_, reads_head (m := .bin 1) rfl (reads_sized (by omega))⟩
  · split
    · exact ⟨_, reads_head (m := .bin 2) rfl (reads_sized (by omega))⟩
    · exact ⟨_, reads_head (m := .bin 4) rfl (reads_sized (by omega))⟩

/-- The head of an array says how many items there are. -/
theorem reads_head_array (h : n < 2 ^ 32) : ∃ m, Reads head (arrayHead n) (m, .array n) := by
  unfold arrayHead
  split
  · rename_i hlt
    exact ⟨_, reads_head (ofByte_fixArray hlt) (Reads.pure _)⟩
  · split
    · exact ⟨_, reads_head (m := .array 2) rfl ((reads_word (by omega)).bind_nil (Reads.pure _))⟩
    · exact ⟨_, reads_head (m := .array 4) rfl ((reads_word (by omega)).bind_nil (Reads.pure _))⟩

/-- The head of a map says how many entries there are. -/
theorem reads_head_map (h : n < 2 ^ 32) : ∃ m, Reads head (mapHead n) (m, .map n) := by
  unfold mapHead
  split
  · rename_i hlt
    exact ⟨_, reads_head (ofByte_fixMap hlt) (Reads.pure _)⟩
  · split
    · exact ⟨_, reads_head (m := .map 2) rfl ((reads_word (by omega)).bind_nil (Reads.pure _))⟩
    · exact ⟨_, reads_head (m := .map 4) rfl ((reads_word (by omega)).bind_nil (Reads.pure _))⟩

/-! ## Heads that are read -/

/-- Whether a head announces less than `2 ^ 32` bytes, items or entries. -/
def Head.Fits : Head → Prop
  | .text bs | .octets bs => bs.length < 2 ^ 32
  | .array n | .map n => n < 2 ^ 32
  | _ => True

/-- Whether a marker holds a small length, or announces one of at most four bytes. -/
def Sized : Marker → Prop
  | .fixStr n | .fixArray n | .fixMap n => n < 2 ^ 32
  | .str width | .bin width | .array width | .map width => width ≤ 4
  | _ => True

theorem Sized.ite {c : Prop} [Decidable c] {m m' : Marker} (h : c → Sized m)
    (h' : ¬c → Sized m') : Sized (if c then m else m') := by
  split
  · rename_i hc
    exact h hc
  · rename_i hc
    exact h' hc

/-- A length that stands in a marker is small, and one that it announces has at most four bytes. -/
theorem sized_ofByte (b : UInt8) : Sized (Marker.ofByte b) := by
  have hb := b.toNat_lt
  have hpow : ∀ k ≤ 2, 2 ^ k ≤ 4 := fun k hk => Nat.pow_le_pow_right (n := 2) (by omega) hk
  unfold Marker.ofByte
  refine .ite (fun _ => True.intro) fun _ => ?_
  -- the small maps, arrays and texts
  iterate 3 refine .ite (fun _ => show b.toNat - _ < _ by omega) fun _ => ?_
  iterate 3 refine .ite (fun _ => True.intro) fun _ => ?_
  -- the byte strings
  refine .ite (fun _ => hpow _ (by omega)) fun _ => ?_
  iterate 5 refine .ite (fun _ => True.intro) fun _ => ?_
  -- the texts, arrays and maps with a length
  iterate 3 refine .ite (fun _ => hpow _ (by omega)) fun _ => ?_
  exact True.intro

/-- Every length that a head says fits into four bytes. -/
theorem yields_headOf {m : Marker} (hm : Sized m) : Yields (headOf m) Head.Fits := by
  have hword : ∀ {width : Nat}, width ≤ 4 → Yields (word width) (· < 2 ^ 32) := fun hle =>
    (yields_word _).mono fun _ hlt => Nat.lt_of_lt_of_le hlt
      (Nat.pow_le_pow_right (n := 256) (by omega) hle)
  have htake : ∀ {n : Nat} {h : Bytes → Head}, n < 2 ^ 32 →
      (∀ bs, bs.length < 2 ^ 32 → (h bs).Fits) →
      Yields (do return h (← take n)) Head.Fits := fun hn hh =>
    (yields_take _).bind fun bs hbs => Yields.pure (hh bs (hbs ▸ hn))
  cases m with
  | fixStr n => exact htake hm fun _ hbs => hbs
  | str width => exact (hword hm).bind fun n hn => htake hn fun _ hbs => hbs
  | bin width => exact (hword hm).bind fun n hn => htake hn fun _ hbs => hbs
  | fixArray n => exact Yields.pure hm
  | array width => exact (hword hm).bind fun n hn => Yields.pure hn
  | fixMap n => exact Yields.pure hm
  | map width => exact (hword hm).bind fun n hn => Yields.pure hn
  | unsigned width => exact Yields.bind_right fun _ => Yields.pure True.intro
  | signed width => exact Yields.bind_right fun _ => Yields.pure True.intro
  | float width => exact Yields.bind_right fun _ => Yields.pure True.intro
  | fixExt n => exact Yields.bind_right fun _ => Yields.pure True.intro
  | ext width =>
    exact Yields.bind_right fun _ => Yields.bind_right fun _ => Yields.pure True.intro
  | reserved => exact Yields.throw _
  | fixPos n => exact Yields.pure True.intro
  | fixNeg i => exact Yields.pure True.intro
  | null => exact Yields.pure True.intro
  | flag b => exact Yields.pure True.intro

/-- No head announces more than its length can tell. -/
theorem yields_head : Yields head fun p => p.2.Fits :=
  Yields.bind_right fun b =>
    (yields_headOf (sized_ofByte b)).bind fun _ hh => Yields.pure hh

end MessagePack.Reader

end Switchboard
