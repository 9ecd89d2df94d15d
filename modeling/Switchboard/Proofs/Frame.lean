import Switchboard.Proofs.Boundary
import Switchboard.Proofs.Utf8

/-!
# Frames are found whole

A frame tells its own length, so its body is found whatever follows it, and a part of a frame is
told from the whole and says how much of it there should be. That a frame is not taken for an HTTP
request is a matter of its length alone: the first byte of a verb would be the first byte of a
length, and the least such length is over a gigabyte (`sniff_encode`).
-/

namespace Switchboard

namespace Frame

variable {bs frame rest : Bytes} {cut : Nat}

theorem encode_eq_ok_iff :
    encode bs = .ok frame ↔
      bs.length < 2 ^ 32 ∧ Bytes.bigEndian prefixLength bs.length ++ bs = frame := by
  unfold encode
  split
  · rename_i h
    rw [Except.ok.injEq]
    exact ⟨fun heq => ⟨h, heq⟩, And.right⟩
  · rename_i h
    exact ⟨fun heq => (nomatch heq), fun heq => absurd heq.1 h⟩

theorem length_of_encode (h : encode bs = .ok frame) : frame.length = prefixLength + bs.length := by
  obtain ⟨_, rfl⟩ := encode_eq_ok_iff.1 h
  rw [List.length_append, Bytes.length_bigEndian]

/-- The prefix of a frame is enough to know its length. -/
theorem length?_of_encode {buf : Bytes} (h : encode bs = .ok frame)
    (hbuf : frame.take prefixLength <+: buf) : length? buf = some frame.length := by
  have hlen := length_of_encode h
  obtain ⟨hlt, rfl⟩ := encode_eq_ok_iff.1 h
  have hpre := Bytes.length_bigEndian prefixLength bs.length
  rw [List.take_left' hpre] at hbuf
  obtain ⟨more, rfl⟩ := hbuf
  unfold length?
  rw [List.take_left' hpre, Bytes.toNat_bigEndian hlt, hlen, List.length_append, hpre,
    if_pos (by omega)]

theorem body_append (h : encode bs = .ok frame) (rest : Bytes) : body (frame ++ rest) = .ok bs := by
  have hlen := length?_of_encode h
    ((List.take_prefix prefixLength frame).trans (List.prefix_append frame rest))
  unfold body
  rw [hlen]
  show (if frame.length ≤ _ then _ else _) = _
  rw [List.length_append, if_pos (by omega), List.take_left]
  obtain ⟨_, rfl⟩ := encode_eq_ok_iff.1 h
  rw [List.drop_left' (Bytes.length_bigEndian prefixLength bs.length)]

/-- A part of a frame says how many bytes it lacks, of the prefix or of the whole. -/
theorem body_take (h : encode bs = .ok frame) (hcut : cut < frame.length) :
    body (frame.take cut)
      = .error (.truncated (if cut < prefixLength then prefixLength else frame.length) cut) := by
  have hlen : (frame.take cut).length = cut := by
    rw [List.length_take]
    omega
  unfold body
  by_cases h4 : cut < prefixLength
  · have hnone : length? (frame.take cut) = none := by
      unfold length?
      rw [if_neg (by omega)]
    rw [hnone, if_pos h4, hlen]
  · -- the prefix is there and tells the length of the whole
    have hsome : length? (frame.take cut) = some frame.length := by
      refine length?_of_encode h ?_
      exact (List.prefix_take_le_iff (by omega)).2 (by omega)
    rw [hsome, if_neg h4]
    show (if frame.length ≤ _ then _ else _) = _
    rw [hlen, if_neg (by omega)]

end Frame

namespace Boundary

variable {bs frame rest : Bytes} {n : Nat}

theorem bigEndian_eq_cons (n : Nat) :
    ∃ digits, Bytes.bigEndian Frame.prefixLength n
      = UInt8.ofNat (n / 256 / 256 / 256 % 256) :: digits := ⟨_, rfl⟩

/-- A length under the least one that begins with a `G` is no verb. -/
theorem sniff_bigEndian (h : n < 0x47 * 2 ^ 24) (rest : Bytes) :
    sniff (Bytes.bigEndian Frame.prefixLength n ++ rest) = .binary := by
  obtain ⟨digits, hdigits⟩ := bigEndian_eq_cons n
  have hbeyond : ∀ b : UInt8, 0x47 ≤ b.toNat →
      (b == UInt8.ofNat (n / 256 / 256 / 256 % 256)) = false := by
    intro b hb
    refine beq_false_of_ne fun heq => ?_
    rw [heq, Utf8.toNat_ofNat_byte (by omega)] at hb
    omega
  -- both verbs fail at the first byte
  rw [hdigits]
  unfold sniff getVerb postVerb
  simp only [List.cons_append, List.isPrefixOf]
  rw [hbeyond 0x47 (by decide), hbeyond 0x50 (by decide)]
  rfl

theorem of?_frame (h : Frame.encode bs = .ok frame) (hbs : bs.length < 0x47 * 2 ^ 24)
    (rest : Bytes) : of? (frame ++ rest) = some ⟨.binary, frame.length⟩ := by
  have hlen := Frame.length?_of_encode h
    ((List.take_prefix _ frame).trans (List.prefix_append frame rest))
  obtain ⟨_, rfl⟩ := Frame.encode_eq_ok_iff.1 h
  have hsniff := sniff_bigEndian hbs (bs ++ rest)
  rw [← List.append_assoc] at hsniff
  rw [of?_eq_some_iff, hsniff]
  refine ⟨rfl, hlen, ?_⟩
  exact (List.prefix_append _ rest).length_le

end Boundary

end Switchboard
