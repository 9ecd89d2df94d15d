/-!
# Byte strings

What travels over a connection is a list of bytes. This module fixes that type and the three
things that the framing of requests asks of it: where a marker first occurs, how a number is
written with a fixed count of big-endian digits, and how such a number is read back.
-/

-- powers of numbers are the ones that the core library computes, next to whatever other ones
attribute [instance (20000), default_instance 20000] instPowNat

namespace Switchboard

/-- A string of bytes, first byte first. -/
abbrev Bytes := List UInt8

namespace Bytes

/-! ## Searching -/

/-- The offset of the first place at which `needle` occurs, if there is one. -/
def find (needle : Bytes) : Bytes → Option Nat
  | [] => if needle.isEmpty then some 0 else none
  | b :: bs => if needle.isPrefixOf (b :: bs) then some 0 else (find needle bs).map (· + 1)

/-- The pieces between the occurrences of `sep`; there is always one more piece than there are
separators. -/
def pieces (sep : UInt8) : Bytes → List Bytes
  | [] => [[]]
  | b :: bs =>
    if b = sep then [] :: pieces sep bs
    else match pieces sep bs with
      | [] => [[b]]
      | p :: ps => (b :: p) :: ps

/-! ## Big-endian numbers -/

/-- The `width` low base-256 digits of `n`, most significant digit first. -/
def bigEndian : (width n : Nat) → Bytes
  | 0, _ => []
  | width + 1, n => bigEndian width (n / 256) ++ [UInt8.ofNat (n % 256)]

/-- The number whose base-256 digits are the given bytes, most significant digit first. -/
def toNat (bs : Bytes) : Nat :=
  bs.foldl (fun n b => n * 256 + b.toNat) 0

@[simp] theorem length_bigEndian (width n : Nat) : (bigEndian width n).length = width := by
  induction width generalizing n with
  | zero => rfl
  | succ width ih => simp [bigEndian, ih]

/-- Reading is a homomorphism up to the weight of the digits that follow. -/
theorem toNat_append (xs ys : Bytes) :
    toNat (xs ++ ys) = toNat xs * 256 ^ ys.length + toNat ys := by
  have key : ∀ (n : Nat) (ys : Bytes),
      ys.foldl (fun n b => n * 256 + b.toNat) n = n * 256 ^ ys.length + toNat ys := by
    intro n ys
    induction ys generalizing n with
    | nil => simp [toNat]
    | cons b bs ih =>
      simp only [List.foldl_cons, List.length_cons, toNat]
      rw [ih, ih (0 * 256 + b.toNat)]
      rw [Nat.pow_succ']
      grind
  rw [toNat, List.foldl_append, key]
  rfl

/-- A number that fits into `width` digits is read back from them. -/
theorem toNat_bigEndian {width n : Nat} (h : n < 256 ^ width) : toNat (bigEndian width n) = n := by
  induction width generalizing n with
  | zero => simp at h; simp [bigEndian, toNat, h]
  | succ width ih =>
    have hdiv : n / 256 < 256 ^ width := by
      rw [Nat.pow_succ] at h
      exact Nat.div_lt_of_lt_mul (by omega)
    rw [bigEndian, toNat_append, ih hdiv]
    have hmod : n % 256 < 256 := Nat.mod_lt _ (by omega)
    simp [toNat, Nat.mod_eq_of_lt hmod]
    omega

end Bytes

end Switchboard
