import Switchboard.Bytes

/-!
# UTF-8

Texts leave the program as UTF-8 and arrive as bytes that may or may not be UTF-8. Writing is
`encode`. Reading is one machine, `scan`, which looks at each byte once: it reports a character
for every well-formed sequence and one gap for every ill-formed stretch, where a stretch is as
long as it could still have begun a sequence. `decode?` accepts the bytes without a gap and
`decodeLossy` puts the replacement character into each gap, so the two readings agree wherever
the strict one has an answer.
-/

namespace Switchboard.Utf8

/-! ## Writing -/

/-- The one to four bytes of a character. -/
def encodeChar (c : Char) : Bytes :=
  let n := c.toNat
  if n < 0x80 then [UInt8.ofNat n]
  else if n < 0x800 then [UInt8.ofNat (0xC0 + n / 64), UInt8.ofNat (0x80 + n % 64)]
  else if n < 0x10000 then
    [UInt8.ofNat (0xE0 + n / 4096), UInt8.ofNat (0x80 + n / 64 % 64), UInt8.ofNat (0x80 + n % 64)]
  else
    [UInt8.ofNat (0xF0 + n / 262144), UInt8.ofNat (0x80 + n / 4096 % 64),
      UInt8.ofNat (0x80 + n / 64 % 64), UInt8.ofNat (0x80 + n % 64)]

/-- The bytes of a text. -/
def encode (cs : List Char) : Bytes :=
  cs.flatMap encodeChar

/-- The bytes of a string. -/
def ofString (s : String) : Bytes :=
  encode s.toList

/-! ## Reading -/

/-- How far the reader is into a sequence: the number of continuation bytes still to come, the
range that the next of them has to lie in, and the value of the bits read so far. -/
inductive Progress
  | idle
  | within (left low high value : Nat)
  deriving DecidableEq, Repr

/-- Reads a byte as the first one of a sequence. The ranges of the second byte leave out
overlong forms, surrogates and values past the last code point. -/
def start (b : UInt8) : List (Option Char) × Progress :=
  let n := b.toNat
  if n < 0x80 then ([some (Char.ofNat n)], .idle)
  else if n < 0xC2 then ([none], .idle)
  else if n < 0xE0 then ([], .within 1 0x80 0xBF (n - 0xC0))
  else if n < 0xF0 then
    ([], .within 2 (if n = 0xE0 then 0xA0 else 0x80) (if n = 0xED then 0x9F else 0xBF) (n - 0xE0))
  else if n < 0xF5 then
    ([], .within 3 (if n = 0xF0 then 0x90 else 0x80) (if n = 0xF4 then 0x8F else 0xBF) (n - 0xF0))
  else ([none], .idle)

/-- Reads one byte. A byte that cannot continue the sequence ends it with a gap and is then read
as a first byte. -/
def advance : Progress → UInt8 → List (Option Char) × Progress
  | .idle, b => start b
  | .within left low high value, b =>
    if low ≤ b.toNat ∧ b.toNat ≤ high then
      let value := value * 64 + (b.toNat - 0x80)
      match left with
      | 0 | 1 => ([some (Char.ofNat value)], .idle)
      | left + 2 => ([], .within (left + 1) 0x80 0xBF value)
    else (none :: (start b).1, (start b).2)

/-- The characters and gaps of a byte string, read on from `p`. -/
def scanFrom : Progress → Bytes → List (Option Char)
  | .idle, [] => []
  | .within .., [] => [none]
  | p, b :: bs => (advance p b).1 ++ scanFrom (advance p b).2 bs

/-- The characters and gaps of a byte string. -/
def scan (bs : Bytes) : List (Option Char) :=
  scanFrom .idle bs

/-- The characters of a list without gaps. -/
def whole : List (Option Char) → Option (List Char)
  | [] => some []
  | none :: _ => none
  | some c :: cs => (whole cs).map (c :: ·)

/-- The text that the bytes are the UTF-8 of, if they are. -/
def decode? (bs : Bytes) : Option (List Char) :=
  whole (scan bs)

/-- The text of the bytes with U+FFFD in place of each ill-formed stretch. -/
def decodeLossy (bs : Bytes) : List Char :=
  (scan bs).map (·.getD '\uFFFD')

/-- The string that the bytes are the UTF-8 of, if they are. -/
def toString? (bs : Bytes) : Option String :=
  (decode? bs).map String.ofList

/-- The string of the bytes with U+FFFD in place of each ill-formed stretch. -/
def toStringLossy (bs : Bytes) : String :=
  String.ofList (decodeLossy bs)

/-! ## The two readings agree -/

theorem whole_eq_some_iff {ps : List (Option Char)} {cs : List Char} :
    whole ps = some cs ↔ ps = cs.map some := by
  induction ps generalizing cs with
  | nil => cases cs <;> simp [whole]
  | cons p ps ih =>
    cases p with
    | none => cases cs <;> simp [whole]
    | some c =>
      simp only [whole, Option.map_eq_some_iff]
      constructor
      · rintro ⟨ds, hds, rfl⟩
        simp [ih.1 hds]
      · intro h
        cases cs with
        | nil => simp at h
        | cons d ds =>
          simp only [List.map_cons, List.cons.injEq, Option.some.injEq] at h
          exact ⟨ds, ih.2 h.2, by rw [h.1]⟩

/-- Where the strict reading has an answer, the lossy one gives the same. -/
theorem decodeLossy_of_decode? {bs : Bytes} {cs : List Char} (h : decode? bs = some cs) :
    decodeLossy bs = cs := by
  rw [decodeLossy, whole_eq_some_iff.1 h, List.map_map]
  exact List.map_id'' (fun _ => rfl) cs

end Switchboard.Utf8
