import Switchboard.Text.Numeral

/-!
# Shortest decimals

A number with a fraction or an exponent is never a valid payload, but the complaint about it
quotes its value. The value is that of the nearest binary number with a 53-bit significand, and
what is quoted is the shortest decimal that reads back as the same number: of the decimals with
the fewest digits that lie in the interval of reals rounding to it, the nearest one. Of two that
are equally near, the one with an even last digit is taken.
-/

namespace Switchboard.Json

/-- The decimal `digits · 10 ^ exponent`. -/
structure Decimal where
  digits : Nat
  exponent : Int
  deriving DecidableEq, Repr

namespace Decimal

/-- The decimal without zeros at the end of its digits. -/
def trimmed (fuel : Nat) (d : Decimal) : Decimal :=
  match fuel with
  | 0 => d
  | fuel + 1 =>
    if d.digits ≠ 0 ∧ d.digits % 10 = 0 then trimmed fuel ⟨d.digits / 10, d.exponent + 1⟩ else d

/-- The decimal of least distance to `m · 2 ^ q` among those with the exponent `e` that round to
it, where `m` and `q` are significand and exponent of a binary number and `narrow` says that the
gap below it is half the gap above. All comparisons are made in units of a quarter of the gap. -/
def nearest? (m : Nat) (q : Int) (narrow : Bool) (e : Int) : Option Nat :=
  -- the value, its lower and upper bound, and the decimal unit, over a common denominator
  let two := (2 : Nat) ^ (q - 2).natAbs
  let ten := (10 : Nat) ^ e.natAbs
  let binary := (if q ≥ 2 then two else 1) * (if e < 0 then ten else 1)
  let unit := (if q ≥ 2 then 1 else two) * (if e < 0 then 1 else ten)
  let value := 4 * m * binary
  let low := (4 * m - (if narrow then 1 else 2)) * binary
  let high := (4 * m + 2) * binary
  let fits := fun (n : Nat) =>
    if m % 2 = 0 then low ≤ n * unit && n * unit ≤ high else low < n * unit && n * unit < high
  let below := value / unit
  let above := below + 1
  match fits below, fits above with
  | true, true =>
    -- twice the value lies below, above or in the middle of the two
    match compare (2 * value) ((below + above) * unit) with
    | .lt => some below
    | .gt => some above
    | .eq => some (if below % 2 = 0 then below else above)
  | true, false => some below
  | false, true => some above
  | false, false => none

/-- The shortest decimal of `m · 2 ^ q`: the exponents are tried from a coarse one downwards. -/
def shortest (m : Nat) (q : Int) (narrow : Bool) : (tries : Nat) → (e : Int) → Decimal
  | 0, e => ⟨0, e⟩
  | tries + 1, e =>
    match nearest? m q narrow e with
    | some n => if n = 0 then shortest m q narrow tries (e - 1) else trimmed 20 ⟨n, e⟩
    | none => shortest m q narrow tries (e - 1)

/-- The shortest decimal of the magnitude of a floating-point number. -/
def ofFloat (x : Float) : Decimal :=
  let bits : Nat := x.toBits.toNat
  let mantissa : Nat := bits % 2 ^ 52
  let biased : Nat := bits / 2 ^ 52 % 2 ^ 11
  if biased = 0 ∧ mantissa = 0 then ⟨0, 0⟩
  else
    let m : Nat := if biased = 0 then mantissa else mantissa + 2 ^ 52
    let q := (if biased = 0 then (1 : Int) else (biased : Int)) - 1075
    let narrow := mantissa = 0 ∧ biased > 1
    -- no decimal with an exponent above the decimal length of the number can be near it
    let top : Int := if q ≥ 0 then ((Nat.toDigits 10 (m * 2 ^ q.natAbs)).length : Int)
      else 17 - (((Nat.toDigits 10 (2 ^ q.natAbs / m)).length : Int) - 1)
    shortest m q narrow 800 top

/-- A decimal as it is quoted: positional from `0.00001` up to sixteen digits in front of the
point, and in scientific notation beyond, where the exponent always has a sign; a positional
whole number ends in `.0`. -/
def render (d : Decimal) : String :=
  let digits := Text.decimal d.digits
  let length : Int := digits.length
  let point := length + d.exponent
  let zeros := fun (n : Int) => String.ofList (List.replicate n.toNat '0')
  let cs := digits.toList
  if 0 ≤ d.exponent ∧ point ≤ 16 then digits ++ zeros d.exponent ++ ".0"
  else if 0 < point ∧ point ≤ 16 then
    String.ofList (cs.take point.toNat) ++ "." ++ String.ofList (cs.drop point.toNat)
  else if -5 < point ∧ point ≤ 0 then "0." ++ zeros (-point) ++ digits
  else
    let sign := if point < 1 then "-" else "+"
    let fraction := if cs.length = 1 then "" else "." ++ String.ofList (cs.drop 1)
    String.ofList (cs.take 1) ++ fraction ++ "e" ++ sign ++ Text.decimal (point - 1).natAbs

end Decimal

/-- A floating-point number as it is quoted. -/
def quoteFloat (x : Float) : String :=
  (if x.toBits.toNat ≥ 2 ^ 63 then "-" else "") ++ (Decimal.ofFloat x).render

end Switchboard.Json
