import ModalKeys.Json.Binary64

/-!
# Shortest decimal text of a number

A binary64 number is written with the fewest decimal digits that read back as the same number. Of
several such decimals the nearest is taken, and of two equally near ones the one with an even last
digit.
-/

namespace ModalKeys

/-- A decimal `digits · 10 ^ exponent`. -/
structure Decimal where
  digits : Nat
  exponent : Int
  deriving DecidableEq, Repr

namespace Decimal

/-- The ratio `n / d · 10 ^ (-k)` as a numerator and a denominator. -/
def scaleDown (n d : Nat) (k : Int) : Nat × Nat :=
  (n * Nat.pow 10 (-k).toNat, d * Nat.pow 10 k.toNat)

/-- How many decimal digits a natural number has; zero has one. -/
def digitCount (n : Nat) : Nat := (Nat.toDigits 10 n).length

/-- The greatest `p` with `10 ^ p ≤ n / d`, for a positive ratio. -/
def floorLog10 (n d : Nat) : Int :=
  if d ≤ n then (digitCount (n / d) : Int) - 1
  else -(digitCount ((d - 1) / n) : Int)

/-- The positive reals that round to one number: those between `low / den` and `high / den`, ends
included when `closed`; `mid / den` is the number itself. -/
structure Interval where
  low : Nat
  mid : Nat
  high : Nat
  den : Nat
  closed : Bool

/-- Half-way points to both neighbours round to the number with the even mantissa. The lower
neighbour of a power of two is only half as far away as the upper one. -/
def roundingInterval (x : Binary64) : Interval :=
  let m := x.mantissa
  let lowGap :=
    if m = Nat.pow 2 (Binary64.mantissaBits - 1) ∧ Binary64.leastExponent < x.exponent then 1
    else 2
  let up := Nat.pow 2 (x.exponent - 2).toNat
  let down := Nat.pow 2 (2 - x.exponent).toNat
  ⟨(4 * m - lowGap) * up, 4 * m * up, (4 * m + 2) * up, down, m % 2 == 0⟩

namespace Interval

/-- Whether `a · 10 ^ k` lies in the interval. -/
def contains (i : Interval) (a : Nat) (k : Int) : Bool :=
  let v := a * i.den * Nat.pow 10 k.toNat
  let unit := Nat.pow 10 (-k).toNat
  if i.closed then i.low * unit ≤ v && v ≤ i.high * unit
  else i.low * unit < v && v < i.high * unit

/-- The multiple of `10 ^ k` nearest to the number, if a neighbouring multiple lies in the
interval. -/
def nearest? (i : Interval) (k : Int) : Option Nat :=
  let (n, d) := scaleDown i.mid i.den k
  let a := n / d
  match i.contains a k, i.contains (a + 1) k with
  | true, true => some (Binary64.roundDiv n d)
  | true, false => some a
  | false, true => some (a + 1)
  | false, false => none

/-- The first grid, from coarse to fine, with a point in the interval. -/
def search (i : Interval) (k : Int) : Nat → Decimal
  | 0 => ⟨Binary64.roundDiv (scaleDown i.mid i.den k).1 (scaleDown i.mid i.den k).2, k⟩
  | fuel + 1 =>
    match i.nearest? k with
    | some a => ⟨a, k⟩
    | none => search i (k - 1) fuel

end Interval

/-- Moves trailing zeros of the digits into the exponent. -/
def trim (digits : Nat) (exponent : Int) : Nat → Decimal
  | 0 => ⟨digits, exponent⟩
  | fuel + 1 =>
    if digits ≠ 0 ∧ digits % 10 = 0 then trim (digits / 10) (exponent + 1) fuel
    else ⟨digits, exponent⟩

/-- Seventeen significant digits tell any two binary64 numbers apart. -/
def greatestDigitCount : Nat := 17

/-- The shortest decimal that reads back as the magnitude of a number. -/
def shortest (x : Binary64) : Decimal :=
  if x.mantissa = 0 then ⟨0, 0⟩
  else
    let i := roundingInterval x
    let d := i.search (floorLog10 i.mid i.den) greatestDigitCount
    trim d.digits d.exponent greatestDigitCount

/-- How decimals are laid out: positionally while the power of ten of the leading digit is in
`positionalFrom ..< positionalBelow`, and with a signed exponent otherwise. -/
structure Layout where
  positionalFrom : Int
  positionalBelow : Int

/-- The text of a decimal. Positional text always has a point and a digit behind it. -/
def text (layout : Layout) (x : Decimal) : String :=
  let ds := Nat.toDigits 10 x.digits
  let lead : Int := ds.length - 1 + x.exponent
  let chars : List Char :=
    if layout.positionalFrom ≤ lead ∧ lead < layout.positionalBelow then
      if 0 ≤ x.exponent then
        ds ++ List.replicate x.exponent.toNat '0' ++ ['.', '0']
      else if 0 ≤ lead then
        ds.take (lead.toNat + 1) ++ '.' :: ds.drop (lead.toNat + 1)
      else
        '0' :: '.' :: List.replicate (-lead - 1).toNat '0' ++ ds
    else
      let fraction := if ds.length = 1 then [] else '.' :: ds.drop 1
      let sign := if lead < 0 then '-' else '+'
      ds.take 1 ++ fraction ++ 'e' :: sign :: Nat.toDigits 10 lead.natAbs
  String.ofList chars

end Decimal

end ModalKeys
