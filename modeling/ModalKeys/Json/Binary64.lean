/-!
# Binary64 numbers in integer arithmetic

A finite IEEE binary64 number is `±mantissa · 2 ^ exponent`. Rounding, scaling by powers of ten and
conversion to integers are done on `Nat` and `Int`, so every result is exact and can be computed
inside a proof.
-/

namespace ModalKeys

/-- A finite binary64 number `±mantissa · 2 ^ exponent`. The mantissa has 53 bits, or fewer at the
least exponent `-1074`; the two zeros differ in their sign. -/
structure Binary64 where
  negative : Bool
  mantissa : Nat
  exponent : Int
  deriving DecidableEq, Repr, Inhabited

namespace Binary64

def mantissaBits : Nat := 53
def leastExponent : Int := -1074
def greatestExponent : Int := 971

/-- Division to the nearest integer. A tie goes to the even one. -/
def roundDiv (n d : Nat) : Nat :=
  if 2 * (n % d) < d then n / d
  else if d < 2 * (n % d) then n / d + 1
  else n / d + n / d % 2

/-- The ratio `n / d · 2 ^ (-e)` as a numerator and a denominator. -/
def scaleDown (n d : Nat) (e : Int) : Nat × Nat :=
  (n * Nat.pow 2 (-e).toNat, d * Nat.pow 2 e.toNat)

/-- The greatest `l` with `2 ^ l ≤ n / d`, for a positive ratio. -/
def floorLog2 (n d : Nat) : Int :=
  let l : Int := (n.log2 : Int) - d.log2
  let (n', d') := scaleDown n d l
  if d' ≤ n' then l else l - 1

def zero : Binary64 := ⟨false, 0, leastExponent⟩

/-- The number nearest to `n / d`, ties to even, or nothing when that is too large. -/
def ofRatio (n d : Nat) : Option Binary64 :=
  if n = 0 then some zero
  else
    let e := max (floorLog2 n d - (mantissaBits - 1)) leastExponent
    let (n', d') := scaleDown n d e
    let m := roundDiv n' d'
    let (m, e) :=
      if m = Nat.pow 2 mantissaBits then (Nat.pow 2 (mantissaBits - 1), e + 1) else (m, e)
    if greatestExponent < e then none else some ⟨false, m, e⟩

/-- The magnitude as a ratio of two natural numbers. -/
def toRatio (x : Binary64) : Nat × Nat :=
  (x.mantissa * Nat.pow 2 x.exponent.toNat, Nat.pow 2 (-x.exponent).toNat)

def neg (x : Binary64) : Binary64 := { x with negative := !x.negative }

/-- The product of two magnitudes, rounded once. -/
def mul (x y : Binary64) : Option Binary64 :=
  let (n, d) := x.toRatio
  let (n', d') := y.toRatio
  ofRatio (n * n') (d * d')

/-- The quotient of two magnitudes, rounded once. -/
def div (x y : Binary64) : Option Binary64 :=
  let (n, d) := x.toRatio
  let (n', d') := y.toRatio
  ofRatio (n * d') (d * n')

/-- The number nearest to an integer, or nothing when that is too large. -/
def ofInt (i : Int) : Option Binary64 :=
  (ofRatio i.natAbs 1).map fun x => if i < 0 then x.neg else x

/-- The greatest power of ten below the greatest number. -/
def greatestPowerOfTen : Nat := 308

def isZero (x : Binary64) : Bool := x.mantissa == 0

/-- `10 ^ k` rounded to the nearest number. -/
def powerOfTen (k : Nat) : Option Binary64 := ofRatio (Nat.pow 10 k) 1

/-- `x / 10 ^ k`, rounded once for each factor of at most `10 ^ 308`. -/
def divPowerOfTen (x : Binary64) (k : Nat) : Option Binary64 :=
  if k ≤ greatestPowerOfTen then do x.div (← powerOfTen k)
  else if x.isZero then some x
  else do divPowerOfTen (← x.div (← powerOfTen greatestPowerOfTen)) (k - greatestPowerOfTen)
termination_by k
decreasing_by simp_all [greatestPowerOfTen]; omega

/-- `x · 10 ^ k`, or nothing when that is too large. -/
def mulPowerOfTen (x : Binary64) (k : Nat) : Option Binary64 :=
  if k ≤ greatestPowerOfTen then do x.mul (← powerOfTen k)
  else if x.isZero then some x
  else none

/-- `significand · 10 ^ k`: the significand is rounded first and then multiplied or divided by a
rounded power of ten. The last bit can thus differ from that of the nearest number. -/
def ofDecimal (significand : Nat) (k : Int) : Option Binary64 := do
  let x ← ofRatio significand 1
  if 0 ≤ k then x.mulPowerOfTen k.toNat else x.divPowerOfTen k.natAbs

/-- The integer part of the magnitude. -/
def truncate (x : Binary64) : Nat := x.toRatio.1 / x.toRatio.2

/-- The integer that a number without a fraction is equal to. -/
def toInt? (x : Binary64) : Option Int :=
  let (n, d) := x.toRatio
  if n % d = 0 then some (if x.negative then -(n / d : Nat) else (n / d : Nat)) else none

end Binary64

end ModalKeys
