import ExtensionGraph.Number.Decimal

/-!
# Binary floating-point numbers

A finite binary64 number is kept as its 64 bits, so that two numbers are equal exactly when
they are written alike (`0.0` and `-0.0` differ). Arithmetic is exact rational arithmetic on
natural numbers followed by one rounding to the nearest representable number, ties going to
the even significand.

## Main definitions

* `ExtensionGraph.Binary64` — the bits of a number.
* `ExtensionGraph.Binary64.ofRatio` — the number nearest to a quotient of naturals.
* `ExtensionGraph.Binary64.mul`, `ExtensionGraph.Binary64.div` — the rounded product and
  quotient.
-/

namespace ExtensionGraph

/-- The quotient `num / den` rounded to the nearest natural number; a tie goes to the even
one. -/
def roundDiv (num den : Nat) : Nat :=
  let q := num / den
  let r := num % den
  if 2 * r < den then q
  else if den < 2 * r then q + 1
  else if q % 2 = 0 then q else q + 1

/-- A binary64 number given by its bits: the sign in bit 63, the biased exponent in bits 52 to
62, the fraction below. -/
structure Binary64 where
  bits : UInt64
deriving DecidableEq, Inhabited

namespace Binary64

/-- The least magnitude, read as a number of 63 bits, that is not finite. -/
def infinityBits : Nat := 2047 * twoPow 52

/-- The number with the given sign whose magnitude has the given 63 bits. -/
def ofMagnitude (negative : Bool) (magnitude : Nat) : Binary64 :=
  ⟨UInt64.ofNat (if negative then twoPow 63 + magnitude else magnitude)⟩

/-- Whether the sign bit is set; it is for `-0.0`. -/
def isNegative (x : Binary64) : Bool := twoPow 63 ≤ x.bits.toNat

/-- The 63 bits that follow the sign. -/
def magnitude (x : Binary64) : Nat := x.bits.toNat % twoPow 63

/-- Whether the number is `0.0` or `-0.0`. -/
def isZero (x : Binary64) : Bool := x.magnitude = 0

/-- The integral significand `m` of the magnitude `m * 2 ^ q`. -/
def significand (x : Binary64) : Nat :=
  if x.magnitude / twoPow 52 = 0 then x.magnitude else twoPow 52 + x.magnitude % twoPow 52

/-- The binary exponent `q` of the magnitude `m * 2 ^ q`. -/
def exponent (x : Binary64) : Int :=
  if x.magnitude / twoPow 52 = 0 then -1074 else (x.magnitude / twoPow 52 : Nat) - 1075

/-- The quotient `num / (den * 2 ^ q)` as a numerator and a denominator. -/
def scaleDown (num den : Nat) (q : Int) : Nat × Nat :=
  if 0 ≤ q then (num, den * twoPow q.toNat) else (num * twoPow (-q).toNat, den)

/-- The binary exponent of the grid on which `num / den` is rounded: the one that leaves 53
significant bits, but never finer than the grid of the subnormal numbers. -/
def gridExponent (num den : Nat) : Int :=
  let q : Int := (Nat.log2 num : Int) - Nat.log2 den - 53
  let (n, d) := scaleDown num den q
  max (-1074) (if twoPow 53 ≤ n / d then q + 1 else q)

/-- The magnitude bits of the number nearest to `num / den`, or `none` when that lies beyond
the finite numbers. The bits grow with the number, so a significand that is rounded up to the
next power of two carries into the exponent by itself. -/
def nearestMagnitude? (num den : Nat) : Option Nat :=
  if num = 0 then some 0
  else
    let q := gridExponent num den
    let (n, d) := scaleDown num den q
    let bits := (q + 1074).toNat * twoPow 52 + roundDiv n d
    if infinityBits ≤ bits then none else some bits

/-- The number nearest to `num / den` with the given sign, `none` on overflow. -/
def ofRatio (negative : Bool) (num den : Nat) : Option Binary64 :=
  (nearestMagnitude? num den).map (ofMagnitude negative)

/-- The magnitude as an exact quotient of natural numbers. -/
def ratio (x : Binary64) : Nat × Nat :=
  if 0 ≤ x.exponent then (x.significand * twoPow x.exponent.toNat, 1)
  else (x.significand, twoPow (-x.exponent).toNat)

/-- The product, rounded; `none` on overflow. -/
def mul (x y : Binary64) : Option Binary64 :=
  ofRatio (x.isNegative != y.isNegative) (x.ratio.1 * y.ratio.1) (x.ratio.2 * y.ratio.2)

/-- The quotient, rounded; `none` on overflow or when the divisor is zero. -/
def div (x y : Binary64) : Option Binary64 :=
  if y.isZero then none
  else
    ofRatio (x.isNegative != y.isNegative) (x.ratio.1 * y.ratio.2) (x.ratio.2 * y.ratio.1)

/-- The number of opposite sign. -/
def neg (x : Binary64) : Binary64 := ofMagnitude (!x.isNegative) x.magnitude

end Binary64

end ExtensionGraph
