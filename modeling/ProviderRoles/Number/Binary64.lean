import ProviderRoles.Number.Range

/-! Binary floating point numbers of 64 bits, as their bits.
Rounding is exact: a rational number is taken to the nearest double, and of two
equally near ones to the one with the even significand. -/
namespace ProviderRoles

/-- A 64-bit double. Two are equal when their bits are. -/
structure Binary64 where
  bits : UInt64
  deriving DecidableEq, Inhabited

namespace Binary64

/-- The bits below the sign. Among non-negative doubles they grow with the value. -/
def magnitude (x : Binary64) : Nat := x.bits.toNat % powerOfTwo 63

def isNegative (x : Binary64) : Bool := powerOfTwo 63 ≤ x.bits.toNat

/-- The number of doubles between a power of two and the next one. -/
def binadeSize : Nat := powerOfTwo 52

def infiniteMagnitude : Nat := 2047 * binadeSize

def isNaN (x : Binary64) : Bool := infiniteMagnitude < x.magnitude

def isInfinite (x : Binary64) : Bool := x.magnitude = infiniteMagnitude

def isZero (x : Binary64) : Bool := x.magnitude = 0

def ofMagnitude (negative : Bool) (magnitude : Nat) : Binary64 :=
  ⟨UInt64.ofNat (if negative then powerOfTwo 63 + magnitude else magnitude)⟩

/-- Equality of values: the two zeros are one value, and a NaN is none. -/
def sameValue (x y : Binary64) : Bool :=
  !x.isNaN && (x = y || x.isZero && y.isZero)

/-- The quotient `num / den` to the nearest integer, a half to the even one. -/
def roundHalfEven (num den : Nat) : Nat :=
  let q := num / den
  let twice := 2 * (num % den)
  if twice < den then q else if den < twice then q + 1 else q + q % 2

/-- The magnitude nearest to `num / den`, counted in steps of `2 ^ -1074` that double
with each binade. Beyond the largest finite double it is infinite. -/
def nearestMagnitude (num den : Nat) : Nat :=
  let steps := num * powerOfTwo 1074
  let whole := steps / den
  let binade := if whole < 2 * binadeSize then 0 else whole.log2 - 52
  min infiniteMagnitude (binade * binadeSize + roundHalfEven steps (den * powerOfTwo binade))

def fraction (magnitude : Nat) : Nat × Nat :=
  let field := magnitude / binadeSize
  let low := magnitude % binadeSize
  if field = 0 then (low, powerOfTwo 1074)
  else if field < 1075 then (binadeSize + low, powerOfTwo (1075 - field))
  else ((binadeSize + low) * powerOfTwo (field - 1075), 1)

def nearest (negative : Bool) (num den : Nat) : Binary64 :=
  ofMagnitude negative (nearestMagnitude num den)

def ofNat (n : Nat) : Binary64 := nearest false n 1

/-- The double nearest to `digits * 10 ^ exponent`. Exponents far outside the range of
doubles are settled without computing the power. -/
def ofDecimal (negative : Bool) (digits : Nat) (exponent : Int) : Binary64 :=
  let order := exponent + (Nat.toDigits 10 digits).length
  if digits = 0 ∨ order < -330 then ofMagnitude negative 0
  else if 330 < order then ofMagnitude negative infiniteMagnitude
  else if 0 ≤ exponent then nearest negative (digits * powerOfTen exponent.toNat) 1
  else nearest negative digits (powerOfTen (-exponent).toNat)

/-- The product of the magnitudes of two finite doubles, rounded once. -/
def timesMagnitude (x y : Binary64) : Binary64 :=
  let (a, b) := fraction x.magnitude
  let (c, d) := fraction y.magnitude
  nearest false (a * c) (b * d)

/-- The quotient of the magnitudes of two finite doubles, `y` not zero, rounded once. -/
def overMagnitude (x y : Binary64) : Binary64 :=
  let (a, b) := fraction x.magnitude
  let (c, d) := fraction y.magnitude
  nearest false (a * d) (b * c)

/-- The nearest 64-bit natural number, a half away from zero. Numbers outside the range
go to its nearer end and a NaN goes to zero. -/
def toUInt64 (x : Binary64) : UInt64 :=
  if x.isNaN || x.isNegative then 0
  else if x.isInfinite then UInt64.ofNat (powerOfTwo 64 - 1)
  else
    let (num, den) := fraction x.magnitude
    UInt64.ofNat (min (powerOfTwo 64 - 1) ((2 * num + den) / (2 * den)))

end Binary64

end ProviderRoles
