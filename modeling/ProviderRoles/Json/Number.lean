import ProviderRoles.Json.Basic

/-! Number literals of JSON texts. Without fraction and exponent a literal in the range of
the signed or the unsigned 64-bit integers is an integer. Every other one is a double: its
leading digits are gathered into 64 bits, rounded to a double, and scaled by a power of ten
with one more rounding. -/
namespace ProviderRoles

/-- The parts of a number literal. Digits are numbers below ten. -/
structure NumberLiteral where
  negative : Bool
  whole : List Nat
  fraction : Option (List Nat)
  exponent : Option Int

namespace NumberLiteral

/-- Appends digits to `n` as long as it fits into 64 bits, and returns those left over. -/
def gather (n : Nat) : List Nat → Nat × List Nat
  | [] => (n, [])
  | d :: ds => if FitsUnsigned (n * 10 + d : Nat) then gather (n * 10 + d) ds else (n, d :: ds)

def scaleOf (k : Nat) : Binary64 := Binary64.ofDecimal false 1 k

/-- `x / 10 ^ k` in steps that stay within the range of doubles. -/
def scaleDown (x : Binary64) (k : Nat) : Binary64 :=
  if k ≤ 308 then x.overMagnitude (scaleOf k)
  else if x.isZero then x
  else scaleDown (x.overMagnitude (scaleOf 308)) (k - 308)
termination_by k

/-- `x * 10 ^ exponent`, if that is finite. -/
def scale (x : Binary64) (exponent : Int) : Option Binary64 :=
  if exponent < 0 then some (scaleDown x exponent.natAbs)
  else if exponent ≤ 308 then
    let y := x.timesMagnitude (scaleOf exponent.toNat)
    if y.isInfinite then none else some y
  else if x.isZero then some x
  else none

/-- The double that a literal stands for. There is none beyond the finite range. -/
def toBinary64? (l : NumberLiteral) : Option Binary64 :=
  let (high, dropped) := gather 0 l.whole
  let digits := l.fraction.getD []
  let (significand, unread) := gather high digits
  let point : Int := dropped.length - (digits.length - unread.length : Int)
  let exponent := l.exponent.getD 0
  let magnitude :=
    if exponent.natAbs ≤ 2147483647 then scale (Binary64.ofNat significand) (point + exponent)
    else if 0 < exponent ∧ significand ≠ 0 then none
    else some (Binary64.ofNat 0)
  magnitude.map fun x => Binary64.ofMagnitude l.negative x.magnitude

def integer (l : NumberLiteral) : Option Int :=
  let (n, dropped) := gather 0 l.whole
  if l.fraction.isSome || l.exponent.isSome || !dropped.isEmpty then none
  else if !l.negative then some n
  else if n = 0 ∨ ¬ FitsSigned (-n) then none
  else some (-n)

def toJson? (l : NumberLiteral) : Option Json :=
  match l.integer with
  | some n => some (.int n)
  | none => l.toBinary64?.map .float

end NumberLiteral

end ProviderRoles
