import ProviderRoles.Number.Binary64

/-! Decimal texts of doubles. The digits are the fewest that read back as the same
double, and of those the nearest to it. A layout says which of two equally near ones is
taken and how the digits are set out. -/
namespace ProviderRoles

/-- Where a number half way between two neighbours goes. -/
inductive Tie where
  /-- To the one with the even last digit. -/
  | toEven
  /-- To the greater one. -/
  | up
  deriving DecidableEq

/-- The positive number `digits * 10 ^ exponent`. -/
structure Decimal where
  digits : Nat
  exponent : Int
  deriving DecidableEq

namespace Decimal

/-- Reads back as the double of the given magnitude. -/
def readsAs (d : Decimal) (magnitude : Nat) : Bool :=
  (Binary64.ofDecimal false d.digits d.exponent).magnitude = magnitude

/-- The greatest `e` with `10 ^ e ≤ num / den`, for a positive fraction. -/
def order (num den : Nat) : Int :=
  let guess : Int := (Nat.toDigits 10 num).length - (Nat.toDigits 10 den).length
  let reached : Bool :=
    if 0 ≤ guess then den * powerOfTen guess.toNat ≤ num
    else den ≤ num * powerOfTen (-guess).toNat
  if reached then guess else guess - 1

/-- The whole number nearest to `a / b`. -/
def round (tie : Tie) (a b : Nat) : Nat :=
  match tie with
  | .toEven => Binary64.roundHalfEven a b
  | .up => (2 * a + b) / (2 * b)

/-- Of the two numbers with `count` digits beside `num / den` the nearest that reads back. -/
def candidate (tie : Tie) (magnitude num den : Nat) (top : Int) (count : Nat) : Option Decimal :=
  let exponent := top - count + 1
  let a := if 0 ≤ exponent then num else num * powerOfTen (-exponent).toNat
  let b := if 0 ≤ exponent then den * powerOfTen exponent.toNat else den
  let below : Decimal := ⟨a / b, exponent⟩
  let above : Decimal := ⟨a / b + 1, exponent⟩
  match below.readsAs magnitude, above.readsAs magnitude with
  | true, true => some (if round tie a b = a / b then below else above)
  | true, false => some below
  | false, true => some above
  | false, false => none

/-- Seventeen digits always read back, so the search ends with a number. -/
def shortest (tie : Tie) (magnitude : Nat) : Decimal :=
  let (num, den) := Binary64.fraction magnitude
  let top := order num den
  ((List.range 17).findSome? fun n => candidate tie magnitude num den top (n + 1)).getD ⟨0, 0⟩

end Decimal

/-- How a double is written: with an exponent outside the given range of decimal
exponents, if there is one, and otherwise in positional notation with a fraction. -/
structure DecimalLayout where
  positional : Option (Int × Int)
  tie : Tie
  deriving DecidableEq

namespace DecimalLayout

/-- Numbers of a JSON text: positional from `1e-5` up to below `1e+16`. -/
def wire : DecimalLayout := ⟨some (-5, 15), .toEven⟩

/-- Numbers of a message: never an exponent. -/
def plain : DecimalLayout := ⟨none, .up⟩

def zeros (n : Int) : List Char := List.replicate n.toNat '0'

/-- The digits `ds` with the point after the first `point` of them. -/
def setPoint (ds : List Char) (point : Int) : List Char :=
  if point ≤ 0 then '0' :: '.' :: (zeros (-point) ++ ds)
  else if ds.length ≤ point then ds ++ zeros (point - ds.length) ++ ['.', '0']
  else ds.take point.toNat ++ '.' :: ds.drop point.toNat

/-- One digit, the others behind a point, and the signed exponent. -/
def setExponent (ds : List Char) (exponent : Int) : List Char :=
  let tail := if ds.length ≤ 1 then [] else '.' :: ds.drop 1
  let sign := if exponent < 0 then '-' else '+'
  ds.take 1 ++ tail ++ 'e' :: sign :: Nat.toDigits 10 exponent.natAbs

def write (layout : DecimalLayout) (d : Decimal) : List Char :=
  let all := Nat.toDigits 10 d.digits
  let ds := (all.reverse.dropWhile (· = '0')).reverse
  let exponent := d.exponent + all.length - 1
  match layout.positional with
  | some (low, high) =>
    if low ≤ exponent ∧ exponent ≤ high then setPoint ds (exponent + 1) else setExponent ds exponent
  | none => setPoint ds (exponent + 1)

/-- A finite number always shows a point or an exponent. -/
def text (layout : DecimalLayout) (x : Binary64) : String :=
  if x.isNaN then "NaN"
  else
    let body :=
      if x.isInfinite then ['i', 'n', 'f']
      else if x.isZero then ['0', '.', '0']
      else layout.write (Decimal.shortest layout.tie x.magnitude)
    String.ofList (if x.isNegative then '-' :: body else body)

end DecimalLayout

end ProviderRoles
