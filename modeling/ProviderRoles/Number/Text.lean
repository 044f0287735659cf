import ProviderRoles.Number.Binary64
import ProviderRoles.Text.Digits

/-! Reading numbers that fill a whole text. Only ASCII digits count, and nothing may stand
before or after the number. -/
namespace ProviderRoles.NumberText

/-- One or more digits. -/
def nat? (s : List Char) : Option Nat :=
  if !s.isEmpty && s.all Char.isDigit then some (Digits.number s) else none

/-- Whether there is a minus sign in front, and the text behind the sign. -/
def sign : List Char → Bool × List Char
  | '-' :: rest => (true, rest)
  | '+' :: rest => (false, rest)
  | s => (false, s)

def int? (s : List Char) : Option Int :=
  let (negative, ds) := sign s
  (nat? ds).map fun n => if negative then -n else n

/-- An integer in the range of the signed 64-bit ones. -/
def int64? (s : List Char) : Option Int :=
  (int? s).filter fun n => FitsSigned n

/-- An unsigned 64-bit integer. It may have a plus sign and no minus sign. -/
def uint64? (s : List Char) : Option UInt64 :=
  let ds := match s with
    | '+' :: rest => rest
    | s => s
  ((nat? ds).filter fun (n : Nat) => FitsUnsigned n).map UInt64.ofNat

/-- The exponent after the mantissa, zero if there is none. -/
def exponent? : List Char → Option Int
  | [] => some 0
  | c :: rest => if c = 'e' ∨ c = 'E' then int? rest else none

/-- A decimal without a sign: digits with a point somewhere or none, then the exponent. -/
def decimal? (negative : Bool) (s : List Char) : Option Binary64 := do
  let whole := s.takeWhile Char.isDigit
  let rest := s.dropWhile Char.isDigit
  let (fraction, rest) := match rest with
    | '.' :: rest => (rest.takeWhile Char.isDigit, rest.dropWhile Char.isDigit)
    | rest => ([], rest)
  let exponent ← exponent? rest
  if whole.isEmpty ∧ fraction.isEmpty then none
  else pure (Binary64.ofDecimal negative (Digits.number (whole ++ fraction)) (exponent - fraction.length))

def canonicalNaN : Binary64 := ⟨0x7ff8000000000000⟩

/-- A decimal number, an infinity or a NaN, the last two in any case. -/
def binary64? (s : List Char) : Option Binary64 :=
  let (negative, body) := sign s
  let word := String.ofList (body.map Char.toLower)
  if word = "inf" ∨ word = "infinity" then
    some (Binary64.ofMagnitude negative Binary64.infiniteMagnitude)
  else if word = "nan" then
    some (Binary64.ofMagnitude negative canonicalNaN.magnitude)
  else decimal? negative body

end ProviderRoles.NumberText
