import ProviderRoles.Json.Basic
import ProviderRoles.Number.Text
import ProviderRoles.Timestamp.Text
import ProviderRoles.Toml.Text

/-! Booleans, numbers and times of TOML texts. A time becomes a text of its own. -/
namespace ProviderRoles.Toml

/-- Digits with single underscores between them, without those. -/
def withoutUnderscores (isDigit : Char → Bool) : List Char → Option (List Char)
  | [] => none
  | [c] => if isDigit c then some [c] else none
  | c :: '_' :: rest =>
    if isDigit c then (withoutUnderscores isDigit rest).map (c :: ·) else none
  | c :: rest => if isDigit c then (withoutUnderscores isDigit rest).map (c :: ·) else none

def isBelow (base : Nat) (c : Char) : Bool := (Digits.hexValue? c).any (· < base)

def based? (base : Nat) (s : List Char) : Option Int := do
  let ds ← withoutUnderscores (isBelow base) s
  pure (ds.foldl (fun n d => n * base + (Digits.hexValue? d).getD 0) (0 : Nat))

/-- Decimal digits without a leading zero. -/
def wholeDigits? (s : List Char) : Option (List Char) := do
  let ds ← withoutUnderscores Char.isDigit s
  if 1 < ds.length ∧ ds.head? = some '0' then none else pure ds

def integer? (s : List Char) : Option Int := do
  let n ← match s with
    | '0' :: 'x' :: ds => based? 16 ds
    | '0' :: 'o' :: ds => based? 8 ds
    | '0' :: 'b' :: ds => based? 2 ds
    | s =>
      let (negative, ds) := NumberText.sign s
      (wholeDigits? ds).map fun ds =>
        let n : Int := Digits.number ds
        if negative then -n else n
  if FitsSigned n then some n else none

/-- The text splits at the first character that is `c` in either case. -/
def splitAtLetter (c : Char) (s : List Char) : List Char × Option (List Char) :=
  let front := s.takeWhile (·.toLower ≠ c)
  match s.dropWhile (·.toLower ≠ c) with
  | [] => (front, none)
  | _ :: back => (front, some back)

/-- An exponent may have leading zeros. -/
def exponentPart? (s : List Char) : Option (List Char) :=
  let (negative, ds) := NumberText.sign s
  (withoutUnderscores Char.isDigit ds).map fun ds => if negative then '-' :: ds else ds

/-- A float that is not finite has to be written as `inf` or `nan`. -/
def float? (s : List Char) : Option Binary64 :=
  let (negative, body) := NumberText.sign s
  if body = ['i', 'n', 'f'] ∨ body = ['n', 'a', 'n'] then NumberText.binary64? s
  else do
    let (mantissa, exponent) := splitAtLetter 'e' body
    let (whole, fraction) := splitAtLetter '.' mantissa
    if exponent.isNone ∧ fraction.isNone then none
    else
      let whole ← wholeDigits? whole
      let fraction ← match fraction with
        | none => some []
        | some ds => (withoutUnderscores Char.isDigit ds).map ('.' :: ·)
      let exponent ← match exponent with
        | none => some []
        | some ds => (exponentPart? ds).map ('e' :: ·)
      let x ← NumberText.decimal? negative (whole ++ fraction ++ exponent)
      if x.isInfinite then none else pure x

/-! Times. -/

def twoBelow? (low high : Nat) : List Char → Option (List Char)
  | [a, b] =>
    match NumberText.nat? [a, b] with
    | some n => if low ≤ n ∧ n ≤ high then some [a, b] else none
    | none => none
  | _ => none

def date? (s : List Char) : Option (List Char) := do
  let year := s.take 4
  let month := (s.drop 5).take 2
  let day := (s.drop 8).take 2
  let y ← NumberText.nat? year
  let m ← NumberText.nat? month
  let d ← NumberText.nat? day
  if s.length = 10 ∧ s[4]? = some '-' ∧ s[7]? = some '-' ∧ 1 ≤ m ∧ m ≤ 12 ∧ 1 ≤ d
      ∧ d ≤ daysInMonth y m then some s
  else none

/-- Of a written fraction nine digits count. Zeros at its end are left out, but for the
first digit. -/
def timeFraction (ds : List Char) : List Char :=
  match Timestamp.fractionText (Timestamp.nanoseconds ds) with
  | [] => ['.', '0']
  | text => text

/-- The seconds may have a fraction. -/
def seconds? (s : List Char) : Option (List Char) := do
  let whole ← twoBelow? 0 60 (s.take 2)
  match s.drop 2 with
  | [] => pure whole
  | '.' :: ds =>
    if ds.isEmpty ∨ !ds.all Char.isDigit then none
    else pure (whole ++ timeFraction ds)
  | _ => none

/-- A time of day. The seconds may be missing. -/
def time? (s : List Char) : Option (List Char) := do
  let hour ← twoBelow? 0 23 (s.take 2)
  if s[2]? ≠ some ':' then none
  else
    let minute ← twoBelow? 0 59 ((s.drop 3).take 2)
    match s.drop 5 with
    | [] => pure (hour ++ ':' :: minute)
    | ':' :: rest => (seconds? rest).map fun second => hour ++ ':' :: minute ++ ':' :: second
    | _ => none

/-- An offset from UTC. That of zero has no minus sign. -/
def offset? : List Char → Option (List Char)
  | [] => some []
  | ['Z'] | ['z'] => some ['Z']
  | c :: rest => do
    let hour ← twoBelow? 0 23 (rest.take 2)
    let minute ← twoBelow? 0 59 (rest.drop 3)
    let isZero := (hour ++ minute).all (· = '0')
    if (c = '+' ∨ c = '-') ∧ rest[2]? = some ':' then
      pure ((if isZero then '+' else c) :: hour ++ ':' :: minute)
    else none

/-- A date, a time, or both with or without an offset. Between date and time stands a `T`
or a blank. -/
def moment? (s : List Char) : Option (List Char) :=
  match date? (s.take 10) with
  | none => time? s
  | some date =>
    match s.drop 10 with
    | [] => some date
    | c :: rest => do
      if c ≠ 'T' ∧ c ≠ 't' ∧ c ≠ ' ' then none
      else
        let isOffset (c : Char) : Bool := c = 'Z' || c = 'z' || c = '+' || c = '-'
        let time ← time? (rest.takeWhile (!isOffset ·))
        let offset ← offset? (rest.dropWhile (!isOffset ·))
        pure (date ++ 'T' :: time ++ offset)

def isScalarChar (c : Char) : Bool :=
  c.isAlphanum || c = '_' || c = '+' || c = '-' || c = '.' || c = ':'

/-- The characters of a value without quotes or brackets. A blank belongs to it only between
a date and a time. -/
def scalarText (s : List Char) : List Char × List Char :=
  let front := s.takeWhile isScalarChar
  let rest := s.dropWhile isScalarChar
  match rest with
  | ' ' :: a :: b :: more =>
    if (date? front).isSome ∧ a.isDigit ∧ b.isDigit then
      let time := a :: b :: more
      (front ++ ' ' :: time.takeWhile isScalarChar, time.dropWhile isScalarChar)
    else (front, rest)
  | _ => (front, rest)

def scalarValue? (s : List Char) : Option Json :=
  if s = ['t', 'r', 'u', 'e'] then some (.bool true)
  else if s = ['f', 'a', 'l', 's', 'e'] then some (.bool false)
  else
    match integer? s with
    | some n => some (.int n)
    | none =>
      match float? s with
      | some x => some (.float x)
      | none => (moment? s).map fun t => .str (String.ofList t)

def scalar : Reading Json := fun s =>
  let (front, rest) := scalarText s
  (scalarValue? front).map (·, rest)

end ProviderRoles.Toml
