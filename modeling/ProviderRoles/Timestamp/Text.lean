import ProviderRoles.Text.Digits
import ProviderRoles.Timestamp.Basic

/-! The text of a timestamp after RFC 3339: `2024-01-02T03:04:05.678+01:00`. The fraction
is left out when it is zero and ends in no zero, and `Z` stands for the offset zero. The
text holds years of four digits and offsets of whole minutes below a day, nothing else. -/
namespace ProviderRoles.Timestamp

inductive Component where
  | year | month | day | separator | hour | minute | second | subsecond
  | offsetHour | offsetMinute | offsetSecond
  deriving DecidableEq

/-! Writing. -/

def digit (n : Nat) : Char := Nat.digitChar (n % 10)

def two (n : Nat) : List Char := [digit (n / 10), digit n]

def four (n : Nat) : List Char := two (n / 100) ++ two n

def nine (n : Nat) : List Char :=
  digit (n / 100000000) :: (four (n / 10000) ++ four n)

def fractionText (nanosecond : Nat) : List Char :=
  if nanosecond = 0 then []
  else '.' :: ((nine nanosecond).reverse.dropWhile (· = '0')).reverse

def offsetText (offset : Int) : List Char :=
  if offset = 0 then ['Z']
  else
    let minutes := offset.natAbs / 60
    (if offset < 0 then '-' else '+') :: (two (minutes / 60) ++ ':' :: two (minutes % 60))

/-- The first component that has no place in the text. -/
def unprintable? (t : Timestamp) : Option Component :=
  if t.date.year < 0 ∨ 9999 < t.date.year then some .year
  else if 24 * 3600 ≤ t.offset.natAbs then some .offsetHour
  else if t.offset.natAbs % 60 ≠ 0 then some .offsetSecond
  else none

def write (t : Timestamp) : Except Component (List Char) :=
  match t.unprintable? with
  | some c => .error c
  | none => .ok <|
    four t.date.year.toNat ++ '-' :: two t.date.month ++ '-' :: two t.date.day ++
    'T' :: two t.time.hour ++ ':' :: two t.time.minute ++ ':' :: two t.time.second ++
    fractionText t.time.nanosecond ++ offsetText t.offset

/-! Reading. -/

inductive ReadError where
  /-- The component is not written as it has to be. -/
  | unreadable (c : Component)
  /-- Something else stands in the place of a hyphen or a colon. -/
  | literal
  /-- The text goes on after the offset. -/
  | trailing
  /-- The component is written well, but there is no such number. -/
  | outOfRange (c : Component)
  deriving DecidableEq

def readTwo (c : Component) : List Char → Except ReadError (Nat × List Char)
  | a :: b :: rest =>
    if a.isDigit ∧ b.isDigit then .ok (Digits.number [a, b], rest)
    else .error (.unreadable c)
  | _ => .error (.unreadable c)

def readYear : List Char → Except ReadError (Nat × List Char)
  | a :: b :: c :: d :: rest =>
    if a.isDigit ∧ b.isDigit ∧ c.isDigit ∧ d.isDigit then
      .ok (Digits.number [a, b, c, d], rest)
    else .error (.unreadable .year)
  | _ => .error (.unreadable .year)

/-- There is no month zero, not even out of range. -/
def readMonth (s : List Char) : Except ReadError (Nat × List Char) := do
  let (month, rest) ← readTwo .month s
  if month = 0 then .error (.unreadable .month) else .ok (month, rest)

def readLiteral (c : Char) : List Char → Except ReadError (List Char)
  | a :: rest => if a = c then .ok rest else .error .literal
  | [] => .error .literal

/-- Any ASCII character separates date and time. Of any other only its first byte would,
and what remains of it is no hour. -/
def readSeparator : List Char → Except ReadError (List Char)
  | c :: rest => if c.toNat < 128 then .ok rest else .error (.unreadable .hour)
  | [] => .error (.unreadable .separator)

/-- Nanoseconds from the digits behind the point; those after the ninth are dropped. -/
def nanoseconds (ds : List Char) : Nat :=
  Digits.number ((ds ++ List.replicate 9 '0').take 9)

def readFraction : List Char → Except ReadError (Nat × List Char)
  | '.' :: rest =>
    match rest.takeWhile Char.isDigit with
    | [] => .error (.unreadable .subsecond)
    | ds => .ok (nanoseconds ds, rest.dropWhile Char.isDigit)
  | s => .ok (0, s)

def readOffset : List Char → Except ReadError (Int × List Char)
  | [] => .error (.unreadable .offsetHour)
  | c :: rest =>
    if c = 'Z' ∨ c = 'z' then .ok (0, rest)
    else if c = '+' ∨ c = '-' then do
      let (hour, rest) ← readTwo .offsetHour rest
      if 23 < hour then .error (.unreadable .offsetHour)
      else
        let rest ← readLiteral ':' rest
        let (minute, rest) ← readTwo .offsetMinute rest
        if 59 < minute then .error (.outOfRange .offsetMinute)
        else
          let minutes : Int := hour * 60 + minute
          .ok (if c = '-' then -minutes else minutes, rest)
    else .error (.unreadable .offsetHour)

def dateOf (year : Nat) (month day : Nat) : Except ReadError Date :=
  if hm : 1 ≤ month ∧ month ≤ 12 then
    if hd : 1 ≤ day ∧ day ≤ daysInMonth year month then
      if hy : -9999 ≤ (year : Int) ∧ (year : Int) ≤ 9999 then .ok ⟨year, month, day, hy, hm, hd⟩
      else .error (.outOfRange .year)
    else .error (.outOfRange .day)
  else .error (.outOfRange .month)

def timeOf (hour minute second nanosecond : Nat) : Except ReadError TimeOfDay :=
  if hh : hour < 24 then
    if hm : minute < 60 then
      if hs : second < 60 then
        if hn : nanosecond < 1000000000 then .ok ⟨hour, minute, second, nanosecond, hh, hm, hs, hn⟩
        else .error (.outOfRange .subsecond)
      else .error (.outOfRange .second)
    else .error (.outOfRange .minute)
  else .error (.outOfRange .hour)

/-- A leap second is taken for the last nanosecond before it. It occurs only at the end of
a month in UTC. -/
def assemble (year month day hour minute second nanosecond : Nat) (offset : Int) :
    Except ReadError Timestamp := do
  let leap := second = 60
  let date ← dateOf year month day
  let time ← if leap then timeOf hour minute 59 999999999
    else timeOf hour minute second nanosecond
  if leap ∧ !endsMonth date hour minute offset then .error (.outOfRange .second)
  else if h : (offset * 60).natAbs < 26 * 3600 then .ok ⟨date, time, offset * 60, h⟩
  else .error (.outOfRange .offsetHour)

/-- The components are read in order up to the end of the text. The ranges of date and time
are looked at after that. -/
def read (s : List Char) : Except ReadError Timestamp := do
  let (year, s) ← readYear s
  let s ← readLiteral '-' s
  let (month, s) ← readMonth s
  let s ← readLiteral '-' s
  let (day, s) ← readTwo .day s
  let s ← readSeparator s
  let (hour, s) ← readTwo .hour s
  let s ← readLiteral ':' s
  let (minute, s) ← readTwo .minute s
  let s ← readLiteral ':' s
  let (second, s) ← readTwo .second s
  let (nanosecond, s) ← readFraction s
  let (offset, s) ← readOffset s
  if s.isEmpty then assemble year month day hour minute second nanosecond offset
  else .error .trailing

/-! Messages. -/

def Component.name : Component → String
  | .year => "year"
  | .month => "month"
  | .day => "day"
  | .separator => "separator"
  | .hour => "hour"
  | .minute => "minute"
  | .second => "second"
  | .subsecond => "subsecond"
  | .offsetHour => "offset hour"
  | .offsetMinute => "offset minute"
  | .offsetSecond => "offset second"

def ReadError.message : ReadError → String
  | .unreadable c => "the '" ++ c.name ++ "' component could not be parsed"
  | .literal => "a character literal was not valid"
  | .trailing => "unexpected trailing characters; the end of input was expected"
  | .outOfRange c => c.name ++ " was not in range"

def unprintableMessage (c : Component) : String :=
  "The " ++ c.name.replace " " "_" ++
    " component cannot be formatted into the requested format."

end ProviderRoles.Timestamp
