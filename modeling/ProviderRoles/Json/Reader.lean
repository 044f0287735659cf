import ProviderRoles.Json.Number
import ProviderRoles.Text.Digits

/-! Reading JSON texts. Of members with one name the last counts, and values nest at most
127 levels deep. A text that is not one JSON value is refused without a reason. -/
namespace ProviderRoles.Json.Reader

/-- A reading function takes a value off the front of a text. -/
abbrev Reading (α : Type) := List Char → Option (α × List Char)

def isBlank (c : Char) : Bool := c = ' ' || c = '\n' || c = '\t' || c = '\r'

def skipBlanks (s : List Char) : List Char := s.dropWhile isBlank

def codeUnit : Reading Nat
  | a :: b :: c :: d :: rest => do
    let a ← Digits.hexValue? a
    let b ← Digits.hexValue? b
    let c ← Digits.hexValue? c
    let d ← Digits.hexValue? d
    pure (((a * 16 + b) * 16 + c) * 16 + d, rest)
  | _ => none

/-- The character after `\u`. Beyond the basic plane it takes a pair of surrogates, and a
surrogate alone is no character. -/
def codePoint : Reading Char := fun s => do
  let (high, rest) ← codeUnit s
  if 0xD800 ≤ high ∧ high ≤ 0xDBFF then
    match rest with
    | '\\' :: 'u' :: rest =>
      let (low, rest) ← codeUnit rest
      if 0xDC00 ≤ low ∧ low ≤ 0xDFFF then
        pure (Char.ofNat (0x10000 + (high - 0xD800) * 0x400 + (low - 0xDC00)), rest)
      else none
    | _ => none
  else if 0xDC00 ≤ high ∧ high ≤ 0xDFFF then none
  else pure (Char.ofNat high, rest)

def escaped : Reading Char
  | '"' :: rest => some ('"', rest)
  | '\\' :: rest => some ('\\', rest)
  | '/' :: rest => some ('/', rest)
  | 'b' :: rest => some ('\x08', rest)
  | 'f' :: rest => some ('\x0c', rest)
  | 'n' :: rest => some ('\n', rest)
  | 'r' :: rest => some ('\r', rest)
  | 't' :: rest => some ('\t', rest)
  | 'u' :: rest => codePoint rest
  | _ => none

/-- The rest of a string after its opening quote; `seen` holds its characters so far, the
last one first. -/
def stringBody (fuel : Nat) (seen : List Char) (s : List Char) : Option (String × List Char) :=
  match fuel, s with
  | _, '"' :: rest => some (String.ofList seen.reverse, rest)
  | fuel + 1, '\\' :: rest => do
    let (c, rest) ← escaped rest
    stringBody fuel (c :: seen) rest
  | fuel + 1, c :: rest => if c < ' ' then none else stringBody fuel (c :: seen) rest
  | _, _ => none

def string : Reading String
  | '"' :: rest => stringBody rest.length [] rest
  | _ => none

def digits : Reading (List Nat) := fun s =>
  match s.takeWhile Char.isDigit with
  | [] => none
  | ds => some (ds.map Digits.value, s.dropWhile Char.isDigit)

def fraction : Reading (Option (List Nat))
  | '.' :: rest => (digits rest).map fun (ds, rest) => (some ds, rest)
  | s => some (none, s)

def exponentDigits (negative : Bool) : Reading (Option Int) := fun s =>
  (digits s).map fun (ds, rest) =>
    let n : Nat := ds.foldl (fun n d => n * 10 + d) 0
    (some (if negative then -(n : Int) else n), rest)

def exponent : Reading (Option Int)
  | 'e' :: '+' :: rest | 'E' :: '+' :: rest => exponentDigits false rest
  | 'e' :: '-' :: rest | 'E' :: '-' :: rest => exponentDigits true rest
  | 'e' :: rest | 'E' :: rest => exponentDigits false rest
  | s => some (none, s)

/-- A number literal. Its whole part has no leading zero. -/
def number : Reading Json := fun s => do
  let negative := s.head? = some '-'
  let (whole, rest) ← digits (if negative then s.drop 1 else s)
  if whole.length ≠ 1 ∧ whole.head? = some 0 then none
  else
    let (fraction, rest) ← fraction rest
    let (exponent, rest) ← exponent rest
    let value ← NumberLiteral.toJson? ⟨negative, whole, fraction, exponent⟩
    pure (value, rest)

mutual

/-- A value after its leading blanks. Each step down costs one unit of `depth`; `fuel`
bounds the number of steps and the length of the text is enough. -/
def value (fuel depth : Nat) (s : List Char) : Option (Json × List Char) :=
  match fuel, skipBlanks s with
  | 0, _ => none
  | _ + 1, 'n' :: 'u' :: 'l' :: 'l' :: rest => some (.null, rest)
  | _ + 1, 't' :: 'r' :: 'u' :: 'e' :: rest => some (.bool true, rest)
  | _ + 1, 'f' :: 'a' :: 'l' :: 's' :: 'e' :: rest => some (.bool false, rest)
  | _ + 1, '"' :: rest => (string ('"' :: rest)).map fun (t, rest) => (.str t, rest)
  | fuel + 1, '[' :: rest =>
    match depth with
    | 0 => none
    | depth + 1 =>
      match skipBlanks rest with
      | ']' :: rest => some (.arr [], rest)
      | rest => (items fuel depth rest).map fun (xs, rest) => (.arr xs, rest)
  | fuel + 1, '\x7b' :: rest =>
    match depth with
    | 0 => none
    | depth + 1 =>
      match skipBlanks rest with
      | '\x7d' :: rest => some (.obj [], rest)
      | rest => (members fuel depth rest).map fun (ms, rest) =>
        (.ofMap (SortedMap.ofList ms), rest)
  | _ + 1, s => number s

def items (fuel depth : Nat) (s : List Char) : Option (List Json × List Char) :=
  match fuel with
  | 0 => none
  | fuel + 1 => do
    let (x, rest) ← value fuel depth s
    match skipBlanks rest with
    | ']' :: rest => pure ([x], rest)
    | ',' :: rest =>
      let (xs, rest) ← items fuel depth rest
      pure (x :: xs, rest)
    | _ => none

def members (fuel depth : Nat) (s : List Char) : Option (List (String × Json) × List Char) :=
  match fuel with
  | 0 => none
  | fuel + 1 => do
    let (name, rest) ← string (skipBlanks s)
    match skipBlanks rest with
    | ':' :: rest =>
      let (x, rest) ← value fuel depth rest
      match skipBlanks rest with
      | '\x7d' :: rest => pure ([(name, x)], rest)
      | ',' :: rest =>
        let (ms, rest) ← members fuel depth rest
        pure ((name, x) :: ms, rest)
      | _ => none
    | _ => none

end

def read (text : List Char) : Option Json := do
  let (x, rest) ← value (2 * text.length + 2) 127 text
  if (skipBlanks rest).isEmpty then some x else none

end ProviderRoles.Json.Reader
