import ProviderRoles.Text.Digits

/-! Keys, strings and comments of TOML texts. -/
namespace ProviderRoles.Toml

/-- A reading function takes something off the front of a text. -/
abbrev Reading (α : Type) := List Char → Option (α × List Char)

def isBlank (c : Char) : Bool := c = ' ' || c = '\t'

def skipBlanks (s : List Char) : List Char := s.dropWhile isBlank

/-- No control character but the tab. -/
def isTextChar (c : Char) : Bool := c = '\t' || ' ' ≤ c && c ≠ '\x7f'

def newline? : List Char → Option (List Char)
  | '\n' :: rest => some rest
  | '\r' :: '\n' :: rest => some rest
  | _ => none

/-- Skips a comment, if there is one, up to the end of the line. -/
def skipComment : List Char → List Char
  | '#' :: rest => rest.dropWhile isTextChar
  | s => s

/-- Skips what may stand between the items of an array: blanks, line breaks and comments. -/
def skipFiller : Nat → List Char → List Char
  | 0, s => s
  | fuel + 1, s =>
    let s := skipComment (skipBlanks s)
    match newline? s with
    | some rest => skipFiller fuel rest
    | none => s

/-- The character with the code point in the next `count` hexadecimal digits. -/
def codePoint (count : Nat) : Reading Char := fun s => do
  let ds := s.take count
  if ds.length < count then none
  else
    let values ← ds.mapM Digits.hexValue?
    let n := values.foldl (fun n d => n * 16 + d) 0
    if n.isValidChar then pure (Char.ofNat n, s.drop count) else none

/-- The character that a backslash and what follows it stand for. -/
def escaped : Reading Char
  | '"' :: rest => some ('"', rest)
  | '\\' :: rest => some ('\\', rest)
  | 'b' :: rest => some ('\x08', rest)
  | 'e' :: rest => some ('\x1b', rest)
  | 'f' :: rest => some ('\x0c', rest)
  | 'n' :: rest => some ('\n', rest)
  | 'r' :: rest => some ('\r', rest)
  | 't' :: rest => some ('\t', rest)
  | 'x' :: rest => codePoint 2 rest
  | 'u' :: rest => codePoint 4 rest
  | 'U' :: rest => codePoint 8 rest
  | _ => none

def skipLines : Nat → List Char → List Char
  | 0, s => s
  | fuel + 1, s =>
    let s := skipBlanks s
    match newline? s with
    | some rest => skipLines fuel rest
    | none => s

/-- After the backslash at the end of a line: the text behind all blanks and line breaks,
of which there is at least one. -/
def continuation? (s : List Char) : Option (List Char) :=
  (newline? (skipBlanks s)).map fun rest => skipLines (rest.length + 1) rest

def finish (seen : List Char) (rest : List Char) : Option (String × List Char) :=
  some (String.ofList seen.reverse, rest)

/-- The rest of a string on one line. `seen` is what was read, the last character first. -/
def lineBody (quote : Char) : Nat → List Char → Reading String
  | 0, _, _ => none
  | fuel + 1, seen, s =>
    match s with
    | [] => none
    | c :: rest =>
      if c = quote then finish seen rest
      else if c = '\\' ∧ quote = '"' then do
        let (e, rest) ← escaped rest
        lineBody quote fuel (e :: seen) rest
      else if isTextChar c then lineBody quote fuel (c :: seen) rest
      else none

/-- How many quotes in a row the text begins with, at most five. -/
def countQuotes (quote : Char) (s : List Char) : Nat :=
  ((s.take 5).takeWhile (· = quote)).length

/-- The rest of a string over several lines. Line breaks belong to it as they are written.
Up to two quotes may stand in a row anywhere, also before the closing ones. -/
def blockBody (quote : Char) : Nat → List Char → Reading String
  | 0, _, _ => none
  | fuel + 1, seen, s =>
    let quotes := countQuotes quote s
    if 3 ≤ quotes then
      finish (List.replicate (quotes - 3) quote ++ seen) (s.drop quotes)
    else
      match s with
      | [] => none
      | c :: rest =>
        if c = '\\' ∧ quote = '"' then
          match continuation? rest with
          | some rest => blockBody quote fuel seen rest
          | none => do
            let (e, rest) ← escaped rest
            blockBody quote fuel (e :: seen) rest
        else if isTextChar c ∨ (newline? s).isSome then blockBody quote fuel (c :: seen) rest
        else none

/-- A string in the given quotes after the opening one. A line break that follows three
opening quotes is no part of the string. -/
def quoted (quote : Char) : Reading String := fun s =>
  match s with
  | a :: b :: rest =>
    if a = quote ∧ b = quote then
      blockBody quote (rest.length + 1) [] ((newline? rest).getD rest)
    else lineBody quote (s.length + 1) [] s
  | _ => lineBody quote (s.length + 1) [] s

def string : Reading String
  | '"' :: rest => quoted '"' rest
  | '\'' :: rest => quoted '\'' rest
  | _ => none

def isBareChar (c : Char) : Bool := c.isAlphanum || c = '_' || c = '-'

def keyPart : Reading String
  | '"' :: rest => lineBody '"' (rest.length + 1) [] rest
  | '\'' :: rest => lineBody '\'' (rest.length + 1) [] rest
  | s =>
    match s.takeWhile isBareChar with
    | [] => none
    | cs => some (String.ofList cs, s.dropWhile isBareChar)

/-- One to `count` parts of a key with points between them. -/
def keyParts : Nat → Reading (List String)
  | 0, _ => none
  | count + 1, s => do
    let (part, rest) ← keyPart (skipBlanks s)
    match skipBlanks rest with
    | '.' :: rest =>
      let (parts, rest) ← keyParts count rest
      pure (part :: parts, rest)
    | rest => pure ([part], rest)

/-- How many parts a key may have, and how deep arrays and inline tables may lie in one
another. -/
def maxDepth : Nat := 80

def key : Reading (List String) := keyParts maxDepth

end ProviderRoles.Toml
