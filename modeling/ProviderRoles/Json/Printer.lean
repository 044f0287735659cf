import ProviderRoles.Json.Basic

/-! Writing JSON texts, without blanks. -/
namespace ProviderRoles.Json.Printer

def hexDigit (n : Nat) : Char := Nat.digitChar (n % 16)

def escape (c : Char) : List Char :=
  if c = '"' ∨ c = '\\' then ['\\', c]
  else if c < ' ' then ['\\', 'u', '0', '0', hexDigit (c.toNat / 16), hexDigit c.toNat]
  else [c]

def quote (s : String) : List Char := '"' :: s.toList.flatMap escape ++ ['"']

mutual

def value : Json → List Char
  | .null => ['n', 'u', 'l', 'l']
  | .bool true => ['t', 'r', 'u', 'e']
  | .bool false => ['f', 'a', 'l', 's', 'e']
  | .int n => (toString n).toList
  | .float x => (DecimalLayout.wire.text x).toList
  | .str s => quote s
  | .arr [] => ['[', ']']
  | .arr (x :: xs) => '[' :: value x ++ items xs
  | .obj [] => ['\x7b', '\x7d']
  | .obj ((k, x) :: ms) => '\x7b' :: quote k ++ ':' :: value x ++ members ms

/-- The items after the first, and the closing bracket. -/
def items : List Json → List Char
  | [] => [']']
  | x :: xs => ',' :: value x ++ items xs

/-- The members after the first, and the closing brace. -/
def members : List (String × Json) → List Char
  | [] => ['\x7d']
  | (k, x) :: ms => ',' :: quote k ++ ':' :: value x ++ members ms

end

def text (x : Json) : String := String.ofList (value x)

end ProviderRoles.Json.Printer
