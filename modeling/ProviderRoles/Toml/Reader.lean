import ProviderRoles.Text.ByteOrderMark
import ProviderRoles.Toml.Scalar
import ProviderRoles.Toml.Table

/-! Reading TOML texts, version 1.1. A text that is not well-formed, defines something twice
or holds an integer beyond 64 bits is refused without a reason. -/
namespace ProviderRoles.Toml

mutual

/-- A value without blanks before it, in which arrays and inline tables are at most `depth`
deep. The length of the text is fuel enough. -/
def value (fuel depth : Nat) (s : List Char) : Option (Json × List Char) :=
  match fuel with
  | 0 => none
  | fuel + 1 =>
    match s, depth with
    | '"' :: _, _ | '\'' :: _, _ => (string s).map fun (t, rest) => (.str t, rest)
    | '[' :: _, 0 | '\x7b' :: _, 0 => none
    | '[' :: rest, depth + 1 => (items fuel depth rest).map fun (xs, rest) => (.arr xs, rest)
    | '\x7b' :: rest, depth + 1 =>
      (pairs fuel depth [] rest).map fun (es, rest) => (.obj (entriesToJson es), rest)
    | _, _ => scalar s

/-- The items of an array up to the closing bracket. A comma may follow the last one. -/
def items (fuel depth : Nat) (s : List Char) : Option (List Json × List Char) :=
  match fuel with
  | 0 => none
  | fuel + 1 =>
    match skipFiller s.length s with
    | ']' :: rest => some ([], rest)
    | s => do
      let (x, rest) ← value fuel depth s
      match skipFiller rest.length rest with
      | ']' :: rest => pure ([x], rest)
      | ',' :: rest =>
        let (xs, rest) ← items fuel depth rest
        pure (x :: xs, rest)
      | _ => none

/-- The pairs of an inline table up to the closing brace, added to `es`. A comma may follow
the last one, and each part of a pair may stand on a line of its own. -/
def pairs (fuel depth : Nat) (es : Entries) (s : List Char) : Option (Entries × List Char) :=
  match fuel with
  | 0 => none
  | fuel + 1 =>
    match skipFiller s.length s with
    | '\x7d' :: rest => some (es, rest)
    | s => do
      let (path, rest) ← key s
      match skipFiller rest.length rest with
      | '=' :: rest =>
        let (x, rest) ← value fuel depth (skipFiller rest.length rest)
        let es ← Entries.atEnd true (Entries.setValue · x) path es
        match skipFiller rest.length rest with
        | '\x7d' :: rest => pure (es, rest)
        | ',' :: rest => pairs fuel depth es rest
        | _ => none
      | _ => none

end

/-- A document as far as it was read: the tables and the path of the one that is open. -/
structure Document where
  root : Entries := []
  path : List String := []

def header (table : Bool) (d : Document) (s : List Char) : Option (Document × List Char) := do
  let (path, rest) ← key s
  let act := if table then Entries.openTable else Entries.openElement
  let root ← Entries.atEnd false act path d.root
  pure (⟨root, path⟩, rest)

def keyValue (d : Document) (s : List Char) : Option (Document × List Char) := do
  let (path, rest) ← key s
  match rest with
  | '=' :: rest =>
    let rest := skipBlanks rest
    let (x, rest) ← value (2 * rest.length + 2) maxDepth rest
    let set := Entries.atEnd true (Entries.setValue · x) path
    let root ← Entries.descend false set d.path d.root
    pure ({ d with root }, rest)
  | _ => none

/-- What a line says, without the comment at its end. -/
def statement (d : Document) : List Char → Option (Document × List Char)
  | '[' :: '[' :: rest =>
    match header false d rest with
    | some (d, ']' :: ']' :: rest) => some (d, rest)
    | _ => none
  | '[' :: rest =>
    match header true d rest with
    | some (d, ']' :: rest) => some (d, rest)
    | _ => none
  | s =>
    match skipComment s with
    | [] => some (d, s)
    | rest => if (newline? rest).isSome then some (d, s) else keyValue d s

def lines : Nat → Document → List Char → Option Document
  | 0, _, _ => none
  | fuel + 1, d, s => do
    let (d, rest) ← statement d (skipBlanks s)
    match skipComment (skipBlanks rest) with
    | [] => pure d
    | rest => lines fuel d (← newline? rest)

/-- The root table of a text, which may begin with a byte order mark. -/
def read (text : List Char) : Option (SortedMap Json) :=
  let text := ByteOrderMark.strip text
  (lines (text.length + 1) {} text).map fun d => SortedMap.ofList (entriesToJson d.root)

end ProviderRoles.Toml
