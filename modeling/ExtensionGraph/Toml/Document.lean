import ExtensionGraph.Toml.Number
import ExtensionGraph.Toml.Time

/-!
# TOML documents

A document is a sequence of lines: blank ones and comments, headers, and keys with values.
Arrays may go over several lines. Arrays and tables in braces may be nested 79 deep, and a key
may have as many parts.

## Main definitions

* `ExtensionGraph.Toml.key?`, `ExtensionGraph.Toml.value?` — keys and values.
* `ExtensionGraph.Toml.ofText?` — the root table of a document.
-/

namespace ExtensionGraph.Toml

/-- How deep values may be nested, and how many parts a key may have. -/
def maxNesting : Nat := 79

/-- Characters of a key without quotes. -/
def isKeyChar (c : Char) : Bool := c.isAlphanum || c = '_' || c = '-'

/-- Reads one part of a key. -/
def keyPart? (cs : List Char) : Option (String × List Char) :=
  let bare := cs.takeWhile isKeyChar
  if bare.isEmpty then shortString? cs
  else some (String.ofList bare, cs.dropWhile isKeyChar)

/-- Reads the parts of a key with the points between them; `most` bounds their number. -/
def keyParts? : Nat → List Char → Option (List String × List Char)
  | 0, _ => none
  | most + 1, cs => do
    let (part, cs) ← keyPart? (blanks cs)
    match blanks cs with
    | '.' :: cs => (keyParts? most cs).map fun (parts, rest) => (part :: parts, rest)
    | cs => some ([part], cs)

/-- Reads a key as its last part and the parts in front of it. -/
def key? (cs : List Char) : Option ((List String × String) × List Char) := do
  let (parts, cs) ← keyParts? maxNesting cs
  let last ← parts.getLast?
  some ((parts.dropLast, last), cs)

/-- Reads a value that holds no others. -/
def scalar? (cs : List Char) : Option (Value × List Char) :=
  match cs with
  | '\x22' :: _ => (string? cs).map fun (s, rest) => (.string s, rest)
  | '\'' :: _ => (string? cs).map fun (s, rest) => (.string s, rest)
  | 't' :: 'r' :: 'u' :: 'e' :: rest => some (.boolean true, rest)
  | 'f' :: 'a' :: 'l' :: 's' :: 'e' :: rest => some (.boolean false, rest)
  | cs => (((time? cs).map fun rest => (Value.time, rest)).or (float? cs)).or (integer? cs)

/-- Reads the items of an array behind its bracket; `fuel` bounds their number. -/
def items? (read : List Char → Option (Value × List Char)) :
    Nat → List Char → Option (List Value × List Char)
  | 0, _ => none
  | fuel + 1, cs =>
    match skipTrivia false cs with
    | ']' :: cs => some ([], cs)
    | cs => do
      let (v, cs) ← read cs
      match skipTrivia false cs with
      | ',' :: cs => (items? read fuel cs).map fun (vs, rest) => (v :: vs, rest)
      | ']' :: cs => some ([v], cs)
      | _ => none

/-- Reads the members of a table in braces behind the brace and adds them to the given ones;
`fuel` bounds their number. -/
def members? (read : List Char → Option (Value × List Char)) :
    Nat → Members → List Char → Option (Members × List Char)
  | 0, _, _ => none
  | fuel + 1, ms, cs => do
    let ((path, key), cs) ← key? cs
    let cs ← mark? '=' cs
    let (v, cs) ← read (blanks cs)
    let ms ← ms.assign path key v
    match blanks cs with
    | ',' :: cs => members? read fuel ms cs
    | '\x7d' :: cs => some (ms, cs)
    | _ => none

/-- Reads a value that may be nested to the given depth. -/
def value? : Nat → List Char → Option (Value × List Char)
  | 0, cs => scalar? cs
  | depth + 1, cs =>
    match cs with
    | '[' :: cs =>
      (items? (value? depth) (cs.length + 1) cs).map fun (vs, rest) => (.array vs, rest)
    | '\x7b' :: cs =>
      match blanks cs with
      | '\x7d' :: rest => some (.table .braces [], rest)
      | cs =>
        (members? (value? depth) (cs.length + 1) [] cs).map fun (ms, rest) =>
          (.table .braces ms, rest)
    | cs => scalar? cs

/-- A document while it is read: its tables, and the path of the latest header. -/
structure Draft where
  members : Members
  header : List String

/-- Reads a header behind its brackets. -/
def header? (double : Bool) (d : Draft) (cs : List Char) : Option (Draft × List Char) := do
  let ((path, key), cs) ← key? cs
  let cs ← mark? ']' cs
  let cs ← if double then mark? ']' cs else some cs
  let cs ← lineRest? cs
  let ms ← if double then d.members.openEntry path key else d.members.openTable path key
  some (⟨ms, path ++ [key]⟩, cs)

/-- Reads a key with its value. -/
def assignment? (d : Draft) (cs : List Char) : Option (Draft × List Char) := do
  let ((path, key), cs) ← key? cs
  let cs ← mark? '=' cs
  let (v, cs) ← value? maxNesting (blanks cs)
  let cs ← lineRest? cs
  let ms ← d.members.assignAt d.header path key v
  some ({ d with members := ms }, cs)

/-- Reads a line that is not empty. -/
def line? (d : Draft) (cs : List Char) : Option (Draft × List Char) :=
  match cs with
  | '[' :: '[' :: cs => header? true d cs
  | '[' :: cs => header? false d cs
  | '#' :: _ => (lineRest? cs).map (d, ·)
  | '\n' :: _ => (lineRest? cs).map (d, ·)
  | '\r' :: _ => (lineRest? cs).map (d, ·)
  | cs => assignment? d cs

/-- Reads all lines; `fuel` bounds their number. -/
def lines? : Nat → Draft → List Char → Option Draft
  | 0, _, _ => none
  | fuel + 1, d, cs =>
    match blanks cs with
    | [] => some d
    | cs => do
      let (d, cs) ← line? d cs
      lines? fuel d cs

/-- Drops a byte order mark in front of a document. -/
def dropMark : List Char → List Char
  | '\ufeff' :: cs => cs
  | cs => cs

/-- The root table of a document. Every line takes at least one character. -/
def ofText? (text : String) : Option Members :=
  let cs := dropMark text.toList
  (lines? (cs.length + 1) ⟨[], []⟩ cs).map (·.members)

end ExtensionGraph.Toml
