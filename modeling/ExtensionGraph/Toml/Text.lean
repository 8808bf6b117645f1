/-!
# Text inside TOML documents

Blanks, line ends, comments, and the four kinds of strings. A reader takes the rest of the
document and returns what it has read and what follows.

## Main definitions

* `ExtensionGraph.Toml.lineRest?`, `ExtensionGraph.Toml.skipTrivia` — what separates values.
* `ExtensionGraph.Toml.string?` — strings.
-/

namespace ExtensionGraph.Toml

/-- Blanks within a line. -/
def isBlank (c : Char) : Bool := c = ' ' || c = '\t'

/-- Characters that may stand in comments and in strings. -/
def isPlain (c : Char) : Bool :=
  c = '\t' || (0x20 ≤ c.toNat && c.toNat ≠ 0x7F)

/-- Drops leading blanks. -/
def blanks (cs : List Char) : List Char := cs.dropWhile isBlank

/-- Reads the end of a line. -/
def lineEnd? : List Char → Option (List Char)
  | '\n' :: cs => some cs
  | '\r' :: '\n' :: cs => some cs
  | _ => none

/-- Drops a comment. -/
def comment : List Char → List Char
  | '#' :: cs => cs.dropWhile isPlain
  | cs => cs

/-- Reads what may follow at the end of a line: blanks, a comment, and the end of the line or
of the document. -/
def lineRest? (cs : List Char) : Option (List Char) :=
  match comment (blanks cs) with
  | [] => some []
  | cs => lineEnd? cs

/-- Drops blanks, line ends and comments. -/
def skipTrivia (inComment : Bool) : List Char → List Char
  | [] => []
  | '\r' :: '\n' :: cs => skipTrivia false cs
  | c :: cs =>
    if c = '\n' then skipTrivia false cs
    else if inComment && isPlain c then skipTrivia true cs
    else if isBlank c then skipTrivia false cs
    else if c = '#' then skipTrivia true cs
    else c :: cs

/-- The value of a hexadecimal digit. -/
def hexValue? (c : Char) : Option Nat :=
  if c.isDigit then some (c.toNat - '0'.toNat)
  else if 'a' ≤ c ∧ c ≤ 'f' then some (c.toNat - 'a'.toNat + 10)
  else if 'A' ≤ c ∧ c ≤ 'F' then some (c.toNat - 'A'.toNat + 10)
  else none

/-- The character with the given hexadecimal number. -/
def numbered? (digits : List Char) : Option Char := do
  let n ← digits.foldlM (fun n c => (hexValue? c).map (n * 16 + ·)) 0
  if h : n.isValidChar then some (Char.ofNatAux n h) else none

/-- The character that a letter after a backslash stands for. -/
def lettered? : Char → Option Char
  | 'b' => some '\x08'
  | 't' => some '\t'
  | 'n' => some '\n'
  | 'f' => some '\x0c'
  | 'r' => some '\r'
  | '\x22' => some '\x22'
  | '\\' => some '\\'
  | _ => none

/-- Puts a character in front of what was read. -/
def prepend (c : Char) (r : List Char × List Char) : List Char × List Char := (c :: r.1, r.2)

/-- Reads a string in quotation marks behind the first one. -/
def basicBody? : List Char → Option (List Char × List Char)
  | [] => none
  | '\x22' :: cs => some ([], cs)
  | '\\' :: 'u' :: a :: b :: c :: d :: cs => do
    let x ← numbered? [a, b, c, d]
    (basicBody? cs).map (prepend x)
  | '\\' :: 'U' :: a :: b :: c :: d :: e :: f :: g :: h :: cs => do
    let x ← numbered? [a, b, c, d, e, f, g, h]
    (basicBody? cs).map (prepend x)
  | '\\' :: c :: cs => do
    let x ← lettered? c
    (basicBody? cs).map (prepend x)
  | c :: cs => if isPlain c && c ≠ '\\' then (basicBody? cs).map (prepend c) else none

/-- Reads a string in single quotes behind the first one. -/
def literalBody? : List Char → Option (List Char × List Char)
  | [] => none
  | '\'' :: cs => some ([], cs)
  | c :: cs => if isPlain c then (literalBody? cs).map (prepend c) else none

/-- Whether a backslash ends the line, so that it joins the next text to this one. -/
def joinsLines (cs : List Char) : Bool := (lineEnd? (blanks cs)).isSome

/-- Reads a string in triple quotation marks behind the first ones. Up to two quotation marks
may stand directly in front of the last ones. While `joining`, blanks and line ends are
dropped. -/
def longBasicBody? (joining : Bool) : List Char → Option (List Char × List Char)
  | [] => none
  | '\x22' :: '\x22' :: '\x22' :: '\x22' :: '\x22' :: cs => some (['\x22', '\x22'], cs)
  | '\x22' :: '\x22' :: '\x22' :: '\x22' :: cs => some (['\x22'], cs)
  | '\x22' :: '\x22' :: '\x22' :: cs => some ([], cs)
  | '\r' :: '\n' :: cs =>
    if joining then longBasicBody? true cs else (longBasicBody? false cs).map (prepend '\n')
  | '\\' :: 'u' :: a :: b :: c :: d :: cs => do
    let x ← numbered? [a, b, c, d]
    (longBasicBody? false cs).map (prepend x)
  | '\\' :: 'U' :: a :: b :: c :: d :: e :: f :: g :: h :: cs => do
    let x ← numbered? [a, b, c, d, e, f, g, h]
    (longBasicBody? false cs).map (prepend x)
  | '\\' :: c :: cs =>
    if joinsLines (c :: cs) then longBasicBody? true (c :: cs)
    else do
      let x ← lettered? c
      (longBasicBody? false cs).map (prepend x)
  | c :: cs =>
    if joining && (isBlank c || c = '\n') then longBasicBody? true cs
    else if c = '\n' || (isPlain c && c ≠ '\\') then
      (longBasicBody? false cs).map (prepend c)
    else none

/-- Reads a string in triple single quotes behind the first ones. -/
def longLiteralBody? : List Char → Option (List Char × List Char)
  | [] => none
  | '\'' :: '\'' :: '\'' :: '\'' :: '\'' :: cs => some (['\'', '\''], cs)
  | '\'' :: '\'' :: '\'' :: '\'' :: cs => some (['\''], cs)
  | '\'' :: '\'' :: '\'' :: cs => some ([], cs)
  | '\r' :: '\n' :: cs => (longLiteralBody? cs).map (prepend '\n')
  | c :: cs =>
    if c = '\n' || isPlain c then (longLiteralBody? cs).map (prepend c) else none

/-- Drops one line end. -/
def dropLineEnd (cs : List Char) : List Char := (lineEnd? cs).getD cs

/-- Reads a string on one line. -/
def shortString? : List Char → Option (String × List Char)
  | '\x22' :: cs => (basicBody? cs).map fun (s, rest) => (String.ofList s, rest)
  | '\'' :: cs => (literalBody? cs).map fun (s, rest) => (String.ofList s, rest)
  | _ => none

/-- Reads a string of any kind. -/
def string? : List Char → Option (String × List Char)
  | '\x22' :: '\x22' :: '\x22' :: cs =>
    (longBasicBody? false (dropLineEnd cs)).map fun (s, rest) => (String.ofList s, rest)
  | '\'' :: '\'' :: '\'' :: cs =>
    (longLiteralBody? (dropLineEnd cs)).map fun (s, rest) => (String.ofList s, rest)
  | cs => shortString? cs

end ExtensionGraph.Toml
