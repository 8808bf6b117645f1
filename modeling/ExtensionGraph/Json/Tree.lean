import ExtensionGraph.Json.Number

/-!
# JSON texts

A JSON text is read into a tree that reaches as far as the text is well formed, with a mark
where it stops being so. Whoever takes values out of the tree walks it in the order of the
text, so of two faults the one that stands first is met first, whether it is a fault of the
text or a value of the wrong kind.

A part that nobody asks for is skipped, and skipping is more lenient than reading: it does not
look at the range of numbers, the pairing of surrogates or the depth of nesting. Where a tag is
asked for, the first character decides: what begins neither a string nor an object is refused
whatever follows. A mark therefore has three sides, what is wrong with the part as a tag, what
is wrong with it as a value, and what is wrong with it when it is only skipped.

## Main definitions

* `ExtensionGraph.Json.Fault` — what can be wrong with a text.
* `ExtensionGraph.Json.Tree` — a text as far as it can be read.
* `ExtensionGraph.Json.Document.ofChars` — the reader.
* `ExtensionGraph.Json.Value.toTree` — a value as a tree without faults.
-/

namespace ExtensionGraph.Json

/-- What is wrong with a text: it breaks the grammar, or it ends too early. -/
inductive Fault where
  | malformed
  | truncated
deriving DecidableEq, Inhabited

/-- A JSON text as far as it can be read. -/
inductive Tree where
  | null
  | bool (value : Bool)
  | number (value : Number)
  | string (value : String)
  /-- The items up to the closing bracket, or up to the fault that stands in its place. -/
  | array (items : List Tree) (stop : Option Fault)
  /-- The members up to the closing brace; a key can be faulty, too. -/
  | object (members : List (Except Fault String × Tree)) (stop : Option Fault)
  /-- An object that breaks off because its first key is no string. -/
  | keyless (key : Tree)
  /-- A part that is no value: the faults that are met when it is read as a tag, as a value,
  and when it is skipped. -/
  | broken (asTag asValue : Fault) (skipped : Option Fault)
deriving Inhabited

/-- The mark where a part should stand and something else is found, or nothing. -/
def Tree.absent (f : Fault) : Tree := .broken f f (some f)

/-- The deepest nesting of arrays and objects that is read as a value. -/
def maxDepth : Nat := 127

/-- The blanks between the tokens of a text. -/
def isBlank (c : Char) : Bool := c = ' ' || c = '\n' || c = '\t' || c = '\r'

/-- Drops leading blanks. -/
def skipBlanks (cs : List Char) : List Char := cs.dropWhile isBlank

/-- The value of a hexadecimal digit. -/
def hexValue? (c : Char) : Option Nat :=
  if '0' ≤ c ∧ c ≤ '9' then some (c.toNat - '0'.toNat)
  else if 'a' ≤ c ∧ c ≤ 'f' then some (c.toNat - 'a'.toNat + 10)
  else if 'A' ≤ c ∧ c ≤ 'F' then some (c.toNat - 'A'.toNat + 10)
  else none

/-- The four hexadecimal digits after an escape. A text is cut off when fewer than four bytes
are left. -/
def hexEscape (cs : List Char) : Except Fault (Nat × List Char) :=
  match cs with
  | a :: b :: c :: d :: rest =>
    match hexValue? a, hexValue? b, hexValue? c, hexValue? d with
    | some a, some b, some c, some d => .ok (((a * 16 + b) * 16 + c) * 16 + d, rest)
    | _, _, _, _ => .error .malformed
  | _ => .error (if cs.foldl (fun n c => n + c.utf8Size) 0 < 4 then .truncated else .malformed)

/-- The character after a backslash, for the escapes of one letter. -/
def letterEscape? (c : Char) : Option Char :=
  match c with
  | '\x22' => some '\x22'
  | '\\' => some '\\'
  | '/' => some '/'
  | 'b' => some '\x08'
  | 'f' => some '\x0c'
  | 'n' => some '\n'
  | 'r' => some '\r'
  | 't' => some '\t'
  | _ => none

/-- Whether a code unit is the first half of a surrogate pair. -/
def isLeading (n : Nat) : Bool := 0xD800 ≤ n && n < 0xDC00

/-- Whether a code unit is the second half of a surrogate pair. -/
def isTrailing (n : Nat) : Bool := 0xDC00 ≤ n && n < 0xE000

/-- What an escaped code unit stands for, with the text after it: the character, which may
take a second escape, or the fault of a half that stands alone. -/
def codeUnit (n : Nat) (rest : List Char) : Except Fault (Char × List Char) :=
  if isTrailing n then .error .malformed
  else if isLeading n then
    match rest with
    | [] => .error .truncated
    | ['\\'] => .error .truncated
    | '\\' :: 'u' :: more =>
      match hexEscape more with
      | .error f => .error f
      | .ok (n', rest') =>
        if isTrailing n' then
          .ok (Char.ofNat (0x10000 + (n - 0xD800) * 0x400 + (n' - 0xDC00)), rest')
        else .error .malformed
    | _ => .error .malformed
  else .ok (Char.ofNat n, rest)

/-- A string as it is read (after its opening quote) and the text behind it. -/
structure StringText where
  value : Except Fault String
  rest : Except Fault (List Char)

/-- Reads a string after its opening quote. `seen` holds the characters so far in reverse,
`fault` the first fault of the string as a value. -/
def readString : Nat → List Char → List Char → Option Fault → StringText
  | 0, _, _, fault => ⟨.error (fault.getD .truncated), .error .truncated⟩
  | _ + 1, [], _, fault => ⟨.error (fault.getD .truncated), .error .truncated⟩
  | fuel + 1, c :: cs, seen, fault =>
    if c = '\x22' then
      ⟨match fault with
        | some f => .error f
        | none => .ok (String.ofList seen.reverse), .ok cs⟩
    else if c = '\\' then
      match cs with
      | [] => ⟨.error (fault.getD .truncated), .error .truncated⟩
      | 'u' :: cs =>
        match hexEscape cs with
        | .error f => ⟨.error (fault.getD f), .error f⟩
        | .ok (n, rest) =>
          match codeUnit n rest with
          | .ok (c, rest) => readString fuel rest (c :: seen) fault
          | .error f => readString fuel rest seen (some (fault.getD f))
      | c :: cs =>
        match letterEscape? c with
        | some c => readString fuel cs (c :: seen) fault
        | none => ⟨.error (fault.getD .malformed), .error .malformed⟩
    else if c.toNat < 0x20 then ⟨.error (fault.getD .malformed), .error .malformed⟩
    else readString fuel cs (c :: seen) fault

/-- Reads the digits that must follow a point or an exponent mark. -/
def readDigits (cs : List Char) : Except Fault (List Char × List Char) :=
  match cs with
  | [] => .error .truncated
  | c :: _ =>
    if c.isDigit then .ok (cs.takeWhile Char.isDigit, cs.dropWhile Char.isDigit)
    else .error .malformed

/-- Reads the digits before the point; a leading zero stands alone. -/
def readWhole (cs : List Char) : Except Fault (List Char × List Char) := do
  let (digits, rest) ← readDigits cs
  match digits with
  | '0' :: _ :: _ => .error .malformed
  | _ => .ok (digits, rest)

/-- Reads the fraction, if there is one. -/
def readFraction : List Char → Except Fault (Option (List Char) × List Char)
  | '.' :: cs => do
    let (digits, rest) ← readDigits cs
    .ok (some digits, rest)
  | cs => .ok (none, cs)

/-- Reads the exponent, if there is one. -/
def readExponent : List Char → Except Fault (Option Int × List Char)
  | c :: cs =>
    if c = 'e' ∨ c = 'E' then
      match cs with
      | '+' :: cs => do
        let (digits, rest) ← readDigits cs
        .ok (some (digitsValue digits), rest)
      | '-' :: cs => do
        let (digits, rest) ← readDigits cs
        .ok (some (-digitsValue digits), rest)
      | cs => do
        let (digits, rest) ← readDigits cs
        .ok (some (digitsValue digits), rest)
    else .ok (none, c :: cs)
  | [] => .ok (none, [])

/-- Reads a number text. -/
def readNumber (cs : List Char) : Except Fault (NumberText × List Char) := do
  let (negative, cs) := match cs with
    | '-' :: cs => (true, cs)
    | cs => (false, cs)
  let (whole, cs) ← readWhole cs
  let (fraction, cs) ← readFraction cs
  let (exponent, cs) ← readExponent cs
  .ok (⟨negative, whole, fraction, exponent⟩, cs)

/-- Reads the rest of a literal name. -/
def readName (value : Tree) : List Char → List Char → Tree × Option (List Char)
  | [], cs => (value, some cs)
  | _ :: _, [] => (.broken .malformed .truncated (some .truncated), none)
  | n :: name, c :: cs =>
    if n = c then readName value name cs else (.absent .malformed, none)

/-- The fault that is met when a tree is skipped. -/
def Tree.skipped : Tree → Option Fault
  | .array items stop => go items stop
  | .object members stop => goMembers members stop
  | .keyless _ => some .malformed
  | .broken _ _ skipped => skipped
  | _ => none
where
  go : List Tree → Option Fault → Option Fault
    | [], stop => stop
    | t :: ts, stop => match t.skipped with
      | some f => some f
      | none => go ts stop
  goMembers : List (Except Fault String × Tree) → Option Fault → Option Fault
    | [], stop => stop
    | (_, t) :: ts, stop => match t.skipped with
      | some f => some f
      | none => goMembers ts stop

/-- A tree that is nested too deeply can only be skipped. -/
def Tree.atDepth (depth : Nat) (t : Tree) : Tree :=
  if depth ≤ maxDepth then t else .broken .malformed .malformed t.skipped

mutual

/-- Reads one value and tells where the text goes on, unless it breaks off inside. -/
def readTree : Nat → Nat → List Char → Tree × Option (List Char)
  | 0, _, _ => (.absent .truncated, none)
  | fuel + 1, depth, cs =>
    match skipBlanks cs with
    | [] => (.absent .truncated, none)
    | 'n' :: cs => readName .null ['u', 'l', 'l'] cs
    | 't' :: cs => readName (.bool true) ['r', 'u', 'e'] cs
    | 'f' :: cs => readName (.bool false) ['a', 'l', 's', 'e'] cs
    | '\x22' :: cs =>
      let s := readString (cs.length + 1) cs [] none
      match s.value, s.rest with
      | .ok value, .ok rest => (.string value, some rest)
      | .ok _, .error f => (.absent f, none)
      | .error f, .ok rest => (.broken f f none, some rest)
      | .error f, .error f' => (.broken f f (some f'), none)
    | '[' :: cs =>
      let (items, stop, rest) := readItems fuel (depth + 1) true cs
      ((Tree.array items stop).atDepth (depth + 1), rest)
    | '\x7b' :: cs =>
      match skipBlanks cs with
      | [] => ((Tree.object [] (some .truncated)).atDepth (depth + 1), none)
      | c :: cs =>
        if c = '\x22' ∨ c = '\x7d' then
          let (members, stop, rest) := readMembers fuel (depth + 1) true (c :: cs)
          ((Tree.object members stop).atDepth (depth + 1), rest)
        else
          let (key, _) := readTree fuel (depth + 1) (c :: cs)
          ((Tree.keyless key).atDepth (depth + 1), none)
    | c :: cs =>
      if c = '-' ∨ c.isDigit then
        match readNumber (c :: cs) with
        -- whoever skips a number does not tell its end from the end of the text
        | .error f => (.broken .malformed f (some .malformed), none)
        | .ok (text, rest) =>
          match text.number? with
          | some n => (.number n, some rest)
          | none => (.broken .malformed .malformed none, some rest)
      else (.absent .malformed, none)

/-- Reads the items of an array up to its end. -/
def readItems : Nat → Nat → Bool → List Char →
    List Tree × Option Fault × Option (List Char)
  | 0, _, _, _ => ([], some .truncated, none)
  | fuel + 1, depth, first, cs =>
    match skipBlanks cs with
    | [] => ([], some .truncated, none)
    | ']' :: cs => ([], none, some cs)
    | c :: cs =>
      if c = ',' ∧ !first then
        readItem fuel depth cs
      else if first then readItem fuel depth (c :: cs)
      else ([], some .malformed, none)

/-- Reads one item of an array and the items behind it. -/
def readItem : Nat → Nat → List Char → List Tree × Option Fault × Option (List Char)
  | 0, _, _ => ([], some .truncated, none)
  | fuel + 1, depth, cs =>
    match readTree fuel depth cs with
    | (t, none) => ([t], none, none)
    | (t, some rest) =>
      let (ts, stop, rest) := readItems fuel depth false rest
      (t :: ts, stop, rest)

/-- Reads the members of an object up to its end. -/
def readMembers : Nat → Nat → Bool → List Char →
    List (Except Fault String × Tree) × Option Fault × Option (List Char)
  | 0, _, _, _ => ([], some .truncated, none)
  | fuel + 1, depth, first, cs =>
    match skipBlanks cs with
    | [] => ([], some .truncated, none)
    | '\x7d' :: cs => ([], none, some cs)
    | c :: cs =>
      if c = ',' ∧ !first then
        readMember fuel depth (skipBlanks cs)
      else if first then readMember fuel depth (c :: cs)
      else ([], some .malformed, none)

/-- Reads one member of an object and the members behind it. -/
def readMember : Nat → Nat → List Char →
    List (Except Fault String × Tree) × Option Fault × Option (List Char)
  | 0, _, _ => ([], some .truncated, none)
  | _ + 1, _, [] => ([(.error .truncated, .absent .truncated)], none, none)
  | fuel + 1, depth, '\x22' :: cs =>
    let key := readString (cs.length + 1) cs [] none
    match key.rest with
    | .error f =>
      match key.value with
      | .ok _ => ([], some f, none)
      | .error f' => ([(.error f', .absent f)], none, none)
    | .ok rest =>
      match skipBlanks rest with
      | [] => ([(key.value, .absent .truncated)], none, none)
      | ':' :: cs =>
        match readTree fuel depth cs with
        | (t, none) => ([(key.value, t)], none, none)
        | (t, some rest) =>
          let (ms, stop, rest) := readMembers fuel depth false rest
          ((key.value, t) :: ms, stop, rest)
      | _ :: _ => ([(key.value, .absent .malformed)], none, none)
  | _ + 1, _, _ :: _ => ([], some .malformed, none)

end

/-- A whole text: its value, and whether only blanks follow it. -/
structure Document where
  root : Tree
  clean : Bool

/-- Reads a text. Each step of the reader takes a character or goes one level down to the part
that takes it, so three times the length of the text is fuel enough. -/
def Document.ofChars (cs : List Char) : Document :=
  match readTree (3 * cs.length + 3) 0 cs with
  | (t, none) => ⟨t, true⟩
  | (t, some rest) => ⟨t, (skipBlanks rest).isEmpty⟩

/-- Reads a text. -/
def Document.ofString (s : String) : Document := .ofChars s.toList

mutual

/-- A value as a tree without faults. -/
def Value.toTree : Value → Tree
  | .null => .null
  | .bool b => .bool b
  | .number n => .number n
  | .string s => .string s
  | .array items => .array (itemsToTree items) none
  | .object members => .object (membersToTree members) none

/-- The items of an array as trees. -/
def itemsToTree : List Value → List Tree
  | [] => []
  | v :: vs => v.toTree :: itemsToTree vs

/-- The members of an object as trees. -/
def membersToTree : List (String × Value) → List (Except Fault String × Tree)
  | [] => []
  | (k, v) :: ms => (.ok k, v.toTree) :: membersToTree ms

end

end ExtensionGraph.Json
