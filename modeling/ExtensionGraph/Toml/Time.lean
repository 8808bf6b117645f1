import ExtensionGraph.Timestamp
import ExtensionGraph.Toml.Text

/-!
# Points in time in TOML documents

A date, a time of day, or both with or without an offset from universal time. Only their form
is checked.

## Main definitions

* `ExtensionGraph.Toml.time?` — reads a point in time.
-/

namespace ExtensionGraph.Toml

/-- Reads a number of exactly `width` digits. -/
def fixed? (width : Nat) (cs : List Char) : Option (Nat × List Char) :=
  let digits := cs.take width
  if digits.length = width ∧ digits.all Char.isDigit then
    some (digits.foldl (fun n c => n * 10 + (c.toNat - '0'.toNat)) 0, cs.drop width)
  else none

/-- Reads a number of exactly two digits within bounds. -/
def bounded? (least most : Nat) (cs : List Char) : Option (Nat × List Char) := do
  let (n, cs) ← fixed? 2 cs
  if least ≤ n ∧ n ≤ most then some (n, cs) else none

/-- Reads one given character. -/
def mark? (c : Char) : List Char → Option (List Char)
  | d :: cs => if d = c then some cs else none
  | [] => none

/-- Reads a date. -/
def date? (cs : List Char) : Option (List Char) := do
  let (year, cs) ← fixed? 4 cs
  let cs ← mark? '-' cs
  let (month, cs) ← bounded? 1 12 cs
  let cs ← mark? '-' cs
  let (day, cs) ← bounded? 1 31 cs
  if day ≤ Date.monthLength year month then some cs else none

/-- Reads the fraction of a second, if there is one. -/
def secondFraction : List Char → List Char
  | '.' :: c :: cs => if c.isDigit then cs.dropWhile Char.isDigit else '.' :: c :: cs
  | cs => cs

/-- Reads a time of day. -/
def timeOfDay? (cs : List Char) : Option (List Char) := do
  let (_, cs) ← bounded? 0 23 cs
  let cs ← mark? ':' cs
  let (_, cs) ← bounded? 0 59 cs
  let cs ← mark? ':' cs
  let (_, cs) ← bounded? 0 60 cs
  some (secondFraction cs)

/-- Reads an offset of hours and minutes behind its sign. -/
def offset? (cs : List Char) : Option (List Char) := do
  let (_, cs) ← bounded? 0 23 cs
  let cs ← mark? ':' cs
  let (_, cs) ← bounded? 0 59 cs
  some cs

/-- Reads the offset from universal time, if there is one. -/
def offset (cs : List Char) : List Char :=
  match cs with
  | 'Z' :: rest => rest
  | 'z' :: rest => rest
  | '+' :: rest => (offset? rest).getD cs
  | '-' :: rest => (offset? rest).getD cs
  | _ => cs

/-- Reads the time behind a date, if there is one. -/
def timeAfterDate (cs : List Char) : List Char :=
  match cs with
  | c :: rest =>
    if c = 'T' ∨ c = 't' ∨ c = ' ' then ((timeOfDay? rest).map offset).getD cs else cs
  | [] => cs

/-- Reads a point in time. -/
def time? (cs : List Char) : Option (List Char) :=
  match date? cs with
  | some cs => some (timeAfterDate cs)
  | none => timeOfDay? cs

end ExtensionGraph.Toml
