import ExtensionGraph.Number.Shortest
import ExtensionGraph.Text.Shapeless

/-!
# Points in time

A point in time is a count of seconds since 1970 in coordinated universal time with a
fraction in nanoseconds. A leap second is the second before it with a fraction of a second or
more. The text form is that of RFC 3339, read with some tolerance (short fields, blanks between
them, a blank instead of the `T`, offsets with or without a colon) and written in universal
time with 0, 3, 6 or 9 digits of fraction.

## Main definitions

* `ExtensionGraph.Timestamp` — points in time.
* `ExtensionGraph.Timestamp.ofChars?` — the reader.
* `ExtensionGraph.Timestamp.text` — the writer.
-/

namespace ExtensionGraph

/-- A point in time. -/
structure Timestamp where
  /-- Seconds since the beginning of 1970. -/
  seconds : Int
  /-- Nanoseconds, a whole second more within a leap second. -/
  nanos : Nat
deriving DecidableEq, Inhabited

/-- A day of the proleptic Gregorian calendar. -/
structure Date where
  year : Int
  month : Nat
  day : Nat
deriving DecidableEq, Inhabited

namespace Date

/-- The years that are represented. -/
def firstYear : Int := -262143

/-- The years that are represented. -/
def lastYear : Int := 262142

/-- Whether a year has a 29th of February. -/
def isLeapYear (y : Int) : Bool := (y % 4 = 0 && y % 100 ≠ 0) || y % 400 = 0

/-- The number of days of a month. -/
def monthLength (y : Int) (m : Nat) : Nat :=
  if m = 2 then (if isLeapYear y then 29 else 28)
  else if m = 4 ∨ m = 6 ∨ m = 9 ∨ m = 11 then 30
  else 31

/-- Whether the day exists in a represented year. -/
def isValid (d : Date) : Bool :=
  firstYear ≤ d.year && d.year ≤ lastYear && 1 ≤ d.month && d.month ≤ 12 && 1 ≤ d.day &&
    d.day ≤ monthLength d.year d.month

/-- Days since the beginning of 1970. Years are counted from March, so that the leap day is
the last one of its year. -/
def toDays (d : Date) : Int :=
  let y := if d.month ≤ 2 then d.year - 1 else d.year
  let era := y.fdiv 400
  let yoe := y - era * 400
  let mp : Int := if d.month ≤ 2 then d.month + 9 else d.month - 3
  let doy := (153 * mp + 2) / 5 + d.day - 1
  let doe := yoe * 365 + yoe / 4 - yoe / 100 + doy
  era * 146097 + doe - 719468

/-- The day with the given number. -/
def ofDays (n : Int) : Date :=
  let z := n + 719468
  let era := z.fdiv 146097
  let doe := z - era * 146097
  let yoe := (doe - doe / 1460 + doe / 36524 - doe / 146096) / 365
  let doy := doe - (365 * yoe + yoe / 4 - yoe / 100)
  let mp := (5 * doy + 2) / 153
  let day := (doy - (153 * mp + 2) / 5 + 1).toNat
  let month := (if mp < 10 then mp + 3 else mp - 9).toNat
  ⟨yoe + era * 400 + (if month ≤ 2 then 1 else 0), month, day⟩

end Date

namespace Timestamp

/-- Reads between one and `most` decimal digits. -/
def number? (most : Nat) (cs : List Char) : Option (Nat × List Char) :=
  let digits := (cs.take most).takeWhile Char.isDigit
  if digits.isEmpty then none
  else some (digits.foldl (fun n c => n * 10 + (c.toNat - '0'.toNat)) 0, cs.drop digits.length)

/-- Reads a field of at most two digits, with blanks in front. -/
def field? (cs : List Char) : Option (Nat × List Char) := number? 2 (trimStart cs)

/-- Reads a year: four digits, or a sign and any number of them. -/
def year? (cs : List Char) : Option (Int × List Char) :=
  match trimStart cs with
  | '-' :: cs => (number? cs.length cs).map fun (n, rest) => (-(n : Int), rest)
  | '+' :: cs => (number? cs.length cs).map fun (n, rest) => ((n : Int), rest)
  | cs => (number? 4 cs).map fun (n, rest) => ((n : Int), rest)

/-- Reads a mark between two fields, with blanks in front. -/
def mark? (mark : Char) (cs : List Char) : Option (List Char) :=
  match trimStart cs with
  | c :: cs => if c = mark then some cs else none
  | [] => none

/-- Reads the fraction of a second, if there is one: nine digits count, any further ones are
passed over. -/
def fraction? : List Char → Option (Nat × List Char)
  | '.' :: cs =>
    let digits := (cs.take 9).takeWhile Char.isDigit
    (number? 9 cs).map fun (n, rest) =>
      (n * tenPow (9 - digits.length), rest.dropWhile Char.isDigit)
  | cs => some (0, cs)

/-- The value of exactly two digits. -/
def twoDigits? : List Char → Option (Nat × List Char)
  | a :: b :: rest =>
    if a.isDigit ∧ b.isDigit then
      some ((a.toNat - '0'.toNat) * 10 + (b.toNat - '0'.toNat), rest)
    else none
  | _ => none

/-- Reads an offset of hours and minutes after its sign, in seconds. -/
def hoursMinutes? (cs : List Char) : Option (Nat × List Char) := do
  let (hours, cs) ← twoDigits? cs
  let (minutes, cs) ← twoDigits? (cs.dropWhile fun c => c = ':' || isWhiteSpace c)
  if minutes < 60 ∧ hours < 24 then some (hours * 3600 + minutes * 60, cs) else none

/-- Reads the offset from universal time, in seconds. -/
def offset? (cs : List Char) : Option (Int × List Char) :=
  match cs with
  | 'Z' :: cs => some (0, cs)
  | 'z' :: cs => some (0, cs)
  | '+' :: cs => (hoursMinutes? cs).map fun (n, rest) => ((n : Int), rest)
  | '-' :: cs => (hoursMinutes? cs).map fun (n, rest) => (-(n : Int), rest)
  | '−' :: cs => (hoursMinutes? cs).map fun (n, rest) => (-(n : Int), rest)
  | u :: t :: c :: cs =>
    if u.toUpper = 'U' ∧ t.toUpper = 'T' ∧ c.toUpper = 'C' then some (0, cs) else none
  | _ => none

/-- Reads a date. -/
def date? (cs : List Char) : Option (Date × List Char) := do
  let (year, cs) ← year? cs
  let cs ← mark? '-' cs
  let (month, cs) ← field? cs
  let cs ← mark? '-' cs
  let (day, cs) ← field? cs
  some (⟨year, month, day⟩, cs)

/-- Reads a time of day as its second, with 60 for a leap second, and the fraction. -/
def timeOfDay? (cs : List Char) : Option ((Nat × Nat) × List Char) := do
  let (hour, cs) ← field? cs
  let cs ← mark? ':' cs
  let (minute, cs) ← field? cs
  let cs ← mark? ':' cs
  let (second, cs) ← field? cs
  let (nanos, cs) ← fraction? cs
  if hour < 24 ∧ minute < 60 ∧ second ≤ 60 then
    let leap := second / 60
    some ((hour * 3600 + minute * 60 + second - leap, nanos + leap * 1000000000), cs)
  else none

/-- Reads a point in time. -/
def ofChars? (cs : List Char) : Option Timestamp := do
  let (date, cs) ← date? cs
  let cs ← match cs with
    | c :: cs => if c = 'T' ∨ c = 't' ∨ c = ' ' then some cs else none
    | [] => none
  let ((second, nanos), cs) ← timeOfDay? cs
  let (offset, cs) ← offset? (trimStart cs)
  let seconds := date.toDays * 86400 + second - offset
  if (trimStart cs).isEmpty ∧ date.isValid ∧ (Date.ofDays (seconds.fdiv 86400)).isValid then
    some ⟨seconds, nanos⟩
  else none

/-- Decimal digits with leading zeros up to a width. -/
def padded (width n : Nat) : List Char :=
  let digits := decimalDigits n
  List.replicate (width - digits.length) '0' ++ digits

/-- A year: four digits, and a sign when four do not suffice. -/
def yearText (y : Int) : List Char :=
  if 0 ≤ y ∧ y ≤ 9999 then padded 4 y.toNat
  else (if y < 0 then '-' else '+') :: padded 4 y.natAbs

/-- The fraction of a second in as few groups of three digits as needed. -/
def fractionText (nanos : Nat) : List Char :=
  if nanos = 0 then []
  else if nanos % 1000000 = 0 then '.' :: padded 3 (nanos / 1000000)
  else if nanos % 1000 = 0 then '.' :: padded 6 (nanos / 1000)
  else '.' :: padded 9 nanos

/-- The text of a point in time. -/
def text (t : Timestamp) : String :=
  let days := t.seconds.fdiv 86400
  let date := Date.ofDays days
  let second := (t.seconds - days * 86400).toNat
  let leap := t.nanos / 1000000000
  String.ofList (yearText date.year ++ ['-'] ++ padded 2 date.month ++ ['-'] ++
    padded 2 date.day ++ ['T'] ++ padded 2 (second / 3600) ++ [':'] ++
    padded 2 (second / 60 % 60) ++ [':'] ++ padded 2 (second % 60 + leap) ++
    fractionText (t.nanos % 1000000000) ++ ['Z'])

end Timestamp

end ExtensionGraph
