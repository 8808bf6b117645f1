import ExtensionGraph.Number.Binary64
import ExtensionGraph.Toml.Text
import ExtensionGraph.Toml.Value

/-!
# Numbers in TOML documents

Integers have 64 bits and may be written in decimal, hexadecimal, octal or binary digits.
Single underscores may stand between digits. A floating-point number must not be too large to
be represented, unless it is negative.

## Main definitions

* `ExtensionGraph.Toml.integer?`, `ExtensionGraph.Toml.float?` — the two kinds of numbers.
-/

namespace ExtensionGraph.Toml

/-- Reads further digits with single underscores between them. -/
def moreDigits? (isDigit : Char → Bool) : List Char → Option (List Char × List Char)
  | '_' :: c :: cs =>
    if isDigit c then (moreDigits? isDigit cs).map (prepend c) else none
  | '_' :: [] => none
  | c :: cs =>
    if isDigit c then (moreDigits? isDigit cs).map (prepend c) else some ([], c :: cs)
  | [] => some ([], [])

/-- Reads at least one digit, with single underscores between them. -/
def digits? (isDigit : Char → Bool) : List Char → Option (List Char × List Char)
  | c :: cs => if isDigit c then (moreDigits? isDigit cs).map (prepend c) else none
  | [] => none

/-- The value of digits in a base. -/
def valueOf (base : Nat) (digits : List Char) : Nat :=
  digits.foldl (fun n c => n * base + (hexValue? c).getD 0) 0

/-- Reads a sign, if there is one. -/
def sign : List Char → Bool × List Char
  | '+' :: cs => (false, cs)
  | '-' :: cs => (true, cs)
  | cs => (false, cs)

/-- A decimal integer without leading zeros: whether it is negative, and its digits. -/
def decimal? (cs : List Char) : Option ((Bool × List Char) × List Char) :=
  let (negative, cs) := sign cs
  match cs with
  | '0' :: cs => some ((negative, ['0']), cs)
  | cs => (digits? Char.isDigit cs).map fun (ds, rest) => ((negative, ds), rest)

/-- An integer of 64 bits. -/
def int64? (i : Int) : Option Value :=
  if -twoPow 63 ≤ i ∧ i < twoPow 63 then some (.integer i) else none

/-- Reads digits in a base as an integer. -/
def based? (base : Nat) (cs : List Char) : Option (Value × List Char) := do
  let (ds, rest) ← digits? (fun c => (hexValue? c).any (· < base)) cs
  (int64? (valueOf base ds)).map (·, rest)

/-- Reads an integer. -/
def integer? : List Char → Option (Value × List Char)
  | '0' :: 'x' :: cs => based? 16 cs
  | '0' :: 'o' :: cs => based? 8 cs
  | '0' :: 'b' :: cs => based? 2 cs
  | cs => do
    let ((negative, ds), rest) ← decimal? cs
    let n : Int := valueOf 10 ds
    (int64? (if negative then -n else n)).map (·, rest)

/-- Reads the fraction of a number behind its point, as digits. -/
def fraction? : List Char → Option (List Char × List Char)
  | '.' :: cs => digits? Char.isDigit cs
  | _ => none

/-- Reads an exponent. -/
def exponent? : List Char → Option (Int × List Char)
  | c :: cs =>
    if c = 'e' ∨ c = 'E' then
      let (negative, cs) := sign cs
      (digits? Char.isDigit cs).map fun (ds, rest) =>
        (if negative then -(valueOf 10 ds : Int) else valueOf 10 ds, rest)
    else none
  | [] => none

/-- Whether `significand * 10 ^ exponent` is too large for a finite number. The exponent is
looked at first, so that no power of ten is made that is out of all proportion. -/
def overflows (significand : List Char) (exponent : Int) : Bool :=
  let digits := significand.dropWhile (· = '0')
  let magnitude := exponent + digits.length
  if digits.isEmpty then false
  else if magnitude < 300 then false
  else if 400 < magnitude then true
  else
    let n := valueOf 10 digits
    (if 0 ≤ exponent then Binary64.ofRatio false (n * tenPow exponent.toNat) 1
      else Binary64.ofRatio false n (tenPow (-exponent).toNat)).isNone

/-- Reads a floating-point number in digits. -/
def digitFloat? (cs : List Char) : Option (Value × List Char) := do
  let ((negative, whole), cs) ← decimal? cs
  let (fraction, exponent, cs) ← match exponent? cs with
    | some (e, cs) => some ([], e, cs)
    | none => do
      let (f, cs) ← fraction? cs
      match cs with
      | 'e' :: _ => (exponent? cs).map fun (e, cs) => (f, e, cs)
      | 'E' :: _ => (exponent? cs).map fun (e, cs) => (f, e, cs)
      | cs => some (f, 0, cs)
  if !negative && overflows (whole ++ fraction) (exponent - fraction.length) then none
  else some (.float, cs)

/-- Reads infinity or not-a-number. -/
def namedFloat? (cs : List Char) : Option (Value × List Char) :=
  match (sign cs).2 with
  | 'i' :: 'n' :: 'f' :: cs => some (.float, cs)
  | 'n' :: 'a' :: 'n' :: cs => some (.float, cs)
  | _ => none

/-- Reads a floating-point number. -/
def float? (cs : List Char) : Option (Value × List Char) :=
  (digitFloat? cs).or (namedFloat? cs)

end ExtensionGraph.Toml
