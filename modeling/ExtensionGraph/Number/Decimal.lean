/-!
# Powers and decimal digits

Powers of the two bases in which numbers are written and stored, natural numbers written in
decimal digits, and those of them that fit into 64 bits.

## Main definitions

* `ExtensionGraph.twoPow`, `ExtensionGraph.tenPow` — powers of two and of ten.
* `ExtensionGraph.digitsValue` — the number that digits denote.
* `ExtensionGraph.wordOfDigits?`, `ExtensionGraph.wordOfText?` — numbers of 64 bits.

## Main results

* `ExtensionGraph.tenPow_pos` — powers of ten are positive.
-/

namespace ExtensionGraph

/-- A power of two. -/
def twoPow (n : Nat) : Nat := Nat.pow 2 n

/-- A power of ten. -/
def tenPow (n : Nat) : Nat := Nat.pow 10 n

/-- A power of ten is positive, so that one can divide by it. -/
theorem tenPow_pos (n : Nat) : 0 < tenPow n := Nat.pow_pos (by decide)

/-- The value of a decimal digit. -/
def digitValue (c : Char) : Nat := c.toNat - '0'.toNat

/-- The natural number that a list of digits denotes. -/
def digitsValue (cs : List Char) : Nat := cs.foldl (fun n c => n * 10 + digitValue c) 0

/-- An unsigned number of 64 bits in decimal digits, of which leading ones may be zero. -/
def wordOfDigits? (cs : List Char) : Option Nat :=
  if cs.isEmpty ∨ ¬ cs.all Char.isDigit then none
  else if digitsValue cs < twoPow 64 then some (digitsValue cs) else none

/-- An unsigned number of 64 bits, with a plus sign if one likes. -/
def wordOfText? (s : String) : Option Nat :=
  match s.toList with
  | '+' :: cs => wordOfDigits? cs
  | cs => wordOfDigits? cs

end ExtensionGraph
