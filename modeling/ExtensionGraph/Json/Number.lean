import ExtensionGraph.Json.Value
import ExtensionGraph.Number.Decimal

/-!
# Number text

A number text is read in one pass: its digits are gathered into a significand of 64 bits, as
many of them as fit, and the significand is then scaled by a power of ten in floating-point
arithmetic. An integer that fits into 64 bits stays an integer.

## Main definitions

* `ExtensionGraph.Json.NumberText` — the parts of a number text.
* `ExtensionGraph.Json.NumberText.number?` — the number they denote, if it is finite.
-/

namespace ExtensionGraph.Json

/-- The parts of a number text: sign, digits before the point, digits after it, and the
exponent, the last two as far as they are written. -/
structure NumberText where
  negative : Bool
  whole : List Char
  fraction : Option (List Char)
  exponent : Option Int

/-- Gathers digits onto a significand while it stays below `2 ^ 64`; the second component
counts the digits that were left out. -/
def gather : List Char → Nat → Nat × Nat
  | [], s => (s, 0)
  | c :: cs, s =>
    let s' := s * 10 + digitValue c
    if s' < twoPow 64 then gather cs s' else (s, cs.length + 1)

/-- Powers of ten of at most this exponent are representable. -/
def greatestPower : Int := 308

/-- Scales a magnitude by a power of ten with one rounding per factor; `none` on overflow. A
power below `10 ^ -308` is applied in several divisions, and two of them reach zero. -/
def scaleByPower (x : Binary64) (e : Int) : Nat → Option Binary64
  | 0 => some x
  | rounds + 1 =>
    if e.natAbs ≤ greatestPower.toNat then
      match Binary64.ofRatio false (tenPow e.natAbs) 1 with
      | none => none
      | some p => if 0 ≤ e then x.mul p else x.div p
    else if x.isZero then some x
    else if 0 ≤ e then none
    else
      match Binary64.ofRatio false (tenPow greatestPower.toNat) 1 with
      | none => none
      | some p => (x.div p).bind fun y => scaleByPower y (e + greatestPower) rounds

namespace NumberText

/-- The floating-point number `± s * 10 ^ e`, if it is finite. -/
def float? (negative : Bool) (s : Nat) (e : Int) : Option Number :=
  (Binary64.ofRatio false s 1).bind fun x =>
    (scaleByPower x e 4).map fun y => .float (if negative then y.neg else y)

/-- The number that a text denotes: an integer between `-2 ^ 63` and `2 ^ 64 - 1` when there is
neither point nor exponent (but `-0` is a float), else a float; `none` when that is not
finite. -/
def number? (t : NumberText) : Option Number :=
  let (s, dropped) := gather t.whole 0
  match t.fraction, t.exponent, dropped with
  | none, none, 0 =>
    if !t.negative then some (.integer s)
    else if s = 0 ∨ twoPow 63 < s then float? true s 0
    else some (.integer (-s))
  | fraction, exponent, _ =>
    let digits := fraction.getD []
    let (s', left) := gather digits s
    float? t.negative s' ((dropped : Int) - (digits.length - left : Nat) + exponent.getD 0)

end NumberText

end ExtensionGraph.Json
