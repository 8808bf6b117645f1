import ExtensionGraph.Number.Decimal

/-!
# Lengths of time

A length of time is shown in the largest unit of which there is at least one, with as many
decimals as it needs.

## Main definitions

* `ExtensionGraph.Duration` — lengths of time, with `Duration.text`.
-/

namespace ExtensionGraph

/-- A length of time. -/
structure Duration where
  nanos : Nat
deriving DecidableEq, Inhabited

namespace Duration

/-- A number of milliseconds. -/
def ofMillis (n : Nat) : Duration := ⟨n * 1000000⟩

/-- A number of microseconds. -/
def ofMicros (n : Nat) : Duration := ⟨n * 1000⟩

/-- Drops the zeros at the end. -/
def trimZeros (cs : List Char) : List Char := (cs.reverse.dropWhile (· = '0')).reverse

/-- A number of nanoseconds in a unit of `10 ^ places` of them. -/
def inUnit (places n : Nat) : String :=
  let digits := Nat.toDigits 10 (n % tenPow places)
  let fraction := trimZeros (List.replicate (places - digits.length) '0' ++ digits)
  toString (n / tenPow places) ++
    (if fraction.isEmpty then "" else "." ++ String.ofList fraction)

/-- The text of a length of time. -/
def text (d : Duration) : String :=
  if tenPow 9 ≤ d.nanos then inUnit 9 d.nanos ++ "s"
  else if tenPow 6 ≤ d.nanos then inUnit 6 d.nanos ++ "ms"
  else if tenPow 3 ≤ d.nanos then inUnit 3 d.nanos ++ "µs"
  else toString d.nanos ++ "ns"

end Duration

end ExtensionGraph
