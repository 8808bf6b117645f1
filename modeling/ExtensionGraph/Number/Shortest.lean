import ExtensionGraph.Number.Binary64

/-!
# Shortest decimal text

A binary number is written with the fewest decimal digits that read back as the same number.
For each count of digits the two neighbours of the value on the decimal grid of that count are
tried; the first grid with a neighbour that reads back wins, and of two such neighbours the
nearer one.

## Main definitions

* `ExtensionGraph.Binary64.shortest` — digits and exponent of the shortest decimal.
* `ExtensionGraph.Binary64.text` — its spelling: positional between `1e-5` and `1e16`, with at
  least one digit on either side of the point, else with a signed exponent.
-/

namespace ExtensionGraph

/-- The decimal digits of a natural number, most significant first. -/
def decimalDigits (n : Nat) : List Char := Nat.toDigits 10 n

namespace Binary64

/-- The least `j` below the bound with `den ≤ num * 10 ^ j`. -/
def leadingPlace (num den : Nat) : Nat → Nat → Nat
  | 0, j => j
  | k + 1, j => if den ≤ num then j else leadingPlace (num * 10) den k (j + 1)

/-- The decimal exponent `e` of the leading digit: `10 ^ e ≤ num / den < 10 ^ (e + 1)`. -/
def decimalExponent (num den : Nat) : Int :=
  if den ≤ num then ((decimalDigits (num / den)).length : Int) - 1
  else -(leadingPlace num den 400 0 : Int)

/-- The quotient `num / (den * 10 ^ k)` as a numerator and a denominator. -/
def decimalScale (num den : Nat) (k : Int) : Nat × Nat :=
  if 0 ≤ k then (num, den * tenPow k.toNat) else (num * tenPow (-k).toNat, den)

/-- Whether `c * 10 ^ k` reads back as the magnitude. -/
def readsBack (magnitude c : Nat) (k : Int) : Bool :=
  let (n, d) := decimalScale c 1 (-k)
  nearestMagnitude? n d = some magnitude

/-- The neighbour of `num / den` on the grid of step `10 ^ k` that reads back, the nearer one
if both do. -/
def neighbour? (magnitude num den : Nat) (k : Int) : Option Nat :=
  let (n, d) := decimalScale num den k
  let lo := n / d
  let hi := lo + 1
  match readsBack magnitude lo k, readsBack magnitude hi k with
  | true, true =>
    if 2 * (n % d) < d then some lo
    else if d < 2 * (n % d) then some hi
    else if lo % 2 = 0 then some lo else some hi
  | true, false => some lo
  | false, true => some hi
  | false, false => none

/-- Drops trailing zeros of the digits, raising the exponent. -/
def trimZeros : Nat → Nat → Int → Nat × Int
  | 0, c, k => (c, k)
  | fuel + 1, c, k =>
    if c ≠ 0 ∧ c % 10 = 0 then trimZeros fuel (c / 10) (k + 1) else (c, k)

/-- The first grid, from one digit upwards, that has a neighbour which reads back. -/
def firstGrid (magnitude num den : Nat) (e : Int) : List Nat → Nat × Int
  | [] => (0, 0)
  | n :: rest =>
    let k := e - (n : Int)
    match neighbour? magnitude num den k with
    | some c => trimZeros 20 c k
    | none => firstGrid magnitude num den e rest

/-- The shortest decimal `c * 10 ^ k` that reads back as the magnitude of `x`. -/
def shortest (x : Binary64) : Nat × Int :=
  if x.isZero then (0, 0)
  else
    let (num, den) := x.ratio
    firstGrid x.magnitude num den (decimalExponent num den) (List.range 17)

/-- The spelling of `digits * 10 ^ k`: positional when the leading digit stands between
`1e-5` and `1e15`, else with a point after the first digit and a signed exponent. -/
def spell (digits : List Char) (k : Int) : List Char :=
  let n := digits.length
  let point : Int := n + k
  if 0 ≤ k ∧ point ≤ 16 then
    digits ++ List.replicate k.toNat '0' ++ ['.', '0']
  else if 0 < point ∧ point ≤ 16 then
    digits.take point.toNat ++ ['.'] ++ digits.drop point.toNat
  else if -5 < point ∧ point ≤ 0 then
    ['0', '.'] ++ List.replicate (-point).toNat '0' ++ digits
  else
    let e := point - 1
    let head := match digits with
      | d :: d' :: rest => d :: '.' :: d' :: rest
      | ds => ds
    head ++ ['e', if e < 0 then '-' else '+'] ++ decimalDigits e.natAbs

/-- The text of a number, always with a point or an exponent. -/
def text (x : Binary64) : List Char :=
  let (c, k) := x.shortest
  (if x.isNegative then ['-'] else []) ++
    (if x.isZero then ['0', '.', '0'] else spell (decimalDigits c) k)

end Binary64

end ExtensionGraph
