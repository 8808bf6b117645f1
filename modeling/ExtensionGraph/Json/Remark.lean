import ExtensionGraph.Number.Decimal

/-!
# Remarks on JSON texts

Whoever refuses a JSON text in words of its own may say at their end where the fault was met:
` at line L column C`. The numbers are then taken as the position and are written anew when the
remark is shown. There is no line zero, so a remark on it is shown without a position.

## Main definitions

* `ExtensionGraph.Json.Remark` — what is wrong and where.
* `ExtensionGraph.Json.Remark.ofText`, `ExtensionGraph.Json.Remark.text` — their wording.
-/

namespace ExtensionGraph.Json

/-- What is wrong with a text and where; line zero stands for nowhere. -/
structure Remark where
  what : String
  line : Nat
  column : Nat
deriving DecidableEq, Inhabited

namespace Remark

/-- The words in front of the number of a line. -/
def lineMark : List Char := " at line ".toList

/-- The words in front of the number of a column. -/
def columnMark : List Char := " column ".toList

/-- What stands before the last occurrence of a mark, and what stands behind it. -/
def splitLast (mark : List Char) : List Char → Option (List Char × List Char)
  | [] => none
  | c :: cs =>
    match splitLast mark cs with
    | some (before, after) => some (c :: before, after)
    | none => if mark.isPrefixOf (c :: cs) then some ([], (c :: cs).drop mark.length) else none

/-- Reads the numbers of a line and of a column, behind which nothing may follow. -/
def position? (cs : List Char) : Option (Nat × Nat) := do
  let rest := cs.dropWhile Char.isDigit
  if columnMark.isPrefixOf rest then
    let line ← wordOfDigits? (cs.takeWhile Char.isDigit)
    let column ← wordOfDigits? (rest.drop columnMark.length)
    some (line, column)
  else none

/-- The words without the position at their end, and the position. -/
def split? (text : String) : Option Remark := do
  let (what, place) ← splitLast lineMark text.toList
  let (line, column) ← position? place
  some ⟨String.ofList what, line, column⟩

/-- The remark that a text makes. -/
def ofText (text : String) : Remark := (split? text).getD ⟨text, 0, 0⟩

/-- How a remark is shown. -/
def text (r : Remark) : String :=
  if r.line = 0 then r.what
  else r.what ++ " at line " ++ toString r.line ++ " column " ++ toString r.column

end Remark

end ExtensionGraph.Json
