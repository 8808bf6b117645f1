import ExtensionGraph.Json.Value
import ExtensionGraph.Number.Shortest

/-!
# Writing JSON

Values are written without blanks, or over several lines with two blanks per level. Characters
beyond ASCII are written as they are; of the control characters those with a letter escape get
it and the others four hexadecimal digits.

## Main definitions

* `ExtensionGraph.Json.Value.compact` — one line without blanks.
* `ExtensionGraph.Json.Value.pretty` — several lines, indented.
-/

namespace ExtensionGraph.Json

/-- A hexadecimal digit in lower case. -/
def hexDigit (n : Nat) : Char := Nat.digitChar n

/-- A character inside a string. -/
def escapeChar (c : Char) : String :=
  match c with
  | '\x22' => "\\\""
  | '\\' => "\\\\"
  | '\x08' => "\\b"
  | '\x0c' => "\\f"
  | '\n' => "\\n"
  | '\r' => "\\r"
  | '\t' => "\\t"
  | c =>
    if c.toNat < 0x20 then
      String.ofList ['\\', 'u', '0', '0', hexDigit (c.toNat / 16), hexDigit (c.toNat % 16)]
    else String.singleton c

/-- A quoted string. -/
def quote (s : String) : String :=
  s.toList.foldl (fun acc c => acc ++ escapeChar c) "\"" ++ "\""

/-- A number: integers in decimal, floats as their shortest text. -/
def Number.text : Number → String
  | .integer i => if i < 0 then "-" ++ toString i.natAbs else toString i.natAbs
  | .float x => String.ofList x.text

mutual

/-- Appends a value without blanks. -/
def Value.write (acc : String) : Value → String
  | .null => acc ++ "null"
  | .bool true => acc ++ "true"
  | .bool false => acc ++ "false"
  | .number n => acc ++ n.text
  | .string s => acc ++ quote s
  | .array items => writeItems (acc ++ "[") true items ++ "]"
  | .object members => writeMembers (acc ++ "\x7b") true members ++ "\x7d"

/-- Appends the items of an array. -/
def writeItems (acc : String) (first : Bool) : List Value → String
  | [] => acc
  | v :: vs => writeItems (Value.write (if first then acc else acc ++ ",") v) false vs

/-- Appends the members of an object. -/
def writeMembers (acc : String) (first : Bool) : List (String × Value) → String
  | [] => acc
  | (k, v) :: ms =>
    writeMembers (Value.write ((if first then acc else acc ++ ",") ++ quote k ++ ":") v) false ms

end

/-- The text of a value on one line. -/
def Value.compact (v : Value) : String := v.write ""

/-- A new line at the given level. -/
def newLine (level : Nat) : String := String.ofList ('\n' :: List.replicate (2 * level) ' ')

mutual

/-- Appends a value that stands at the given level of indentation. -/
def Value.writePretty (acc : String) (level : Nat) : Value → String
  | .array (v :: vs) =>
    prettyItems (acc ++ "[") level true (v :: vs) ++ newLine level ++ "]"
  | .object (m :: ms) =>
    prettyMembers (acc ++ "\x7b") level true (m :: ms) ++ newLine level ++ "\x7d"
  | .null => acc ++ "null"
  | .bool true => acc ++ "true"
  | .bool false => acc ++ "false"
  | .number n => acc ++ n.text
  | .string s => acc ++ quote s
  | .array [] => acc ++ "[]"
  | .object [] => acc ++ "\x7b\x7d"

/-- Appends the items of an array, each on a line of its own. -/
def prettyItems (acc : String) (level : Nat) (first : Bool) : List Value → String
  | [] => acc
  | v :: vs =>
    let acc := (if first then acc else acc ++ ",") ++ newLine (level + 1)
    prettyItems (Value.writePretty acc (level + 1) v) level false vs

/-- Appends the members of an object, each on a line of its own. -/
def prettyMembers (acc : String) (level : Nat) (first : Bool) :
    List (String × Value) → String
  | [] => acc
  | (k, v) :: ms =>
    let acc := (if first then acc else acc ++ ",") ++ newLine (level + 1) ++ quote k ++ ": "
    prettyMembers (Value.writePretty acc (level + 1) v) level false ms

end

/-- The text of a value over several lines. -/
def Value.pretty (v : Value) : String := v.writePretty "" 0

end ExtensionGraph.Json
