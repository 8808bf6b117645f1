import ExtensionGraph.Json.Printer
import ExtensionGraph.Text.Shapeless

/-!
# Quoted text

Names are quoted in descriptions meant for people. A quotation mark and a backslash get a
backslash in front of them, the common control characters are written as letters, and any other
character without a shape of its own is written by its number.

## Main definitions

* `ExtensionGraph.quoted` — a text in quotation marks.
* `ExtensionGraph.quotedList` — several of them in brackets.
-/

namespace ExtensionGraph

/-- A number in hexadecimal digits. -/
def hexText (n : Nat) : String := String.ofList (Nat.toDigits 16 n)

/-- A character inside quotation marks. -/
def quotedChar (c : Char) : String :=
  match c with
  | '\x00' => "\\0"
  | '\t' => "\\t"
  | '\r' => "\\r"
  | '\n' => "\\n"
  | '\\' => "\\\\"
  | '\x22' => "\\\""
  | c => if isShapeless c then "\\u\x7b" ++ hexText c.toNat ++ "\x7d" else String.singleton c

/-- A text in quotation marks. -/
def quoted (s : String) : String :=
  s.toList.foldl (fun acc c => acc ++ quotedChar c) "\"" ++ "\""

/-- Several texts in brackets. -/
def quotedList (ss : List String) : String := "[" ++ ", ".intercalate (ss.map quoted) ++ "]"

/-- A text that may be missing. -/
def quotedOption : Option String → String
  | none => "None"
  | some s => "Some(" ++ quoted s ++ ")"

end ExtensionGraph
