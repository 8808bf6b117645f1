import ExtensionGraph.Log
import ExtensionGraph.Number.Decimal
import ExtensionGraph.Text.Alphanumeric
import ExtensionGraph.Text.Shapeless

/-!
# Log filters

A filter is a list of directives with commas between them. A directive is a level, or what the
names of some parts of the program begin with, or both with an equals sign between them; a name
without a level lets everything through. Brackets behind the name, or in its place, narrow a
directive down to spans with a name, or to events with a field, which stands in braces.

Of the directives that speak of an event the most specific one counts: the one with the longest
name, and then one with a field. Of equal ones the last counts. Nothing is logged inside a
span, so a directive for spans, or for a value of a field, lets nothing through.

## Main definitions

* `ExtensionGraph.LogDirective`, `ExtensionGraph.LogDirective.ofText` — directives.
* `ExtensionGraph.LogFilter` — filters, with `LogFilter.passes`.
* `ExtensionGraph.LogFilter.ofText?`, `ExtensionGraph.LogFilter.ofTextLenient` — the readers.
-/

namespace ExtensionGraph

/-- How far a level is away from silence. -/
def LogLevel.verbosity : LogLevel → Nat
  | .error => 1
  | .warn => 2
  | .info => 3
  | .debug => 4

/-! ## Directives -/

/-- A directive. -/
structure LogDirective where
  /-- What the names of the parts it speaks of begin with. -/
  part : Option String
  /-- The field of the events it speaks of. -/
  field : Option String
  /-- Whether it only speaks of spans and of what is logged inside them. -/
  spansOnly : Bool
  /-- How many levels an event may at most be away from silence. -/
  verbosity : Nat
deriving DecidableEq, Inhabited

namespace LogDirective

/-- Why a text is no directive. -/
inductive Fault where
  /-- It does not have the form of a directive. -/
  | form
  /-- There is no level behind the equals sign. -/
  | level
deriving DecidableEq, Inhabited

/-- The wording of a fault. -/
def Fault.message : Fault → String
  | .form => "invalid filter directive"
  | .level => "error parsing level filter: expected one of \"off\", \"error\", \"warn\", " ++
    "\"info\", \"debug\", \"trace\", or a number 0-5"

/-- The verbosity that lets everything through. -/
def everything : Nat := 5

/-- The verbosity that a text asks for, if it is a level: a name or a number. -/
def level? (text : String) : Option Nat :=
  match wordOfText? text with
  | some n => if n ≤ everything then some n else none
  | none =>
    match text.toLower with
    | "off" => some 0
    | "error" => some 1
    | "warn" => some 2
    | "info" => some 3
    | "debug" => some 4
    | "trace" => some 5
    | _ => none

/-- Whether a name can begin with a character. -/
def beginsName (c : Char) : Bool := c = '-' || c = ':' || c = '_' || isAlphanumeric c

/-- A text that is looked at in one place and cut out in another: every character that is
looked at stands beside the one that is taken for it. -/
abbrev Cut := List (Char × Char)

/-- The characters that are taken. -/
def taken (cut : Cut) : List Char := cut.map (·.2)

/-- Splits in front of the first of some characters. -/
def splitBefore (stops : List Char) (cut : Cut) : Cut × Cut :=
  cut.span fun p => p.1 ∉ stops

/-- Reads the level behind an equals sign. -/
def levelText (text : List Char) : Except Fault Nat :=
  if text.isEmpty then .ok everything
  else
    match level? (String.ofList text) with
    | some n => .ok n
    | none => .error .level

/-- Reads what follows closing brackets: nothing, or a level. -/
def readEnd (d : LogDirective) (rest : List Char) : Cut → Except Fault LogDirective
  | [] => .ok d
  | ('=', _) :: cut => do .ok { d with verbosity := ← levelText (taken cut ++ rest) }
  | _ => .error .form

/-- Reads brackets after the opening one: the name of a span, and a field in braces, perhaps
with its value. A field without a span asks for events, too. -/
def readBrackets (part : Option String) (rest : List Char) (cut : Cut) :
    Except Fault LogDirective :=
  match splitBefore [']', '\x7b'] cut with
  | (_, (']', _) :: cut) => readEnd ⟨part, none, true, everything⟩ rest cut
  | (span, ('\x7b', _) :: cut) =>
    match splitBefore ['\x7d'] cut with
    | (field, _ :: (']', _) :: cut) =>
      let text := taken field
      if text.isEmpty then .error .form
      else
        let name := String.ofList (text.takeWhile (· ≠ '='))
        readEnd ⟨part, some name, !span.isEmpty || text.contains '=', everything⟩ rest cut
    | _ => .error .form
  | _ => .error .form

/-- Reads a directive. Its form is that of the text without the blanks around it, while its
pieces are cut out of the text as it stands, at the same distances from its beginning. -/
def ofText (text : String) : Except Fault LogDirective :=
  let given := text.toList
  let shown := (trimStart (trimStart given).reverse).reverse
  let rest := given.drop shown.length
  match shown.zip given with
  | [] => .error .form
  | ('[', _) :: cut => readBrackets none rest cut
  | (c, t) :: cut =>
    if beginsName c then
      match splitBefore ['=', '['] ((c, t) :: cut) with
      | (name, ('=', _) :: cut) => do
        let verbosity ← levelText (taken cut ++ rest)
        .ok ⟨some (String.ofList (taken name)), none, false, verbosity⟩
      | (name, _ :: cut) => readBrackets (some (String.ofList (taken name))) rest cut
      | (_, []) =>
        match level? text with
        | some n => .ok ⟨none, none, false, n⟩
        | none => .ok ⟨some text, none, false, everything⟩
    else .error .form

/-- Whether a directive speaks of an event. -/
def speaksOf (d : LogDirective) (e : LogEvent) : Bool :=
  !d.spansOnly && d.part.all (fun p => p.toList.isPrefixOf e.part.name.toList) &&
    d.field.all (· ∈ e.fieldNames)

/-- How specific the name of a directive is. -/
def reach (d : LogDirective) : Nat := (d.part.map (·.utf8ByteSize + 1)).getD 0

/-- Whether a directive counts no more than another one that stands behind it. -/
def givesWayTo (d d' : LogDirective) : Bool :=
  d.reach < d'.reach || d.reach = d'.reach &&
    match d.field, d'.field with
    | none, _ => true
    | some _, none => false
    | some f, some f' => f ≤ f'

end LogDirective

/-! ## Filters -/

/-- A log filter. -/
structure LogFilter where
  directives : List LogDirective
deriving DecidableEq, Inhabited

namespace LogFilter

/-- The parts of a text between commas. -/
def pieces (text : String) : List String := (text.splitOn ",").filter (· ≠ "")

/-- The filter that only errors pass. -/
def errors : LogFilter := ⟨[⟨none, none, false, LogLevel.error.verbosity⟩]⟩

/-- Reads a filter that consists of directives only; nothing passes it if there are none. -/
def ofText? (text : String) : Option LogFilter :=
  (((pieces text).mapM LogDirective.ofText).toOption).map (⟨·⟩)

/-- Reads a filter and passes over what is no directive; only errors pass it if there are no
directives. -/
def ofTextLenient (text : String) : LogFilter :=
  let ds := (pieces text).filterMap fun piece => (LogDirective.ofText piece).toOption
  if ds.isEmpty then errors else ⟨ds⟩

/-- What is said about a piece that is passed over. -/
def notice? (piece : String) : Option String :=
  match LogDirective.ofText piece with
  | .ok _ => none
  | .error f => some ("ignoring \x60" ++ piece ++ "\x60: " ++ f.message ++ "\n")

/-- What is said about the pieces that are passed over. -/
def notices (text : String) : String := "".intercalate ((pieces text).filterMap notice?)

/-- Of two directives, the one that counts; the second one stands behind the first. -/
def prefer (best : Option LogDirective) (d : LogDirective) : Option LogDirective :=
  match best with
  | some b => if b.givesWayTo d then some d else some b
  | none => some d

/-- The directive that counts for an event. -/
def directiveFor (f : LogFilter) (e : LogEvent) : Option LogDirective :=
  (f.directives.filter (·.speaksOf e)).foldl prefer none

/-- Whether an event passes. -/
def passes (f : LogFilter) (e : LogEvent) : Bool :=
  (f.directiveFor e).any (e.entry.level.verbosity ≤ ·.verbosity)

end LogFilter

end ExtensionGraph
