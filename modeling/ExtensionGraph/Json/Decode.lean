import ExtensionGraph.Json.Tree

/-!
# Taking values out of JSON texts

A decoder walks a tree in the order of the text and stops at the first thing that is wrong: a
fault of the text, or a part of the wrong kind. Records may be written as objects, where
unknown members are skipped and a known one must not come twice, or as arrays of their fields
in the declared order, where fields may be missing at the end.

## Main definitions

* `ExtensionGraph.Json.Failure` — why a text was refused.
* `ExtensionGraph.Json.Decoder` — the type of decoders, with `Tree.value` and the decoders for
  strings, lists and optional parts.
* `ExtensionGraph.Json.Record` — the format of a record, read by `Record.decode`.
* `ExtensionGraph.Json.Tree.splitTag` — a part whose kind is named by one of its members.
-/

namespace ExtensionGraph.Json

/-- Why a text was refused: it is no JSON, or a part of it is not what was asked for. -/
inductive Failure where
  | text (fault : Fault)
  | mismatch
deriving DecidableEq, Inhabited

/-- The usual names of the three kinds of refusal. -/
def Failure.category : Failure → String
  | .text .malformed => "syntax"
  | .text .truncated => "eof"
  | .mismatch => "data"

/-- Reads a tree as a value of some type. -/
abbrev Decoder (α : Type) := Tree → Except Failure α

/-- Succeeds unless a list of items or members broke off. -/
def atEnd : Option Fault → Except Failure Unit
  | none => .ok ()
  | some f => .error (.text f)

namespace Tree

/-- Passes over a part that nobody asks for. -/
def skip (t : Tree) : Except Failure Unit := atEnd t.skipped

mutual

/-- Any value. -/
def value : Tree → Except Failure Value
  | .null => .ok .null
  | .bool b => .ok (.bool b)
  | .number n => .ok (.number n)
  | .string s => .ok (.string s)
  | .array items stop => do
    let vs ← values items
    atEnd stop
    .ok (.array vs)
  | .object members stop => do
    let ms ← memberValues members
    atEnd stop
    .ok (.object (Object.ofList ms))
  | .keyless _ => .error (.text .malformed)
  | .broken _ f _ => .error (.text f)

/-- The items of an array as values. -/
def values : List Tree → Except Failure (List Value)
  | [] => .ok []
  | t :: ts => do
    let v ← value t
    let vs ← values ts
    .ok (v :: vs)

/-- The members of an object as values, in the order of the text. -/
def memberValues : List (Except Fault String × Tree) →
    Except Failure (List (String × Value))
  | [] => .ok []
  | (.error f, _) :: _ => .error (.text f)
  | (.ok k, t) :: ms => do
    let v ← value t
    let rest ← memberValues ms
    .ok ((k, v) :: rest)

end

/-- A string. -/
def text : Decoder String
  | .string s => .ok s
  | .broken _ f _ => .error (.text f)
  | _ => .error .mismatch

/-- The value `null`. -/
def unit : Decoder Unit
  | .null => .ok ()
  | .broken _ f _ => .error (.text f)
  | _ => .error .mismatch

/-- A part that may be left out by writing `null`. -/
def optional {α : Type} (read : Decoder α) : Decoder (Option α)
  | .null => .ok none
  | t => (read t).map some

/-- An array of parts of one type. -/
def list {α : Type} (read : Decoder α) : Decoder (List α)
  | .array items stop => do
    let xs ← items.mapM read
    atEnd stop
    .ok xs
  | .broken _ f _ => .error (.text f)
  | _ => .error .mismatch

/-- An object with values of any kind. -/
def map : Decoder Object
  | .object members stop => do
    let ms ← memberValues members
    atEnd stop
    .ok (Object.ofList ms)
  | .keyless _ => .error (.text .malformed)
  | .broken _ f _ => .error (.text f)
  | _ => .error .mismatch

end Tree

/-- Takes a field that must not be there yet. -/
def once {α : Type} (old : Option α) (read : Decoder α) (t : Tree) :
    Except Failure (Option α) :=
  match old with
  | some _ => .error .mismatch
  | none => (read t).map some

/-- A field that must be there. -/
def required {α : Type} : Option α → Except Failure α
  | some a => .ok a
  | none => .error .mismatch

/-- The format of a record: its field names in the declared order, the fields before anything
is read, how one field is taken, and how the record is made of what was taken. -/
structure Record (σ α : Type) where
  names : List String
  empty : σ
  take : String → Tree → σ → Except Failure σ
  finish : σ → Except Failure α

namespace Record

variable {σ α : Type} (r : Record σ α)

/-- Takes the members of an object, skipping those with unknown names. -/
def takeMembers : List (Except Fault String × Tree) → σ → Except Failure σ
  | [], fields => .ok fields
  | (.error f, _) :: _, _ => .error (.text f)
  | (.ok k, t) :: ms, fields =>
    if k ∈ r.names then do
      let fields ← r.take k t fields
      takeMembers ms fields
    else do
      t.skip
      takeMembers ms fields

/-- Takes the items of an array as the fields in the declared order. -/
def takeItems (surplus : Failure) : List String → List Tree → σ → Except Failure σ
  | _, [], fields => .ok fields
  | [], _ :: _, _ => .error surplus
  | n :: names, t :: ts, fields => do
    let fields ← r.take n t fields
    takeItems surplus names ts fields

/-- Reads a record in either spelling; `surplus` is the complaint about items behind the last
field. -/
def decodeWith (surplus : Failure) : Decoder α
  | .object members stop => do
    let fields ← r.takeMembers members r.empty
    atEnd stop
    r.finish fields
  | .array items stop => do
    let fields ← r.takeItems surplus r.names items r.empty
    atEnd stop
    r.finish fields
  | .keyless _ => .error (.text .malformed)
  | .broken _ f _ => .error (.text f)
  | _ => .error .mismatch

/-- Reads a record from a text, where an array that does not end with the last field breaks
the expected form. -/
def decode : Decoder α := r.decodeWith (.text .malformed)

end Record

namespace Tree

/-- Reads past the members of a tagged object: the tag is decoded where it stands, everything
else is only checked and kept. -/
def splitMembers {α : Type} (tagName : String) (readTag : Decoder α) :
    List (Except Fault String × Tree) → Option α →
    Except Failure (Option α × List (Except Fault String × Tree))
  | [], tag => .ok (tag, [])
  | (.error f, _) :: _, _ => .error (.text f)
  | (.ok k, t) :: ms, tag =>
    if k = tagName then do
      let tag ← once tag readTag t
      splitMembers tagName readTag ms tag
    else do
      let _ ← t.value
      let (tag, rest) ← splitMembers tagName readTag ms tag
      .ok (tag, (.ok k, t) :: rest)

/-- Splits a tagged part into its tag and what is left: the object without the tag, or the
array without its first item. All of it is read before the rest is looked at. -/
def splitTag {α : Type} (tagName : String) (readTag : Decoder α) : Decoder (α × Tree)
  | .object members stop => do
    let (tag, rest) ← splitMembers tagName readTag members none
    atEnd stop
    let tag ← required tag
    .ok (tag, .object rest none)
  | .array [] stop => do
    atEnd stop
    .error .mismatch
  | .array (t :: ts) stop => do
    let tag ← readTag t
    let _ ← values ts
    atEnd stop
    .ok (tag, .array ts none)
  | .keyless _ => .error (.text .malformed)
  | .broken _ f _ => .error (.text f)
  | _ => .error .mismatch

end Tree

/-- Reads a whole text, behind which only blanks may follow. -/
def Document.decode {α : Type} (read : Decoder α) (d : Document) : Except Failure α := do
  let a ← read d.root
  if d.clean then .ok a else .error (.text .malformed)

/-- Reads a text with a decoder. -/
def decodeText {α : Type} (read : Decoder α) (s : String) : Except Failure α :=
  (Document.ofString s).decode read

end ExtensionGraph.Json
