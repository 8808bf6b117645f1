import ExtensionGraph.Json.Decode
import ExtensionGraph.Loc
import ExtensionGraph.Timestamp

/-!
# Messages

Extensions exchange commands and data messages. The destinations of a message are set by its
sender, or found in the connections of the graph when it leaves the extension.

## Main definitions

* `ExtensionGraph.MsgKind`, `ExtensionGraph.Msg` — messages.
* `ExtensionGraph.Msg.resolve` — fills in the empty fields of every destination.
* `ExtensionGraph.Msg.decode`, `ExtensionGraph.Msg.toJson` — the JSON form.
-/

namespace ExtensionGraph

/-- The two kinds of messages. -/
inductive MsgKind where
  | cmd
  | data
deriving DecidableEq, Inhabited

/-- The name of a kind. -/
def MsgKind.name : MsgKind → String
  | .cmd => "cmd"
  | .data => "data"

/-- The kind with the given name. -/
def MsgKind.ofName? : String → Option MsgKind
  | "cmd" => some .cmd
  | "data" => some .data
  | _ => none

/-- A message. -/
structure Msg where
  kind : MsgKind
  name : String
  src : Loc
  dest : List Loc
  properties : Json.Object
  createdAt : Timestamp
deriving Inhabited

namespace Msg

/-- A message without source, destinations and properties. -/
def create (kind : MsgKind) (name : String) (createdAt : Timestamp) : Msg :=
  ⟨kind, name, .empty, [], [], createdAt⟩

/-- Adds a destination. -/
def withDest (m : Msg) (dest : Loc) : Msg := { m with dest := m.dest ++ [dest] }

/-- Sets a property. -/
def withProperty (m : Msg) (key : String) (value : Json.Value) : Msg :=
  { m with properties := m.properties.insert key value }

/-- The value of a property. -/
def property? (m : Msg) (key : String) : Option Json.Value := m.properties.find? key

/-- Fills in the empty fields of every destination. -/
def resolve (app graph : String) (m : Msg) : Msg :=
  { m with dest := m.dest.map (Loc.resolve app graph) }

/-- Reads the name of a message kind. -/
def decodeKindName (t : Json.Tree) : Except Json.Failure MsgKind := do
  match MsgKind.ofName? (← t.text) with
  | some k => .ok k
  | none => .error .mismatch

/-- Reads a message kind: its name, or an object with the name as its only key and `null` as
the value. -/
def decodeKind : Json.Decoder MsgKind
  | .object ((.error f, _) :: _) _ => .error (.text f)
  | .object ((.ok s, t) :: ms) stop => do
    let kind ← decodeKindName (.string s)
    t.unit
    if ms.isEmpty then Json.atEnd stop else .error (.text .malformed)
    .ok kind
  | .object [] (some f) => .error (.text f)
  | .keyless key => decodeKindName key
  | .broken f _ _ => .error (.text f)
  | .string s => decodeKindName (.string s)
  | _ => .error (.text .malformed)

/-- Reads a point in time. -/
def decodeTime (t : Json.Tree) : Except Json.Failure Timestamp := do
  match Timestamp.ofChars? (← t.text).toList with
  | some time => .ok time
  | none => .error .mismatch

/-- The fields of a message while it is read. -/
structure Fields where
  kind : Option MsgKind := none
  name : Option String := none
  src : Option Loc := none
  dest : Option (List Loc) := none
  properties : Option Json.Object := none
  createdAt : Option Timestamp := none

/-- Takes one field. -/
def Fields.take (name : String) (t : Json.Tree) (f : Fields) : Except Json.Failure Fields :=
  match name with
  | "kind" => do .ok { f with kind := ← Json.once f.kind decodeKind t }
  | "name" => do .ok { f with name := ← Json.once f.name Json.Tree.text t }
  | "src" => do .ok { f with src := ← Json.once f.src Loc.decode t }
  | "dest" => do .ok { f with dest := ← Json.once f.dest (Json.Tree.list Loc.decode) t }
  | "properties" => do
    .ok { f with properties := ← Json.once f.properties Json.Tree.map t }
  | _ => do .ok { f with createdAt := ← Json.once f.createdAt decodeTime t }

/-- Kind, name and time must be there. -/
def Fields.finish (f : Fields) : Except Json.Failure Msg := do
  let kind ← Json.required f.kind
  let name ← Json.required f.name
  let createdAt ← Json.required f.createdAt
  .ok ⟨kind, name, f.src.getD .empty, f.dest.getD [], f.properties.getD [], createdAt⟩

/-- The JSON format of a message. -/
def format : Json.Record Fields Msg where
  names := ["kind", "name", "src", "dest", "properties", "created_at"]
  empty := {}
  take := Fields.take
  finish := Fields.finish

/-- Reads a message. -/
def decode : Json.Decoder Msg := format.decode

/-- The JSON form of a message. -/
def toJson (m : Msg) : Json.Value :=
  .object (Json.Object.ofList
    [("kind", .string m.kind.name), ("name", .string m.name), ("src", m.src.toJson),
      ("dest", .array (m.dest.map Loc.toJson)), ("properties", .object m.properties),
      ("created_at", .string m.createdAt.text)])

end Msg

end ExtensionGraph
