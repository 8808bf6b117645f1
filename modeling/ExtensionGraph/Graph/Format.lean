import ExtensionGraph.Graph.Definition

/-!
# The graph format

Graphs are written in JSON. Each record of the format may be an object or an array of its
fields in order; a node carries its kind in the member `type` (or as the first item), and is
read as a whole before its fields are looked at.

## Main definitions

* `ExtensionGraph.GraphDefinition.decode` — reads a graph.
* `ExtensionGraph.GraphDefinition.toJson` — writes a graph; fields that say nothing are left
  out.
* `ExtensionGraph.GraphDefinition.ofText` — reads a graph from a text and checks its nodes.
-/

namespace ExtensionGraph

open Json (Decoder Failure Record Tree once required)

/-- The members of a list of optional members that are there. -/
def presentMembers (members : List (String × Option Json.Value)) : Json.Value :=
  .object (Json.Object.ofList (members.filterMap fun (k, v) => v.map (k, ·)))

/-- A string that may be missing. -/
def stringOption (s : Option String) : Option Json.Value := s.map Json.Value.string

namespace FlowDest

/-- The fields of a destination while it is read. -/
structure Fields where
  app : Option (Option String) := none
  extension : Option String := none

/-- Takes one field. -/
def Fields.take (name : String) (t : Tree) (f : Fields) : Except Failure Fields :=
  match name with
  | "app" => do .ok { f with app := ← once f.app (Tree.optional Tree.text) t }
  | _ => do .ok { f with extension := ← once f.extension Tree.text t }

/-- The extension must be named. -/
def format : Record Fields FlowDest where
  names := ["app", "extension"]
  empty := {}
  take := Fields.take
  finish f := do
    let extension ← required f.extension
    .ok ⟨f.app.getD none, extension⟩

/-- Reads a destination. -/
def decode : Decoder FlowDest := format.decode

/-- Writes a destination. -/
def toJson (d : FlowDest) : Json.Value :=
  presentMembers [("app", stringOption d.app), ("extension", some (.string d.extension))]

end FlowDest

namespace Flow

/-- The fields of a flow while it is read. -/
structure Fields where
  name : Option String := none
  dest : Option (List FlowDest) := none

/-- Takes one field. -/
def Fields.take (name : String) (t : Tree) (f : Fields) : Except Failure Fields :=
  match name with
  | "name" => do .ok { f with name := ← once f.name Tree.text t }
  | _ => do .ok { f with dest := ← once f.dest (Tree.list FlowDest.decode) t }

/-- The flow must be named. -/
def format : Record Fields Flow where
  names := ["name", "dest"]
  empty := {}
  take := Fields.take
  finish f := do
    let name ← required f.name
    .ok ⟨name, f.dest.getD []⟩

/-- Reads a flow. -/
def decode : Decoder Flow := format.decode

/-- Writes a flow. -/
def toJson (f : Flow) : Json.Value :=
  presentMembers [("name", some (.string f.name)),
    ("dest", some (.array (f.dest.map FlowDest.toJson)))]

end Flow

namespace Connection

/-- The fields of a connection while it is read. -/
structure Fields where
  app : Option (Option String) := none
  extension : Option String := none
  cmd : Option (List Flow) := none
  data : Option (List Flow) := none

/-- Takes one field. -/
def Fields.take (name : String) (t : Tree) (f : Fields) : Except Failure Fields :=
  match name with
  | "app" => do .ok { f with app := ← once f.app (Tree.optional Tree.text) t }
  | "extension" => do .ok { f with extension := ← once f.extension Tree.text t }
  | "cmd" => do .ok { f with cmd := ← once f.cmd (Tree.list Flow.decode) t }
  | _ => do .ok { f with data := ← once f.data (Tree.list Flow.decode) t }

/-- The source must be named. -/
def format : Record Fields Connection where
  names := ["app", "extension", "cmd", "data"]
  empty := {}
  take := Fields.take
  finish f := do
    let extension ← required f.extension
    .ok ⟨f.app.getD none, extension, f.cmd.getD [], f.data.getD []⟩

/-- Reads a connection. -/
def decode : Decoder Connection := format.decode

/-- Writes a connection. -/
def toJson (c : Connection) : Json.Value :=
  presentMembers [("app", stringOption c.app), ("extension", some (.string c.extension)),
    ("cmd", some (.array (c.cmd.map Flow.toJson))),
    ("data", some (.array (c.data.map Flow.toJson)))]

end Connection

namespace ExtensionNode

/-- The fields of an extension while it is read. -/
structure Fields where
  name : Option String := none
  addon : Option String := none
  group : Option (Option String) := none
  app : Option (Option String) := none
  property : Option (Option Json.Value) := none

/-- Takes one field. -/
def Fields.take (name : String) (t : Tree) (f : Fields) : Except Failure Fields :=
  match name with
  | "name" => do .ok { f with name := ← once f.name Tree.text t }
  | "addon" => do .ok { f with addon := ← once f.addon Tree.text t }
  | "extension_group" => do
    .ok { f with group := ← once f.group (Tree.optional Tree.text) t }
  | "app" => do .ok { f with app := ← once f.app (Tree.optional Tree.text) t }
  | _ => do .ok { f with property := ← once f.property (Tree.optional Tree.value) t }

/-- Name and addon must be there. -/
def format : Record Fields ExtensionNode where
  names := ["name", "addon", "extension_group", "app", "property"]
  empty := {}
  take := Fields.take
  finish f := do
    let name ← required f.name
    let addon ← required f.addon
    .ok ⟨name, addon, f.group.getD none, f.app.getD none, f.property.getD none⟩

end ExtensionNode

namespace GroupNode

/-- The fields of a group while it is read. -/
structure Fields where
  name : Option String := none
  addon : Option String := none
  app : Option (Option String) := none

/-- Takes one field. -/
def Fields.take (name : String) (t : Tree) (f : Fields) : Except Failure Fields :=
  match name with
  | "name" => do .ok { f with name := ← once f.name Tree.text t }
  | "addon" => do .ok { f with addon := ← once f.addon Tree.text t }
  | _ => do .ok { f with app := ← once f.app (Tree.optional Tree.text) t }

/-- Name and addon must be there. -/
def format : Record Fields GroupNode where
  names := ["name", "addon", "app"]
  empty := {}
  take := Fields.take
  finish f := do
    let name ← required f.name
    let addon ← required f.addon
    .ok ⟨name, addon, f.app.getD none⟩

end GroupNode

namespace Node

/-- Reads the kind of a node. -/
def decodeKind (t : Tree) : Except Failure NodeKind := do
  match ← t.text with
  | "extension" => .ok .extension
  | "extension_group" => .ok .extensionGroup
  | _ => .error .mismatch

/-- Reads a node. -/
def decode : Decoder Node := fun t => do
  let (kind, rest) ← t.splitTag "type" decodeKind
  match kind with
  | .extension => do
    let n ← ExtensionNode.format.decodeWith .mismatch rest
    .ok (.extension n)
  | .extensionGroup => do
    let n ← GroupNode.format.decodeWith .mismatch rest
    .ok (.group n)

/-- Writes a node. -/
def toJson (n : Node) : Json.Value :=
  match n with
  | .extension e =>
    presentMembers [("type", some (.string n.kind.name)), ("name", some (.string e.name)),
      ("addon", some (.string e.addon)), ("extension_group", stringOption e.group),
      ("app", stringOption e.app), ("property", e.property)]
  | .group g =>
    presentMembers [("type", some (.string n.kind.name)), ("name", some (.string g.name)),
      ("addon", some (.string g.addon)), ("app", stringOption g.app)]

end Node

namespace GraphDefinition

/-- The fields of a graph while it is read. -/
structure Fields where
  nodes : Option (List Node) := none
  connections : Option (List Connection) := none

/-- Takes one field. -/
def Fields.take (name : String) (t : Tree) (f : Fields) : Except Failure Fields :=
  match name with
  | "nodes" => do .ok { f with nodes := ← once f.nodes (Tree.list Node.decode) t }
  | _ => do
    .ok { f with connections := ← once f.connections (Tree.list Connection.decode) t }

/-- Both lists may be missing. -/
def format : Record Fields GraphDefinition where
  names := ["nodes", "connections"]
  empty := {}
  take := Fields.take
  finish f := .ok ⟨f.nodes.getD [], f.connections.getD []⟩

/-- Reads a graph. -/
def decode : Decoder GraphDefinition := format.decode

/-- Writes a graph. -/
def toJson (g : GraphDefinition) : Json.Value :=
  presentMembers [("nodes", some (.array (g.nodes.map Node.toJson))),
    ("connections", some (.array (g.connections.map Connection.toJson)))]

/-- Reads a graph from a text without looking at what its nodes say. -/
def ofTextUnchecked (text : String) : Except Error GraphDefinition := readJson decode text

/-- Reads a graph from a text; every node must have a name and an addon. -/
def ofText (text : String) : Except Error GraphDefinition := do
  let g ← ofTextUnchecked text
  g.validate
  .ok g

end GraphDefinition

end ExtensionGraph
