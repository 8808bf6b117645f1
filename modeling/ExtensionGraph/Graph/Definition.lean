import ExtensionGraph.Error

/-!
# Graph definitions

A graph is declared by its nodes, which are extensions and extension groups, and by its
connections, which say for each extension where messages of a kind and a name go. A node or an
end of a connection that names no app belongs to the app that hosts the graph.

## Main definitions

* `ExtensionGraph.GraphDefinition` — graphs as they are declared.
* `ExtensionGraph.GraphDefinition.unnamed?` — the first node without a name or an addon.
* `ExtensionGraph.GraphDefinition.fault?` — the first fault of a graph on a hosting app.
* `ExtensionGraph.GraphDefinition.validate`, `ExtensionGraph.GraphDefinition.validateFor` —
  the same as checks that fail.
-/

namespace ExtensionGraph

/-- A declared extension. -/
structure ExtensionNode where
  name : String
  addon : String
  /-- The group that hosts the extension; by default one with the extension's own name. -/
  group : Option String
  app : Option String
  property : Option Json.Value
deriving Inhabited

/-- A declared extension group. -/
structure GroupNode where
  name : String
  addon : String
  app : Option String
deriving DecidableEq, Inhabited

/-- A node of a graph. -/
inductive Node where
  | extension (node : ExtensionNode)
  | group (node : GroupNode)
deriving Inhabited

/-- One end of a connection. -/
structure FlowDest where
  app : Option String
  extension : String
deriving DecidableEq, Inhabited

/-- Where messages of one name go. -/
structure Flow where
  name : String
  dest : List FlowDest
deriving DecidableEq, Inhabited

/-- What leaves one extension. -/
structure Connection where
  app : Option String
  extension : String
  cmd : List Flow
  data : List Flow
deriving DecidableEq, Inhabited

/-- A graph as it is declared. -/
structure GraphDefinition where
  nodes : List Node
  connections : List Connection
deriving Inhabited

namespace Node

/-- Whether a node is an extension or a group. -/
def kind : Node → NodeKind
  | .extension _ => .extension
  | .group _ => .extensionGroup

/-- The name of a node. -/
def name : Node → String
  | .extension n => n.name
  | .group n => n.name

/-- The addon of a node. -/
def addon : Node → String
  | .extension n => n.addon
  | .group n => n.addon

/-- The app that a node names. -/
def app : Node → Option String
  | .extension n => n.app
  | .group n => n.app

/-- The app that a node belongs to. -/
def appOn (host : String) (n : Node) : String := n.app.getD host

/-- A node without a name or without an addon. -/
def unnamed? (n : Node) : Option GraphFault :=
  if n.name = "" ∨ n.addon = "" then some (.unnamed n.kind) else none

/-- What a node must not share with another one: its kind, its app and its name. -/
def key (host : String) (n : Node) : NodeKind × String × String :=
  (n.kind, n.appOn host, n.name)

/-- The complaint about a node whose key is taken. -/
def duplicate : Node → GraphFault
  | .extension n => .duplicateExtension n.name
  | .group n => .duplicateGroup n.name

/-- The declared extension, if the node is one. -/
def extension? : Node → Option ExtensionNode
  | .extension n => some n
  | .group _ => none

/-- The declared group, if the node is one. -/
def group? : Node → Option GroupNode
  | .extension _ => none
  | .group n => some n

end Node

/-- The group that hosts an extension. -/
def ExtensionNode.groupName (n : ExtensionNode) : String := n.group.getD n.name

/-- The app and the name by which an end of a connection is looked up. -/
def FlowDest.key (host : String) (d : FlowDest) : String × String :=
  (d.app.getD host, d.extension)

/-- The app and the name by which the source of a connection is looked up. -/
def Connection.key (host : String) (c : Connection) : String × String :=
  (c.app.getD host, c.extension)

/-- The flows of a connection, commands before data. -/
def Connection.flows (c : Connection) : List Flow := c.cmd ++ c.data

/-- The first node in a list whose key is among those seen before it. -/
def duplicateNode? (host : String) :
    List (NodeKind × String × String) → List Node → Option GraphFault
  | _, [] => none
  | seen, n :: ns =>
    if n.key host ∈ seen then some n.duplicate
    else duplicateNode? host (n.key host :: seen) ns

/-- The first destination of a flow that is no declared extension. -/
def Flow.fault? (host : String) (declared : List (String × String)) (f : Flow) :
    Option GraphFault :=
  f.dest.findSome? fun d =>
    if d.key host ∈ declared then none else some (.unknownDestination d.extension f.name)

/-- The first end of a connection that is no declared extension: its source, or else one of
its destinations. -/
def Connection.fault? (host : String) (declared : List (String × String)) (c : Connection) :
    Option GraphFault :=
  if c.key host ∈ declared then c.flows.findSome? (Flow.fault? host declared)
  else some (.unknownSource c.extension)

namespace GraphDefinition

variable (g : GraphDefinition)

/-- Whether the graph has no node. -/
def isEmpty : Bool := g.nodes.isEmpty

/-- The declared extensions. -/
def extensions : List ExtensionNode := g.nodes.filterMap Node.extension?

/-- The declared groups. -/
def groups : List GroupNode := g.nodes.filterMap Node.group?

/-- The apps and names of the declared extensions. -/
def extensionKeys (host : String) : List (String × String) :=
  g.extensions.map fun n => (n.app.getD host, n.name)

/-- The first node without a name or an addon. -/
def unnamed? : Option GraphFault := g.nodes.findSome? Node.unnamed?

/-- The first fault of a graph hosted by an app: nodes that lack a field come before nodes that
are declared twice, and these before connections that lead nowhere. -/
def fault? (host : String) : Option GraphFault :=
  (g.unnamed?.or (duplicateNode? host [] g.nodes)).or
    (g.connections.findSome? (Connection.fault? host (g.extensionKeys host)))

/-- Checks what does not depend on the hosting app. -/
def validate : Except Error Unit :=
  match g.unnamed? with
  | none => .ok ()
  | some f => .error (.invalidGraph f)

/-- Checks a graph that is hosted by the given app. -/
def validateFor (host : String) : Except Error Unit :=
  match g.fault? host with
  | none => .ok ()
  | some f => .error (.invalidGraph f)

end GraphDefinition

end ExtensionGraph
