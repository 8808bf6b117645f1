import ExtensionGraph.Topology.Basic

/-!
# Starting a graph

The command that starts a graph carries everything that the graph declares: its groups, among
them those that are only implied by an extension, its extensions and its routes. An extension
that names no group gets one with its own name, and a group that is only referred to is served
by the default group addon.

## Main definitions

* `ExtensionGraph.StartGraph` — the command.
* `ExtensionGraph.StartGraph.ofDefinition` — the command of a graph, if the graph is well
  formed on its host.
* `ExtensionGraph.StartGraph.members` — the extensions of a group.
-/

namespace ExtensionGraph

/-- The command that starts a graph. -/
structure StartGraph where
  /-- The hosting app and the graph. -/
  dest : Loc
  graphName : Option String
  topology : Topology
deriving Inhabited

/-- The row of a declared group. -/
def GroupNode.info (host graph : String) (n : GroupNode) : GroupInfo :=
  ⟨.ofGraph (n.app.getD host) graph, n.name, n.addon⟩

/-- The row of a declared extension. -/
def ExtensionNode.info (host graph : String) (n : ExtensionNode) : ExtensionInfo :=
  ⟨.ofExtension (n.app.getD host) graph n.name, n.groupName, n.addon, n.property.getD .null⟩

/-- The row of the group that an extension needs if nobody declares it. -/
def ExtensionNode.impliedGroup (host graph : String) (n : ExtensionNode) : GroupInfo :=
  ⟨.ofGraph (n.app.getD host) graph, n.groupName, defaultGroupAddon⟩

/-- Whether two rows stand for the same group of the same app. -/
def GroupInfo.sameGroup (a b : GroupInfo) : Bool := a.loc.app = b.loc.app && a.name = b.name

/-- Adds a group unless it is there already. -/
def addGroup (groups : List GroupInfo) (g : GroupInfo) : List GroupInfo :=
  if groups.any (·.sameGroup g) then groups else groups ++ [g]

namespace GraphDefinition

variable (g : GraphDefinition) (host graph : String)

/-- The groups of a graph: the declared ones, then those implied by the extensions, in the
order of the nodes. -/
def groupInfos : List GroupInfo :=
  (g.extensions.map (ExtensionNode.impliedGroup host graph)).foldl addGroup
    (g.groups.map (GroupNode.info host graph))

/-- The extensions of a graph in the order of the nodes. -/
def extensionInfos : List ExtensionInfo := g.extensions.map (ExtensionNode.info host graph)

/-- The tables of a graph. -/
def topology : Topology :=
  ⟨g.groupInfos host graph, g.extensionInfos host graph,
    RoutingTable.ofConnections g.connections host graph⟩

end GraphDefinition

namespace StartGraph

/-- The command that starts a graph on a hosting app under the given id. -/
def ofDefinition (g : GraphDefinition) (host graph : String) : Except Error StartGraph := do
  g.validateFor host
  .ok ⟨.ofGraph host graph, none, g.topology host graph⟩

/-- Gives the graph a name; an empty one is none. -/
def withName (s : StartGraph) (name : String) : StartGraph :=
  { s with graphName := if name = "" then none else some name }

variable (s : StartGraph)

/-- The id of the graph. -/
def graph : String := s.dest.graph

/-- The groups hosted by an app, in table order. -/
def groupsOf (app : String) : List GroupInfo :=
  s.topology.groups.filter fun g => g.loc.app = app

/-- The number of groups hosted by an app. -/
def groupCount (app : String) : Nat := (s.groupsOf app).length

/-- The extensions of a group as the group has to create them, in table order. -/
def members (app graph group : String) : List Member :=
  (s.topology.extensions.filter fun e =>
    e.loc.app = app && e.loc.graph = graph && e.group = group).map ExtensionInfo.member

end StartGraph

end ExtensionGraph
